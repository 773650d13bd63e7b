import Mathlib.Data.Bool.AllAny
import Mathlib.Data.List.Induction
import Dormouse.Lib.Trimming
import Dormouse.Terminal.ResumePatterns

/-!
# Dormouse.Terminal.ResumePatternsSound

**What the resume detection finds**: an invocation that stands in the visible text of the last
lines, and the rightmost one unless the scan has read past where it starts.
-/

namespace Dormouse.Terminal

open JsString ResumePattern

/-! ### Known invocations -/

/-- An identifier: it starts with a letter or digit, so that it is no option. -/
def IsResumeId (id : JsString) : Prop :=
  ∃ c rest, id = c :: rest ∧ isAlphanumeric c = true ∧ ∀ d ∈ rest, isResumeIdChar d = true

/-- The canonical form of an invocation. -/
inductive KnownInvocation : ResumePattern → JsString → Prop
  | codexResume {id : JsString} (h : IsResumeId id) :
      KnownInvocation codexResume (js "codex resume " ++ id)
  | claudeResume {id : JsString} (h : IsResumeId id) :
      KnownInvocation claudeResume (js "claude --resume " ++ id)
  | claudeContinue : KnownInvocation claudeContinue (js "claude --continue")

/-- An invocation stands at a position of a text, as words of its own. -/
def StandsAt (text : JsString) (index : Nat) (pattern : ResumePattern) (command : JsString) : Prop :=
  KnownInvocation pattern command ∧ ∃ before after, text = before ++ (command ++ after) ∧
    before.length = index ∧ before.getLast?.any isWordChar = false ∧
    after.head?.any isResumeIdChar = false

theorem isResumeIdChar_of_alphanumeric {c : UInt16} (h : isAlphanumeric c = true) :
    isResumeIdChar c = true := by
  rw [isResumeIdChar, h, Bool.true_or, Bool.true_or]

theorem IsResumeId.chars {id : JsString} (h : IsResumeId id) :
    ∀ c ∈ id, isResumeIdChar c = true := by
  obtain ⟨c, rest, rfl, hc, hrest⟩ := h
  intro d hd
  rcases List.mem_cons.1 hd with rfl | hd
  · exact isResumeIdChar_of_alphanumeric hc
  · exact hrest d hd

/-- An identifier is as long as it can be where no more of its characters follow. -/
theorem IsResumeId.takeWhile_append {id after : JsString} (h : IsResumeId id)
    (hafter : after.head?.any isResumeIdChar = false) :
    (id ++ after).takeWhile isResumeIdChar = id := by
  rw [List.takeWhile_append_of_pos h.chars]
  cases after with
  | nil => exact List.append_nil id
  | cons c after =>
    have hc : isResumeIdChar c = false := by simpa using hafter
    rw [List.takeWhile_cons_of_neg (by simp [hc]), List.append_nil]

theorem mem_builtin {pattern : ResumePattern} (h : pattern ∈ BUILTIN_PATTERNS) :
    pattern = codexResume ∨ pattern = claudeResume ∨ pattern = claudeContinue := by
  simpa [BUILTIN_PATTERNS] using h

theorem KnownInvocation.builtin {pattern : ResumePattern} {command : JsString}
    (h : KnownInvocation pattern command) : pattern ∈ BUILTIN_PATTERNS := by
  cases h <;> simp [BUILTIN_PATTERNS]

/-- A known invocation is an opening, and an identifier if its pattern takes one. -/
theorem KnownInvocation.parts {pattern : ResumePattern} {command : JsString}
    (h : KnownInvocation pattern command) :
    ∃ id, command = pattern.opening ++ id ∧
      if pattern.takesId then IsResumeId id else id = [] := by
  cases h with
  | codexResume h => exact ⟨_, rfl, h⟩
  | claudeResume h => exact ⟨_, rfl, h⟩
  | claudeContinue => exact ⟨[], rfl, rfl⟩

theorem knownInvocation_of_takesId {pattern : ResumePattern} (hpattern : pattern ∈ BUILTIN_PATTERNS)
    (htakes : pattern.takesId = true) {id : JsString} (hid : IsResumeId id) :
    KnownInvocation pattern (pattern.opening ++ id) := by
  rcases mem_builtin hpattern with rfl | rfl | rfl
  · exact .codexResume hid
  · exact .claudeResume hid
  · cases htakes

theorem knownInvocation_of_not_takesId {pattern : ResumePattern}
    (hpattern : pattern ∈ BUILTIN_PATTERNS) (htakes : pattern.takesId = false) :
    KnownInvocation pattern pattern.opening := by
  rcases mem_builtin hpattern with rfl | rfl | rfl
  · cases htakes
  · cases htakes
  · exact .claudeContinue

/-! ### The regular expressions -/

/-- What a match is: the opening, with as much of an identifier as there is. -/
theorem standsAt_of_occursAt {pattern : ResumePattern} (hpattern : pattern ∈ BUILTIN_PATTERNS)
    {text : JsString} {index length : Nat} {id : Option JsString}
    (h : OccursAt pattern.matchAt text index id length) :
    StandsAt text index pattern (pattern.command id) ∧ (pattern.command id).length = length := by
  obtain ⟨before, a, after, rfl, rfl, hmatch⟩ := h
  simp only [matchAt] at hmatch
  by_cases hword : before.getLast?.any isWordChar = true
  · simp [hword] at hmatch
  by_cases hopening : pattern.opening.isPrefixOf (a :: after) = true
  · obtain ⟨rest, hrest⟩ := List.isPrefixOf_iff_prefix.1 hopening
    rw [Bool.not_eq_true] at hword
    rw [if_neg (by simp [hword, hopening]), ← hrest, List.drop_left] at hmatch
    rw [← hrest]
    cases htakes : pattern.takesId with
    | true =>
      rw [htakes, if_pos rfl] at hmatch
      split at hmatch
      · rename_i hhead
        cases hmatch
        rcases rest with _ | ⟨c, rest⟩
        · cases hhead
        have hc : isAlphanumeric c = true := by simpa using hhead
        have hid : IsResumeId ((c :: rest).takeWhile isResumeIdChar) := by
          rw [List.takeWhile_cons_of_pos (isResumeIdChar_of_alphanumeric hc)]
          exact ⟨c, _, rfl, hc, fun d hd => List.mem_takeWhile_imp hd⟩
        have hcommand : pattern.command (some ((c :: rest).takeWhile isResumeIdChar)) =
            pattern.opening ++ (c :: rest).takeWhile isResumeIdChar := by
          rw [command, opening, htakes, if_pos rfl]
        rw [hcommand]
        refine ⟨⟨knownInvocation_of_takesId hpattern htakes hid, before,
          (c :: rest).dropWhile isResumeIdChar, ?_, rfl, hword, ?_⟩, List.length_append⟩
        · rw [List.append_assoc, List.takeWhile_append_dropWhile]
        · cases hdrop : (c :: rest).dropWhile isResumeIdChar with
          | nil => rfl
          | cons d more =>
            have hnot := List.head?_dropWhile_not isResumeIdChar (c :: rest)
            rw [hdrop] at hnot
            simpa using hnot
      · cases hmatch
    | false =>
      rw [htakes, if_neg Bool.false_ne_true] at hmatch
      split at hmatch
      · cases hmatch
      rename_i hhead
      cases hmatch
      have hcommand : pattern.command none = pattern.opening := by
        rw [command, opening, htakes, if_neg Bool.false_ne_true]
      rw [hcommand]
      exact ⟨⟨knownInvocation_of_not_takesId hpattern htakes, before, rest, rfl, rfl, hword,
        by simpa using hhead⟩, rfl⟩
  · simp [hopening] at hmatch

/-- An invocation that stands in a text is a match of its pattern, as a whole. -/
theorem occursAt_of_standsAt {pattern : ResumePattern} {text command : JsString} {index : Nat}
    (h : StandsAt text index pattern command) :
    ∃ id, OccursAt pattern.matchAt text index id command.length ∧ pattern.command id = command := by
  obtain ⟨hknown, before, after, rfl, rfl, hword, hafter⟩ := h
  have hbuiltin := hknown.builtin
  obtain ⟨id, rfl, hid⟩ := hknown.parts
  -- The text at the position starts with the opening, which is not empty.
  have hne : pattern.opening ≠ [] := by
    rcases mem_builtin hbuiltin with rfl | rfl | rfl <;> decide
  obtain ⟨a, label, hlabel⟩ := List.exists_cons_of_ne_nil hne
  have hopening : pattern.opening.isPrefixOf (pattern.opening ++ (id ++ after)) = true :=
    List.isPrefixOf_iff_prefix.2 (List.prefix_append _ _)
  have hcons : pattern.opening ++ id ++ after = a :: (label ++ (id ++ after)) := by
    rw [List.append_assoc, hlabel, List.cons_append]
  have hmatch : ∃ value, pattern.matchAt before.getLast? (pattern.opening ++ (id ++ after)) =
      some (value, (pattern.opening ++ id).length) ∧ pattern.command value = pattern.opening ++ id := by
    rw [matchAt, if_neg (by simp [hword, hopening]), List.drop_left]
    cases htakes : pattern.takesId with
    | true =>
      rw [htakes, if_pos rfl] at hid
      have hhead : (id ++ after).head?.any isAlphanumeric = true := by
        obtain ⟨c, rest, rfl, hc, -⟩ := hid
        simp [hc]
      refine ⟨some id, ?_, ?_⟩
      · simp only [if_true, hhead, hid.takeWhile_append hafter, List.length_append]
      · rw [command, opening, htakes, if_pos rfl]
    | false =>
      rw [htakes, if_neg Bool.false_ne_true] at hid
      subst hid
      refine ⟨none, ?_, ?_⟩
      · simp [hafter]
      · rw [command, opening, htakes, if_neg Bool.false_ne_true, List.append_nil]
  obtain ⟨value, hvalue, hcommand⟩ := hmatch
  refine ⟨value, ⟨before, a, label ++ (id ++ after), by rw [hcons], rfl, ?_⟩, hcommand⟩
  rw [← hvalue, ← hcons, List.append_assoc]

theorem opening_inj : ∀ p ∈ BUILTIN_PATTERNS, ∀ q ∈ BUILTIN_PATTERNS,
    p.opening <+: q.opening ∨ q.opening <+: p.opening → p = q := by decide +kernel

/-- At one place stands one invocation. -/
theorem StandsAt.unique {text command command' : JsString} {index : Nat}
    {pattern pattern' : ResumePattern} (h : StandsAt text index pattern command)
    (h' : StandsAt text index pattern' command') : command = command' := by
  obtain ⟨hknown, before, after, heq, hindex, -, hafter⟩ := h
  obtain ⟨hknown', before', after', heq', hindex', -, hafter'⟩ := h'
  have htext := heq.symm.trans heq'
  obtain ⟨-, hsame⟩ := List.append_inj htext (hindex.trans hindex'.symm)
  have hpatterns : pattern = pattern' := by
    obtain ⟨id, rfl, -⟩ := hknown.parts
    obtain ⟨id', rfl, -⟩ := hknown'.parts
    -- Of two openings, none starts with the other.
    have hor := List.prefix_or_prefix_of_prefix
      (⟨id ++ after, (List.append_assoc _ _ _).symm⟩ : pattern.opening <+: pattern.opening ++ id ++ after)
      (⟨id' ++ after', by rw [hsame, List.append_assoc]⟩ :
        pattern'.opening <+: pattern.opening ++ id ++ after)
    exact opening_inj pattern hknown.builtin pattern' hknown'.builtin hor
  subst hpatterns
  obtain ⟨id, rfl, hid⟩ := hknown.parts
  obtain ⟨id', rfl, hid'⟩ := hknown'.parts
  rw [List.append_assoc, List.append_assoc, List.append_cancel_left_eq] at hsame
  cases htakes : pattern.takesId with
  | true =>
    rw [htakes, if_pos rfl] at hid hid'
    have htake := congrArg (List.takeWhile isResumeIdChar) hsame
    rw [hid.takeWhile_append hafter, hid'.takeWhile_append hafter'] at htake
    rw [htake]
  | false =>
    rw [htakes, if_neg Bool.false_ne_true] at hid hid'
    rw [hid, hid']

/-! ### The rightmost match -/

/-- The matches of all patterns, in the order they are looked at. -/
def resumeMatches (visible : JsString) : List (Nat × JsString) :=
  BUILTIN_PATTERNS.flatMap fun pattern =>
    (matchAll pattern.matchAt visible).map fun found => (found.1, pattern.command found.2)

theorem resumeCommandInVisible_eq (visible : JsString) :
    resumeCommandInVisible visible = ((resumeMatches visible).foldl keepLatest none).map Prod.snd := by
  rw [resumeCommandInVisible, resumeMatches, List.foldl_flatMap]
  simp only [List.foldl_map]

/-- What is kept of a list of matches: one of them, and none is further right. -/
theorem foldl_keepLatest (found : List (Nat × JsString)) :
    (found.foldl keepLatest none = none ↔ found = []) ∧
      ∀ kept, found.foldl keepLatest none = some kept →
        kept ∈ found ∧ ∀ m ∈ found, m.1 ≤ kept.1 := by
  induction found using List.reverseRecOn with
  | nil => exact ⟨iff_of_true rfl rfl, nofun⟩
  | append_singleton found m ih =>
    rw [List.foldl_append, List.foldl_cons, List.foldl_nil]
    cases hkept : found.foldl keepLatest none with
    | none =>
      obtain rfl := ih.1.1 hkept
      refine ⟨by simp [keepLatest], fun kept heq => ?_⟩
      cases heq
      simp
    | some kept =>
      obtain ⟨hmem, hmax⟩ := ih.2 kept hkept
      rw [keepLatest]
      split
      · rename_i hlater
        refine ⟨by simp, fun kept' heq => ?_⟩
        cases heq
        refine ⟨List.mem_append_left _ hmem, fun m' hm' => ?_⟩
        rcases List.mem_append.1 hm' with hold | hnew
        · exact hmax m' hold
        · rw [List.mem_singleton.1 hnew]
          exact Nat.le_of_lt hlater
      · rename_i hlater
        refine ⟨by simp, fun kept' heq => ?_⟩
        cases heq
        refine ⟨by simp, fun m' hm' => ?_⟩
        rcases List.mem_append.1 hm' with hold | hnew
        · exact (hmax m' hold).trans (Nat.le_of_not_lt hlater)
        · rw [List.mem_singleton.1 hnew]

theorem standsAt_of_mem_resumeMatches {visible command : JsString} {index : Nat}
    (h : (index, command) ∈ resumeMatches visible) :
    ∃ pattern, StandsAt visible index pattern command := by
  obtain ⟨pattern, hpattern, hmem⟩ := List.mem_flatMap.1 h
  obtain ⟨found, hfound, heq⟩ := List.mem_map.1 hmem
  cases heq
  obtain ⟨length, hoccurs⟩ := occursAt_of_mem_matchAll (show (found.1, found.2) ∈ _ from hfound)
  exact ⟨pattern, (standsAt_of_occursAt hpattern hoccurs).1⟩

/-- The scan passes over an invocation only inside an earlier one of its pattern. -/
theorem mem_resumeMatches {visible command : JsString} {index : Nat} {pattern : ResumePattern}
    (h : StandsAt visible index pattern command) :
    (index, command) ∈ resumeMatches visible ∨ ∃ earlier command', earlier < index ∧
      index < earlier + command'.length ∧ StandsAt visible earlier pattern command' ∧
      (earlier, command') ∈ resumeMatches visible := by
  have hpattern := h.1.builtin
  obtain ⟨id, hoccurs, rfl⟩ := occursAt_of_standsAt h
  rcases matchAll_complete hoccurs with hmem | ⟨j, found, span, hj, hmem, hji, hij⟩
  · exact .inl (List.mem_flatMap.2 ⟨pattern, hpattern, List.mem_map.2 ⟨_, hmem, rfl⟩⟩)
  · obtain ⟨hstands, rfl⟩ := standsAt_of_occursAt hpattern hj
    exact .inr ⟨j, pattern.command found, hji, hij, hstands,
      List.mem_flatMap.2 ⟨pattern, hpattern, List.mem_map.2 ⟨_, hmem, rfl⟩⟩⟩

theorem resumeCommandInVisible_eq_none (visible : JsString) :
    resumeCommandInVisible visible = none ↔
      ∀ index pattern command, ¬StandsAt visible index pattern command := by
  rw [resumeCommandInVisible_eq, Option.map_eq_none_iff, (foldl_keepLatest _).1]
  constructor
  · intro hnil index pattern command hstands
    rcases mem_resumeMatches hstands with hmem | ⟨_, _, _, _, _, hmem⟩ <;>
      exact absurd (hnil ▸ hmem) List.not_mem_nil
  · intro hnone
    refine List.eq_nil_iff_forall_not_mem.2 fun found hmem => ?_
    obtain ⟨pattern, hstands⟩ := standsAt_of_mem_resumeMatches (show (found.1, found.2) ∈ _ from hmem)
    exact hnone found.1 pattern found.2 hstands

theorem standsAt_of_resumeCommandInVisible {visible command : JsString}
    (h : resumeCommandInVisible visible = some command) :
    ∃ index pattern, StandsAt visible index pattern command := by
  rw [resumeCommandInVisible_eq] at h
  obtain ⟨kept, hkept, rfl⟩ := Option.map_eq_some_iff.1 h
  obtain ⟨pattern, hstands⟩ :=
    standsAt_of_mem_resumeMatches (show (kept.1, kept.2) ∈ _ from ((foldl_keepLatest _).2 kept hkept).1)
  exact ⟨kept.1, pattern, hstands⟩

/-- **The rightmost invocation is found**, unless it starts inside an earlier one of its pattern. -/
theorem resumeCommandInVisible_of_rightmost {visible command : JsString} {index : Nat}
    {pattern : ResumePattern} (h : StandsAt visible index pattern command)
    (hright : ∀ j q d, StandsAt visible j q d → j ≤ index)
    (hclear : ∀ j d, StandsAt visible j pattern d → j < index → j + d.length ≤ index) :
    resumeCommandInVisible visible = some command := by
  have hmem : (index, command) ∈ resumeMatches visible := by
    rcases mem_resumeMatches h with hmem | ⟨j, d, hlt, hinside, hstands, -⟩
    · exact hmem
    · have := hclear j d hstands hlt
      omega
  cases hkept : (resumeMatches visible).foldl keepLatest none with
  | none =>
    rw [(foldl_keepLatest _).1.1 hkept] at hmem
    cases hmem
  | some kept =>
    obtain ⟨hfound, hmax⟩ := (foldl_keepLatest _).2 kept hkept
    obtain ⟨q, hstands⟩ := standsAt_of_mem_resumeMatches (show (kept.1, kept.2) ∈ _ from hfound)
    have hindex : kept.1 = index := Nat.le_antisymm (hright _ _ _ hstands) (hmax _ hmem)
    rw [hindex] at hstands
    rw [resumeCommandInVisible_eq, hkept, Option.map_some, hstands.unique h]

/-! ### A canonical command -/

/-- An ASCII character is one of 128. -/
theorem forall_ascii {motive : UInt16 → Prop} (h : ∀ n : Fin 128, motive (UInt16.ofNat n)) {c : UInt16}
    (hc : c.toNat < 128) : motive c := by
  have hn := h ⟨c.toNat, hc⟩
  rwa [show UInt16.ofNat c.toNat = c from UInt16.ofNat_toNat] at hn

theorem isResumeIdChar_ascii {c : UInt16} (h : isResumeIdChar c = true) : c.toNat < 128 := by
  have hle : c ≤ 0x7A := by
    simp only [isResumeIdChar, isAlphanumeric, isUpper, isLower, isDigit, Bool.or_eq_true,
      Bool.and_eq_true, decide_eq_true_eq, beq_iff_eq] at h
    rcases h with ((((h | h) | h)) | rfl) | rfl
    · exact UInt16.le_trans h.2 (by decide)
    · exact h.2
    · exact UInt16.le_trans h.2 (by decide)
    · decide
    · decide
  exact Nat.lt_of_le_of_lt (UInt16.le_iff_toNat_le.1 hle) (by decide)

theorem isResumeIdChar_plain {c : UInt16} (h : isResumeIdChar c = true) :
    isPrintable c = true ∧ isWhitespace c = false ∧ c ≠ unit ' ' :=
  forall_ascii (motive := fun c => isResumeIdChar c = true →
    isPrintable c = true ∧ isWhitespace c = false ∧ c ≠ unit ' ') (by decide)
    (isResumeIdChar_ascii h) h

/-- Behind the opening there are characters of an identifier only. -/
theorem KnownInvocation.idChars {pattern : ResumePattern} {command : JsString}
    (h : KnownInvocation pattern command) :
    ∃ id, command = pattern.opening ++ id ∧ ∀ c ∈ id, isResumeIdChar c = true := by
  obtain ⟨id, heq, hid⟩ := h.parts
  refine ⟨id, heq, fun c hc => ?_⟩
  cases htakes : pattern.takesId with
  | true =>
    rw [htakes, if_pos rfl] at hid
    exact hid.chars c hc
  | false =>
    rw [htakes, if_neg Bool.false_ne_true] at hid
    rw [hid] at hc
    cases hc

theorem opening_printable : ∀ pattern ∈ BUILTIN_PATTERNS, ∀ c ∈ pattern.opening,
    isPrintable c = true := by
  intro pattern hpattern
  rcases mem_builtin hpattern with rfl | rfl | rfl <;> exact List.all_iff_forall_prop.1 (by decide)

theorem KnownInvocation.printable {pattern : ResumePattern} {command : JsString}
    (h : KnownInvocation pattern command) : ∀ c ∈ command, isPrintable c = true := by
  obtain ⟨id, rfl, hid⟩ := h.idChars
  intro c hc
  rcases List.mem_append.1 hc with hopening | hc
  · exact opening_printable pattern h.builtin c hopening
  · exact (isResumeIdChar_plain (hid c hc)).1

theorem KnownInvocation.trimmed {pattern : ResumePattern} {command : JsString}
    (h : KnownInvocation pattern command) : command.Trimmed := by
  obtain ⟨id, rfl, hid⟩ := h.parts
  have hopening : ∃ rest, pattern.opening = unit 'c' :: rest := by
    rcases mem_builtin h.builtin with rfl | rfl | rfl <;> exact ⟨_, rfl⟩
  obtain ⟨rest, hrest⟩ := hopening
  constructor
  · intro c hc
    rw [hrest] at hc
    cases hc
    decide
  · intro c hc
    cases htakes : pattern.takesId with
    | true =>
      rw [htakes, if_pos rfl] at hid
      have hne : id ≠ [] := by
        obtain ⟨d, more, rfl, -⟩ := hid
        exact List.cons_ne_nil d more
      rw [List.getLast?_append_of_ne_nil _ hne] at hc
      exact (isResumeIdChar_plain (hid.chars c (List.mem_of_getLast? hc))).2.1
    | false =>
      rw [htakes, if_neg Bool.false_ne_true] at hid
      rw [hid, List.append_nil] at hc
      rcases mem_builtin h.builtin with rfl | rfl | rfl
      · cases htakes
      · cases htakes
      · cases hc
        decide

/-- No opening stands in another behind its start, nor at its end in part. -/
theorem opening_apart : ∀ p ∈ BUILTIN_PATTERNS, ∀ q ∈ BUILTIN_PATTERNS, ∀ j < p.opening.length,
    0 < j → ¬(q.opening <+: p.opening.drop j ∨ p.opening.drop j <+: q.opening) := by
  decide +kernel

/-- In a canonical command an invocation stands at its start only. -/
theorem KnownInvocation.standsAt_start {pattern q : ResumePattern} {command d : JsString} {j : Nat}
    (h : KnownInvocation pattern command) (hstands : StandsAt command j q d) : j = 0 := by
  by_contra hj
  obtain ⟨hq, before, after, heq, rfl, -⟩ := hstands
  obtain ⟨id, rfl, hid⟩ := h.idChars
  obtain ⟨id', rfl, -⟩ := hq.idChars
  have hdrop : (pattern.opening ++ id).drop before.length = q.opening ++ (id' ++ after) := by
    rw [heq, List.drop_left, List.append_assoc]
  rcases Nat.lt_or_ge before.length pattern.opening.length with hlt | hge
  · -- In the opening.
    rw [List.drop_append_of_le_length (Nat.le_of_lt hlt)] at hdrop
    have hor := List.prefix_or_prefix_of_prefix
      (⟨id' ++ after, rfl⟩ : q.opening <+: q.opening ++ (id' ++ after))
      (⟨id, hdrop⟩ : pattern.opening.drop before.length <+: q.opening ++ (id' ++ after))
    exact opening_apart pattern h.builtin q hq.builtin _ hlt (Nat.pos_of_ne_zero hj) hor
  -- In the identifier, which has no space.
  have hspace : unit ' ' ∈ q.opening := by
    rcases mem_builtin hq.builtin with rfl | rfl | rfl <;> decide
  have hmem : unit ' ' ∈ (pattern.opening ++ id).drop before.length := by
    rw [hdrop]
    exact List.mem_append_left _ hspace
  rw [List.drop_append, List.drop_eq_nil_of_le hge, List.nil_append] at hmem
  exact (isResumeIdChar_plain (hid _ (List.mem_of_mem_drop hmem))).2.2 rfl

theorem KnownInvocation.detected {pattern : ResumePattern} {command : JsString}
    (h : KnownInvocation pattern command) : resumeCommandInVisible command = some command := by
  have hstands : StandsAt command 0 pattern command := ⟨h, [], [], by simp, rfl, rfl, rfl⟩
  refine resumeCommandInVisible_of_rightmost hstands (fun j q d hd => ?_) fun j d _ hj => ?_
  · rw [h.standsAt_start hd]
  · exact absurd hj (Nat.not_lt_zero j)

/-- **A stored command is accepted** exactly if it is one known invocation, stripped and trimmed. -/
theorem normalizeResumeCommand_eq_some {command result : JsString} :
    normalizeResumeCommand command = some result ↔
      result = trim (stripTerminalControls command false) ∧
        ∃ pattern, KnownInvocation pattern result := by
  rw [normalizeResumeCommand]
  constructor
  · intro h
    split at h
    · rename_i hdetected
      rw [hdetected] at h
      cases h
      obtain ⟨_, pattern, hstands⟩ := standsAt_of_resumeCommandInVisible hdetected
      exact ⟨rfl, pattern, hstands.1⟩
    · cases h
  · intro h
    obtain ⟨rfl, pattern, hknown⟩ := h
    rw [if_pos hknown.detected, hknown.detected]

/-- A canonical command is accepted as it is. -/
theorem KnownInvocation.normalize {pattern : ResumePattern} {command : JsString}
    (h : KnownInvocation pattern command) : normalizeResumeCommand command = some command := by
  refine normalizeResumeCommand_eq_some.2 ⟨?_, pattern, h⟩
  rw [stripTerminalControls_printable h.printable, h.trimmed.trim_eq]

/-! ### The last lines -/

/-- The last `count` lines of a text. -/
def lastLines (count : Nat) (text : JsString) : JsString :=
  [unit '\n'].intercalate
    ((text.splitOn (unit '\n')).drop ((text.splitOn (unit '\n')).length - count))

/-- A text is one line, or its last line stands behind a line break. -/
theorem lastLine_cases (text : JsString) : unit '\n' ∉ text ∨
    ∃ earlier line, text = earlier ++ unit '\n' :: line ∧ unit '\n' ∉ line := by
  induction text using List.reverseRecOn with
  | nil => exact .inl List.not_mem_nil
  | append_singleton text c ih =>
    by_cases hc : c = unit '\n'
    · exact .inr ⟨text, [], by rw [hc], List.not_mem_nil⟩
    · rcases ih with hnone | ⟨earlier, line, rfl, hline⟩
      · exact .inl (by simp [hnone, Ne.symm hc])
      · exact .inr ⟨earlier, line ++ [c], by simp, by simp [hline, Ne.symm hc]⟩

theorem takeWhile_reverse {line : JsString} (h : unit '\n' ∉ line) (rest : JsString) :
    (line.reverse ++ rest).takeWhile (· ≠ unit '\n') =
      line.reverse ++ rest.takeWhile (· ≠ unit '\n') := by
  refine List.takeWhile_append_of_pos fun c hc => ?_
  rw [List.mem_reverse] at hc
  exact decide_eq_true fun heq => h (heq ▸ hc)

theorem intercalate_concat (sep line : JsString) {lines : List JsString} (h : lines ≠ []) :
    sep.intercalate (lines ++ [line]) = sep.intercalate lines ++ (sep ++ line) := by
  induction lines with
  | nil => exact absurd rfl h
  | cons first lines ih =>
    rw [List.cons_append, List.intercalate_cons_of_ne_nil (by simp)]
    cases lines with
    | nil => simp
    | cons second lines =>
      rw [ih (List.cons_ne_nil _ _), List.intercalate_cons_of_ne_nil (List.cons_ne_nil _ _)]
      simp only [List.append_assoc]

theorem lineStart_of_line {line rest : JsString} (h : unit '\n' ∉ line) :
    lineStart (line ++ rest) line.length = 0 := by
  have htake := takeWhile_reverse h []
  rw [List.append_nil, List.takeWhile_nil, List.append_nil] at htake
  rw [lineStart, List.take_left, htake, List.length_reverse, Nat.sub_self]

theorem lineStart_behind {earlier line rest : JsString} (h : unit '\n' ∉ line) :
    lineStart (earlier ++ unit '\n' :: line ++ rest) (earlier ++ unit '\n' :: line).length =
      earlier.length + 1 := by
  have hreverse : (earlier ++ unit '\n' :: line).reverse =
      line.reverse ++ unit '\n' :: earlier.reverse := by simp
  rw [lineStart, List.take_left, hreverse, takeWhile_reverse h,
    List.takeWhile_cons_of_neg (by simp), List.append_nil, List.length_reverse, List.length_append,
    List.length_cons]
  omega

theorem lastLines_of_line {line : JsString} (h : unit '\n' ∉ line) (count : Nat) :
    lastLines (count + 1) line = line := by
  rw [lastLines, List.splitOn_eq_singleton h]
  simp

/-- One line more than the last of what comes before. -/
theorem lastLines_behind {earlier line : JsString} (h : unit '\n' ∉ line) (count : Nat) :
    lastLines (count + 1) (earlier ++ unit '\n' :: line) =
      if count = 0 then line else lastLines count earlier ++ unit '\n' :: line := by
  have hsplit : (earlier ++ unit '\n' :: line).splitOn (unit '\n') =
      earlier.splitOn (unit '\n') ++ [line] := by
    rw [List.splitOn_append_cons_self, List.splitOn_eq_singleton h]
  have hpos : 0 < (earlier.splitOn (unit '\n')).length :=
    List.length_pos_iff.2 (List.splitOn_ne_nil _ _)
  rw [lastLines, hsplit, List.length_append, List.length_singleton,
    show (earlier.splitOn (unit '\n')).length + 1 - (count + 1) =
      (earlier.splitOn (unit '\n')).length - count by omega,
    List.drop_append_of_le_length (Nat.sub_le _ _)]
  split
  · rename_i hcount
    simp [hcount]
  rename_i hcount
  have hne : (earlier.splitOn (unit '\n')).drop ((earlier.splitOn (unit '\n')).length - count) ≠ [] := by
    intro hnil
    have := List.drop_eq_nil_iff.1 hnil
    omega
  rw [intercalate_concat _ _ hne, lastLines, List.singleton_append]

theorem windowStartFrom_zero (text : JsString) (count start : Nat) :
    windowStartFrom text count 0 start = start := by
  cases count <;> rfl

theorem windowStartFrom_of_line {line : JsString} (hne : line ≠ []) (h : unit '\n' ∉ line)
    (rest : JsString) (count start : Nat) :
    windowStartFrom (line ++ rest) (count + 1) line.length start = 0 := by
  rw [windowStartFrom, if_pos (List.length_pos_iff.2 hne), lineStart_of_line h]
  exact windowStartFrom_zero _ _ _

theorem windowStartFrom_behind {earlier line : JsString} (h : unit '\n' ∉ line) (rest : JsString)
    (count start : Nat) :
    windowStartFrom (earlier ++ unit '\n' :: line ++ rest) (count + 1)
        (earlier ++ unit '\n' :: line).length start =
      windowStartFrom (earlier ++ (unit '\n' :: line ++ rest)) count earlier.length
        (earlier.length + 1) := by
  rw [windowStartFrom, if_pos (List.length_pos_iff.2 (by simp)), lineStart_behind h,
    ← List.append_assoc]
  rfl

theorem drop_behind (earlier line : JsString) :
    (earlier ++ unit '\n' :: line).drop (earlier.length + 1) = line := by
  rw [← List.drop_drop, List.drop_left]
  rfl

/-- The loop ends at the start of the last lines, or behind a line break that they start with. -/
theorem windowStartFrom_spec (count : Nat) {text : JsString} (htext : text ≠ []) (rest : JsString)
    (start : Nat) :
    windowStartFrom (text ++ rest) (count + 1) text.length start ≤ text.length ∧
      (text.drop (windowStartFrom (text ++ rest) (count + 1) text.length start) =
          lastLines (count + 1) text ∨
        unit '\n' :: text.drop (windowStartFrom (text ++ rest) (count + 1) text.length start) =
          lastLines (count + 1) text) := by
  induction count generalizing text rest start with
  | zero =>
    rcases lastLine_cases text with hline | ⟨earlier, line, rfl, hline⟩
    · rw [windowStartFrom_of_line htext hline]
      exact ⟨Nat.zero_le _, .inl (lastLines_of_line hline 0).symm⟩
    · rw [windowStartFrom_behind hline, windowStartFrom, drop_behind, lastLines_behind hline]
      exact ⟨by simp, .inl rfl⟩
  | succ count ih =>
    rcases lastLine_cases text with hline | ⟨earlier, line, rfl, hline⟩
    · rw [windowStartFrom_of_line htext hline]
      exact ⟨Nat.zero_le _, .inl (lastLines_of_line hline _).symm⟩
    rw [windowStartFrom_behind hline, lastLines_behind hline, if_neg (Nat.succ_ne_zero count)]
    by_cases hearlier : earlier = []
    · -- Nothing but the line break is left, and the cursor is at 0.
      subst hearlier
      rw [List.length_nil, windowStartFrom_zero,
        lastLines_of_line (List.not_mem_nil : unit '\n' ∉ ([] : JsString))]
      exact ⟨by simp, .inr rfl⟩
    obtain ⟨hle, hdrop⟩ := ih hearlier (unit '\n' :: line ++ rest) (earlier.length + 1)
    refine ⟨hle.trans (List.prefix_append _ _).length_le, ?_⟩
    rw [List.drop_append_of_le_length hle]
    rcases hdrop with hsame | hbreak
    · exact .inl (by rw [hsame])
    · exact .inr (by rw [← hbreak]; rfl)

/-- What is scanned are the last lines, up to a line break at their start. -/
theorem window_cases (scrollback : JsString) :
    scrollback.drop (windowStartFrom scrollback SCAN_LINES scrollback.length 0) =
        lastLines SCAN_LINES scrollback ∨
      unit '\n' :: scrollback.drop (windowStartFrom scrollback SCAN_LINES scrollback.length 0) =
        lastLines SCAN_LINES scrollback := by
  by_cases hnil : scrollback = []
  · subst hnil
    exact .inl rfl
  · have hspec := (windowStartFrom_spec 49 hnil [] 0).2
    rwa [List.append_nil] at hspec

/-- A line break in front of a text changes no match. -/
theorem matchAll_newline {pattern : ResumePattern} (hpattern : pattern ∈ BUILTIN_PATTERNS)
    (text : JsString) :
    matchAll pattern.matchAt (unit '\n' :: text) =
      (matchAll pattern.matchAt text).map fun m => (m.1 + 1, m.2) := by
  have hhere : pattern.matchAt none (unit '\n' :: text) = none := by
    rw [matchAt, if_pos]
    refine .inr fun hopening => ?_
    rcases mem_builtin hpattern with rfl | rfl | rfl <;> cases hopening
  have hbehind : matchAllFrom pattern.matchAt 0 0 (some (unit '\n')) text =
      matchAllFrom pattern.matchAt 0 0 none text := by
    cases text with
    | nil => rfl
    | cons c text =>
      -- A line break is as little of a word as the start of the text is.
      have hlast : pattern.matchAt (some (unit '\n')) (c :: text) =
          pattern.matchAt none (c :: text) := rfl
      rw [matchAllFrom, matchAllFrom, hlast]
  rw [matchAll, matchAllFrom, hhere]
  rw [matchAllFrom_add 1 0, hbehind, matchAll]

theorem foldl_keepLatest_add (k : Nat) (found : List (Nat × JsString)) (latest : Option (Nat × JsString)) :
    (found.map fun m => (m.1 + k, m.2)).foldl keepLatest (latest.map fun m => (m.1 + k, m.2)) =
      (found.foldl keepLatest latest).map fun m => (m.1 + k, m.2) := by
  induction found generalizing latest with
  | nil => rfl
  | cons m found ih =>
    rw [List.map_cons, List.foldl_cons, List.foldl_cons, ← ih]
    congr 1
    cases latest with
    | none => rfl
    | some kept =>
      simp only [keepLatest, Option.map_some, gt_iff_lt, Nat.add_lt_add_iff_right]
      split <;> rfl

theorem resumeCommandInVisible_newline (visible : JsString) :
    resumeCommandInVisible (unit '\n' :: visible) = resumeCommandInVisible visible := by
  have hmatches : resumeMatches (unit '\n' :: visible) =
      (resumeMatches visible).map fun m => (m.1 + 1, m.2) := by
    rw [resumeMatches, resumeMatches, List.map_flatMap]
    refine List.flatMap_congr fun pattern hpattern => ?_
    rw [matchAll_newline hpattern, List.map_map, List.map_map]
    rfl
  have hfold := foldl_keepLatest_add 1 (resumeMatches visible) none
  rw [Option.map_none] at hfold
  rw [resumeCommandInVisible_eq, resumeCommandInVisible_eq, hmatches, hfold, Option.map_map]
  rfl

/-- What is scanned is the visible text of the last lines. -/
theorem detectResumeCommand_eq (scrollback : JsString) :
    detectResumeCommand scrollback =
      resumeCommandInVisible (stripTerminalControls (lastLines SCAN_LINES scrollback) true) := by
  rw [detectResumeCommand]
  rcases window_cases scrollback with hsame | hbreak
  · rw [hsame]
  · rw [← hbreak, stripTerminalControls_newline, resumeCommandInVisible_newline]

/-- **Detection and check agree with the text.** The detection finds nothing exactly if no known
invocation stands in the visible text of the last lines; what it finds stands there and passes the
check; and the rightmost invocation is found unless it starts inside an earlier one of its pattern.
The check passes exactly one known invocation, stripped and trimmed. -/
theorem resume_commands :
    (∀ scrollback : JsString,
      (detectResumeCommand scrollback = none ↔ ∀ index pattern command,
        ¬StandsAt (stripTerminalControls (lastLines SCAN_LINES scrollback) true) index pattern command) ∧
      (∀ command, detectResumeCommand scrollback = some command →
        (∃ index pattern, StandsAt (stripTerminalControls (lastLines SCAN_LINES scrollback) true)
          index pattern command) ∧ normalizeResumeCommand command = some command) ∧
      ∀ index pattern command,
        StandsAt (stripTerminalControls (lastLines SCAN_LINES scrollback) true) index pattern command →
        (∀ j q d, StandsAt (stripTerminalControls (lastLines SCAN_LINES scrollback) true) j q d →
          j ≤ index) →
        (∀ j d, StandsAt (stripTerminalControls (lastLines SCAN_LINES scrollback) true) j pattern d →
          j < index → j + d.length ≤ index) →
        detectResumeCommand scrollback = some command) ∧
    ∀ command result : JsString, normalizeResumeCommand command = some result ↔
      result = trim (stripTerminalControls command false) ∧
        ∃ pattern, KnownInvocation pattern result := by
  refine ⟨fun scrollback => ?_, fun command result => normalizeResumeCommand_eq_some⟩
  rw [detectResumeCommand_eq]
  refine ⟨resumeCommandInVisible_eq_none _, fun command hfound => ?_, ?_⟩
  · obtain ⟨index, pattern, hstands⟩ := standsAt_of_resumeCommandInVisible hfound
    exact ⟨⟨index, pattern, hstands⟩, hstands.1.normalize⟩
  · intro index pattern command hstands hright hclear
    exact resumeCommandInVisible_of_rightmost hstands hright hclear

theorem resume_commands_redraw :
    normalizeResumeCommand (js "codex resume new789") = some (js "codex resume new789") :=
  ((resume_commands.1 (js "claude --resume old123\rcodex resume new789")).2.1
    (js "codex resume new789") (by decide +kernel)).2

/-- A scan without overlap misses an invocation that starts in the identifier of another. -/
example : detectResumeCommand (js "claude --resume claude --resume x") =
    some (js "claude --resume claude") := by decide +kernel

/-- An invocation with any identifier over the characters of one. -/
inductive LooseInvocation : JsString → Prop
  | codexResume {id : JsString} (hne : id ≠ []) (h : ∀ c ∈ id, isResumeIdChar c = true) :
      LooseInvocation (js "codex resume " ++ id)
  | claudeResume {id : JsString} (hne : id ≠ []) (h : ∀ c ∈ id, isResumeIdChar c = true) :
      LooseInvocation (js "claude --resume " ++ id)
  | claudeContinue : LooseInvocation (js "claude --continue")

/-- An identifier that starts as an option does is not accepted. -/
theorem normalizeResumeCommand_dash :
    ¬∀ command, (normalizeResumeCommand command).isSome = true ↔
      LooseInvocation (trim (stripTerminalControls command false)) := by
  intro h
  have hvisible : trim (stripTerminalControls (js "codex resume -x") false) =
      js "codex resume " ++ js "-x" := by decide +kernel
  have haccepted := (h (js "codex resume -x")).2 (by
    rw [hvisible]
    exact .codexResume (by decide) (List.all_iff_forall_prop.1 (by decide)))
  exact absurd haccepted (by decide +kernel)

end Dormouse.Terminal
