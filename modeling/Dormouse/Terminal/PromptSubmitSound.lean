import Dormouse.Terminal.PromptScannersSound

/-!
# Dormouse.Terminal.PromptSubmitSound

**When a stream of input submits**: a line break outside the spans of bracketed pastes, wherever the
stream is cut. With it the result on both scanners of the keystroke fallback.
-/

namespace Dormouse.Terminal

attribute [local simp] detectFrom

/-! ### Pastes in a stream -/

/-- A paste was begun, and no end of one stands behind its beginning. -/
def Pasting (before : JsString) : Prop :=
  ∃ u tail, before = u ++ (BRACKETED_PASTE_START ++ tail) ∧ ¬BRACKETED_PASTE_END <:+: tail

/-- A line break outside the pastes. -/
def SubmitsIn (stream : JsString) : Prop :=
  ∃ before c after, stream = before ++ c :: after ∧ isLineBreak c = true ∧ ¬Pasting before

def IsMarker (marker : JsString) : Prop :=
  marker = BRACKETED_PASTE_START ∨ marker = BRACKETED_PASTE_END

theorem IsMarker.length {m : JsString} (h : IsMarker m) : m.length = 6 := by
  rcases h with rfl | rfl <;> decide

theorem IsMarker.head {m : JsString} (h : IsMarker m) : m.head? = some 0x1b := by
  rcases h with rfl | rfl <;> decide

/-- Only the first unit of a marker is an escape. -/
theorem IsMarker.head_drop {m : JsString} (h : IsMarker m) {k : Nat} (hk : 0 < k) :
    (m.drop k).head? ≠ some 0x1b := by
  have hall : ∀ m ∈ [BRACKETED_PASTE_START, BRACKETED_PASTE_END], ∀ k ∈ [1, 2, 3, 4, 5],
      (m.drop k).head? ≠ some 0x1b := by decide
  by_cases hlong : 6 ≤ k
  · rw [List.drop_eq_nil_of_le (h.length.trans_le hlong)]
    exact fun hnil => by cases hnil
  · have hmem : m ∈ [BRACKETED_PASTE_START, BRACKETED_PASTE_END] := by
      rcases h with rfl | rfl <;> simp
    exact hall m hmem k (by simp; omega)

theorem IsMarker.not_lineBreak {m : JsString} (h : IsMarker m) {c : UInt16} (hc : c ∈ m) :
    isLineBreak c = false := by
  have hall : m.all (fun c => !isLineBreak c) = true := by rcases h with rfl | rfl <;> decide
  simpa using List.all_eq_true.1 hall c hc

/-- No marker that begins in `before` ends in `rest`. -/
def NoneStraddles (before rest : JsString) : Prop :=
  ∀ u p, before = u ++ p → p ≠ [] → p.length < 6 → ∀ m, IsMarker m → ¬m <+: p ++ rest

/-! ### How spans and submits grow -/

theorem submitsIn_append {before text : JsString} (h : ∀ c ∈ text, isLineBreak c = false) :
    SubmitsIn (before ++ text) ↔ SubmitsIn before := by
  constructor
  · rintro ⟨b, c, after, heq, hc, hpaste⟩
    rcases List.append_eq_append_iff.1 heq with ⟨mid, rfl, hmid⟩ | ⟨mid, hmid, hafter⟩
    · have hmem : c ∈ text := hmid ▸ List.mem_append_right _ List.mem_cons_self
      rw [h c hmem] at hc
      cases hc
    cases mid with
    | nil =>
      have hmem : c ∈ text := by
        rw [List.nil_append] at hafter
        exact hafter ▸ List.mem_cons_self
      rw [h c hmem] at hc
      cases hc
    | cons d mid =>
      rw [List.cons_append, List.cons.injEq] at hafter
      exact ⟨b, c, mid, by rw [hmid, hafter.1], hc, hpaste⟩
  · rintro ⟨b, c, after, rfl, hc, hpaste⟩
    exact ⟨b, c, after ++ text, by rw [List.append_assoc, List.cons_append], hc, hpaste⟩

theorem submitsIn_concat {before : JsString} {c : UInt16} :
    SubmitsIn (before ++ [c]) ↔ SubmitsIn before ∨ (isLineBreak c = true ∧ ¬Pasting before) := by
  constructor
  · rintro ⟨b, d, after, heq, hd, hpaste⟩
    rcases List.eq_nil_or_concat after with rfl | ⟨after, e, rfl⟩
    · obtain ⟨rfl, hcd⟩ := List.append_inj' heq rfl
      rw [(List.cons.inj hcd).1]
      exact .inr ⟨hd, hpaste⟩
    · rw [List.concat_eq_append, ← List.cons_append, ← List.append_assoc] at heq
      exact .inl ⟨b, d, after, (List.append_inj' heq rfl).1, hd, hpaste⟩
  · rintro (⟨b, d, after, rfl, hd, hpaste⟩ | ⟨hc, hpaste⟩)
    · exact ⟨b, d, after ++ [c], by simp, hd, hpaste⟩
    · exact ⟨before, c, [], rfl, hc, hpaste⟩

/-- A unit that ends no marker leaves the pastes as they are. -/
theorem pasting_concat {before : JsString} {c : UInt16}
    (h : ∀ m, IsMarker m → ¬m <:+ before ++ [c]) : Pasting (before ++ [c]) ↔ Pasting before := by
  constructor
  · rintro ⟨u, tail, heq, hend⟩
    rcases List.eq_nil_or_concat tail with rfl | ⟨tail, d, rfl⟩
    · rw [List.append_nil] at heq
      exact absurd ⟨u, heq.symm⟩ (h _ (.inl rfl))
    · rw [List.concat_eq_append, ← List.append_assoc, ← List.append_assoc] at heq
      refine ⟨u, tail, ?_, fun hin => hend ?_⟩
      · rw [(List.append_inj' heq rfl).1, List.append_assoc]
      · rw [List.concat_eq_append]
        exact hin.trans (List.prefix_append _ _).isInfix
  · rintro ⟨u, tail, rfl, hend⟩
    refine ⟨u, tail ++ [c], by simp only [List.append_assoc], fun hin => ?_⟩
    obtain ⟨s, t, heq⟩ := hin
    rcases List.eq_nil_or_concat t with rfl | ⟨t, d, rfl⟩
    · refine h _ (.inr rfl) ⟨u ++ BRACKETED_PASTE_START ++ s, ?_⟩
      rw [List.append_nil] at heq
      simp only [List.append_assoc]
      rw [← heq]
    · rw [List.concat_eq_append, ← List.append_assoc] at heq
      exact hend ⟨s, t, (List.append_inj' heq rfl).1⟩

/-- Text that no marker reaches into and that is too short for one. -/
theorem pasting_append {before text : JsString} (hlen : text.length < 6)
    (hnone : NoneStraddles before text) : Pasting (before ++ text) ↔ Pasting before := by
  have hall : ∀ q, q <+: text → (Pasting (before ++ q) ↔ Pasting before) := by
    intro q
    induction q using List.reverseRecOn with
    | nil =>
      intro _
      rw [List.append_nil]
    | append_singleton q c ih =>
      intro hq
      have hqlen : q.length + 1 ≤ text.length := by simpa using hq.length_le
      rw [← ih ((List.prefix_append q [c]).trans hq), ← List.append_assoc]
      refine pasting_concat fun m hm hsuffix => ?_
      -- A marker that ends here begins in front of the text.
      rw [List.append_assoc] at hsuffix
      have hmlen := hm.length
      obtain ⟨u, heq⟩ := hsuffix
      rcases List.append_eq_append_iff.1 heq with ⟨p, rfl, hp⟩ | ⟨p, hu, hp⟩
      · refine hnone u p rfl ?_ ?_ m hm ?_
        · rintro rfl
          have := congrArg List.length hp
          simp at this
          omega
        · have := congrArg List.length hp
          simp at this
          omega
        · rw [hp]
          exact (List.prefix_append_right_inj p).2 hq
      · have := congrArg List.length hp
        simp at this
        omega
  exact hall text List.prefix_rfl

/-! ### One scan -/

theorem detectFrom_skip {skip : Nat} {text : JsString} (h : skip ≤ text.length) (inPaste submitted : Bool) :
    detectFrom skip text inPaste submitted = detectFrom 0 (text.drop skip) inPaste submitted := by
  induction skip generalizing text with
  | zero => rfl
  | succ skip ih =>
    cases text with
    | nil => cases h
    | cons c text => exact ih (Nat.le_of_succ_le_succ h)

theorem isPrefixOf_iff {p text : JsString} : p.isPrefixOf text = true ↔ p <+: text :=
  List.isPrefixOf_iff_prefix

/-- Behind a marker nothing is half read. -/
theorem noneStraddles_marker {before marker : JsString} (hmarker : IsMarker marker) (rest : JsString) :
    NoneStraddles (before ++ marker) rest := by
  intro u p heq hne hlen m hm hleads
  have hlength := hmarker.length
  -- What stands in front of the rest is the end of the marker, which no marker begins with.
  have hp : ∃ k, 0 < k ∧ p = marker.drop k := by
    rcases List.append_eq_append_iff.1 heq with ⟨mid, rfl, hmid⟩ | ⟨mid, rfl, hmid⟩
    · refine ⟨mid.length, ?_, ?_⟩
      · have := congrArg List.length hmid
        simp at this
        omega
      · rw [hmid, List.drop_left]
    · have := congrArg List.length hmid
      simp at this
      omega
  obtain ⟨k, hk, rfl⟩ := hp
  obtain ⟨tail, htail⟩ := hleads
  have hhead : (marker.drop k ++ rest).head? = some 0x1b := by
    rw [← htail, List.head?_append, hm.head]
    rfl
  rw [List.head?_append_of_ne_nil _ hne] at hhead
  exact hmarker.head_drop hk hhead

/-- The end of a paste ends it. -/
theorem not_pasting_end (before : JsString) : ¬Pasting (before ++ BRACKETED_PASTE_END) := by
  rintro ⟨u, tail, heq, hend⟩
  rw [← List.append_assoc] at heq
  rcases List.append_eq_append_iff.1 heq with ⟨mid, hmid, htail⟩ | ⟨mid, hmid, htail⟩
  · -- The end begins inside the start of the paste.
    have hmarker : IsMarker BRACKETED_PASTE_END := .inr rfl
    rcases mid with _ | ⟨d, mid⟩
    · exact hend (htail ▸ (List.infix_refl _))
    have hd : d = 0x1b := by
      have hhead := hmarker.head
      rw [htail] at hhead
      exact Option.some.inj hhead
    have hsuffix : (d :: mid) <:+ u ++ BRACKETED_PASTE_START := ⟨before, hmid.symm⟩
    have hlen : (d :: mid).length ≤ 6 := by
      rw [← hmarker.length, htail, List.length_append]
      exact Nat.le_add_right _ _
    have hpaste : (d :: mid) <:+ BRACKETED_PASTE_START :=
      List.suffix_of_suffix_length_le hsuffix (List.suffix_append _ _)
        (hlen.trans (by decide))
    obtain ⟨lead, hlead⟩ := hpaste
    cases lead with
    | nil =>
      rw [List.nil_append] at hlead
      rw [hlead] at htail
      have hleads : BRACKETED_PASTE_START <+: BRACKETED_PASTE_END := ⟨tail, htail.symm⟩
      exact absurd (isPrefixOf_iff.2 hleads) (by decide)
    | cons e lead =>
      have hstart : IsMarker BRACKETED_PASTE_START := .inl rfl
      refine hstart.head_drop (k := lead.length + 1) (Nat.succ_pos _) ?_
      rw [← hlead, hd]
      have hdrop : ((e :: lead) ++ 0x1b :: mid).drop (lead.length + 1) = 0x1b :: mid :=
        @List.drop_left _ (e :: lead) _
      rw [hdrop]
      rfl
  · exact hend (htail ▸ (List.suffix_append _ _).isInfix)

/-- What a scan says of the text in front of it and the text it reads. -/
theorem detectFrom_spec {before rest : JsString} {inPaste submitted : Bool}
    (hnone : NoneStraddles before rest) (hpaste : inPaste = true ↔ Pasting before)
    (hsubmit : submitted = true ↔ SubmitsIn before) :
    ((detectFrom 0 rest inPaste submitted).submitted = true ↔ SubmitsIn (before ++ rest)) ∧
      ((detectFrom 0 rest inPaste submitted).state.inPaste = true ↔ Pasting (before ++ rest)) := by
  -- The induction is on the text that is left; a marker is read as one.
  induction hn : rest.length using Nat.strongRecOn generalizing before rest inPaste submitted with
  | ind n ih =>
    subst hn
    have hmarkers : ∀ (m : JsString) (paste : Bool), IsMarker m → m <+: rest →
        (paste = true ↔ Pasting (before ++ m)) → ∀ c text, rest = c :: text →
        ((detectFrom (m.length - 1) text paste submitted).submitted = true ↔
          SubmitsIn (before ++ rest)) ∧
        ((detectFrom (m.length - 1) text paste submitted).state.inPaste = true ↔
          Pasting (before ++ rest)) := by
      intro m paste hm hleads hpaste' c text hcons
      obtain ⟨tail, rfl⟩ := hleads
      have hmlen := hm.length
      have hlength : text.length + 1 = 6 + tail.length := by
        rw [← hmlen, ← List.length_append, hcons, List.length_cons]
      have hdrop : text.drop (m.length - 1) = tail := by
        have hsucc : (c :: text).drop (m.length - 1 + 1) = text.drop (m.length - 1) := rfl
        rw [← hsucc, ← hcons, Nat.sub_add_cancel (by omega), List.drop_left]
      rw [detectFrom_skip (by omega), hdrop, ← List.append_assoc]
      refine ih tail.length ?_ (noneStraddles_marker hm tail) hpaste' ?_ rfl
      · rw [List.length_append]
        omega
      · rw [hsubmit, submitsIn_append fun c hc => hm.not_lineBreak hc]
    rcases rest with _ | ⟨c, text⟩
    · rw [List.append_nil]
      exact ⟨hsubmit, hpaste⟩
    rw [detectFrom]
    split
    · rename_i hstart
      have hopen : Pasting (before ++ BRACKETED_PASTE_START) :=
        ⟨before, [], by rw [List.append_nil], by decide⟩
      exact hmarkers _ true (.inl rfl) (isPrefixOf_iff.1 hstart) (iff_of_true rfl hopen) c text rfl
    split
    · rename_i hend
      exact hmarkers _ false (.inr rfl) (isPrefixOf_iff.1 hend)
        (iff_of_false Bool.false_ne_true (not_pasting_end before)) c text rfl
    rename_i hstart hend
    have hno : ∀ m, IsMarker m → ¬m <+: c :: text := by
      rintro m (rfl | rfl)
      · exact fun h => hstart (isPrefixOf_iff.2 h)
      · exact fun h => hend (isPrefixOf_iff.2 h)
    split
    · -- The rest is held: it is too short for a marker and has no line break.
      rename_i hheld
      have hheld' : ∃ m, IsMarker m ∧ (c :: text) <+: m := by
        rcases hheld with h | h
        · exact ⟨_, .inl rfl, isPrefixOf_iff.1 h⟩
        · exact ⟨_, .inr rfl, isPrefixOf_iff.1 h⟩
      obtain ⟨m, hm, hleads⟩ := hheld'
      have hshort : (c :: text).length < 6 := by
        refine lt_of_le_of_ne (hm.length ▸ hleads.length_le) fun heq => ?_
        have hsame := hleads.eq_of_length (heq.trans hm.length.symm)
        exact hno m hm (hsame ▸ List.prefix_rfl)
      rw [hsubmit, hpaste, submitsIn_append fun d hd => hm.not_lineBreak (hleads.subset hd),
        pasting_append hshort hnone]
      exact ⟨Iff.rfl, Iff.rfl⟩
    · have hlast : ∀ m, IsMarker m → ¬m <:+ before ++ [c] := by
        intro m hm hsuffix
        rcases List.eq_nil_or_concat m with rfl | ⟨p, d, rfl⟩
        · exact absurd hm.length (by decide)
        rw [List.concat_eq_append] at hm hsuffix
        have hplen : p.length = 5 := by simpa using hm.length
        obtain ⟨u, heq⟩ := hsuffix
        rw [← List.append_assoc] at heq
        obtain ⟨hbefore, hd⟩ := List.append_inj' heq rfl
        refine hnone u p hbefore.symm ?_ (by omega) _ hm ?_
        · rintro rfl
          cases hplen
        · rw [(List.cons.inj hd).1]
          exact (List.prefix_append_right_inj p).2 (List.prefix_append [c] text)
      have hwhole : before ++ c :: text = before ++ [c] ++ text := by simp
      rw [hwhole]
      refine ih text.length (Nat.lt_succ_self _) ?_ ?_ ?_ rfl
      · intro u p heq hne hlen m hm hleads
        rcases List.eq_nil_or_concat p with rfl | ⟨q, d, rfl⟩
        · exact hne rfl
        rw [List.concat_eq_append] at heq hlen hleads
        rw [← List.append_assoc] at heq
        obtain ⟨rfl, hd⟩ := List.append_inj' heq rfl
        rw [← (List.cons.inj hd).1, List.append_assoc, List.singleton_append] at hleads
        by_cases hq : q = []
        · rw [hq, List.nil_append] at hleads
          exact hno m hm hleads
        · exact hnone u q rfl hq (by simp at hlen; omega) m hm hleads
      · rw [hpaste, pasting_concat hlast]
      · rw [submitsIn_concat, ← hpaste, ← hsubmit]
        cases submitted <;> cases inPaste <;> simp

/-! ### Chunks -/

/-- What was submitted before a scan does not change what it finds. -/
theorem detectFrom_submitted (skip : Nat) (text : JsString) (inPaste submitted : Bool) :
    detectFrom skip text inPaste submitted =
      ⟨(detectFrom skip text inPaste false).state,
        submitted || (detectFrom skip text inPaste false).submitted⟩ := by
  induction text generalizing skip inPaste submitted with
  | nil => cases skip <;> simp
  | cons c text ih =>
    cases skip with
    | succ skip => exact ih skip inPaste submitted
    | zero =>
      rw [detectFrom, detectFrom]
      split
      · exact ih _ _ _
      split
      · exact ih _ _ _
      split
      · simp
      · rw [ih, ih 0 inPaste (false || _), Bool.false_or, Bool.or_assoc]

/-- A marker is held, or none. -/
def HeldBack (pending : Option JsString) : Prop :=
  ∀ held, pending = some held → held ≠ [] ∧ ∃ m, IsMarker m ∧ held <+: m ∧ ¬m <+: held

theorem held_detectFrom (skip : Nat) (text : JsString) (inPaste submitted : Bool) :
    HeldBack (detectFrom skip text inPaste submitted).state.pendingMarker := by
  induction text generalizing skip inPaste submitted with
  | nil =>
    cases skip <;> exact fun held h => by cases h
  | cons c text ih =>
    cases skip with
    | succ skip => exact ih skip inPaste submitted
    | zero =>
      rw [detectFrom]
      split
      · exact ih _ _ _
      split
      · exact ih _ _ _
      split
      · rename_i hstart hend hheld
        intro held h
        cases h
        refine ⟨List.cons_ne_nil _ _, ?_⟩
        rcases hheld with hleads | hleads
        · exact ⟨_, .inl rfl, isPrefixOf_iff.1 hleads, fun h => hstart (isPrefixOf_iff.2 h)⟩
        · exact ⟨_, .inr rfl, isPrefixOf_iff.1 hleads, fun h => hend (isPrefixOf_iff.2 h)⟩
      · exact ih _ _ _

/-- A marker that neither begins the text nor is begun by it does not begin the text with more behind
it. -/
theorem not_prefix_append {m text more : JsString} (h₁ : ¬m <+: text) (h₂ : ¬text <+: m) :
    ¬m <+: text ++ more := by
  intro hleads
  rcases Nat.le_total m.length text.length with hle | hle
  · exact h₁ (List.prefix_of_prefix_length_le hleads (List.prefix_append _ _) hle)
  · exact h₂ (List.prefix_of_prefix_length_le (List.prefix_append _ _) hleads hle)

section Branches

variable {c : UInt16} {rest : JsString} (inPaste submitted : Bool)

theorem detectFrom_start (h : BRACKETED_PASTE_START.isPrefixOf (c :: rest) = true) :
    detectFrom 0 (c :: rest) inPaste submitted =
      detectFrom (BRACKETED_PASTE_START.length - 1) rest true submitted := by
  rw [detectFrom, if_pos h]

theorem detectFrom_end (hstart : ¬BRACKETED_PASTE_START.isPrefixOf (c :: rest) = true)
    (h : BRACKETED_PASTE_END.isPrefixOf (c :: rest) = true) :
    detectFrom 0 (c :: rest) inPaste submitted =
      detectFrom (BRACKETED_PASTE_END.length - 1) rest false submitted := by
  rw [detectFrom, if_neg hstart, if_pos h]

theorem detectFrom_hold (hstart : ¬BRACKETED_PASTE_START.isPrefixOf (c :: rest) = true)
    (hend : ¬BRACKETED_PASTE_END.isPrefixOf (c :: rest) = true)
    (h : (c :: rest).isPrefixOf BRACKETED_PASTE_START = true ∨
      (c :: rest).isPrefixOf BRACKETED_PASTE_END = true) :
    detectFrom 0 (c :: rest) inPaste submitted = ⟨⟨inPaste, some (c :: rest)⟩, submitted⟩ := by
  rw [detectFrom, if_neg hstart, if_neg hend, if_pos h]

theorem detectFrom_unit (hstart : ¬BRACKETED_PASTE_START.isPrefixOf (c :: rest) = true)
    (hend : ¬BRACKETED_PASTE_END.isPrefixOf (c :: rest) = true)
    (h : ¬((c :: rest).isPrefixOf BRACKETED_PASTE_START = true ∨
      (c :: rest).isPrefixOf BRACKETED_PASTE_END = true)) :
    detectFrom 0 (c :: rest) inPaste submitted =
      detectFrom 0 rest inPaste (submitted || (!inPaste && isLineBreak c)) := by
  rw [detectFrom, if_neg hstart, if_neg hend, if_neg h]

end Branches

theorem detectFrom_succ (skip : Nat) (c : UInt16) (rest : JsString) (inPaste submitted : Bool) :
    detectFrom (skip + 1) (c :: rest) inPaste submitted = detectFrom skip rest inPaste submitted := by
  rw [detectFrom]

theorem detectFrom_nil (skip : Nat) (inPaste submitted : Bool) :
    detectFrom skip [] inPaste submitted = ⟨⟨inPaste, none⟩, submitted⟩ := by
  cases skip <;> rw [detectFrom]

/-- A scan of a longer text goes on where the scan of its first part stopped. -/
theorem detectFrom_append {skip : Nat} {text : JsString} (hskip : skip ≤ text.length) (more : JsString)
    (inPaste submitted : Bool) :
    detectFrom skip (text ++ more) inPaste submitted =
      detectFrom 0
        ((detectFrom skip text inPaste submitted).state.pendingMarker.getD [] ++ more)
        (detectFrom skip text inPaste submitted).state.inPaste
        (detectFrom skip text inPaste submitted).submitted := by
  induction text generalizing skip inPaste submitted with
  | nil =>
    obtain rfl := Nat.le_zero.1 hskip
    rw [detectFrom_nil, Option.getD_none]
  | cons c text ih =>
    cases skip with
    | succ skip =>
      rw [List.cons_append, detectFrom_succ, detectFrom_succ]
      exact ih (Nat.le_of_succ_le_succ hskip) inPaste submitted
    | zero =>
      have hfits : ∀ {m : JsString}, IsMarker m → m.isPrefixOf (c :: text) = true →
          m.length - 1 ≤ text.length := by
        intro m hm hleads
        have := (isPrefixOf_iff.1 hleads).length_le
        rw [hm.length, List.length_cons] at this
        rw [hm.length]
        omega
      have hmore : ∀ {m : JsString}, m.isPrefixOf (c :: text) = true →
          m.isPrefixOf (c :: (text ++ more)) = true :=
        fun hleads => isPrefixOf_iff.2 ((isPrefixOf_iff.1 hleads).trans
          (List.prefix_append (c :: text) more))
      rw [List.cons_append]
      by_cases hstart : BRACKETED_PASTE_START.isPrefixOf (c :: text) = true
      · rw [detectFrom_start _ _ hstart, detectFrom_start _ _ (hmore hstart)]
        exact ih (hfits (.inl rfl) hstart) _ _
      by_cases hend : BRACKETED_PASTE_END.isPrefixOf (c :: text) = true
      · have hnot : ¬BRACKETED_PASTE_START.isPrefixOf (c :: (text ++ more)) = true := by
          intro hboth
          have hshort : BRACKETED_PASTE_START.length ≤ (c :: text).length := by
            have := (isPrefixOf_iff.1 hend).length_le
            rwa [IsMarker.length (.inr rfl), ← IsMarker.length (.inl rfl)] at this
          have hleads := List.prefix_of_prefix_length_le (isPrefixOf_iff.1 hboth)
            (List.prefix_append (c :: text) more) hshort
          exact hstart (isPrefixOf_iff.2 hleads)
        rw [detectFrom_end _ _ hstart hend, detectFrom_end _ _ hnot (hmore hend)]
        exact ih (hfits (.inr rfl) hend) _ _
      by_cases hheld : (c :: text).isPrefixOf BRACKETED_PASTE_START = true ∨
          (c :: text).isPrefixOf BRACKETED_PASTE_END = true
      · rw [detectFrom_hold _ _ hstart hend hheld]
        rfl
      obtain ⟨hheld₁, hheld₂⟩ := not_or.1 hheld
      have hstart' : ¬BRACKETED_PASTE_START.isPrefixOf (c :: (text ++ more)) = true := fun h =>
        not_prefix_append (fun h => hstart (isPrefixOf_iff.2 h))
          (fun h => hheld₁ (isPrefixOf_iff.2 h)) (isPrefixOf_iff.1 h)
      have hend' : ¬BRACKETED_PASTE_END.isPrefixOf (c :: (text ++ more)) = true := fun h =>
        not_prefix_append (fun h => hend (isPrefixOf_iff.2 h))
          (fun h => hheld₂ (isPrefixOf_iff.2 h)) (isPrefixOf_iff.1 h)
      have hheld' : ¬((c :: (text ++ more)).isPrefixOf BRACKETED_PASTE_START = true ∨
          (c :: (text ++ more)).isPrefixOf BRACKETED_PASTE_END = true) := by
        rintro (h | h)
        · exact hheld₁ (isPrefixOf_iff.2 ((List.prefix_append (c :: text) more).trans
            (isPrefixOf_iff.1 h)))
        · exact hheld₂ (isPrefixOf_iff.2 ((List.prefix_append (c :: text) more).trans
            (isPrefixOf_iff.1 h)))
      rw [detectFrom_unit _ _ hstart hend hheld, detectFrom_unit _ _ hstart' hend' hheld']
      exact ih (Nat.zero_le _) _ _

/-- What is held is held again as long as nothing follows. -/
theorem detectFrom_held {held : JsString} {m : JsString} (hm : IsMarker m) (hne : held ≠ [])
    (hleads : held <+: m) (hshort : ¬m <+: held) (inPaste : Bool) :
    detectFrom 0 held inPaste false = ⟨⟨inPaste, some held⟩, false⟩ := by
  obtain ⟨c, text, rfl⟩ := List.exists_cons_of_ne_nil hne
  have hlen : (c :: text).length < 6 := by
    refine lt_of_le_of_ne (hm.length ▸ hleads.length_le) fun heq => ?_
    exact hshort (hleads.eq_of_length (heq.trans hm.length.symm) ▸ List.prefix_rfl)
  have hno : ∀ m', IsMarker m' → ¬m'.isPrefixOf (c :: text) = true := by
    intro m' hm' h
    have := (isPrefixOf_iff.1 h).length_le
    rw [hm'.length] at this
    omega
  rw [detectFrom, if_neg (hno _ (.inl rfl)), if_neg (hno _ (.inr rfl)), if_pos]
  rcases hm with rfl | rfl
  · exact .inl (isPrefixOf_iff.2 hleads)
  · exact .inr (isPrefixOf_iff.2 hleads)

/-- A stream submits and pastes the same however it is cut. -/
theorem detectChunks_eq {current : PromptSubmitState} (hheld : HeldBack current.pendingMarker)
    (chunks : List JsString) :
    detectChunks current chunks = detectPromptSubmit current chunks.flatten := by
  induction chunks generalizing current with
  | nil =>
    obtain ⟨inPaste, pending⟩ := current
    cases pending with
    | none => rfl
    | some held =>
      obtain ⟨hne, m, hm, hleads, hshort⟩ := hheld held rfl
      rw [detectPromptSubmit, List.flatten_nil, List.append_nil]
      exact (detectFrom_held hm hne hleads hshort inPaste).symm
  | cons chunk chunks ih =>
    have hfirst : HeldBack (detectPromptSubmit current chunk).state.pendingMarker :=
      held_detectFrom _ _ _ _
    have hwhole : detectPromptSubmit current (chunk ++ chunks.flatten) =
        detectFrom 0 ((detectPromptSubmit current chunk).state.pendingMarker.getD [] ++ chunks.flatten)
          (detectPromptSubmit current chunk).state.inPaste
          (detectPromptSubmit current chunk).submitted := by
      rw [detectPromptSubmit, ← List.append_assoc, detectFrom_append (Nat.zero_le _)]
      rfl
    rw [detectChunks, ih hfirst, List.flatten_cons, hwhole, detectFrom_submitted]
    rfl

/-- The two scanners read a stream the same however it is cut, the filter as `normalScreen` and the
detector as the spans of its pastes. -/
theorem scanners_read_the_stream (chunks : List JsString) :
    (PromptAltScreenFilter.initial.processChunks chunks).2 = normalScreen chunks.flatten ∧
      ((detectChunks createPromptSubmitState chunks).submitted = true ↔ SubmitsIn chunks.flatten) ∧
      ((detectChunks createPromptSubmitState chunks).state.inPaste = true ↔ Pasting chunks.flatten) ∧
      (detectChunks createPromptSubmitState chunks).state =
        (detectPromptSubmit createPromptSubmitState chunks.flatten).state := by
  have hchunks :=
    @detectChunks_eq createPromptSubmitState (fun held h => by cases h) chunks
  have hspec := @detectFrom_spec [] chunks.flatten false false
    (fun u p heq hne => absurd (List.append_eq_nil_iff.1 heq.symm).2 hne)
    (iff_of_false Bool.false_ne_true fun ⟨u, tail, heq, _⟩ =>
      absurd (List.append_eq_nil_iff.1 (List.append_eq_nil_iff.1 heq.symm).2).1 (by decide))
    (iff_of_false Bool.false_ne_true fun ⟨b, c, after, heq, _⟩ =>
      absurd (List.append_eq_nil_iff.1 heq.symm).2 (List.cons_ne_nil _ _))
  refine ⟨?_, ?_, ?_, congrArg PromptSubmitResult.state hchunks⟩
  · rw [PromptAltScreenFilter.processChunks_eq]
    exact output_normalScreenFrom [] chunks.flatten
  · rw [hchunks]
    exact hspec.1
  · rw [hchunks]
    exact hspec.2

/-- Between an enter and a leave the leave itself is dropped too, wherever line breaks are put. -/
theorem leave_is_dropped :
    ((PromptAltScreenFilter.initial.process (js "\x1b[?47hx\x1b[?47l")).2.filter (· ≠ unit '\n')) ≠
      js "\x1b[?47h\x1b[?47l" := by decide +kernel

end Dormouse.Terminal
