import Dormouse.Terminal.StringControl

/-!
# Dormouse.Terminal.TextFilter

`TerminalControlStreamFilter` reads whole runs between introducers. `filterMachine` reads
the same stream one byte at a time, and the filter is that machine, however its input is
cut.
-/

namespace Dormouse.Terminal

open TerminalControlStreamState

/-! ### The byte machine -/

def stringState : StringControlKind → TerminalControlStreamState
  | .osc => osc
  | .other => string

/-- A byte of ground text. -/
def groundByte (c : UInt16) : TerminalControlStreamState × JsString :=
  if c = ESC then (escape, [])
  else if isC1Introducer c then (stringState (stringControlKind [c]), [])
  else (ground, [c])

/-- The byte behind an ESC in ground text. -/
def escapeByte (c : UInt16) : TerminalControlStreamState × JsString :=
  if opensString c then (stringState (stringControlKind [ESC, c]), [])
  else ((groundByte c).1, ESC :: (groundByte c).2)

/-- A byte of a string's payload. -/
def stringByte (kind : StringControlKind) (c : UInt16) : TerminalControlStreamState :=
  if c = ESC then stringEscape else if endsString kind c then ground else stringState kind

def filterMachine : Transducer TerminalControlStreamState UInt16 UInt16 where
  step
    | ground, c => groundByte c
    | escape, c => escapeByte c
    | osc, c => (stringByte .osc c, [])
    | string, c => (stringByte .other c, [])
    | stringEscape, c => if c = unit '\\' then (ground, []) else escapeByte c

theorem filterMachine_string (kind : StringControlKind) (c : UInt16) :
    filterMachine.step (stringState kind) c = (stringByte kind c, []) := by
  cases kind <;> rfl

/-! ### The scans, byte by byte -/

theorem not_opensString_ESC : opensString ESC = false := by decide

theorem isC1Introducer_ESC : isC1Introducer ESC = false := by decide

theorem stringControlIntroducerScan_c1 {c : UInt16} (h : isC1Introducer c = true)
    (rest : JsString) : stringControlIntroducerScan (c :: rest) = some ⟨[], [c], rest⟩ := by
  rw [stringControlIntroducerScan.eq_def]
  simp only [h, if_true]

theorem stringControlIntroducerScan_esc {d : UInt16} (h : opensString d = true)
    (rest : JsString) :
    stringControlIntroducerScan (ESC :: d :: rest) = some ⟨[], [ESC, d], rest⟩ := by
  rw [stringControlIntroducerScan.eq_def]
  simp [h, isC1Introducer_ESC]

theorem stringControlIntroducerScan_skip {c : UInt16} {rest : JsString}
    (hc : isC1Introducer c = false) (hesc : c = ESC → ∀ d after, rest = d :: after →
      opensString d = false) :
    stringControlIntroducerScan (c :: rest) =
      (stringControlIntroducerScan rest).map (·.cons c) := by
  rw [stringControlIntroducerScan.eq_def]
  cases rest with
  | nil => simp [hc, stringControlIntroducerScan]
  | cons d after =>
    have hnot : (c == ESC && opensString d) = false := by
      by_cases h : c = ESC
      · rw [hesc h d after rfl, Bool.and_false]
      · rw [beq_false_of_ne h, Bool.false_and]
    simp [hc, hnot]

/-- A text is empty, starts with an introducer, or starts with a byte that opens nothing. -/
theorem introducer_cases (text : JsString) :
    text = [] ∨ (∃ c rest, text = c :: rest ∧ isC1Introducer c = true) ∨
      (∃ d rest, text = ESC :: d :: rest ∧ opensString d = true) ∨
      ∃ c rest, text = c :: rest ∧ isC1Introducer c = false ∧
        (c = ESC → ∀ d after, rest = d :: after → opensString d = false) := by
  rcases text with _ | ⟨c, rest⟩
  · exact Or.inl rfl
  by_cases hc : isC1Introducer c = true
  · exact Or.inr (Or.inl ⟨c, rest, rfl, hc⟩)
  by_cases hopen : c = ESC ∧ ∃ d after, rest = d :: after ∧ opensString d = true
  · obtain ⟨rfl, d, after, rfl, hd⟩ := hopen
    exact Or.inr (Or.inr (Or.inl ⟨d, after, rfl, hd⟩))
  · refine Or.inr (Or.inr (Or.inr ⟨c, rest, rfl, by simpa using hc, ?_⟩))
    intro hesc d after hrest
    by_contra hd
    exact hopen ⟨hesc, d, after, hrest, by simpa using hd⟩

theorem groundByte_c1 {c : UInt16} (h : isC1Introducer c = true) :
    groundByte c = (stringState (stringControlKind [c]), []) := by
  have hne : c ≠ ESC := by
    rintro rfl
    rw [isC1Introducer_ESC] at h
    exact Bool.false_ne_true h
  simp [groundByte, hne, h]

theorem groundByte_plain {c : UInt16} (hne : c ≠ ESC) (h : isC1Introducer c = false) :
    groundByte c = (ground, [c]) := by simp [groundByte, hne, h]

/-- An ESC that opened nothing is text, and the byte behind it is read from ground. -/
theorem run_escape {d : UInt16} (h : opensString d = false) (after : JsString) :
    filterMachine.run escape (d :: after) =
      ((filterMachine.run ground (d :: after)).1, ESC :: (filterMachine.run ground (d :: after)).2) := by
  have hstep : filterMachine.step escape d = ((groundByte d).1, ESC :: (groundByte d).2) := by
    show escapeByte d = _
    rw [escapeByte, h, if_neg Bool.false_ne_true]
  rw [Transducer.run_cons, Transducer.run_cons, hstep]
  rfl

/-- The machine over a run with no introducer in it. -/
theorem run_ground_none {text : JsString} (h : stringControlIntroducerScan text = none) :
    filterMachine.run ground text =
      if text.getLast? = some ESC then (escape, text.dropLast) else (ground, text) := by
  induction text with
  | nil => rfl
  | cons c rest ih =>
    rcases introducer_cases (c :: rest) with hnil | ⟨_, _, heq, hc⟩ | ⟨_, _, heq, hd⟩ |
      ⟨_, _, heq, hc, hesc⟩
    · exact absurd hnil (List.cons_ne_nil c rest)
    · rw [heq, stringControlIntroducerScan_c1 hc] at h
      exact absurd h (by simp)
    · rw [heq, stringControlIntroducerScan_esc hd] at h
      exact absurd h (by simp)
    obtain ⟨rfl, rfl⟩ := List.cons.inj heq
    rw [stringControlIntroducerScan_skip hc hesc, Option.map_eq_none_iff] at h
    have hrest := ih h
    by_cases hce : c = ESC
    · subst hce
      cases rest with
      | nil => rfl
      | cons d after =>
        have hd := hesc rfl d after rfl
        rw [Transducer.run_cons]
        show ((filterMachine.run escape (d :: after)).1,
          [] ++ (filterMachine.run escape (d :: after)).2) = _
        rw [run_escape hd, hrest, List.getLast?_cons_cons]
        split <;> rfl
    · have hstep : filterMachine.step ground c = (ground, [c]) := groundByte_plain hce hc
      rw [Transducer.run_cons, hstep, hrest]
      cases rest with
      | nil => simp [hce]
      | cons d after =>
        rw [List.getLast?_cons_cons]
        split <;> rfl

/-- The machine over a run that ends in an introducer. -/
theorem run_ground_some {text : JsString} {m : IntroducerMatch}
    (h : stringControlIntroducerScan text = some m) :
    filterMachine.run ground text =
      ((filterMachine.run (stringState (stringControlKind m.introducer)) m.after).1,
        m.before ++
          (filterMachine.run (stringState (stringControlKind m.introducer)) m.after).2) := by
  induction text generalizing m with
  | nil => cases h
  | cons c rest ih =>
    rcases introducer_cases (c :: rest) with hnil | ⟨_, _, heq, hc⟩ | ⟨_, _, heq, hd⟩ |
      ⟨_, _, heq, hc, hesc⟩
    · exact absurd hnil (List.cons_ne_nil c rest)
    · obtain ⟨rfl, rfl⟩ := List.cons.inj heq
      rw [stringControlIntroducerScan_c1 hc, Option.some.injEq] at h
      have hstep : filterMachine.step ground c = (stringState (stringControlKind [c]), []) :=
        groundByte_c1 hc
      rw [← h, Transducer.run_cons, hstep]
    · rw [heq] at h ⊢
      rw [stringControlIntroducerScan_esc hd, Option.some.injEq] at h
      have hstep : ∀ d, opensString d = true →
          filterMachine.step escape d = (stringState (stringControlKind [ESC, d]), []) := by
        intro d hd
        show escapeByte d = _
        rw [escapeByte, hd, if_pos rfl]
      rw [← h, Transducer.run_cons]
      show ((filterMachine.run escape (_ :: _)).1, [] ++ (filterMachine.run escape (_ :: _)).2) = _
      rw [Transducer.run_cons, hstep _ hd]
      rfl
    · obtain ⟨rfl, rfl⟩ := List.cons.inj heq
      rw [stringControlIntroducerScan_skip hc hesc, Option.map_eq_some_iff] at h
      obtain ⟨m, hm, rfl⟩ := h
      have hrest := ih hm
      show _ = ((filterMachine.run (stringState (stringControlKind m.introducer)) m.after).1,
        c :: m.before ++ _)
      by_cases hce : c = ESC
      · subst hce
        cases rest with
        | nil => cases hm
        | cons d after =>
          have hd := hesc rfl d after rfl
          rw [Transducer.run_cons]
          show ((filterMachine.run escape (d :: after)).1,
            [] ++ (filterMachine.run escape (d :: after)).2) = _
          rw [run_escape hd, hrest]
          rfl
      · have hstep : filterMachine.step ground c = (ground, [c]) := groundByte_plain hce hc
        rw [Transducer.run_cons, hstep, hrest]
        rfl

/-- The machine over a string's payload. -/
theorem run_stringState (kind : StringControlKind) (text : JsString) :
    filterMachine.run (stringState kind) text =
      match stringControlEndScan kind text with
      | none => (stringState kind, [])
      | some (ender, after) =>
        filterMachine.run (if ender = ESC then stringEscape else ground) after := by
  induction text with
  | nil => rfl
  | cons c rest ih =>
    rw [Transducer.run_cons, filterMachine_string, stringControlEndScan]
    by_cases hend : endsString kind c = true
    · rw [if_pos hend]
      by_cases hce : c = ESC
      · simp [stringByte, hce]
      · simp [stringByte, hce, hend]
    · have hce : c ≠ ESC := by
        rintro rfl
        exact hend (by cases kind <;> decide)
      rw [if_neg hend, ← ih, stringByte, if_neg hce, if_neg hend]
      rfl

/-! ### The filter is the machine -/

/-- The turns a state can take before it reads a byte. -/
def turnRank : TerminalControlStreamState → Nat
  | stringEscape => 2
  | escape => 1
  | ground | osc | string => 0

@[simp] theorem turnRank_stringState (kind : StringControlKind) :
    turnRank (stringState kind) = 0 := by cases kind <;> rfl

theorem stringControlIntroducerScan_length {text : JsString} {m : IntroducerMatch}
    (h : stringControlIntroducerScan text = some m) : m.after.length < text.length := by
  induction text generalizing m with
  | nil => cases h
  | cons c rest ih =>
    rcases introducer_cases (c :: rest) with hnil | ⟨_, _, heq, hc⟩ | ⟨_, _, heq, hd⟩ |
      ⟨_, _, heq, hc, hesc⟩
    · exact absurd hnil (List.cons_ne_nil c rest)
    · rw [heq, stringControlIntroducerScan_c1 hc, Option.some.injEq] at h
      rw [heq, ← h]
      exact Nat.lt_succ_self _
    · rw [heq, stringControlIntroducerScan_esc hd, Option.some.injEq] at h
      rw [heq, ← h]
      exact Nat.lt_succ_of_lt (Nat.lt_succ_self _)
    · obtain ⟨rfl, rfl⟩ := List.cons.inj heq
      rw [stringControlIntroducerScan_skip hc hesc, Option.map_eq_some_iff] at h
      obtain ⟨m, hm, rfl⟩ := h
      exact Nat.lt_succ_of_lt (ih hm : m.after.length < rest.length)

theorem stringControlEndScan_length {kind : StringControlKind} {text : JsString} {c : UInt16}
    {after : JsString} (h : stringControlEndScan kind text = some (c, after)) :
    after.length < text.length := by
  induction text with
  | nil => cases h
  | cons d rest ih =>
    rw [stringControlEndScan] at h
    split at h
    · cases h
      exact Nat.lt_succ_self _
    · exact Nat.lt_succ_of_lt (ih h)

/-- A turn does what the machine does on the part it reads, and comes closer to the end. -/
structure Advances (state : TerminalControlStreamState) (text : JsString)
    (turn : TerminalControlStreamState × JsString × JsString) : Prop where
  run_eq : filterMachine.run state text =
    ((filterMachine.run turn.1 turn.2.2).1, turn.2.1 ++ (filterMachine.run turn.1 turn.2.2).2)
  lt : 3 * turn.2.2.length + turnRank turn.1 < 3 * text.length + turnRank state

theorem advances_ground (c : UInt16) (rest : JsString) :
    Advances ground (c :: rest) (filterTurn ground c rest) := by
  rw [filterTurn]
  cases hscan : stringControlIntroducerScan (c :: rest) with
  | none =>
    have hrun := run_ground_none hscan
    by_cases hlast : (c :: rest).getLast? = some ESC
    · simp only [hlast, if_true] at hrun ⊢
      refine ⟨by rw [hrun]; simp, ?_⟩
      simp only [List.length_nil, List.length_cons, turnRank]
      omega
    · simp only [hlast, if_false] at hrun ⊢
      exact ⟨by rw [hrun]; simp, by simp [turnRank]⟩
  | some m =>
    have hkind : (if stringControlKind m.introducer = .osc then osc else string) =
        stringState (stringControlKind m.introducer) := by
      cases stringControlKind m.introducer <;> rfl
    have hlen := stringControlIntroducerScan_length hscan
    simp only [hkind]
    refine ⟨run_ground_some hscan, ?_⟩
    show 3 * m.after.length + turnRank (stringState _) < 3 * (c :: rest).length + 0
    rw [turnRank_stringState]
    omega

theorem advances_string (kind : StringControlKind) (c : UInt16) (rest : JsString) :
    Advances (stringState kind) (c :: rest) (filterTurn (stringState kind) c rest) := by
  have hturn : filterTurn (stringState kind) c rest =
      match stringControlEndScan kind (c :: rest) with
      | none => (stringState kind, [], [])
      | some (ender, after) => (if ender == ESC then stringEscape else ground, [], after) := by
    cases kind <;> rfl
  have hrun := run_stringState kind (c :: rest)
  rw [hturn]
  cases hscan : stringControlEndScan kind (c :: rest) with
  | none =>
    rw [hscan] at hrun
    refine ⟨hrun, ?_⟩
    simp only [turnRank_stringState, List.length_nil, List.length_cons]
    omega
  | some found =>
    obtain ⟨ender, after⟩ := found
    have hlen := stringControlEndScan_length hscan
    rw [hscan] at hrun
    refine ⟨by simpa using hrun, ?_⟩
    show 3 * after.length + turnRank (if ender == ESC then stringEscape else ground) < _
    rw [turnRank_stringState]
    split <;> simp only [turnRank] <;> omega

theorem advances_escape (c : UInt16) (rest : JsString) :
    Advances escape (c :: rest) (filterTurn escape c rest) := by
  show Advances _ _ (if c == unit ']' then _
    else if c == unit 'P' || c == unit 'X' || c == unit '^' || c == unit '_' then _ else _)
  by_cases hosc : c = unit ']'
  · subst hosc
    rw [if_pos (by decide)]
    refine ⟨?_, ?_⟩
    · rw [Transducer.run_cons]
      rfl
    · simp only [List.length_cons, turnRank]
      omega
  rw [if_neg (by simpa using hosc)]
  by_cases hopen : (c == unit 'P' || c == unit 'X' || c == unit '^' || c == unit '_') = true
  · rw [if_pos hopen]
    have hstep : filterMachine.step escape c = (string, []) := by
      simp only [Bool.or_eq_true, beq_iff_eq] at hopen
      rcases hopen with ((rfl | rfl) | rfl) | rfl <;> rfl
    refine ⟨?_, ?_⟩
    · rw [Transducer.run_cons, hstep]
    · simp only [List.length_cons, turnRank]
      omega
  · rw [if_neg hopen]
    have hnot : opensString c = false := by
      have hlist : opensString c = List.contains [unit ']', unit 'P', unit 'X', unit '^', unit '_'] c :=
        rfl
      rw [hlist]
      simp_all
    exact ⟨run_escape hnot rest, by simp [turnRank]⟩

theorem advances_stringEscape (c : UInt16) (rest : JsString) :
    Advances stringEscape (c :: rest) (filterTurn stringEscape c rest) := by
  show Advances _ _ (if c == unit '\\' then _ else _)
  by_cases hst : c = unit '\\'
  · subst hst
    rw [if_pos (by decide)]
    refine ⟨?_, ?_⟩
    · rw [Transducer.run_cons]
      rfl
    · simp only [List.length_cons, turnRank]
      omega
  · rw [if_neg (by simpa using hst)]
    refine ⟨?_, by simp [turnRank]⟩
    have hstep : filterMachine.step stringEscape c = filterMachine.step escape c := if_neg hst
    rw [Transducer.run_cons, Transducer.run_cons, hstep]
    rfl

theorem filterTurn_advances (state : TerminalControlStreamState) (c : UInt16) (rest : JsString) :
    Advances state (c :: rest) (filterTurn state c rest) := by
  cases state with
  | ground => exact advances_ground c rest
  | escape => exact advances_escape c rest
  | osc => exact advances_string .osc c rest
  | string => exact advances_string .other c rest
  | stringEscape => exact advances_stringEscape c rest

theorem filterLoop_eq {fuel : Nat} {state : TerminalControlStreamState} {text : JsString}
    (h : 3 * text.length + turnRank state < fuel) :
    filterLoop fuel state text = filterMachine.run state text := by
  induction fuel generalizing state text with
  | zero => omega
  | succ fuel ih =>
    cases text with
    | nil => rfl
    | cons c rest =>
      have hturn := filterTurn_advances state c rest
      have hlater := ih (Nat.lt_of_lt_of_le hturn.lt (Nat.le_of_lt_succ h))
      rw [filterLoop, hturn.run_eq, hlater]

/-- The filter is the byte machine. -/
theorem TerminalControlStreamFilter.process_eq (state : TerminalControlStreamState)
    (input : JsString) : process state input = filterMachine.run state input := by
  rw [process]
  split
  · next h =>
      obtain ⟨rfl, hlast, hscan⟩ := h
      rw [run_ground_none hscan, if_neg hlast]
  · refine filterLoop_eq ?_
    have : turnRank state ≤ 2 := by cases state <;> decide
    rw [filterFuel]
    omega

end Dormouse.Terminal
