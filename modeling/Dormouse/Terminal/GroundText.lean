import Mathlib.Data.List.Induction
import Dormouse.Terminal.Reading

/-!
# Dormouse.Terminal.GroundText

The parser's treatment of a run of ground text (bells stripped, queries answered, a partial
query held back) is `heldMachine` on the run without its bells.
-/

namespace Dormouse.Terminal

/-! ### Held text -/

theorem isBell_TERMINAL_BELL : isBell (.notification TERMINAL_BELL_NOTIFICATION) = true := by decide

theorem nonBells_bell : nonBells [.notification TERMINAL_BELL_NOTIFICATION] = [] := by
  simp [nonBells, isBell_TERMINAL_BELL]

/-- A byte that does not continue what is held finds nothing held. -/
theorem heldMachine_flush {held : Held} {c : UInt16} (h : held.continue? c = none)
    (rest : JsString) :
    heldMachine.run held (c :: rest) =
      ((heldMachine.run .none (c :: rest)).1,
        groundRun held.text ++ (heldMachine.run .none (c :: rest)).2) := by
  have hstep : heldMachine.step held c = ((freshByte c).1, groundRun held.text ++ (freshByte c).2) := by
    simp only [heldMachine, h]
  have hnone : heldMachine.step .none c = freshByte c := rfl
  rw [Transducer.run_cons, Transducer.run_cons, hstep, hnone, List.append_assoc]

/-- What a run of ground text puts out when nothing of it is held back. -/
def settled (held : Held) (g : JsString) : List Emission :=
  heldMachine.output held g ++ groundRun (heldMachine.state held g).text

theorem settled_flush {held : Held} {c : UInt16} (h : held.continue? c = none) (rest : JsString) :
    settled held (c :: rest) = groundRun held.text ++ settled .none (c :: rest) := by
  have hrun := heldMachine_flush h rest
  rw [Transducer.run_eq, Transducer.run_eq, Prod.mk.injEq] at hrun
  rw [settled, hrun.1, hrun.2, List.append_assoc]
  rfl

theorem settled_continue {held held' : Held} {c : UInt16} {out : List Emission}
    (h : held.continue? c = some (held', out)) (rest : JsString) :
    settled held (c :: rest) = out ++ settled held' rest := by
  have hstep : heldMachine.step held c = (held', out) := by
    simp only [heldMachine, h]
  rw [settled, Transducer.output_cons, Transducer.state_cons, hstep, List.append_assoc]
  rfl

theorem settled_fresh (c : UInt16) (rest : JsString) :
    settled .none (c :: rest) = (freshByte c).2 ++ settled (freshByte c).1 rest := by
  rw [settled, Transducer.output_cons, Transducer.state_cons, List.append_assoc]
  rfl

/-! ### Queries -/

/-- The emissions are the text and the events. -/
structure Projects (out : List Emission) (r : JsString × List TerminalProtocolEvent) : Prop where
  visible : visibleOf out = r.1
  text : textOf out = r.1
  events : eventsOf out = nonBells r.2

theorem Projects.ground {out : List Emission} {r : JsString × List TerminalProtocolEvent}
    (h : Projects out r) (g : JsString) : Projects (groundRun g ++ out) (g ++ r.1, r.2) := by
  constructor
  · rw [visibleOf_append, visibleOf_groundRun, h.visible]
  · rw [textOf_append, textOf_groundRun, h.text]
  · rw [eventsOf_append, eventsOf_groundRun, h.events]
    rfl

theorem replaceDeviceAttributeQueries_skip {c : UInt16} {rest : JsString}
    (h : deviceAttributeQueryAt (c :: rest) = none) :
    replaceDeviceAttributeQueries 0 (c :: rest) =
      (c :: (replaceDeviceAttributeQueries 0 rest).1, (replaceDeviceAttributeQueries 0 rest).2) := by
  rw [replaceDeviceAttributeQueries, h]

theorem deviceAttributeQueryAt_fresh {c : UInt16} {rest : JsString} (hesc : c ≠ ESC)
    (hcsi : c ≠ CSI) : deviceAttributeQueryAt (c :: rest) = none := by
  have h1 : (ESC == c) = false := beq_false_of_ne (Ne.symm hesc)
  have h2 : (CSI == c) = false := beq_false_of_ne (Ne.symm hcsi)
  simp [deviceAttributeQueryAt, List.isPrefixOf, h1, h2]

theorem continue?_eq_none {held : Held} {c x : UInt16} {next : Held × List Emission}
    (hif : held.continue? c = if c = x then some next else none) (h : held.continue? c = none) :
    (x == c) = false := by
  refine beq_false_of_ne ?_
  intro hx
  rw [hif, if_pos hx.symm] at h
  cases h

/-- No query starts in held text the next byte does not continue. -/
theorem replaceDeviceAttributeQueries_flush {held : Held} {c : UInt16}
    (h : held.continue? c = none) (rest : JsString) :
    replaceDeviceAttributeQueries 0 (held.text ++ c :: rest) =
      (held.text ++ (replaceDeviceAttributeQueries 0 (c :: rest)).1,
        (replaceDeviceAttributeQueries 0 (c :: rest)).2) := by
  have hbracket : ∀ more, deviceAttributeQueryAt (unit '[' :: more) = none := fun more =>
    deviceAttributeQueryAt_fresh (by decide) (by decide)
  have hgt : ∀ more, deviceAttributeQueryAt (unit '>' :: more) = none := fun more =>
    deviceAttributeQueryAt_fresh (by decide) (by decide)
  have hcsi : (CSI == ESC) = false := by decide
  have hesc : (ESC == CSI) = false := by decide
  cases held with
  | none => rfl
  | esc =>
    have hc := continue?_eq_none (x := unit '[') rfl h
    have hhead : deviceAttributeQueryAt (ESC :: c :: rest) = none := by
      simp [deviceAttributeQueryAt, List.isPrefixOf, hc, hcsi]
    show replaceDeviceAttributeQueries 0 (ESC :: c :: rest) = _
    rw [replaceDeviceAttributeQueries_skip hhead]
    rfl
  | escBracket =>
    have hc := continue?_eq_none (x := unit '>') rfl h
    have hhead : deviceAttributeQueryAt (ESC :: unit '[' :: c :: rest) = none := by
      simp [deviceAttributeQueryAt, List.isPrefixOf, hc, hcsi]
    show replaceDeviceAttributeQueries 0 (ESC :: unit '[' :: c :: rest) = _
    rw [replaceDeviceAttributeQueries_skip hhead,
      replaceDeviceAttributeQueries_skip (hbracket _)]
    rfl
  | escBracketGt =>
    have hc := continue?_eq_none (x := unit 'q') rfl h
    have hhead : deviceAttributeQueryAt (ESC :: unit '[' :: unit '>' :: c :: rest) = none := by
      simp [deviceAttributeQueryAt, List.isPrefixOf, hc, hcsi]
    show replaceDeviceAttributeQueries 0 (ESC :: unit '[' :: unit '>' :: c :: rest) = _
    rw [replaceDeviceAttributeQueries_skip hhead,
      replaceDeviceAttributeQueries_skip (hbracket _), replaceDeviceAttributeQueries_skip (hgt _)]
    rfl
  | csi =>
    have hc := continue?_eq_none (x := unit '>') rfl h
    have hhead : deviceAttributeQueryAt (CSI :: c :: rest) = none := by
      simp [deviceAttributeQueryAt, List.isPrefixOf, hc, hesc]
    show replaceDeviceAttributeQueries 0 (CSI :: c :: rest) = _
    rw [replaceDeviceAttributeQueries_skip hhead]
    rfl
  | csiGt =>
    have hc := continue?_eq_none (x := unit 'q') rfl h
    have hhead : deviceAttributeQueryAt (CSI :: unit '>' :: c :: rest) = none := by
      simp [deviceAttributeQueryAt, List.isPrefixOf, hc, hesc]
    show replaceDeviceAttributeQueries 0 (CSI :: unit '>' :: c :: rest) = _
    rw [replaceDeviceAttributeQueries_skip hhead, replaceDeviceAttributeQueries_skip (hgt _)]
    rfl

/-- A byte that continues held text lengthens it or completes a query. -/
theorem continue?_cases {held held' : Held} {c : UInt16} {out : List Emission}
    (h : held.continue? c = some (held', out)) :
    (out = [] ∧ ∀ rest, held.text ++ c :: rest = held'.text ++ rest) ∨
      (held' = .none ∧ out = [.event (.response ITERM2_DEVICE_ATTRIBUTES_RESPONSE)] ∧
        ∀ rest, replaceDeviceAttributeQueries 0 (held.text ++ c :: rest) =
          ((replaceDeviceAttributeQueries 0 rest).1,
            .response ITERM2_DEVICE_ATTRIBUTES_RESPONSE :: (replaceDeviceAttributeQueries 0 rest).2)) := by
  have hif : ∀ {x : UInt16} {next : Held × List Emission},
      (if c = x then some next else none) = some (held', out) → c = x ∧ next = (held', out) := by
    intro x next hx
    split at hx
    · next hc => exact ⟨hc, Option.some.inj hx⟩
    · cases hx
  cases held with
  | none => cases h
  | esc =>
    obtain ⟨rfl, hnext⟩ := hif h
    cases hnext
    exact Or.inl ⟨rfl, fun rest => rfl⟩
  | escBracket =>
    obtain ⟨rfl, hnext⟩ := hif h
    cases hnext
    exact Or.inl ⟨rfl, fun rest => rfl⟩
  | csi =>
    obtain ⟨rfl, hnext⟩ := hif h
    cases hnext
    exact Or.inl ⟨rfl, fun rest => rfl⟩
  | escBracketGt =>
    obtain ⟨rfl, hnext⟩ := hif h
    cases hnext
    exact Or.inr ⟨rfl, rfl, fun rest => rfl⟩
  | csiGt =>
    obtain ⟨rfl, hnext⟩ := hif h
    cases hnext
    exact Or.inr ⟨rfl, rfl, fun rest => rfl⟩

/-- The queries replaced in a run of ground text, whatever is held before it. -/
theorem settled_projects (held : Held) (g : JsString) :
    Projects (settled held g) (replaceDeviceAttributeQueries 0 (held.text ++ g)) := by
  induction g generalizing held with
  | nil =>
    have hnone : replaceDeviceAttributeQueries 0 (held.text ++ []) = (held.text, []) := by
      cases held <;> rfl
    have hground := @Projects.ground [] ([], []) ⟨rfl, rfl, rfl⟩ held.text
    rw [hnone]
    simpa [settled] using hground
  | cons c rest ih =>
    cases hcontinue : held.continue? c with
    | some next =>
      obtain ⟨held', out⟩ := next
      rw [settled_continue hcontinue]
      rcases continue?_cases hcontinue with ⟨rfl, htext⟩ | ⟨rfl, rfl, hreplace⟩
      · rw [htext]
        exact ih held'
      · have hrest := ih .none
        rw [hreplace]
        exact ⟨hrest.visible, hrest.text, congrArg (_ :: ·) hrest.events⟩
    | none =>
      rw [settled_flush hcontinue, replaceDeviceAttributeQueries_flush hcontinue]
      refine Projects.ground ?_ held.text
      rw [settled_fresh]
      by_cases hesc : c = ESC
      · subst hesc
        exact ih .esc
      by_cases hcsi : c = CSI
      · subst hcsi
        exact ih .csi
      have hfresh : freshByte c = (.none, [.ground c]) := by simp [freshByte, hesc, hcsi]
      rw [hfresh, replaceDeviceAttributeQueries_skip (deviceAttributeQueryAt_fresh hesc hcsi)]
      exact Projects.ground (ih .none) [c]

/-! ### The held suffix -/

/-- What is held behind a byte. -/
theorem heldMachine_step_state (held : Held) (c : UInt16) :
    (heldMachine.step held c).1 =
      if c = ESC then .esc
      else if c = CSI then .csi
      else if c = unit '[' ∧ held = .esc then .escBracket
      else if c = unit '>' ∧ held = .escBracket then .escBracketGt
      else if c = unit '>' ∧ held = .csi then .csiGt
      else .none := by
  have hstep : (heldMachine.step held c).1 =
      ((held.continue? c).map Prod.fst).getD (freshByte c).1 := by
    simp only [heldMachine]
    cases held.continue? c <;> rfl
  rw [hstep]
  by_cases hesc : c = ESC
  · subst hesc
    cases held <;> rfl
  by_cases hcsi : c = CSI
  · subst hcsi
    cases held <;> rfl
  have hfresh : (freshByte c).1 = .none := by simp [freshByte, hesc, hcsi]
  have hdiff : unit '>' ≠ unit '[' := by decide
  rw [if_neg hesc, if_neg hcsi, hfresh]
  cases held with
  | none => simp [Held.continue?]
  | esc => by_cases hc : c = unit '[' <;> simp [Held.continue?, hc]
  | escBracket => by_cases hc : c = unit '>' <;> simp [Held.continue?, hc, hdiff]
  | csi => by_cases hc : c = unit '>' <;> simp [Held.continue?, hc, hdiff]
  | escBracketGt => by_cases hc : c = unit 'q' <;> simp [Held.continue?, hc]
  | csiGt => by_cases hc : c = unit 'q' <;> simp [Held.continue?, hc]

theorem state_append_singleton (g : JsString) (c : UInt16) :
    heldMachine.state .none (g ++ [c]) =
      (heldMachine.step (heldMachine.state .none g) c).1 := by
  rw [Transducer.state_append]
  rfl

theorem append_suffix_iff {l g : JsString} {x c : UInt16} :
    l ++ [x] <:+ g ++ [c] ↔ c = x ∧ l <:+ g := by
  rw [List.suffix_concat_iff]
  constructor
  · rintro (hnil | ⟨t, heq, hsuffix⟩)
    · exact absurd hnil (by simp)
    · obtain ⟨rfl, hx⟩ := List.append_inj' heq rfl
      exact ⟨(List.cons.inj hx).1.symm, hsuffix⟩
  · rintro ⟨rfl, hsuffix⟩
    exact Or.inr ⟨l, rfl, hsuffix⟩

/-- What is held is the longest end of the run that may become a query. -/
theorem text_suffix_iff (g : JsString) {held : Held} (hheld : held ≠ .none) :
    held.text <:+ g ↔ heldMachine.state .none g = held := by
  induction g using List.reverseRecOn generalizing held with
  | nil =>
    rw [Transducer.state_nil, List.suffix_nil]
    cases held with
    | none => exact absurd rfl hheld
    | esc | escBracket | escBracketGt | csi | csiGt => decide
  | append_singleton g c ih =>
    have h1 : unit '>' ≠ ESC := by decide
    have h2 : unit '>' ≠ CSI := by decide
    have h3 : unit '[' ≠ ESC := by decide
    have h4 : unit '[' ≠ CSI := by decide
    have h5 : CSI ≠ ESC := by decide
    have h6 : unit '>' ≠ unit '[' := by decide
    rw [state_append_singleton, heldMachine_step_state]
    cases held with
    | none => exact absurd rfl hheld
    | esc =>
      show [] ++ [ESC] <:+ _ ↔ _
      rw [append_suffix_iff]
      by_cases hc : c = ESC
      · simp [hc]
      · simp only [hc, false_and, if_false, false_iff]
        split_ifs <;> simp
    | csi =>
      show [] ++ [CSI] <:+ _ ↔ _
      rw [append_suffix_iff]
      by_cases hc : c = CSI
      · simp [hc, h5]
      · simp only [hc, false_and, if_false, false_iff]
        split_ifs <;> simp
    | escBracket =>
      show [ESC] ++ [unit '['] <:+ _ ↔ _
      rw [append_suffix_iff, show [ESC] = Held.esc.text from rfl, ih (by simp)]
      by_cases hc : c = unit '['
      · subst hc
        simp only [h3, h4, true_and, if_false, h6.symm, false_and]
        split_ifs with hesc <;> simp [hesc]
      · simp only [hc, false_and, if_false, false_iff]
        split_ifs <;> simp
    | escBracketGt =>
      show [ESC, unit '['] ++ [unit '>'] <:+ _ ↔ _
      rw [append_suffix_iff, show [ESC, unit '['] = Held.escBracket.text from rfl, ih (by simp)]
      by_cases hc : c = unit '>'
      · subst hc
        simp only [h1, h2, h6, true_and, if_false, false_and]
        split_ifs with hbracket hcsi <;> simp [hbracket]
      · simp only [hc, false_and, if_false, false_iff]
        split_ifs <;> simp
    | csiGt =>
      show [CSI] ++ [unit '>'] <:+ _ ↔ _
      rw [append_suffix_iff, show [CSI] = Held.csi.text from rfl, ih (by simp)]
      by_cases hc : c = unit '>'
      · subst hc
        simp only [h1, h2, h6, true_and, if_false, false_and]
        split_ifs with hbracket hcsi
        · simp [hbracket]
        · simp [hcsi]
        · simp [hcsi]
      · simp only [hc, false_and, if_false, false_iff]
        split_ifs <;> simp

theorem takeDeviceAttributePendingSuffix_eq (g : JsString) :
    takeDeviceAttributePendingSuffix g = (heldMachine.state .none g).text := by
  have hsuffix : ∀ held : Held, held ≠ .none →
      (held.text.isSuffixOf g) = decide (heldMachine.state .none g = held) := by
    intro held hheld
    rw [Bool.eq_iff_iff, List.isSuffixOf_iff_suffix, decide_eq_true_iff]
    exact text_suffix_iff g hheld
  have hlist : DEVICE_ATTRIBUTE_PENDING_SUFFIXES = [Held.escBracketGt, .escBracket, .esc, .csiGt, .csi].map
      Held.text := rfl
  rw [takeDeviceAttributePendingSuffix, hlist]
  simp only [List.map_cons, List.map_nil, List.find?_cons, List.find?_nil,
    hsuffix .escBracketGt (by simp), hsuffix .escBracket (by simp), hsuffix .esc (by simp),
    hsuffix .csiGt (by simp), hsuffix .csi (by simp)]
  cases heldMachine.state .none g <;> rfl

/-- The start of a query behind anything held puts that out and is held itself. -/
theorem output_text (before : Held) {held : Held} (hheld : held ≠ .none) :
    heldMachine.output before held.text = groundRun before.text := by
  cases held with
  | none => exact absurd rfl hheld
  | esc | escBracket | escBracketGt | csi | csiGt => cases before <;> rfl

/-- The run in front of what is held puts everything out. -/
theorem settled_take (g : JsString) :
    settled .none (g.take (g.length - (heldMachine.state .none g).text.length)) =
      heldMachine.output .none g := by
  cases hheld : heldMachine.state .none g with
  | none =>
    simp only [Held.text, List.length_nil, Nat.sub_zero, List.take_length, settled, hheld,
      groundRun, List.map_nil, List.append_nil]
  | esc | escBracket | escBracketGt | csi | csiGt =>
    obtain ⟨front, hg⟩ := (text_suffix_iff g (by simp)).2 hheld
    rw [← hg, List.length_append, Nat.add_sub_cancel, List.take_left, Transducer.output_append,
      output_text _ (by simp)]
    rfl

/-! ### A run of ground text -/

theorem stripStandaloneBells_fst (segment : JsString) :
    (stripStandaloneBells segment).1 = segment.filter (· != BEL) := by
  rw [stripStandaloneBells]
  split
  · rfl
  next h =>
    refine (List.filter_eq_self.2 ?_).symm
    intro c hc
    have hne : c ≠ BEL := by
      rintro rfl
      exact h hc
    simpa using hne

theorem nonBells_stripStandaloneBells (segment : JsString) :
    nonBells (stripStandaloneBells segment).2 = [] := by
  rw [stripStandaloneBells]
  split
  · exact nonBells_bell
  · rfl

/-- The run without its bells. -/
def unbelled (text : JsString) : JsString := text.filter (· != BEL)

theorem scanGap_projects (gap : JsString) :
    Projects (settled .none (unbelled gap)) (scanGap gap) := by
  have h := settled_projects .none (unbelled gap)
  have hgap : scanGap gap = ((answerDeviceAttributeQueries (unbelled gap)).1,
      (stripStandaloneBells gap).2 ++ (answerDeviceAttributeQueries (unbelled gap)).2) := by
    rw [scanGap, stripStandaloneBells_fst]
    rfl
  rw [hgap]
  refine ⟨h.visible, h.text, ?_⟩
  rw [nonBells_append, nonBells_stripStandaloneBells, List.nil_append]
  exact h.events

theorem scanTail_projects (osc99Pending : Osc99Pending) (text : JsString) :
    let scanned := scanTail osc99Pending text
    Projects (heldMachine.output .none (unbelled text)) (scanned.visibleData, scanned.events) ∧
      scanned.textData = scanned.visibleData ∧
      scanned.mode = .ground (heldMachine.state .none (unbelled text)).text ∧
      scanned.osc99Pending = osc99Pending := by
  have hfst : (stripStandaloneBells text).1 = unbelled text := stripStandaloneBells_fst text
  have hpending := takeDeviceAttributePendingSuffix_eq (unbelled text)
  have h := settled_projects .none
    ((unbelled text).take ((unbelled text).length - (heldMachine.state .none (unbelled text)).text.length))
  rw [settled_take] at h
  simp only [scanTail, hfst, hpending]
  refine ⟨⟨h.visible, h.text, ?_⟩, trivial, trivial, trivial⟩
  rw [nonBells_append, nonBells_stripStandaloneBells, List.nil_append]
  exact h.events

end Dormouse.Terminal
