import Dormouse.Terminal.Disposition
import Dormouse.Terminal.GroundText
import Dormouse.Terminal.TextFilter

/-!
# Dormouse.Terminal.ScanSound

The parts a scan takes a text apart into, read byte by byte: a run of ground text up to an
introducer, a string the renderer gets, an OSC that may be consumed.
-/

namespace Dormouse.Terminal

open StringControlKind

/-! ### Introducers -/

/-- The byte before this one is an ESC that may open a string. -/
def escPending (held : Held) (bells : Bool) : Bool := held = .esc && !bells

def IntroducerMatch.prepend (lead : JsString) (m : IntroducerMatch) : IntroducerMatch :=
  { m with before := lead ++ m.before }

/-- What is held behind a byte of ground text that opens nothing. -/
def heldBehind (held : Held) (c : UInt16) : Held := if c = BEL then held else (heldMachine.step held c).1

theorem escPending_behind (held : Held) (c : UInt16) :
    escPending (heldBehind held c) (decide (c = BEL)) = decide (c = ESC) := by
  by_cases hbel : c = BEL
  · subst hbel
    simp only [escPending, decide_true, Bool.not_true, Bool.and_false]
    decide
  · rw [heldBehind, if_neg hbel, heldMachine_step_state, decide_eq_false hbel, escPending]
    by_cases hesc : c = ESC
    · simp [hesc]
    · simp only [hesc, if_false, decide_false, Bool.not_false, Bool.and_true]
      split_ifs <;> rfl

theorem introducerScan_opens {held : Held} {bells : Bool} {c : UInt16} {flushed introducer : JsString}
    (h : introducerOf held bells c = some (flushed, introducer)) (rest : JsString) :
    (stringControlIntroducerScan (escIf (escPending held bells) ++ c :: rest) =
        some ⟨escIf (escPending held bells), introducer, rest⟩ ∧ flushed = held.text) ∨
      (stringControlIntroducerScan (escIf (escPending held bells) ++ c :: rest) =
        some ⟨[], introducer, rest⟩ ∧ flushed = [] ∧ escPending held bells = true) := by
  rw [introducerOf] at h
  split at h
  · next hc1 =>
      cases h
      refine Or.inl ⟨?_, rfl⟩
      cases escPending held bells with
      | false => exact stringControlIntroducerScan_c1 hc1 rest
      | true =>
        have hopen : opensString c = false := by
          by_contra hopen
          have hmem : c ∈ js "]PX^_" := by simpa [opensString] using hopen
          have hall : (js "]PX^_").all (fun d => !isC1Introducer d) = true := by decide
          have hnot := List.all_eq_true.1 hall c hmem
          rw [hc1] at hnot
          cases hnot
        show stringControlIntroducerScan (ESC :: c :: rest) = _
        rw [stringControlIntroducerScan_skip isC1Introducer_ESC
          (by intro _ d after heq; cases heq; exact hopen), stringControlIntroducerScan_c1 hc1]
        rfl
  · split at h
    · next hopen =>
        obtain ⟨rfl, rfl, hd⟩ := hopen
        cases h
        exact Or.inr ⟨stringControlIntroducerScan_esc hd rest, rfl, rfl⟩
    · cases h

/-- What of the text before a byte that opens nothing lies before the ESC it may be. -/
def passedBy (e : Bool) (c : UInt16) : JsString := if c = ESC then escIf e else escIf e ++ [c]

theorem introducerScan_passes {held : Held} {bells : Bool} {c : UInt16}
    (h : introducerOf held bells c = none) (rest : JsString) :
    stringControlIntroducerScan (escIf (escPending held bells) ++ c :: rest) =
      (stringControlIntroducerScan (escIf (decide (c = ESC)) ++ rest)).map
        (·.prepend (passedBy (escPending held bells) c)) := by
  have hc1 : isC1Introducer c = false := by
    rw [introducerOf] at h
    split at h
    · cases h
    · next hc1 => simpa using hc1
  have hbehind : stringControlIntroducerScan (c :: rest) =
      (stringControlIntroducerScan (escIf (decide (c = ESC)) ++ rest)).map
        (·.prepend (passedBy false c)) := by
    by_cases hesc : c = ESC
    · subst hesc
      simp only [decide_true, passedBy, if_true]
      show _ = (stringControlIntroducerScan (ESC :: rest)).map _
      cases stringControlIntroducerScan (ESC :: rest) <;> rfl
    · rw [stringControlIntroducerScan_skip hc1 (fun h => absurd h hesc), decide_eq_false hesc,
        passedBy, if_neg hesc]
      rfl
  cases hpending : escPending held bells with
  | false => exact hbehind
  | true =>
    have hopen : opensString c = false := by
      have hheld : held = .esc ∧ bells = false := by simpa [escPending] using hpending
      by_contra hopen
      rw [introducerOf, hc1, if_neg Bool.false_ne_true, if_pos ⟨hheld.1, hheld.2, by simpa using hopen⟩] at h
      cases h
    show stringControlIntroducerScan (ESC :: c :: rest) = _
    rw [stringControlIntroducerScan_skip isC1Introducer_ESC
      (by intro _ d after heq; cases heq; exact hopen), hbehind, Option.map_map]
    congr 1
    funext m
    by_cases hesc : c = ESC <;> simp [passedBy, hesc, escIf, IntroducerMatch.prepend,
      IntroducerMatch.cons]

theorem introducerOf_BEL (held : Held) (bells : Bool) : introducerOf held bells BEL = none := by
  have hc1 : isC1Introducer BEL = false := by decide
  have hopen : opensString BEL = false := by decide
  simp [introducerOf, hc1, hopen]

/-! ### Ground text -/

theorem unbelled_cons (c : UInt16) (rest : JsString) :
    unbelled (c :: rest) = if c = BEL then unbelled rest else c :: unbelled rest := by
  by_cases hbel : c = BEL <;> simp [unbelled, hbel]

section Host

variable {host : ParserHost} {σ : Osc99Pending}

theorem groundStep_passes {held : Held} {bells : Bool} {c : UInt16}
    (h : introducerOf held bells c = none) :
    groundStep σ held bells c =
      (⟨.ground (heldBehind held c) (decide (c = BEL)), σ⟩,
        if c = BEL then [] else (heldMachine.step held c).2) := by
  by_cases hbel : c = BEL
  · simp [groundStep, hbel, heldBehind]
  · simp [groundStep, hbel, heldBehind, h]

theorem groundStep_opens {held : Held} {bells : Bool} {c : UInt16} {flushed introducer : JsString}
    (h : introducerOf held bells c = some (flushed, introducer)) :
    groundStep σ held bells c =
      (⟨(openString introducer).1, σ⟩, groundRun flushed ++ (openString introducer).2) := by
  have hbel : c ≠ BEL := by
    rintro rfl
    rw [introducerOf_BEL] at h
    cases h
  simp [groundStep, hbel, h]

theorem heldMachine_run_unbelled (held : Held) (c : UInt16) (rest : JsString) :
    heldMachine.run held (unbelled (c :: rest)) =
      ((heldMachine.run (heldBehind held c) (unbelled rest)).1,
        (if c = BEL then [] else (heldMachine.step held c).2) ++
          (heldMachine.run (heldBehind held c) (unbelled rest)).2) := by
  rw [unbelled_cons, heldBehind]
  split <;> rfl

/-- The reading of a run that opens no string. -/
theorem run_ground_stays (text : JsString) {held : Held} {bells : Bool}
    (h : stringControlIntroducerScan (escIf (escPending held bells) ++ text) = none) :
    ∃ bells', (readMachine host).run ⟨.ground held bells, σ⟩ text =
      (⟨.ground (heldMachine.state held (unbelled text)) bells', σ⟩,
        heldMachine.output held (unbelled text)) := by
  induction text generalizing held bells with
  | nil => exact ⟨bells, rfl⟩
  | cons c rest ih =>
    cases hintro : introducerOf held bells c with
    | some opened =>
      rcases introducerScan_opens hintro rest with ⟨hscan, -⟩ | ⟨hscan, -, -⟩ <;>
        · rw [hscan] at h
          cases h
    | none =>
      rw [introducerScan_passes hintro, Option.map_eq_none_iff, ← escPending_behind] at h
      obtain ⟨bells', hrun⟩ := ih h
      refine ⟨bells', ?_⟩
      have hstep : (readMachine host).step ⟨.ground held bells, σ⟩ c = _ :=
        groundStep_passes hintro
      have hheld := heldMachine_run_unbelled held c rest
      rw [Transducer.run_eq, Transducer.run_eq, Prod.mk.injEq] at hheld
      rw [Transducer.run_cons, hstep, hrun, hheld.1, hheld.2]

theorem before_of_esc {rest : JsString} {m : IntroducerMatch}
    (h : stringControlIntroducerScan (ESC :: rest) = some m) :
    m.before = [] ∨ ∃ front, m.before = ESC :: front := by
  rcases introducer_cases (ESC :: rest) with hnil | ⟨_, _, heq, hc⟩ | ⟨_, _, heq, hd⟩ |
    ⟨_, _, heq, hc, hesc⟩
  · cases hnil
  · rw [heq, stringControlIntroducerScan_c1 hc, Option.some.injEq] at h
    exact Or.inl (by rw [← h])
  · rw [heq, stringControlIntroducerScan_esc hd, Option.some.injEq] at h
    exact Or.inl (by rw [← h])
  · obtain ⟨rfl, rfl⟩ := List.cons.inj heq
    rw [stringControlIntroducerScan_skip hc hesc, Option.map_eq_some_iff] at h
    obtain ⟨m, -, rfl⟩ := h
    exact Or.inr ⟨m.before, rfl⟩

theorem continue?_ESC (held : Held) : held.continue? ESC = none := by cases held <;> rfl

/-- What was held before the ESC that may open a string. -/
def heldBefore (e : Bool) (held : Held) : Held := if e then .none else held

theorem heldBefore_run {held : Held} {bells : Bool} :
    heldMachine.run (heldBefore (escPending held bells) held) (escIf (escPending held bells)) =
      (held, []) := by
  cases hpending : escPending held bells with
  | false => rfl
  | true =>
    have hheld : held = .esc ∧ bells = false := by simpa [escPending] using hpending
    rw [hheld.1]
    rfl

theorem settled_append {before held : Held} {lead : JsString}
    (h : heldMachine.run before lead = (held, [])) (g : JsString) :
    settled before (lead ++ g) = settled held g := by
  rw [Transducer.run_eq, Prod.mk.injEq] at h
  rw [settled, Transducer.output_append, Transducer.state_append, h.1, h.2]
  rfl

theorem settled_unbelled_cons (held : Held) (c : UInt16) (rest : JsString) :
    settled held (unbelled (c :: rest)) =
      (if c = BEL then [] else (heldMachine.step held c).2) ++
        settled (heldBehind held c) (unbelled rest) := by
  have hheld := heldMachine_run_unbelled held c rest
  rw [Transducer.run_eq, Transducer.run_eq, Prod.mk.injEq] at hheld
  rw [settled, hheld.1, hheld.2, List.append_assoc]
  rfl

/-- An ESC that begins no introducer leaves what was held as it is put out. -/
theorem settled_esc (held : Held) {g : JsString} (h : g = [] ∨ ∃ front, g = ESC :: front) :
    (heldMachine.step held ESC).2 ++ settled .none (unbelled g) = settled held (unbelled g) := by
  have hstep : (heldMachine.step held ESC).2 = groundRun held.text := by cases held <;> rfl
  rw [hstep]
  rcases h with rfl | ⟨front, rfl⟩
  · exact List.append_nil _
  · have hun : unbelled (ESC :: front) = ESC :: unbelled front := rfl
    rw [hun, settled_flush (continue?_ESC held)]

theorem unbelled_escIf (e : Bool) (g : JsString) : unbelled (escIf e ++ g) = escIf e ++ unbelled g := by
  cases e <;> rfl

/-- The reading of a run up to the introducer it ends in. -/
theorem run_ground_opens (text : JsString) {held : Held} {bells : Bool} {m : IntroducerMatch}
    (h : stringControlIntroducerScan (escIf (escPending held bells) ++ text) = some m) :
    (readMachine host).run ⟨.ground held bells, σ⟩ text =
      (((readMachine host).run ⟨(openString m.introducer).1, σ⟩ m.after).1,
        settled (heldBefore (escPending held bells) held) (unbelled m.before) ++
          ((openString m.introducer).2 ++
            ((readMachine host).run ⟨(openString m.introducer).1, σ⟩ m.after).2)) := by
  induction text generalizing held bells m with
  | nil =>
    cases hpending : escPending held bells <;> rw [hpending] at h <;> cases h
  | cons c rest ih =>
    cases hintro : introducerOf held bells c with
    | some opened =>
      obtain ⟨flushed, introducer⟩ := opened
      have hstep : (readMachine host).step ⟨.ground held bells, σ⟩ c = _ :=
        groundStep_opens hintro
      have hflushed : m.introducer = introducer ∧ m.after = rest ∧
          settled (heldBefore (escPending held bells) held) (unbelled m.before) =
            groundRun flushed := by
        rcases introducerScan_opens hintro rest with ⟨hscan, rfl⟩ | ⟨hscan, rfl, hpending⟩
        · rw [hscan, Option.some.injEq] at h
          subst h
          refine ⟨rfl, rfl, ?_⟩
          have hsettled := settled_append (@heldBefore_run held bells) []
          rw [List.append_nil] at hsettled
          have hun := unbelled_escIf (escPending held bells) []
          rw [List.append_nil] at hun
          show settled _ (unbelled (escIf _)) = _
          rw [hun]
          exact (congrArg _ (List.append_nil _)).trans hsettled
        · rw [hscan, Option.some.injEq] at h
          subst h
          refine ⟨rfl, rfl, ?_⟩
          rw [hpending]
          rfl
      obtain ⟨rfl, rfl, hsettled⟩ := hflushed
      rw [Transducer.run_cons, hstep, hsettled, List.append_assoc]
    | none =>
      rw [introducerScan_passes hintro, Option.map_eq_some_iff] at h
      obtain ⟨m', hscan, rfl⟩ := h
      have hstep : (readMachine host).step ⟨.ground held bells, σ⟩ c = _ :=
        groundStep_passes hintro
      have hrun := @ih (heldBehind held c) (decide (c = BEL)) m'
        (by rw [escPending_behind]; exact hscan)
      rw [Transducer.run_cons, hstep, hrun, escPending_behind]
      simp only [IntroducerMatch.prepend, ← List.append_assoc]
      congr 3
      rw [passedBy]
      by_cases hesc : c = ESC
      · subst hesc
        have hbel : ESC ≠ BEL := by decide
        rw [if_neg hbel, if_pos rfl, unbelled_escIf, settled_append heldBefore_run]
        exact settled_esc held (before_of_esc hscan)
      · rw [if_neg hesc, decide_eq_false hesc, List.append_assoc, unbelled_escIf,
          settled_append heldBefore_run]
        exact (settled_unbelled_cons held c m'.before).symm

/-! ### Strings -/

theorem endsWithEsc_cons {c : UInt16} (hc : c ≠ ESC) (rest : JsString) :
    endsWithEsc (c :: rest) = endsWithEsc rest := by
  cases rest with
  | nil => simp [endsWithEsc, hc]
  | cons d after => rw [endsWithEsc, endsWithEsc, List.getLast?_cons_cons]

theorem dropHeldEsc_cons {c : UInt16} (hc : c ≠ ESC) (rest : JsString) :
    dropHeldEsc (c :: rest) = c :: dropHeldEsc rest := by
  rw [dropHeldEsc, dropHeldEsc, endsWithEsc_cons hc]
  cases rest with
  | nil => rfl
  | cons d after => split <;> rfl

theorem findStringControlEnd_cons {kind : StringControlKind} {c : UInt16} (hc : c ≠ ESC)
    (hend : endsString kind c = false) (rest : JsString) :
    findStringControlEnd kind (c :: rest) = (findStringControlEnd kind rest).map (·.cons c) := by
  rw [findStringControlEnd.eq_def]
  simp [hc, hend]

theorem findStringControlEnd_ender {kind : StringControlKind} {c : UInt16} (hc : c ≠ ESC)
    (hend : endsString kind c = true) (rest : JsString) :
    findStringControlEnd kind (c :: rest) = some ⟨[], [c], rest, c == CAN || c == SUB⟩ := by
  rw [findStringControlEnd.eq_def]
  simp [hc, hend]

theorem findStringControlEnd_st (kind : StringControlKind) (after : JsString) :
    findStringControlEnd kind (ESC :: unit '\\' :: after) =
      some ⟨[], [ESC, unit '\\'], after, false⟩ := by
  rw [findStringControlEnd.eq_def]
  simp

theorem findStringControlEnd_cancel (kind : StringControlKind) {d : UInt16} (hd : d ≠ unit '\\')
    (after : JsString) :
    findStringControlEnd kind (ESC :: d :: after) = some ⟨[], [], ESC :: d :: after, true⟩ := by
  rw [findStringControlEnd.eq_def]
  simp [hd]

/-- An ESC in ground text with nothing held is held. -/
theorem run_ground_ESC (text : JsString) :
    (readMachine host).run ⟨.ground .none false, σ⟩ (ESC :: text) =
      (readMachine host).run ⟨.ground .esc false, σ⟩ text := by
  have hstep : (readMachine host).step ⟨.ground .none false, σ⟩ ESC = (⟨.ground .esc false, σ⟩, []) :=
    rfl
  rw [Transducer.run_cons, hstep]
  rfl

/-- The reading of a string the renderer gets. -/
theorem run_forward (kind : StringControlKind) (text : JsString) :
    (readMachine host).run ⟨.forward kind false, σ⟩ text =
      match findStringControlEnd kind text with
      | none => (⟨.forward kind (endsWithEsc text), σ⟩, controlRun (dropHeldEsc text))
      | some e =>
        (((readMachine host).run ⟨.ground .none false, σ⟩ e.rest).1,
          controlRun (e.payload ++ e.ender) ++
            ((readMachine host).run ⟨.ground .none false, σ⟩ e.rest).2) := by
  induction text with
  | nil => rfl
  | cons c rest ih =>
    by_cases hesc : c = ESC
    · subst hesc
      have hstep : (readMachine host).step ⟨.forward kind false, σ⟩ ESC =
        (⟨.forward kind true, σ⟩, []) := rfl
      rw [Transducer.run_cons, hstep]
      rcases rest with _ | ⟨d, after⟩
      · rfl
      rw [Transducer.run_cons]
      by_cases hd : d = unit '\\'
      · subst hd
        rw [findStringControlEnd_st]
        rfl
      have hstep : (readMachine host).step ⟨.forward kind true, σ⟩ d =
          groundStep σ .esc false d := if_neg hd
      rw [findStringControlEnd_cancel kind hd, hstep]
      simp only
      rw [run_ground_ESC, Transducer.run_cons]
      rfl
    · by_cases hend : endsString kind c = true
      · have hstep : (readMachine host).step ⟨.forward kind false, σ⟩ c =
            (⟨.ground .none false, σ⟩, controlRun [c]) := by
          show forwardStep σ kind false c = _
          simp [forwardStep, hesc, hend]
        rw [Transducer.run_cons, hstep, findStringControlEnd_ender hesc hend]
        rfl
      · have hend' : endsString kind c = false := by simpa using hend
        have hstep : (readMachine host).step ⟨.forward kind false, σ⟩ c =
            (⟨.forward kind false, σ⟩, controlRun [c]) := by
          show forwardStep σ kind false c = _
          simp [forwardStep, hesc, hend]
        rw [Transducer.run_cons, hstep, ih, findStringControlEnd_cons hesc hend',
          endsWithEsc_cons hesc, dropHeldEsc_cons hesc]
        cases findStringControlEnd kind rest <;> rfl

theorem run_threw (text : JsString) :
    (readMachine host).run ⟨.threw, σ⟩ text = (⟨.threw, σ⟩, []) := by
  induction text with
  | nil => rfl
  | cons c rest ih =>
    have hstep : (readMachine host).step ⟨.threw, σ⟩ c = (⟨.threw, σ⟩, []) := rfl
    rw [Transducer.run_cons, hstep, ih]
    rfl

/-- The reading behind an OSC that ended. -/
def afterControl (host : ParserHost) (σ : Osc99Pending) (parse : ControlParse)
    (sequence rest : JsString) : ReadState × List Emission :=
  match parse with
  | .forward =>
    (((readMachine host).run ⟨.ground .none false, σ⟩ rest).1,
      controlRun sequence ++ ((readMachine host).run ⟨.ground .none false, σ⟩ rest).2)
  | .consume events σ =>
    (((readMachine host).run ⟨.ground .none false, σ⟩ rest).1,
      eventRun events ++ ((readMachine host).run ⟨.ground .none false, σ⟩ rest).2)
  | .throws => (⟨.threw, σ⟩, [])

/-- Where an OSC that does not end stands. -/
def atOscEnd (σ : Osc99Pending) (introducer content : JsString) (heldEsc : Bool) :
    ReadState × List Emission :=
  if oscDispositionAt content = some .forward then
    (⟨.forward .osc heldEsc, σ⟩, controlRun (introducer ++ content))
  else (⟨.osc introducer content heldEsc, σ⟩, [])

theorem parseControl_of_forward {lead payload content : JsString} {e : StringControlEnd}
    (h : oscDispositionAt lead = some .forward) (hpayload : e.payload = lead ++ payload)
    (more : JsString) (hcontent : content = lead ++ more) :
    parseControl host σ .osc content e = .forward := by
  rw [parseControl, hcontent, oscDispositionAt_append h more, if_pos rfl, hpayload,
    parseOsc_of_forward host σ (oscDispositionAt_append h payload)]
  split <;> rfl

theorem finishOsc_run {introducer content ender rest text : JsString} {e : StringControlEnd}
    (hcancelled : e.cancelled = false) (hpayload : e.payload = content) :
    (((readMachine host).run (finishOsc host σ introducer content ender).1 rest).1,
        (finishOsc host σ introducer content ender).2 ++
          ((readMachine host).run (finishOsc host σ introducer content ender).1 rest).2) =
      afterControl host σ (parseControl host σ .osc text e) (introducer ++ content ++ ender) rest := by
  rw [parseControl, hcancelled, hpayload, finishOsc]
  cases parseOsc host σ content with
  | null => rfl
  | events events σ' => rfl
  | throws => simp [run_threw, afterControl]

theorem abortOsc_run {content sequence rest text : JsString} {e : StringControlEnd}
    (hcancelled : e.cancelled = true) (hcontent : oscDispositionAt text = oscDispositionAt content) :
    (((readMachine host).run ⟨.ground .none false, σ⟩ rest).1,
        abortOsc content sequence ++ ((readMachine host).run ⟨.ground .none false, σ⟩ rest).2) =
      afterControl host σ (parseControl host σ .osc text e) sequence rest := by
  have hparse : parseControl host σ .osc text e =
      if oscDispositionAt content = some .forward then .forward else .consume [] σ := by
    rw [parseControl, hcancelled, hcontent]
    rfl
  rw [hparse, abortOsc]
  split <;> rfl

/-- The reading of an OSC the renderer may not get; `content` of it is read already. -/
theorem run_osc (introducer text : JsString) {content : JsString}
    (h : oscDispositionAt content ≠ some .forward) :
    (readMachine host).run ⟨.osc introducer content false, σ⟩ text =
      match findStringControlEnd .osc text with
      | none => atOscEnd σ introducer (content ++ dropHeldEsc text) (endsWithEsc text)
      | some e =>
        afterControl host σ
          (parseControl host σ .osc (content ++ text) { e with payload := content ++ e.payload })
          (introducer ++ (content ++ e.payload) ++ e.ender) e.rest := by
  induction text generalizing content with
  | nil =>
    show (_, _) = atOscEnd σ introducer (content ++ []) false
    rw [List.append_nil, atOscEnd, if_neg h]
  | cons c rest ih =>
    by_cases hesc : c = ESC
    · subst hesc
      have hstep : (readMachine host).step ⟨.osc introducer content false, σ⟩ ESC =
        (⟨.osc introducer content true, σ⟩, []) := rfl
      rw [Transducer.run_cons, hstep]
      cases rest with
      | nil =>
        show (_, _) = atOscEnd σ introducer (content ++ []) true
        rw [List.append_nil, atOscEnd, if_neg h]
        rfl
      | cons d after =>
        rw [Transducer.run_cons, List.nil_append]
        by_cases hd : d = unit '\\'
        · subst hd
          have hstep : (readMachine host).step ⟨.osc introducer content true, σ⟩ (unit '\\') =
              finishOsc host σ introducer content [ESC, unit '\\'] := rfl
          rw [findStringControlEnd_st, hstep]
          simp only [List.append_nil]
          exact finishOsc_run rfl rfl
        have hstep : (readMachine host).step ⟨.osc introducer content true, σ⟩ d =
            ((groundStep σ .esc false d).1,
              abortOsc (content ++ [ESC]) (introducer ++ content) ++
                (groundStep σ .esc false d).2) := if_neg hd
        rw [findStringControlEnd_cancel .osc hd, hstep]
        simp only [List.append_nil]
        rw [← @abortOsc_run host σ (content ++ [ESC]) _ _ _ _ rfl
          (oscDispositionAt_break_append content (Or.inl rfl) (d :: after)), run_ground_ESC,
          Transducer.run_cons, List.append_assoc]
        rfl
    by_cases hend : endsString .osc c = true
    · rw [Transducer.run_cons, findStringControlEnd_ender hesc hend]
      simp only [List.append_nil]
      by_cases habort : c = CAN ∨ c = SUB
      · have hstep : (readMachine host).step ⟨.osc introducer content false, σ⟩ c =
            (⟨.ground .none false, σ⟩,
              abortOsc (content ++ [c]) (introducer ++ content ++ [c])) := by
          show oscStep host σ introducer content false c = _
          simp [oscStep, hesc, habort]
        rw [hstep]
        refine abortOsc_run ?_ (oscDispositionAt_break_append content (Or.inr habort) rest)
        simpa using habort
      · have hstep : (readMachine host).step ⟨.osc introducer content false, σ⟩ c =
            finishOsc host σ introducer content [c] := by
          show oscStep host σ introducer content false c = _
          simp [oscStep, hesc, habort, hend]
        rw [hstep]
        refine finishOsc_run ?_ rfl
        simpa using habort
    have hend' : endsString .osc c = false := by simpa using hend
    have habort : ¬(c = CAN ∨ c = SUB) := by
      rintro (rfl | rfl) <;> exact hend (by decide)
    rw [findStringControlEnd_cons hesc hend', endsWithEsc_cons hesc, dropHeldEsc_cons hesc,
      Transducer.run_cons]
    by_cases hforward : oscDispositionAt (content ++ [c]) = some .forward
    · have hstep : (readMachine host).step ⟨.osc introducer content false, σ⟩ c =
          (⟨.forward .osc false, σ⟩, controlRun (introducer ++ (content ++ [c]))) := by
        show oscStep host σ introducer content false c = _
        simp [oscStep, hesc, habort, hend', hforward]
      rw [hstep, run_forward]
      have hmore : ∀ more, content ++ c :: more = content ++ [c] ++ more := by simp
      cases hfind : findStringControlEnd .osc rest with
      | none =>
        show (_, _) = atOscEnd σ introducer (content ++ c :: dropHeldEsc rest) (endsWithEsc rest)
        rw [hmore (dropHeldEsc rest), atOscEnd, if_pos (oscDispositionAt_append hforward _)]
        simp [controlRun]
      | some e =>
        simp only [Option.map_some, StringControlEnd.cons]
        rw [parseControl_of_forward hforward (hmore e.payload) rest (hmore rest)]
        simp [afterControl, controlRun, List.append_assoc]
    · have hstep : (readMachine host).step ⟨.osc introducer content false, σ⟩ c =
          (⟨.osc introducer (content ++ [c]) false, σ⟩, []) := by
        show oscStep host σ introducer content false c = _
        simp [oscStep, hesc, habort, hend', hforward]
      rw [hstep, ih hforward]
      cases findStringControlEnd .osc rest with
      | none => simp
      | some e => simp [StringControlEnd.cons]

end Host

end Dormouse.Terminal
