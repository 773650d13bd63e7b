import Dormouse.Terminal.Chunking

/-!
# Dormouse.Terminal.ModeMachine

The text a reading puts out does not depend on the kitty notifications it has collected:
`modeMachine` is the reading without them and without the events.
-/

namespace Dormouse.Terminal

variable {host : ParserHost}

/-! ### The fate of an OSC -/

inductive OscFate
  | null
  | throws
  | events
  deriving DecidableEq

def OscParse.fate : OscParse → OscFate
  | .null => .null
  | .throws => .throws
  | .events _ _ => .events

theorem fate_ite {p : Prop} [Decidable p] {x y x' y' : OscParse} (hx : x.fate = x'.fate)
    (hy : y.fate = y'.fate) : (if p then x else y).fate = (if p then x' else y').fate := by
  by_cases hp : p
  · rw [if_pos hp, if_pos hp]
    exact hx
  · rw [if_neg hp, if_neg hp]
    exact hy

/-- Which way an OSC goes is in its content alone. -/
theorem parseOsc_fate (σ σ' : Osc99Pending) (content : JsString) :
    (parseOsc host σ content).fate = (parseOsc host σ' content).fate := by
  have h9 : (parseOsc9 host σ content).fate = (parseOsc9 host σ' content).fate := by
    refine fate_ite rfl (fate_ite rfl (fate_ite ?_ ?_))
    · cases parseOsc94 host content <;> rfl
    · cases sanitizeText (content.drop 2) BODY_LIMIT <;> rfl
  have h1337 : (parseOsc1337 host σ content).fate = (parseOsc1337 host σ' content).fate :=
    fate_ite rfl (fate_ite rfl rfl)
  refine fate_ite rfl (fate_ite h9 (fate_ite rfl (fate_ite rfl (fate_ite h1337 (fate_ite rfl
    (fate_ite rfl (fate_ite rfl (fate_ite rfl ?_))))))))
  cases parseColorQuery host content with
  | some response => rfl
  | none => exact fate_ite rfl rfl

/-! ### The machine -/

def Emission.isData : Emission → Bool
  | .ground _ | .control _ => true
  | .event _ => false

/-- What is put out, apart from the events. -/
def dataOf (out : List Emission) : List Emission := out.filter Emission.isData

@[simp] theorem dataOf_append (a b : List Emission) : dataOf (a ++ b) = dataOf a ++ dataOf b :=
  List.filter_append a b

theorem dataOf_eventRun (events : List TerminalProtocolEvent) : dataOf (eventRun events) = [] := by
  rw [dataOf, List.filter_eq_nil_iff]
  intro e he
  obtain ⟨event, -, rfl⟩ := List.mem_map.1 he
  exact Bool.false_ne_true

theorem visibleOf_dataOf (out : List Emission) : visibleOf (dataOf out) = visibleOf out := by
  induction out with
  | nil => rfl
  | cons e rest ih =>
    cases e with
    | ground c | control c => exact congrArg (c :: ·) ih
    | event e => exact ih

theorem textOf_dataOf (out : List Emission) : textOf (dataOf out) = textOf out := by
  induction out with
  | nil => rfl
  | cons e rest ih =>
    cases e with
    | ground c => exact congrArg (c :: ·) ih
    | control c | event e => exact ih

def modeMachine (host : ParserHost) : Transducer ReadMode UInt16 Emission where
  step mode c :=
    let r := (readMachine host).step ⟨mode, InsertionMap.empty⟩ c
    (r.1.mode, dataOf r.2)

theorem groundStep_eq (σ σ' : Osc99Pending) (held : Held) (bells : Bool) (c : UInt16) :
    (groundStep σ held bells c).1.mode = (groundStep σ' held bells c).1.mode ∧
      (groundStep σ held bells c).2 = (groundStep σ' held bells c).2 := by
  rw [groundStep, groundStep]
  split
  · exact ⟨rfl, rfl⟩
  · cases introducerOf held bells c <;> exact ⟨rfl, rfl⟩

theorem finishOsc_eq (σ σ' : Osc99Pending) (introducer content ender : JsString) :
    (finishOsc host σ introducer content ender).1.mode =
        (finishOsc host σ' introducer content ender).1.mode ∧
      dataOf (finishOsc host σ introducer content ender).2 =
        dataOf (finishOsc host σ' introducer content ender).2 := by
  have hfate := @parseOsc_fate host σ σ' content
  rw [finishOsc, finishOsc]
  cases hparse : parseOsc host σ content <;> cases hparse' : parseOsc host σ' content <;>
    rw [hparse, hparse'] at hfate
  case null.null => exact ⟨rfl, rfl⟩
  case throws.throws => exact ⟨rfl, rfl⟩
  case events.events => exact ⟨rfl, by rw [dataOf_eventRun, dataOf_eventRun]⟩
  all_goals cases hfate

theorem step_mode (σ : Osc99Pending) (mode : ReadMode) (c : UInt16) :
    ((readMachine host).step ⟨mode, σ⟩ c).1.mode = ((modeMachine host).step mode c).1 ∧
      dataOf ((readMachine host).step ⟨mode, σ⟩ c).2 = ((modeMachine host).step mode c).2 := by
  let σ' : Osc99Pending := InsertionMap.empty
  cases mode with
  | threw => exact ⟨rfl, rfl⟩
  | ground held bells =>
    obtain ⟨hmode, hout⟩ := groundStep_eq σ σ' held bells c
    exact ⟨hmode, congrArg dataOf hout⟩
  | forward kind heldEsc =>
    obtain ⟨hmode, hout⟩ := groundStep_eq σ σ' .esc false c
    show (forwardStep σ kind heldEsc c).1.mode = (forwardStep σ' kind heldEsc c).1.mode ∧
      dataOf (forwardStep σ kind heldEsc c).2 = dataOf (forwardStep σ' kind heldEsc c).2
    rw [forwardStep, forwardStep]
    split
    · split
      · exact ⟨rfl, rfl⟩
      · exact ⟨hmode, congrArg dataOf hout⟩
    · split
      · exact ⟨rfl, rfl⟩
      · split <;> exact ⟨rfl, rfl⟩
  | osc introducer content heldEsc =>
    obtain ⟨hmode, hout⟩ := groundStep_eq σ σ' .esc false c
    show (oscStep host σ introducer content heldEsc c).1.mode =
        (oscStep host σ' introducer content heldEsc c).1.mode ∧
      dataOf (oscStep host σ introducer content heldEsc c).2 =
        dataOf (oscStep host σ' introducer content heldEsc c).2
    rw [oscStep, oscStep]
    split
    · split
      · exact finishOsc_eq σ σ' introducer content _
      · exact ⟨hmode, by simp only [dataOf_append, hout]⟩
    split
    · exact ⟨rfl, rfl⟩
    split
    · exact ⟨rfl, rfl⟩
    split
    · exact finishOsc_eq σ σ' introducer content _
    split <;> exact ⟨rfl, rfl⟩

/-- The machine is the reading, whatever notifications are pending. -/
theorem run_mode (σ : Osc99Pending) (mode : ReadMode) (s : JsString) :
    ((readMachine host).state ⟨mode, σ⟩ s).mode = (modeMachine host).state mode s ∧
      dataOf ((readMachine host).output ⟨mode, σ⟩ s) = (modeMachine host).output mode s := by
  induction s generalizing mode σ with
  | nil => exact ⟨rfl, rfl⟩
  | cons c rest ih =>
    obtain ⟨hmode, hout⟩ := @step_mode host σ mode c
    have hnext := ih ((readMachine host).step ⟨mode, σ⟩ c).1.osc99Pending
      ((readMachine host).step ⟨mode, σ⟩ c).1.mode
    rw [Transducer.state_cons, Transducer.state_cons, Transducer.output_cons,
      Transducer.output_cons, dataOf_append, ← hmode, ← hout]
    exact ⟨hnext.1, by rw [← hnext.2]⟩

theorem visibleOf_run (σ : Osc99Pending) (mode : ReadMode) (s : JsString) :
    visibleOf ((readMachine host).output ⟨mode, σ⟩ s) = visibleOf ((modeMachine host).output mode s) := by
  rw [← (run_mode σ mode s).2, visibleOf_dataOf]

theorem textOf_run (σ : Osc99Pending) (mode : ReadMode) (s : JsString) :
    textOf ((readMachine host).output ⟨mode, σ⟩ s) = textOf ((modeMachine host).output mode s) := by
  rw [← (run_mode σ mode s).2, textOf_dataOf]

end Dormouse.Terminal
