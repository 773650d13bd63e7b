import Dormouse.Lib.Matches
import Dormouse.Terminal.TextFilter

/-!
# Dormouse.Terminal.Controls

`stripTerminalControls` (`terminal-controls.ts`): the visible text of a piece of PTY output, which
may start or end in the middle of a sequence.
-/

namespace Dormouse.Terminal

open JsString (isUpper isLower isDigit)

/-! ### The sequences -/

/-- From `0` to `?`. -/
def isCsiParameter (c : UInt16) : Bool := 0x30 ≤ c && c ≤ 0x3F

/-- From the space to `/`. -/
def isCsiIntermediate (c : UInt16) : Bool := 0x20 ≤ c && c ≤ 0x2F

/-- From `@` to `~`. -/
def isCsiFinal (c : UInt16) : Bool := 0x40 ≤ c && c ≤ 0x7E

/-- From `0` to `~`. -/
def isEscapeFinal (c : UInt16) : Bool := 0x30 ≤ c && c ≤ 0x7E

/-- What lies behind the parameters and intermediates of a CSI, and how many they are. -/
def csiBody (text : JsString) : JsString × Nat :=
  let behind := (text.dropWhile isCsiParameter).dropWhile isCsiIntermediate
  (behind, text.length - behind.length)

/-- `ESC [`, parameters, intermediates, final; with boundaries, any but SGR leaves a line break. -/
def csiSequence (boundaries : Bool) : JsString → Option (JsString × Nat)
  | c :: d :: rest =>
    if c = ESC ∧ d = unit '[' then
      match csiBody rest with
      | (final :: _, length) =>
        if isCsiFinal final then
          some (if boundaries ∧ final ≠ unit 'm' then js "\n" else [], length + 3)
        else none
      | ([], _) => none
    else none
  | _ => none

/-- A CSI that the text ends in; it takes the rest of it, so that there is one match at most. -/
def csiCutOff (boundary : JsString) : JsString → Option (JsString × Nat)
  | c :: d :: rest =>
    if c = ESC ∧ d = unit '[' ∧ (csiBody rest).1 = [] then some (boundary, rest.length + 2) else none
  | _ => none

/-- `ESC`, one of `()*+`, a letter or digit. -/
def charsetDesignator : JsString → Option (JsString × Nat)
  | c :: d :: e :: _ =>
    if c = ESC ∧ (js "()*+").contains d ∧ (isUpper e || isLower e || isDigit e) = true then
      some ([], 3)
    else none
  | _ => none

/-- `ESC`, intermediates, final. -/
def escapeSequence (boundary : JsString) : JsString → Option (JsString × Nat)
  | c :: rest =>
    if c = ESC then
      match rest.dropWhile isCsiIntermediate with
      | final :: after =>
        if isEscapeFinal final then some (boundary, rest.length - after.length + 1) else none
      | [] => none
    else none
  | [] => none

/-- `[\x08\x0b\x0c]`. -/
def movesCursor (c : UInt16) : Bool := c == 0x08 || c == 0x0B || c == 0x0C

/-- `[\x00-\x08\x0e-\x1f\x7f-\x9f]`. -/
def isOtherControl (c : UInt16) : Bool :=
  c ≤ 0x08 || (0x0E ≤ c && c ≤ 0x1F) || (0x7F ≤ c && c ≤ 0x9F)

/-- Remove presentation controls; with boundaries, what moves the cursor leaves a line break. -/
def stripTerminalControls (input : JsString) (boundaries : Bool) : JsString :=
  let boundary := if boundaries then js "\n" else []
  let text := (TerminalControlStreamFilter.process .ground input).2
  let text := replaceAll (csiSequence boundaries) text
  let text := replaceAll (csiCutOff boundary) text
  let text := replaceAll charsetDesignator text
  let text := replaceAll (escapeSequence boundary) text
  let text := text.flatMap fun c => if movesCursor c then boundary else [c]
  text.filter fun c => !isOtherControl c

/-! ### Text without controls -/

theorem csiSequence_of_ne {c : UInt16} (h : c ≠ ESC) (boundaries : Bool) (rest : JsString) :
    csiSequence boundaries (c :: rest) = none := by
  cases rest <;> simp [csiSequence, h]

theorem csiCutOff_of_ne {c : UInt16} (h : c ≠ ESC) (boundary rest : JsString) :
    csiCutOff boundary (c :: rest) = none := by
  cases rest <;> simp [csiCutOff, h]

theorem charsetDesignator_of_ne {c : UInt16} (h : c ≠ ESC) (rest : JsString) :
    charsetDesignator (c :: rest) = none := by
  match rest with
  | [] => rfl
  | [_] => rfl
  | _ :: _ :: _ => simp [charsetDesignator, h]

theorem escapeSequence_of_ne {c : UInt16} (h : c ≠ ESC) (boundary rest : JsString) :
    escapeSequence boundary (c :: rest) = none := by
  simp [escapeSequence, h]

theorem process_ground_cons {c : UInt16} (hesc : c ≠ ESC) (hc1 : isC1Introducer c = false)
    (text : JsString) :
    (TerminalControlStreamFilter.process .ground (c :: text)).2 =
      c :: (TerminalControlStreamFilter.process .ground text).2 := by
  have hstep : filterMachine.step .ground c = (.ground, [c]) := groundByte_plain hesc hc1
  rw [TerminalControlStreamFilter.process_eq, TerminalControlStreamFilter.process_eq,
    Transducer.run_cons, hstep]
  rfl

/-- A character that no control starts with comes through, and what follows is read on its own. -/
theorem stripTerminalControls_cons {c : UInt16} (hesc : c ≠ ESC) (hc1 : isC1Introducer c = false)
    (hmoves : movesCursor c = false) (hcontrol : isOtherControl c = false) (text : JsString)
    (boundaries : Bool) :
    stripTerminalControls (c :: text) boundaries = c :: stripTerminalControls text boundaries := by
  simp only [stripTerminalControls]
  rw [process_ground_cons hesc hc1, replaceAll_cons (csiSequence_of_ne hesc _ _),
    replaceAll_cons (csiCutOff_of_ne hesc _ _), replaceAll_cons (charsetDesignator_of_ne hesc _),
    replaceAll_cons (escapeSequence_of_ne hesc _ _), List.flatMap_cons]
  simp only [hmoves, Bool.false_eq_true, if_false, List.singleton_append]
  rw [List.filter_cons_of_pos (by simp [hcontrol])]

/-- A line break comes through. -/
theorem stripTerminalControls_newline (text : JsString) (boundaries : Bool) :
    stripTerminalControls (unit '\n' :: text) boundaries =
      unit '\n' :: stripTerminalControls text boundaries :=
  stripTerminalControls_cons (by decide) (by decide) (by decide) (by decide) text boundaries

/-- Printable ASCII. -/
def isPrintable (c : UInt16) : Bool := 0x20 ≤ c && c ≤ 0x7E

theorem stripTerminalControls_printable {text : JsString} (h : ∀ c ∈ text, isPrintable c = true)
    (boundaries : Bool) : stripTerminalControls text boundaries = text := by
  induction text with
  | nil => cases boundaries <;> rfl
  | cons c text ih =>
    obtain ⟨hlow, hhigh⟩ : 0x20 ≤ c ∧ c ≤ 0x7E := by
      simpa [isPrintable] using h c List.mem_cons_self
    have hesc : c ≠ ESC := fun heq => absurd (heq ▸ hlow) (by decide)
    have hc1 : isC1Introducer c = false := by
      simp only [isC1Introducer, List.contains_eq_mem, List.mem_cons, List.not_mem_nil, or_false,
        decide_eq_false_iff_not, not_or]
      refine ⟨?_, ?_, ?_, ?_, ?_⟩ <;> (rintro rfl; revert hhigh; decide)
    have hmoves : movesCursor c = false := by
      simp only [movesCursor, Bool.or_eq_false_iff, beq_eq_false_iff_ne]
      refine ⟨⟨?_, ?_⟩, ?_⟩ <;> (rintro rfl; revert hlow; decide)
    have hcontrol : isOtherControl c = false := by
      simp only [isOtherControl, Bool.or_eq_false_iff, Bool.and_eq_false_iff, decide_eq_false_iff_not,
        UInt16.not_le]
      simp only [UInt16.le_iff_toNat_le, UInt16.lt_iff_toNat_lt] at hlow hhigh ⊢
      have h1 : (0x20 : UInt16).toNat = 32 := rfl
      have h2 : (0x7E : UInt16).toNat = 126 := rfl
      have h3 : (0x08 : UInt16).toNat = 8 := rfl
      have h4 : (0x1F : UInt16).toNat = 31 := rfl
      have h5 : (0x7F : UInt16).toNat = 127 := rfl
      omega
    rw [stripTerminalControls_cons hesc hc1 hmoves hcontrol,
      ih fun d hd => h d (List.mem_cons_of_mem _ hd)]

end Dormouse.Terminal
