import Mathlib.Data.List.Induction
import Mathlib.Data.List.TakeWhile
import Dormouse.Lib.Decimal
import Dormouse.Lib.Transducer
import Dormouse.Terminal.PromptScanners

/-!
# Dormouse.Terminal.PromptScannersSound

The scanners of the keystroke fallback **do not depend on how a stream is cut**, and what they say of
it can be read off the stream itself: which screen is shown behind each unit, and which paste is open.
-/

namespace Dormouse.Terminal

/-! ### The filter, unit by unit -/

namespace PromptAltScreenFilter

/-- A unit that the ground jump passes over. -/
def Passes (f : PromptAltScreenFilter) (c : UInt16) : Prop :=
  f.state = .ground ∧ isIntroducer c = false

instance (f : PromptAltScreenFilter) (c : UInt16) : Decidable (f.Passes c) :=
  inferInstanceAs (Decidable (_ ∧ _))

/-- The filter behind a unit, and whether a screen switch ends with it. -/
def next (f : PromptAltScreenFilter) (c : UInt16) : PromptAltScreenFilter × Bool :=
  if f.Passes c then (f, false) else f.read c

/-- What is put out for a unit: itself where the normal screen is shown, and a line break behind a
switch. -/
def emitted (f : PromptAltScreenFilter) (c : UInt16) : JsString :=
  (if f.inAlt then [] else [c]) ++ if (f.next c).2 then js "\n" else []

/-- The filter as a machine that reads one unit at a time. -/
def machine : Transducer PromptAltScreenFilter UInt16 UInt16 where
  step f c := ((f.next c).1, f.emitted c)

/-- Text without an introducer, on the ground. -/
theorem machine_ground {f : PromptAltScreenFilter} (hf : f.state = .ground) {text : JsString}
    (h : ∀ c ∈ text, isIntroducer c = false) :
    machine.run f text = (f, if f.inAlt then [] else text) := by
  induction text with
  | nil => cases f.inAlt <;> rfl
  | cons c text ih =>
    have hpass : f.Passes c := ⟨hf, h c List.mem_cons_self⟩
    have hnext : f.next c = (f, false) := if_pos hpass
    have hstep : machine.step f c = (f, if f.inAlt then [] else [c]) := by
      show ((f.next c).1, f.emitted c) = _
      rw [emitted, hnext]
      simp
    rw [Transducer.run_cons, hstep, ih fun c hc => h c (List.mem_cons_of_mem _ hc)]
    cases f.inAlt <;> rfl

theorem runText_none (input : JsString) (cursor : Nat) : runText input none cursor = [] := rfl

/-- A run up to a later position. -/
theorem runText_append {input : JsString} {start cursor : Nat} (hstart : start ≤ cursor) (n : Nat) :
    runText input (some start) (cursor + n) =
      runText input (some start) cursor ++ (input.drop cursor).take n := by
  have hlen : cursor + n - start = cursor - start + n := by omega
  have hdrop : (input.drop start).drop (cursor - start) = input.drop cursor := by
    rw [List.drop_drop]
    congr 1
    omega
  rw [runText, runText, hlen, List.take_add, hdrop]

theorem runText_self (input : JsString) (cursor n : Nat) :
    runText input (some cursor) (cursor + n) = (input.drop cursor).take n := by
  rw [runText, Nat.add_sub_cancel_left]

/-- What is being put out at a position of the loop: nothing of the alternate screen is in a run. -/
structure Scanning (f : PromptAltScreenFilter) (runStart : Option Nat) (cursor : Nat) : Prop where
  hidden : f.inAlt = true → runStart = none
  begun : ∀ start, runStart = some start → start ≤ cursor

theorem read_inAlt_of_not_switch {f : PromptAltScreenFilter} {c : UInt16} (h : (f.read c).2 = false) :
    (f.read c).1.inAlt = f.inAlt := by
  unfold read at h ⊢
  split
  · rfl
  split
  · rfl
  split
  · rfl
  split
  · rfl
  split
  · rename_i h₁ h₂ h₃ h₄ h₅
    rw [if_neg h₁, if_neg h₂, if_neg h₃, if_neg h₄, if_pos h₅] at h
    split
    · rename_i hfinal
      rw [if_pos hfinal] at h
      dsimp only at h ⊢
      rw [h]
      rfl
    · rfl
  split
  · rename_i h₁ h₂ h₃ h₄ h₅ h₆
    rw [if_neg h₁, if_neg h₂, if_neg h₃, if_neg h₄, if_neg h₅, if_pos h₆] at h
    cases h
  split
  · rfl
  · rfl

theorem drop_eq_cons {input : JsString} {cursor : Nat} (h : cursor < input.length) :
    input.drop cursor = input.getD cursor 0 :: input.drop (cursor + 1) := by
  rw [List.drop_eq_getElem_cons h, List.getD_eq_getElem?_getD, List.getElem?_eq_getElem h]
  rfl

/-- A round of the loop, behind the ground jump. -/
theorem loop_round {input : JsString} {rounds : Nat} {f : PromptAltScreenFilter} {cursor : Nat}
    {runStart : Option Nat} {output : JsString} (hscan : Scanning f runStart cursor)
    (hcursor : cursor < input.length) (hpass : ¬f.Passes (input.getD cursor 0))
    (ih : ∀ {f' : PromptAltScreenFilter} {runStart' : Option Nat} {output' : JsString},
      Scanning f' runStart' (cursor + 1) → loop input rounds f' (cursor + 1) runStart' output' =
        ((machine.run f' (input.drop (cursor + 1))).1,
          output' ++ runText input runStart' (cursor + 1) ++
            (machine.run f' (input.drop (cursor + 1))).2)) :
    (if (f.read (input.getD cursor 0)).2 then
        loop input rounds (f.read (input.getD cursor 0)).1 (cursor + 1) none
          ((if f.inAlt then output ++ runText input runStart cursor else output) ++
            runText input (if f.inAlt then none else some (runStart.getD cursor)) (cursor + 1) ++ js "\n")
      else loop input rounds (f.read (input.getD cursor 0)).1 (cursor + 1)
        (if f.inAlt then none else some (runStart.getD cursor))
        (if f.inAlt then output ++ runText input runStart cursor else output)) =
      ((machine.run f (input.drop cursor)).1,
        output ++ runText input runStart cursor ++ (machine.run f (input.drop cursor)).2) := by
  have hdrop := drop_eq_cons hcursor
  generalize hcode : input.getD cursor 0 = code at *
  have hnext : f.next code = f.read code := if_neg hpass
  -- What the unit adds to what is put out or being put out.
  have hshown : (if f.inAlt then output ++ runText input runStart cursor else output) ++
      runText input (if f.inAlt then none else some (runStart.getD cursor)) (cursor + 1) =
      output ++ runText input runStart cursor ++ if f.inAlt then [] else [code] := by
    by_cases hin : f.inAlt = true
    · rw [if_pos hin, if_pos hin, if_pos hin, runText_none]
    rw [if_neg hin, if_neg hin, if_neg hin, List.append_assoc]
    congr 1
    cases runStart with
    | none =>
      rw [Option.getD_none, runText_self, hdrop]
      rfl
    | some start =>
      rw [Option.getD_some, runText_append (hscan.begun start rfl), hdrop]
      rfl
  have hrun : machine.run f (input.drop cursor) =
      ((machine.run (f.read code).1 (input.drop (cursor + 1))).1,
        f.emitted code ++ (machine.run (f.read code).1 (input.drop (cursor + 1))).2) := by
    rw [hdrop, Transducer.run_cons]
    show ((machine.run (f.next code).1 _).1, _ ++ (machine.run (f.next code).1 _).2) = _
    rw [hnext]
    rfl
  rw [hrun]
  by_cases hswitch : (f.read code).2 = true
  · rw [if_pos hswitch, ih ⟨fun _ => rfl, fun start h => by cases h⟩, hshown, emitted, hnext,
      if_pos hswitch, runText_none]
    simp only [List.append_assoc, List.nil_append]
  have hsame := read_inAlt_of_not_switch (Bool.not_eq_true _ ▸ hswitch)
  have hscan' : Scanning (f.read code).1 (if f.inAlt then none else some (runStart.getD cursor))
      (cursor + 1) := by
    refine ⟨fun hin => ?_, fun start h => ?_⟩
    · rw [hsame] at hin
      rw [if_pos hin]
    · split at h
      · cases h
      · cases runStart with
        | none =>
          cases h
          exact Nat.le_succ cursor
        | some begun =>
          cases h
          exact Nat.le_succ_of_le (hscan.begun _ rfl)
  rw [if_neg hswitch, ih hscan', hshown, emitted, hnext, if_neg hswitch, List.append_nil]
  simp only [List.append_assoc]

/-- The loop is the machine on what is left of the input. -/
theorem loop_eq {input : JsString} {rounds : Nat} {f : PromptAltScreenFilter} {cursor : Nat}
    {runStart : Option Nat} {output : JsString} (hscan : Scanning f runStart cursor)
    (hcursor : cursor ≤ input.length) (hrounds : input.length - cursor ≤ rounds) :
    loop input rounds f cursor runStart output =
      ((machine.run f (input.drop cursor)).1,
        output ++ runText input runStart cursor ++ (machine.run f (input.drop cursor)).2) := by
  induction rounds generalizing f cursor runStart output with
  | zero =>
    obtain rfl : cursor = input.length := by omega
    rw [loop, List.drop_length, Transducer.run_nil, List.append_nil]
  | succ rounds ih =>
    rw [loop]
    by_cases hend : cursor < input.length
    swap
    · obtain rfl : cursor = input.length := by omega
      rw [if_neg hend, List.drop_length, Transducer.run_nil, List.append_nil]
    rw [if_pos hend]
    by_cases hground : f.state = .ground
    · -- The text up to the next introducer is passed over in one jump.
      have hsplit := List.takeWhile_append_dropWhile (p := fun c => !isIntroducer c)
        (l := input.drop cursor)
      generalize htext : (input.drop cursor).takeWhile (fun c => !isIntroducer c) = text at hsplit
      have hplain : ∀ c ∈ text, isIntroducer c = false := by
        intro c hc
        have := List.mem_takeWhile_imp (htext ▸ hc)
        simpa using this
      have hlen : text.length ≤ input.length - cursor := by
        rw [← List.length_drop, ← hsplit, List.length_append]
        exact Nat.le_add_right _ _
      have hrest : input.drop (cursor + text.length) =
          (input.drop cursor).dropWhile fun c => !isIntroducer c := by
        rw [← List.drop_drop]
        conv_lhs => rw [← hsplit]
        exact List.drop_left
      have hjump : input.drop cursor = text ++ input.drop (cursor + text.length) := by
        rw [hrest, hsplit]
      have htake : (input.drop cursor).take text.length = text := by
        conv_lhs => rw [← hsplit]
        exact List.take_left
      -- The run goes on over the text.
      have hbegun : runText input (if f.state = .ground ∧ !f.inAlt ∧ runStart = none then some cursor
          else runStart) (cursor + text.length) =
          runText input runStart cursor ++ if f.inAlt then [] else text := by
        by_cases hin : f.inAlt = true
        · rw [if_neg (by simp [hin]), if_pos hin, hscan.hidden hin, runText_none, runText_none,
            List.append_nil]
        rw [if_neg hin]
        cases hrun : runStart with
        | none =>
          rw [if_pos ⟨hground, by simpa using hin, rfl⟩, runText_self, htake, runText_none,
            List.nil_append]
        | some begun =>
          rw [if_neg (by simp), runText_append (hscan.begun begun hrun), htake]
      have hscan' : Scanning f (if f.state = .ground ∧ !f.inAlt ∧ runStart = none then some cursor
          else runStart) (cursor + text.length) := by
        refine ⟨fun hin => ?_, fun start h => ?_⟩
        · rw [if_neg (by simp [hin])]
          exact hscan.hidden hin
        · split at h
          · cases h
            exact Nat.le_add_right _ _
          · exact Nat.le_add_right_of_le (hscan.begun start h)
      have hmachine : machine.run f (input.drop cursor) =
          ((machine.run f (input.drop (cursor + text.length))).1,
            (if f.inAlt then [] else text) ++
              (machine.run f (input.drop (cursor + text.length))).2) := by
        have hrun := machine_ground hground hplain
        rw [Transducer.run_eq, Prod.mk.injEq] at hrun
        rw [hjump, Transducer.run_eq, Transducer.state_append, Transducer.output_append, hrun.1,
          hrun.2, Transducer.run_eq]
      dsimp only
      generalize (if f.state = .ground ∧ !f.inAlt ∧ runStart = none then some cursor
        else runStart) = started at hbegun hscan' ⊢
      rw [if_pos hground, hmachine, ← List.append_assoc, List.append_assoc output,
        ← hbegun]
      by_cases hlast : cursor + text.length = input.length
      · rw [if_pos ⟨hground, hlast⟩, hlast, List.drop_length, Transducer.run_nil]
        simp
      rw [if_neg fun h => hlast h.2]
      have hlt : cursor + text.length < input.length := by omega
      have hintro : ¬f.Passes (input.getD (cursor + text.length) 0) := by
        rintro ⟨-, hcode⟩
        have hhead := List.head?_dropWhile_not (fun c => !isIntroducer c) (input.drop cursor)
        rw [← hrest, drop_eq_cons hlt, List.head?_cons] at hhead
        have hcode' : isIntroducer (input.getD (cursor + text.length) 0) = true := by
          simpa using hhead
        rw [hcode] at hcode'
        cases hcode'
      exact loop_round hscan' hlt hintro fun h => ih h (by omega) (by omega)
    · have hbegun : (if f.state = .ground ∧ !f.inAlt ∧ runStart = none then some cursor
          else runStart) = runStart := if_neg fun h => hground h.1
      dsimp only
      rw [hbegun, if_neg hground, if_neg fun h => hground h.1]
      exact loop_round hscan hend (fun h => hground h.1) fun h => ih h (by omega) (by omega)

/-- Processing a chunk is running the machine on it. -/
theorem process_eq (f : PromptAltScreenFilter) (input : JsString) :
    f.process input = machine.run f input := by
  rw [process, loop_eq ⟨fun _ => rfl, fun start h => by cases h⟩ (Nat.zero_le _) (by omega),
    runText_none, List.drop_zero]
  rfl

/-- A stream is processed the same however it is cut. -/
theorem processChunks_eq (f : PromptAltScreenFilter) (chunks : List JsString) :
    f.processChunks chunks = machine.run f chunks.flatten := by
  induction chunks generalizing f with
  | nil => rfl
  | cons chunk chunks ih =>
    rw [processChunks, ih, process_eq, List.flatten_cons, Transducer.run_eq machine f (chunk ++ chunks.flatten),
      Transducer.state_append, Transducer.output_append]
    rfl

end PromptAltScreenFilter

/-! ### Screen switches in a stream -/

/-- CSI, in seven bits or in eight. -/
def Introduces (intro : JsString) : Prop := intro = js "\x1b[" ∨ intro = [0x9b]

/-- Decimal parameters of which one is a mode that shows the alternate screen. -/
def AltParameters (params : JsString) : Prop :=
  (∀ c ∈ params, JsString.isDigit c = true ∨ c = unit ';') ∧
    ∃ part ∈ params.splitOn (unit ';'), isAltMode (JsString.decimalValue part) = true

/-- A sequence that enters or leaves the alternate screen, and whether that screen is shown behind
it. -/
inductive ScreenSwitch : JsString → Bool → Prop
  | enter {intro params} : Introduces intro → AltParameters params →
      ScreenSwitch (intro ++ js "?" ++ params ++ js "h") true
  | leave {intro params} : Introduces intro → AltParameters params →
      ScreenSwitch (intro ++ js "?" ++ params ++ js "l") false
  | ris : ScreenSwitch (js "\x1bc") false

def EndsWithSwitch (before : JsString) (shown : Bool) : Prop :=
  ∃ u seq, before = u ++ seq ∧ ScreenSwitch seq shown

/-- The last switch was to the alternate screen. -/
def AltShown (before : JsString) : Prop :=
  ∃ u tail, before = u ++ tail ∧ EndsWithSwitch u true ∧
    ∀ t t', tail = t ++ t' → t ≠ [] → ¬EndsWithSwitch (u ++ t) false

theorem altShown_concat {before : JsString} {c : UInt16} :
    AltShown (before ++ [c]) ↔ EndsWithSwitch (before ++ [c]) true ∨
      (AltShown before ∧ ¬EndsWithSwitch (before ++ [c]) false) := by
  constructor
  · rintro ⟨u, tail, heq, henter, hstay⟩
    rcases List.eq_nil_or_concat tail with rfl | ⟨tail, d, rfl⟩
    · rw [List.append_nil] at heq
      exact .inl (heq ▸ henter)
    rw [List.concat_eq_append, ← List.append_assoc] at heq
    obtain ⟨rfl, hd⟩ := List.append_inj' heq rfl
    obtain rfl : c = d := (List.cons.inj hd).1
    refine .inr ⟨⟨u, tail, rfl, henter, fun t t' htail hne => ?_⟩, ?_⟩
    · exact hstay t (t' ++ [c]) (by rw [List.concat_eq_append, htail, List.append_assoc]) hne
    · have hlast := hstay (tail ++ [c]) [] (by simp) (by simp)
      rwa [← List.append_assoc] at hlast
  · rintro (henter | ⟨⟨u, tail, rfl, henter, hstay⟩, hlast⟩)
    · exact ⟨before ++ [c], [], (List.append_nil _).symm, henter,
        fun t t' heq hne => absurd (List.append_eq_nil_iff.1 heq.symm).1 hne⟩
    · refine ⟨u, tail ++ [c], List.append_assoc _ _ _, henter, fun t t' heq hne => ?_⟩
      rcases List.eq_nil_or_concat t' with rfl | ⟨t', d, rfl⟩
      · rw [List.append_nil] at heq
        rw [← heq, ← List.append_assoc]
        exact hlast
      · rw [List.concat_eq_append, ← List.append_assoc] at heq
        exact hstay t t' (List.append_inj' heq rfl).1 hne

/-! ### Parameters -/

/-- What a digit or a semicolon makes of the parameter so far and of whether one showed the screen. -/
def scanParameter (scan : Nat × Bool) (c : UInt16) : Nat × Bool :=
  if JsString.isDigit c then (min 1050 (scan.1 * 10 + (c.toNat - 0x30)), scan.2)
  else (0, scan.2 || isAltMode scan.1)

theorem isAltMode_min (n : Nat) : isAltMode (min 1050 n) = isAltMode n := by
  by_cases h : n ≤ 1050
  · rw [Nat.min_eq_right h]
  · have hbig : isAltMode n = false := by
      simp only [isAltMode, Bool.or_eq_false_iff, decide_eq_false_iff_not]
      omega
    rw [Nat.min_eq_left (by omega), hbig]
    decide

/-- The saturating parameter finds the modes that are among the parameters. -/
theorem scanParameter_fold {params : JsString}
    (hparams : ∀ c ∈ params, JsString.isDigit c = true ∨ c = unit ';') (value : Nat) (found : Bool) :
    ∃ first parts, params.splitOn (unit ';') = first :: parts ∧
      (((params.foldl scanParameter (min 1050 value, found)).2 ||
          isAltMode (params.foldl scanParameter (min 1050 value, found)).1) = true ↔
        found = true ∨
          isAltMode (first.foldl (fun value c => 10 * value + (c.toNat - 0x30)) value) = true ∨
          ∃ part ∈ parts, isAltMode (JsString.decimalValue part) = true) := by
  induction params generalizing value found with
  | nil => exact ⟨[], [], rfl, by simp [isAltMode_min]⟩
  | cons c params ih =>
    have hrest : ∀ d ∈ params, JsString.isDigit d = true ∨ d = unit ';' :=
      fun d hd => hparams d (List.mem_cons_of_mem _ hd)
    have hsemi : JsString.isDigit (unit ';') = false := by decide
    by_cases hdigit : JsString.isDigit c = true
    · have hne : c ≠ unit ';' := by
        rintro rfl
        rw [hsemi] at hdigit
        cases hdigit
      obtain ⟨first, parts, hsplit, hfold⟩ := ih hrest (10 * value + (c.toNat - 0x30)) found
      have hstep : scanParameter (min 1050 value, found) c =
          (min 1050 (10 * value + (c.toNat - 0x30)), found) := by
        rw [scanParameter, if_pos hdigit]
        refine Prod.ext ?_ rfl
        show min 1050 (min 1050 value * 10 + _) = _
        omega
      refine ⟨c :: first, parts, ?_, ?_⟩
      · rw [List.splitOn_cons_eq_if_modifyHead, if_neg (by simpa using hne), hsplit]
        rfl
      · rw [List.foldl_cons, hstep]
        exact hfold
    · obtain rfl := (hparams c List.mem_cons_self).resolve_left hdigit
      obtain ⟨first, parts, hsplit, hfold⟩ := ih hrest 0 (found || isAltMode value)
      have hstep : scanParameter (min 1050 value, found) (unit ';') =
          (min 1050 0, found || isAltMode value) := by
        rw [scanParameter, if_neg hdigit]
        exact Prod.ext rfl (by rw [isAltMode_min])
      refine ⟨[], first :: parts, ?_, ?_⟩
      · rw [List.splitOn_cons_eq_if_modifyHead, if_pos (by simp), hsplit]
      · rw [List.foldl_cons, hstep, hfold, Bool.or_eq_true, List.foldl_nil, List.exists_mem_cons_iff,
          or_assoc]
        rfl

theorem altParameters_iff {params : JsString}
    (hparams : ∀ c ∈ params, JsString.isDigit c = true ∨ c = unit ';') :
    AltParameters params ↔ ((params.foldl scanParameter (0, false)).2 ||
      isAltMode (params.foldl scanParameter (0, false)).1) = true := by
  obtain ⟨first, parts, hsplit, hfold⟩ := scanParameter_fold hparams 0 false
  have hzero : (min 1050 0, false) = ((0, false) : Nat × Bool) := rfl
  rw [hzero] at hfold
  rw [hfold, AltParameters, hsplit, List.exists_mem_cons_iff]
  refine (and_iff_right hparams).trans ?_
  simp [JsString.decimalValue]

/-! ### What the filter tells of a stream -/

namespace PromptAltScreenFilter

/-- What one unit can do. -/
theorem next_cases (f : PromptAltScreenFilter) (c : UInt16) :
    (c = 0x1b ∧ f.next c = ({ f with state := .escape }, false)) ∨
    ((c = 0x9b ∨ f.state = .escape ∧ c = 0x5b) ∧
      f.next c = ({ f with state := .csiStart, parameter := 0, hasAltParameter := false }, false)) ∨
    (f.state = .csiStart ∧ c = 0x3f ∧ f.next c = ({ f with state := .parameters }, false)) ∨
    (f.state = .parameters ∧ (JsString.isDigit c = true ∨ c = unit ';') ∧
      f.next c = ({ f with
        parameter := (scanParameter (f.parameter, f.hasAltParameter) c).1
        hasAltParameter := (scanParameter (f.parameter, f.hasAltParameter) c).2 }, false)) ∨
    (f.state = .parameters ∧ (c = 0x68 ∨ c = 0x6c) ∧
      (f.next c).2 = (f.hasAltParameter || isAltMode f.parameter) ∧
      (f.next c).1.state = .ground ∧ ((f.next c).2 = true → (f.next c).1.inAlt = (c = 0x68 : Bool))) ∨
    (f.state = .escape ∧ c = 0x63 ∧ f.next c = ({ f with inAlt := false, state := .ground }, true)) ∨
    ∃ state, (state = .ground ∨ state = .ignore) ∧ f.next c = ({ f with state := state }, false) := by
  by_cases hpass : f.Passes c
  · have hnext : f.next c = (f, false) := if_pos hpass
    refine .inr (.inr (.inr (.inr (.inr (.inr ⟨.ground, .inl rfl, ?_⟩)))))
    rw [hnext, ← hpass.1]
  have hnext : f.next c = f.read c := if_neg hpass
  rw [hnext, read]
  have hdigit : (0x30 ≤ c ∧ c ≤ 0x39) ↔ JsString.isDigit c = true := by
    rw [JsString.isDigit, Bool.and_eq_true, decide_eq_true_iff, decide_eq_true_iff]
  split
  · rename_i h
    exact .inl ⟨h, rfl⟩
  split
  · rename_i h
    exact .inr (.inl ⟨h, rfl⟩)
  split
  · rename_i h
    exact .inr (.inr (.inl ⟨h.1, h.2, rfl⟩))
  split
  · rename_i h
    refine .inr (.inr (.inr (.inl ⟨h.1, .inl (hdigit.1 h.2), ?_⟩)))
    rw [scanParameter, if_pos (hdigit.1 h.2)]
  split
  · rename_i hnot h
    by_cases hsemi : c = 0x3b
    · refine .inr (.inr (.inr (.inl ⟨h.1, .inr hsemi, ?_⟩)))
      have hno : ¬JsString.isDigit c = true := fun hd => hnot ⟨h.1, hdigit.2 hd⟩
      rw [scanParameter, if_neg hno]
      rw [if_neg (by simp [hsemi])]
    have hfinal : c = 0x68 ∨ c = 0x6c := h.2.resolve_left hsemi
    refine .inr (.inr (.inr (.inr (.inl ⟨h.1, hfinal, ?_⟩))))
    rw [if_pos hsemi]
    refine ⟨rfl, rfl, fun hswitch => ?_⟩
    rw [if_pos hswitch]
  split
  · rename_i h
    exact .inr (.inr (.inr (.inr (.inr (.inl ⟨h.1, h.2, rfl⟩)))))
  split
  · exact .inr (.inr (.inr (.inr (.inr (.inr ⟨.ground, .inl rfl, rfl⟩)))))
  · exact .inr (.inr (.inr (.inr (.inr (.inr ⟨.ignore, .inr rfl, rfl⟩)))))

theorem state_concat (f : PromptAltScreenFilter) (before : JsString) (c : UInt16) :
    machine.state f (before ++ [c]) = ((machine.state f before).next c).1 := by
  rw [Transducer.state_append]
  rfl

/-- What a scan state says of the text in front of it. -/
def Behind (before : JsString) (f : PromptAltScreenFilter) : Prop :=
  match f.state with
  | .ground => True
  | .ignore => True
  | .escape => ∃ u, before = u ++ [0x1b]
  | .csiStart => ∃ u intro, before = u ++ intro ∧ Introduces intro ∧ f.parameter = 0 ∧
      f.hasAltParameter = false
  | .parameters => ∃ u intro params, before = u ++ (intro ++ js "?" ++ params) ∧ Introduces intro ∧
      (∀ c ∈ params, JsString.isDigit c = true ∨ c = unit ';') ∧
      (f.parameter, f.hasAltParameter) = params.foldl scanParameter (0, false)

theorem behind_next {before : JsString} {f : PromptAltScreenFilter} (h : f.Behind before) (c : UInt16) :
    (f.next c).1.Behind (before ++ [c]) := by
  rcases f.next_cases c with ⟨rfl, hnext⟩ | ⟨hc, hnext⟩ | ⟨hstate, rfl, hnext⟩ |
    ⟨hstate, hc, hnext⟩ | ⟨hstate, hc, -, hground, -⟩ | ⟨hstate, rfl, hnext⟩ | ⟨state, hs, hnext⟩
  · rw [hnext]
    exact ⟨before, rfl⟩
  · rw [hnext]
    rcases hc with rfl | ⟨hstate, rfl⟩
    · exact ⟨before, [0x9b], rfl, .inr rfl, rfl, rfl⟩
    · rw [Behind, hstate] at h
      obtain ⟨u, rfl⟩ := h
      exact ⟨u, js "\x1b[", by rw [List.append_assoc]; rfl, .inl rfl, rfl, rfl⟩
  · rw [hnext]
    rw [Behind, hstate] at h
    obtain ⟨u, intro, rfl, hintro, hparameter, hfound⟩ := h
    refine ⟨u, intro, [], ?_, hintro, fun c hc => absurd hc List.not_mem_nil, ?_⟩
    · rw [List.append_assoc, List.append_nil]
      rfl
    · rw [List.foldl_nil, ← hparameter, ← hfound]
  · rw [Behind, hstate] at h
    obtain ⟨u, intro, params, rfl, hintro, hparams, hscan⟩ := h
    have hshape : (f.next c).1.state = .parameters := by
      rw [hnext]
      exact hstate
    rw [Behind, hshape]
    refine ⟨u, intro, params ++ [c], by simp only [List.append_assoc], hintro, fun d hd => ?_, ?_⟩
    · rcases List.mem_append.1 hd with hmem | hmem
      · exact hparams d hmem
      · rw [List.mem_singleton.1 hmem]
        exact hc
    · rw [List.foldl_append, ← hscan, hnext]
      rfl
  · rw [Behind, hground]
    trivial
  · rw [hnext]
    trivial
  · rw [hnext]
    rcases hs with rfl | rfl <;> trivial

theorem behind_state (before : JsString) : (machine.state initial before).Behind before := by
  induction before using List.reverseRecOn with
  | nil => trivial
  | append_singleton before c ih =>
    rw [state_concat]
    exact behind_next ih c

/-- A switch the filter makes ends with a sequence that switches the screen. -/
theorem endsWithSwitch_of_next {before : JsString} {f : PromptAltScreenFilter} (h : f.Behind before)
    {c : UInt16} (hswitch : (f.next c).2 = true) :
    EndsWithSwitch (before ++ [c]) (f.next c).1.inAlt := by
  rcases f.next_cases c with ⟨-, hnext⟩ | ⟨-, hnext⟩ | ⟨-, -, hnext⟩ | ⟨-, -, hnext⟩ |
    ⟨hstate, hc, hfound, -, hshown⟩ | ⟨hstate, rfl, hnext⟩ | ⟨state, -, hnext⟩
  · rw [hnext] at hswitch
    cases hswitch
  · rw [hnext] at hswitch
    cases hswitch
  · rw [hnext] at hswitch
    cases hswitch
  · rw [hnext] at hswitch
    cases hswitch
  · rw [Behind, hstate] at h
    obtain ⟨u, intro, params, rfl, hintro, hparams, hscan⟩ := h
    have halt : AltParameters params := by
      rw [altParameters_iff hparams, ← hscan, ← hfound, hswitch]
    rw [hshown hswitch]
    rcases hc with rfl | rfl
    · exact ⟨u, intro ++ js "?" ++ params ++ js "h", by simp only [List.append_assoc]; rfl,
        .enter hintro halt⟩
    · exact ⟨u, intro ++ js "?" ++ params ++ js "l", by simp only [List.append_assoc]; rfl,
        .leave hintro halt⟩
  · rw [Behind, hstate] at h
    obtain ⟨u, rfl⟩ := h
    rw [hnext]
    exact ⟨u, js "\x1bc", by rw [List.append_assoc]; rfl, .ris⟩
  · rw [hnext] at hswitch
    cases hswitch

theorem state_intro (f : PromptAltScreenFilter) {intro : JsString} (h : Introduces intro) :
    machine.state f intro = { f with state := .csiStart, parameter := 0, hasAltParameter := false } := by
  rcases h with rfl | rfl
  · have hescape : f.next 0x1b = ({ f with state := .escape }, false) := by
      rw [next, if_neg fun hpass => absurd hpass.2 (by decide)]
      rfl
    have hcsi : ({ f with state := .escape } : PromptAltScreenFilter).next 0x5b =
        ({ f with state := .csiStart, parameter := 0, hasAltParameter := false }, false) := rfl
    show ((f.next 0x1b).1.next 0x5b).1 = _
    rw [hescape, hcsi]
  · have hcsi : f.next 0x9b =
        ({ f with state := .csiStart, parameter := 0, hasAltParameter := false }, false) := by
      rw [next, if_neg fun hpass => absurd hpass.2 (by decide)]
      rfl
    show (f.next 0x9b).1 = _
    rw [hcsi]

theorem next_parameter {f : PromptAltScreenFilter} (hstate : f.state = .parameters) {c : UInt16}
    (hc : JsString.isDigit c = true ∨ c = unit ';') :
    f.next c = ({ f with
      parameter := (scanParameter (f.parameter, f.hasAltParameter) c).1
      hasAltParameter := (scanParameter (f.parameter, f.hasAltParameter) c).2 }, false) := by
  have hpass : ¬f.Passes c := fun hpass => by cases hstate.symm.trans hpass.1
  rw [next, if_neg hpass, read]
  rcases hc with hdigit | rfl
  · have hbound := JsString.isDigit_iff.1 hdigit
    have hlow : 0x30 ≤ c ∧ c ≤ 0x39 := by
      rwa [JsString.isDigit, Bool.and_eq_true, decide_eq_true_iff, decide_eq_true_iff] at hdigit
    have hescape : c ≠ 0x1b := by
      rintro rfl
      exact absurd hdigit (by decide)
    have hcsi : ¬(c = 0x9b ∨ f.state = .escape ∧ c = 0x5b) := by
      rintro (rfl | ⟨hother, -⟩)
      · exact absurd hdigit (by decide)
      · rw [hstate] at hother
        cases hother
    have hstart : ¬(f.state = .csiStart ∧ c = 0x3f) := fun h => by
      rw [hstate] at h
      cases h.1
    rw [if_neg hescape, if_neg hcsi, if_neg hstart, if_pos ⟨hstate, hlow⟩, scanParameter,
      if_pos hdigit]
  · rw [if_neg (by decide), if_neg (by rw [hstate]; decide), if_neg (by rw [hstate]; decide),
      if_neg fun h => absurd h.2 (by decide), if_pos ⟨hstate, .inl (by decide)⟩, scanParameter, if_neg (by decide)]
    rfl

theorem state_params {f : PromptAltScreenFilter} (hstate : f.state = .parameters) {params : JsString}
    (hparams : ∀ c ∈ params, JsString.isDigit c = true ∨ c = unit ';') :
    machine.state f params = { f with
      parameter := (params.foldl scanParameter (f.parameter, f.hasAltParameter)).1
      hasAltParameter := (params.foldl scanParameter (f.parameter, f.hasAltParameter)).2 } := by
  induction params generalizing f with
  | nil => rfl
  | cons c params ih =>
    have hnext := next_parameter hstate (hparams c List.mem_cons_self)
    have hfirst : (f.next c).1.state = .parameters := by
      rw [hnext]
      exact hstate
    show machine.state (f.next c).1 params = _
    rw [ih hfirst fun d hd => hparams d (List.mem_cons_of_mem _ hd), hnext]
    rfl

/-- The final unit of parameters that name a mode of the alternate screen. -/
theorem next_final {f : PromptAltScreenFilter} (hstate : f.state = .parameters)
    (hfound : (f.hasAltParameter || isAltMode f.parameter) = true) {c : UInt16}
    (hc : c = 0x68 ∨ c = 0x6c) : (f.next c).2 = true ∧ (f.next c).1.inAlt = (c = 0x68 : Bool) := by
  rcases f.next_cases c with ⟨rfl, -⟩ | ⟨rfl | ⟨hother, -⟩, -⟩ | ⟨hother, -, -⟩ | ⟨-, hparam, -⟩ |
    ⟨-, -, hswitch, -, hshown⟩ | ⟨hother, -, -⟩ | ⟨state, hs, hnext⟩
  · rcases hc with h | h <;> exact absurd h (by decide)
  · rcases hc with h | h <;> exact absurd h (by decide)
  · rw [hstate] at hother
    cases hother
  · rw [hstate] at hother
    cases hother
  · rcases hc with rfl | rfl <;> exact absurd hparam (by decide)
  · rw [hfound] at hswitch
    exact ⟨hswitch, hshown hswitch⟩
  · rw [hstate] at hother
    cases hother
  · have hpass : ¬f.Passes c := fun hpass => by cases hstate.symm.trans hpass.1
    have hescape : c ≠ 0x1b := by rcases hc with rfl | rfl <;> decide
    have hcsi : ¬(c = 0x9b ∨ f.state = .escape ∧ c = 0x5b) := by
      rw [hstate]
      rcases hc with rfl | rfl <;> decide
    have hstart : ¬(f.state = .csiStart ∧ c = 0x3f) := by
      rw [hstate]
      rcases hc with rfl | rfl <;> decide
    have hdigit : ¬(f.state = .parameters ∧ 0x30 ≤ c ∧ c ≤ 0x39) := by
      rcases hc with rfl | rfl <;> exact fun h => absurd h.2 (by decide)
    have hfinal : c ≠ 0x3b := by rcases hc with rfl | rfl <;> decide
    rw [next, if_neg hpass, read, if_neg hescape, if_neg hcsi, if_neg hstart, if_neg hdigit,
      if_pos ⟨hstate, .inr hc⟩]
    rw [if_pos hfinal]
    exact ⟨hfound, if_pos hfound⟩

/-- Whatever stands in front of it, a sequence that switches the screen is read as one. -/
theorem next_of_screenSwitch {seq : JsString} {shown : Bool} (h : ScreenSwitch seq shown)
    (f : PromptAltScreenFilter) :
    ∃ lead c, seq = lead ++ [c] ∧ ((machine.state f lead).next c).2 = true ∧
      ((machine.state f lead).next c).1.inAlt = shown := by
  have hparams : ∀ {intro params : JsString}, Introduces intro → AltParameters params →
      (machine.state f (intro ++ js "?" ++ params)).state = .parameters ∧
      ((machine.state f (intro ++ js "?" ++ params)).hasAltParameter ||
        isAltMode (machine.state f (intro ++ js "?" ++ params)).parameter) = true := by
    intro intro params hintro halt
    have hmark : machine.state f (intro ++ js "?") =
        { f with state := .parameters, parameter := 0, hasAltParameter := false } := by
      rw [Transducer.state_append, state_intro f hintro]
      rfl
    rw [Transducer.state_append, hmark, state_params rfl halt.1]
    exact ⟨rfl, (altParameters_iff halt.1).1 halt⟩
  cases h with
  | @enter intro params hintro halt =>
    obtain ⟨hstate, hfound⟩ := hparams hintro halt
    exact ⟨_, 0x68, rfl, next_final hstate hfound (.inl rfl)⟩
  | @leave intro params hintro halt =>
    obtain ⟨hstate, hfound⟩ := hparams hintro halt
    exact ⟨_, 0x6c, rfl, next_final hstate hfound (.inr rfl)⟩
  | ris =>
    have hescape : f.next 0x1b = ({ f with state := .escape }, false) := by
      rw [next, if_neg fun hpass => absurd hpass.2 (by decide)]
      rfl
    have hris : ({ f with state := .escape } : PromptAltScreenFilter).next 0x63 =
        ({ f with inAlt := false, state := .ground }, true) := rfl
    refine ⟨[0x1b], 0x63, rfl, ?_⟩
    show ((f.next 0x1b).1.next 0x63).2 = true ∧ ((f.next 0x1b).1.next 0x63).1.inAlt = false
    rw [hescape, hris]
    exact ⟨rfl, rfl⟩

/-- A switch ends with a unit exactly where the filter makes one, and it shows the same screen. -/
theorem endsWithSwitch_iff (before : JsString) (c : UInt16) (shown : Bool) :
    EndsWithSwitch (before ++ [c]) shown ↔ ((machine.state initial before).next c).2 = true ∧
      ((machine.state initial before).next c).1.inAlt = shown := by
  constructor
  · rintro ⟨u, seq, heq, hseq⟩
    obtain ⟨lead, d, rfl, hnext⟩ := next_of_screenSwitch hseq (machine.state initial u)
    rw [← List.append_assoc] at heq
    obtain ⟨rfl, hd⟩ := List.append_inj' heq rfl
    rw [(List.cons.inj hd).1, Transducer.state_append]
    exact hnext
  · rintro ⟨hswitch, rfl⟩
    exact endsWithSwitch_of_next (behind_state before) hswitch

theorem next_inAlt_of_not_switch {f : PromptAltScreenFilter} {c : UInt16} (h : (f.next c).2 = false) :
    (f.next c).1.inAlt = f.inAlt := by
  unfold next at h ⊢
  split
  · rfl
  · rename_i hpass
    rw [if_neg hpass] at h
    exact read_inAlt_of_not_switch h

/-- The filter is in the alternate screen exactly where the last switch was to it. -/
theorem inAlt_iff (before : JsString) :
    (machine.state initial before).inAlt = true ↔ AltShown before := by
  induction before using List.reverseRecOn with
  | nil =>
    refine iff_of_false (by decide) ?_
    rintro ⟨u, tail, heq, ⟨u', seq, rfl, hseq⟩, -⟩
    have hnil := (List.append_eq_nil_iff.1 (List.append_eq_nil_iff.1 heq.symm).1).2
    obtain ⟨lead, c, hsplit, -⟩ := next_of_screenSwitch hseq initial
    rw [hnil] at hsplit
    exact absurd hsplit.symm (List.append_ne_nil_of_right_ne_nil _ (List.cons_ne_nil _ _))
  | append_singleton before c ih =>
    rw [altShown_concat, endsWithSwitch_iff, endsWithSwitch_iff, state_concat, ← ih]
    by_cases hswitch : ((machine.state initial before).next c).2 = true
    · cases ((machine.state initial before).next c).1.inAlt <;> simp [hswitch]
    · rw [next_inAlt_of_not_switch (Bool.not_eq_true _ ▸ hswitch)]
      simp [hswitch]

end PromptAltScreenFilter

open Classical in
/-- What the stream shows of the normal screen, from a position on: the units between an enter and
the end of the next leave or reset are dropped, and a line break stands behind each switch. -/
noncomputable def normalScreenFrom (before : JsString) : JsString → JsString
  | [] => []
  | c :: rest =>
    (if AltShown before then [] else [c]) ++
      (if ∃ shown, EndsWithSwitch (before ++ [c]) shown then js "\n" else []) ++
      normalScreenFrom (before ++ [c]) rest

noncomputable def normalScreen (stream : JsString) : JsString := normalScreenFrom [] stream

open PromptAltScreenFilter in
theorem output_normalScreenFrom (before rest : JsString) :
    machine.output (machine.state initial before) rest = normalScreenFrom before rest := by
  induction rest generalizing before with
  | nil => rfl
  | cons c rest ih =>
    rw [Transducer.output_cons, normalScreenFrom, ← ih (before ++ [c]), state_concat]
    refine congrArg (· ++ _) ?_
    show emitted _ c = _
    rw [emitted]
    congr 1
    · simp only [← inAlt_iff]
    · have hswitch : (∃ shown, EndsWithSwitch (before ++ [c]) shown) ↔
          ((machine.state initial before).next c).2 = true := by
        simp only [endsWithSwitch_iff]
        exact ⟨fun ⟨_, h, _⟩ => h, fun h => ⟨_, h, rfl⟩⟩
      simp only [hswitch]

end Dormouse.Terminal
