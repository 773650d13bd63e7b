import Dormouse.Terminal.ModeMachine

/-!
# Dormouse.Terminal.Resync

Two readings of one stream agree again behind the first ESC they both meet, so that a
reading that took an introducer for text never comes to the same text as one that did not.
-/

namespace Dormouse.Terminal

variable {host : ParserHost}

theorem modeMachine_threw (s : JsString) : (modeMachine host).state .threw s = .threw := by
  induction s with
  | nil => rfl
  | cons c rest ih => exact ih

/-- The text a reading comes to from a mode on, with what it holds in the end. -/
def total (host : ParserHost) (mode : ReadMode) (s : JsString) : JsString :=
  textOf ((modeMachine host).output mode s) ++ ((modeMachine host).state mode s).heldText

theorem total_append (mode : ReadMode) (a b : JsString) :
    total host mode (a ++ b) =
      textOf ((modeMachine host).output mode a) ++ total host ((modeMachine host).state mode a) b := by
  rw [total, Transducer.output_append, Transducer.state_append, textOf_append, List.append_assoc]
  rfl

theorem total_cons (mode : ReadMode) (c : UInt16) (s : JsString) :
    total host mode (c :: s) =
      textOf ((modeMachine host).step mode c).2 ++ total host ((modeMachine host).step mode c).1 s := by
  rw [total, Transducer.output_cons, Transducer.state_cons, textOf_append, List.append_assoc]
  rfl

/-! ### No ESC in sight -/

/-- The mode holds no ESC. -/
def ReadMode.Calm : ReadMode → Prop
  | .ground held _ => held = .none ∨ held = .csi ∨ held = .csiGt
  | .osc _ _ heldEsc | .forward _ heldEsc => heldEsc = false
  | .threw => True

theorem openString_calm (introducer : JsString) : (openString introducer).1.Calm := by
  cases hkind : stringControlKind introducer with
  | osc => rw [openString_osc hkind]; rfl
  | other => rw [openString_other hkind]; rfl

theorem textOf_openString (introducer : JsString) : textOf (openString introducer).2 = [] := by
  cases hkind : stringControlKind introducer with
  | osc => rw [openString_osc hkind]; rfl
  | other => rw [openString_other hkind]; exact textOf_controlRun introducer

theorem calm_text {held : Held} (h : held = .none ∨ held = .csi ∨ held = .csiGt) :
    ESC ∉ held.text := by
  rcases h with rfl | rfl | rfl <;> decide

theorem textOf_continue {held held' : Held} {c : UInt16} {out : List Emission}
    (h : held.continue? c = some (held', out)) : textOf out = [] := by
  rcases continue?_cases h with ⟨rfl, -⟩ | ⟨-, rfl, -⟩ <;> rfl

theorem heldMachine_step_text (held : Held) (c : UInt16) :
    textOf (heldMachine.step held c).2 ⊆ held.text ++ [c] := by
  intro d hd
  cases hcontinue : held.continue? c with
  | some next =>
    obtain ⟨held', out⟩ := next
    have hstep : heldMachine.step held c = (held', out) := by
      simp only [heldMachine, hcontinue]
    rw [hstep, textOf_continue hcontinue] at hd
    cases hd
  | none =>
    have hstep : heldMachine.step held c =
        ((freshByte c).1, groundRun held.text ++ (freshByte c).2) := by
      simp only [heldMachine, hcontinue]
    have hfresh : textOf (freshByte c).2 ⊆ [c] := by
      rw [freshByte]
      split
      · exact List.nil_subset _
      · split
        · exact List.nil_subset _
        · exact List.Subset.refl _
    rw [hstep, textOf_append, textOf_groundRun] at hd
    rcases List.mem_append.1 hd with hd | hd
    · exact List.mem_append_left _ hd
    · exact List.mem_append_right _ (hfresh hd)

theorem groundStep_calm (σ : Osc99Pending) {held : Held} {bells : Bool} {c : UInt16}
    (h : held = .none ∨ held = .csi ∨ held = .csiGt) (hc : c ≠ ESC) :
    (groundStep σ held bells c).1.mode.Calm ∧ ESC ∉ textOf (groundStep σ held bells c).2 := by
  cases hintro : introducerOf held bells c with
  | some opened =>
    obtain ⟨flushed, introducer⟩ := opened
    rw [groundStep_opens hintro]
    refine ⟨openString_calm introducer, ?_⟩
    rw [textOf_append, textOf_groundRun, textOf_openString, List.append_nil]
    rw [introducerOf] at hintro
    split at hintro
    · cases hintro
      exact calm_text h
    · split at hintro
      · cases hintro
        exact List.not_mem_nil
      · cases hintro
  | none =>
    rw [groundStep_passes hintro]
    by_cases hbel : c = BEL
    · simp only [heldBehind, if_pos hbel]
      exact ⟨h, List.not_mem_nil⟩
    simp only [heldBehind, if_neg hbel]
    refine ⟨?_, ?_⟩
    · show _ ∨ _
      rw [heldMachine_step_state, if_neg hc]
      rcases h with rfl | rfl | rfl <;> split_ifs <;> simp_all
    · intro hmem
      rcases List.mem_append.1 (heldMachine_step_text held c hmem) with hmem | hmem
      · exact calm_text h hmem
      · exact hc (List.mem_singleton.1 hmem).symm

theorem textOf_abortOsc (content sequence : JsString) : textOf (abortOsc content sequence) = [] := by
  rw [abortOsc]
  split
  · exact textOf_controlRun sequence
  · rfl

theorem finishOsc_text (σ : Osc99Pending) (introducer content ender : JsString) :
    textOf (finishOsc host σ introducer content ender).2 = [] ∧
      ((finishOsc host σ introducer content ender).1.mode = .ground .none false ∨
        (finishOsc host σ introducer content ender).1.mode = .threw) := by
  rw [finishOsc]
  cases parseOsc host σ content with
  | null => exact ⟨textOf_controlRun _, Or.inl rfl⟩
  | throws => exact ⟨rfl, Or.inr rfl⟩
  | events events σ' => exact ⟨textOf_eventRun events, Or.inl rfl⟩

theorem finishOsc_calm (σ : Osc99Pending) (introducer content ender : JsString) :
    (finishOsc host σ introducer content ender).1.mode.Calm := by
  rcases (@finishOsc_text host σ introducer content ender).2 with h | h <;> rw [h]
  · exact Or.inl rfl
  · trivial

/-- Any byte but an ESC leaves a calm mode calm, and no ESC is put out. -/
theorem step_calm {mode : ReadMode} (h : mode.Calm) {c : UInt16} (hc : c ≠ ESC) :
    ((modeMachine host).step mode c).1.Calm ∧ ESC ∉ textOf ((modeMachine host).step mode c).2 := by
  let σ : Osc99Pending := InsertionMap.empty
  have hstep : (modeMachine host).step mode c =
      (((readMachine host).step ⟨mode, σ⟩ c).1.mode, dataOf ((readMachine host).step ⟨mode, σ⟩ c).2) :=
    rfl
  rw [hstep, textOf_dataOf]
  cases mode with
  | threw => exact ⟨trivial, List.not_mem_nil⟩
  | ground held bells => exact groundStep_calm σ h hc
  | forward kind heldEsc =>
    obtain rfl : heldEsc = false := h
    show (forwardStep σ kind false c).1.mode.Calm ∧ ESC ∉ textOf (forwardStep σ kind false c).2
    rw [forwardStep, if_neg Bool.false_ne_true, if_neg hc]
    split
    · exact ⟨Or.inl rfl, by simp⟩
    · exact ⟨rfl, by simp⟩
  | osc introducer content heldEsc =>
    obtain rfl : heldEsc = false := h
    show (oscStep host σ introducer content false c).1.mode.Calm ∧
      ESC ∉ textOf (oscStep host σ introducer content false c).2
    rw [oscStep, if_neg Bool.false_ne_true, if_neg hc]
    split
    · exact ⟨Or.inl rfl, by rw [textOf_abortOsc]; exact List.not_mem_nil⟩
    split
    · exact ⟨finishOsc_calm σ introducer content [c],
        by rw [(finishOsc_text σ introducer content [c]).1]; exact List.not_mem_nil⟩
    split
    · exact ⟨rfl, by simp⟩
    · exact ⟨rfl, List.not_mem_nil⟩

theorem run_calm {mode : ReadMode} (h : mode.Calm) {s : JsString} (hs : ESC ∉ s) :
    ((modeMachine host).state mode s).Calm ∧ ESC ∉ textOf ((modeMachine host).output mode s) := by
  induction s generalizing mode with
  | nil => exact ⟨h, List.not_mem_nil⟩
  | cons c rest ih =>
    obtain ⟨hc, hrest⟩ := not_or.1 (fun hmem => hs (List.mem_cons.2 hmem))
    obtain ⟨hcalm, hout⟩ := @step_calm host mode h c (Ne.symm hc)
    obtain ⟨hcalm', hout'⟩ := ih hcalm hrest
    refine ⟨hcalm', ?_⟩
    rw [Transducer.output_cons, textOf_append, List.mem_append]
    exact not_or.2 ⟨hout, hout'⟩

theorem calm_heldText {mode : ReadMode} (h : mode.Calm) : ESC ∉ mode.heldText := by
  cases mode with
  | ground held bells => exact calm_text h
  | osc introducer content heldEsc => exact List.not_mem_nil
  | forward kind heldEsc => exact List.not_mem_nil
  | threw => exact List.not_mem_nil

/-! ### The first ESC -/

/-- The modes an ESC leads a calm mode to. -/
def ReadMode.AtEsc : ReadMode → Prop
  | .ground held bells => held = .esc ∧ bells = false
  | .osc _ _ heldEsc | .forward _ heldEsc => heldEsc = true
  | .threw => False

/-- An ESC puts out what a calm mode held. -/
theorem step_esc {mode : ReadMode} (h : mode.Calm) (hthrew : mode ≠ .threw) :
    textOf ((modeMachine host).step mode ESC).2 = mode.heldText ∧
      ((modeMachine host).step mode ESC).1.AtEsc := by
  cases mode with
  | threw => exact absurd rfl hthrew
  | ground held bells => rcases h with rfl | rfl | rfl <;> exact ⟨rfl, rfl, rfl⟩
  | osc introducer content heldEsc =>
    obtain rfl : heldEsc = false := h
    exact ⟨rfl, rfl⟩
  | forward kind heldEsc =>
    obtain rfl : heldEsc = false := h
    exact ⟨rfl, rfl⟩

theorem AtEsc.heldText {mode : ReadMode} (h : mode.AtEsc) :
    mode.heldText = [] ∨ mode.heldText = [ESC] := by
  cases mode with
  | threw => exact Or.inl rfl
  | ground held bells =>
    obtain ⟨rfl, -⟩ := h
    exact Or.inr rfl
  | osc introducer content heldEsc => exact Or.inl rfl
  | forward kind heldEsc => exact Or.inl rfl

/-- Behind an ESC every mode reads on alike, unless the next byte makes a terminator. -/
theorem AtEsc.total {mode : ReadMode} (h : mode.AtEsc) {c : UInt16} (hc : c ≠ unit '\\')
    (s : JsString) : total host mode (c :: s) = total host (.ground .esc false) (c :: s) := by
  let σ : Osc99Pending := InsertionMap.empty
  have hground : (modeMachine host).step (.ground .esc false) c =
      ((groundStep σ .esc false c).1.mode, dataOf (groundStep σ .esc false c).2) := rfl
  rw [total_cons, total_cons, hground]
  cases mode with
  | threw => exact h.elim
  | ground held bells =>
    obtain ⟨rfl, rfl⟩ := h
    rfl
  | forward kind heldEsc =>
    obtain rfl : heldEsc = true := h
    have hstep : forwardStep σ kind true c = groundStep σ .esc false c := if_neg hc
    have hmode : (modeMachine host).step (.forward kind true) c =
        ((forwardStep σ kind true c).1.mode, dataOf (forwardStep σ kind true c).2) := rfl
    rw [hmode, hstep]
  | osc introducer content heldEsc =>
    obtain rfl : heldEsc = true := h
    have hstep : oscStep host σ introducer content true c =
        ((groundStep σ .esc false c).1,
          abortOsc (content ++ [ESC]) (introducer ++ content) ++ (groundStep σ .esc false c).2) :=
      if_neg hc
    have hmode : (modeMachine host).step (.osc introducer content true) c =
        ((oscStep host σ introducer content true c).1.mode,
          dataOf (oscStep host σ introducer content true c).2) := rfl
    rw [hmode, hstep, dataOf_append, textOf_append, textOf_dataOf, textOf_abortOsc]
    rfl

/-- A terminator is text in ground text and nothing behind a string. -/
theorem AtEsc.total_st {mode : ReadMode} (h : mode.AtEsc) {s : JsString}
    (hthrew : (modeMachine host).state mode (unit '\\' :: s) ≠ .threw) :
    ∃ lead : JsString, (lead = [] ∨ lead = [ESC, unit '\\']) ∧
      Dormouse.Terminal.total host mode (unit '\\' :: s) =
        lead ++ Dormouse.Terminal.total host (.ground .none false) s := by
  let σ : Osc99Pending := InsertionMap.empty
  cases mode with
  | threw => exact h.elim
  | ground held bells =>
    obtain ⟨rfl, rfl⟩ := h
    exact ⟨[ESC, unit '\\'], Or.inr rfl, by rw [total_cons]; rfl⟩
  | forward kind heldEsc =>
    obtain rfl : heldEsc = true := h
    exact ⟨[], Or.inl rfl, by rw [total_cons]; rfl⟩
  | osc introducer content heldEsc =>
    obtain rfl : heldEsc = true := h
    have hmode : (modeMachine host).step (.osc introducer content true) (unit '\\') =
        ((finishOsc host σ introducer content [ESC, unit '\\']).1.mode,
          dataOf (finishOsc host σ introducer content [ESC, unit '\\']).2) := rfl
    obtain ⟨htext, hend⟩ := @finishOsc_text host σ introducer content [ESC, unit '\\']
    rw [Transducer.state_cons, hmode] at hthrew
    rw [total_cons, hmode, textOf_dataOf, htext]
    rcases hend with hend | hend
    · rw [hend]
      exact ⟨[], Or.inl rfl, rfl⟩
    · rw [hend] at hthrew
      exact absurd (modeMachine_threw s) hthrew

/-! ### An introducer taken for text -/

theorem esc_lead_ne {c : UInt16} {l y z : JsString} (hc : c ≠ unit '\\') (hy : ESC ∉ y)
    (hz : z = [] ∨ z = [ESC] ∨ z = [ESC, unit '\\']) : ESC :: c :: l ≠ y ++ z := by
  intro h
  cases y with
  | nil =>
    rw [List.nil_append] at h
    rcases hz with rfl | rfl | rfl
    · cases h
    · cases h
    · exact hc (List.cons.inj (List.cons.inj h).2).1
  | cons d rest =>
    rw [List.cons_append] at h
    exact hy (by rw [← (List.cons.inj h).1]; exact List.mem_cons_self)

/-- A reading that put an ESC and a byte out as text never comes to what a reading does that
took them for an introducer. -/
theorem total_ne {mode₁ mode₂ : ReadMode} (h₁ : mode₁.Calm) (h₂ : mode₂.Calm)
    {c : UInt16} (hc : c ≠ unit '\\') {s : JsString}
    (hthrew₁ : (modeMachine host).state mode₁ s ≠ .threw)
    (hthrew₂ : (modeMachine host).state mode₂ s ≠ .threw) :
    ESC :: c :: total host mode₁ s ≠ total host mode₂ s := by
  by_cases hs : ESC ∈ s
  · obtain ⟨front, back, rfl, hfront⟩ := List.eq_append_cons_of_mem hs
    obtain ⟨hcalm₁, -⟩ := @run_calm host mode₁ h₁ front hfront
    obtain ⟨hcalm₂, hout₂⟩ := @run_calm host mode₂ h₂ front hfront
    rw [Transducer.state_append] at hthrew₁ hthrew₂
    have hnow : ∀ {mode : ReadMode}, (modeMachine host).state mode (ESC :: back) ≠ .threw →
        mode ≠ .threw := by
      rintro mode h rfl
      exact h (modeMachine_threw _)
    obtain ⟨htext₁, hat₁⟩ := @step_esc host _ hcalm₁ (hnow hthrew₁)
    obtain ⟨htext₂, hat₂⟩ := @step_esc host _ hcalm₂ (hnow hthrew₂)
    have hquiet : ESC ∉ textOf ((modeMachine host).output mode₂ front) ++
        ((modeMachine host).state mode₂ front).heldText := by
      rw [List.mem_append]
      exact not_or.2 ⟨hout₂, calm_heldText hcalm₂⟩
    rw [total_append, total_append, total_cons, total_cons, htext₁, htext₂]
    cases back with
    | nil =>
      rw [← List.append_assoc (textOf ((modeMachine host).output mode₂ front))]
      refine esc_lead_ne hc hquiet ?_
      exact (AtEsc.heldText hat₂).imp_right Or.inl
    | cons x more =>
      by_cases hx : x = unit '\\'
      · subst hx
        rw [Transducer.state_cons] at hthrew₁ hthrew₂
        obtain ⟨lead₁, -, htotal₁⟩ := AtEsc.total_st hat₁ hthrew₁
        obtain ⟨lead₂, hlead₂, htotal₂⟩ := AtEsc.total_st hat₂ hthrew₂
        rw [htotal₁, htotal₂]
        intro heq
        simp only [← List.append_assoc, ← List.cons_append] at heq
        have hcancel := List.append_cancel_right heq
        simp only [List.cons_append] at hcancel
        exact esc_lead_ne hc hquiet (hlead₂.imp_right Or.inr) hcancel
      · rw [AtEsc.total hat₁ hx, AtEsc.total hat₂ hx]
        intro heq
        simp only [← List.append_assoc, ← List.cons_append] at heq
        have hcancel := List.append_cancel_right heq
        rw [List.cons_append, List.cons_append,
          ← List.append_nil (textOf ((modeMachine host).output mode₂ front) ++ _)] at hcancel
        exact esc_lead_ne hc hquiet (Or.inl rfl) hcancel
  · obtain ⟨hcalm₂, hout₂⟩ := @run_calm host mode₂ h₂ s hs
    have hquiet : ESC ∉ total host mode₂ s := by
      rw [total, List.mem_append]
      exact not_or.2 ⟨hout₂, calm_heldText hcalm₂⟩
    rw [← List.append_nil (total host mode₂ s)]
    exact esc_lead_ne hc hquiet (Or.inl rfl)

end Dormouse.Terminal
