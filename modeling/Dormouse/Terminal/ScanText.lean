import Dormouse.Terminal.ScanSound

/-!
# Dormouse.Terminal.ScanText

A scan of a whole text is the reading of that text: what it puts out, and where it leaves
the parser.
-/

namespace Dormouse.Terminal

/-! ### The scan of a text -/

/-- A scan that put out what the reading did and left the parser where the reading is. -/
structure Scanned.Reads (s : Scanned) (r : ReadState × List Emission) : Prop where
  visible : s.visibleData = visibleOf r.2 ++ r.1.mode.early
  text : s.textData = textOf r.2
  events : nonBells s.events = eventsOf r.2
  mode : s.mode = r.1.mode.parserMode
  osc99Pending : s.osc99Pending = r.1.osc99Pending

/-- A scan throws where the reading does. -/
def ScanReads (result : Except Osc99Pending Scanned) (r : ReadState × List Emission) : Prop :=
  match result with
  | .error σ => r.1 = ⟨.threw, σ⟩
  | .ok s => r.1.mode ≠ .threw ∧ s.Reads r

theorem Scanned.Reads.prepend {s : Scanned} {state : ReadState} {out lead : List Emission}
    {visible text : JsString} {events : List TerminalProtocolEvent} (h : s.Reads (state, out))
    (hvisible : visibleOf lead = visible) (htext : textOf lead = text)
    (hevents : eventsOf lead = nonBells events) :
    { s with
      visibleData := visible ++ s.visibleData
      textData := text ++ s.textData
      events := events ++ s.events }.Reads (state, lead ++ out) := by
  refine ⟨?_, ?_, ?_, h.mode, h.osc99Pending⟩
  · show visible ++ s.visibleData = visibleOf (lead ++ out) ++ _
    rw [h.visible, visibleOf_append, hvisible, List.append_assoc]
  · show text ++ s.textData = textOf (lead ++ out)
    rw [h.text, textOf_append, htext]
  · show nonBells (events ++ s.events) = eventsOf (lead ++ out)
    rw [nonBells_append, h.events, eventsOf_append, hevents]

theorem ScanReads.prepend {result : Except Osc99Pending Scanned} {state : ReadState}
    {out lead : List Emission} {visible text : JsString} {events : List TerminalProtocolEvent}
    (h : ScanReads result (state, out)) (hvisible : visibleOf lead = visible)
    (htext : textOf lead = text) (hevents : eventsOf lead = nonBells events) :
    ScanReads (result.map fun s =>
      { s with
        visibleData := visible ++ s.visibleData
        textData := text ++ s.textData
        events := events ++ s.events }) (state, lead ++ out) := by
  cases result with
  | error σ => exact h
  | ok s => exact ⟨h.1, h.2.prepend hvisible htext hevents⟩

theorem dropHeldEsc_append (text : JsString) : dropHeldEsc text ++ escIf (endsWithEsc text) = text := by
  rw [dropHeldEsc]
  cases hend : endsWithEsc text with
  | false => simp [escIf]
  | true =>
    have hlast : text.getLast? = some ESC := by simpa [endsWithEsc] using hend
    rw [if_pos rfl]
    show text.dropLast ++ [ESC] = text
    exact List.dropLast_append_getLast? ESC hlast

/-- An introducer does not end in an ESC. -/
theorem introducer_shape {text : JsString} {m : IntroducerMatch}
    (h : stringControlIntroducerScan text = some m) : endsWithEsc m.introducer = false := by
  induction text generalizing m with
  | nil => cases h
  | cons c rest ih =>
    rcases introducer_cases (c :: rest) with hnil | ⟨_, _, heq, hc⟩ | ⟨d, _, heq, hd⟩ |
      ⟨_, _, heq, hc, hesc⟩
    · exact absurd hnil (List.cons_ne_nil c rest)
    · obtain ⟨rfl, rfl⟩ := List.cons.inj heq
      rw [stringControlIntroducerScan_c1 hc, Option.some.injEq] at h
      subst h
      have hne : c ≠ ESC := by
        rintro rfl
        rw [isC1Introducer_ESC] at hc
        cases hc
      simp [endsWithEsc, hne]
    · rw [heq, stringControlIntroducerScan_esc hd, Option.some.injEq] at h
      subst h
      have hne : d ≠ ESC := by
        rintro rfl
        rw [not_opensString_ESC] at hd
        cases hd
      simp [endsWithEsc, hne]
    · obtain ⟨rfl, rfl⟩ := List.cons.inj heq
      rw [stringControlIntroducerScan_skip hc hesc, Option.map_eq_some_iff] at h
      obtain ⟨m, hm, rfl⟩ := h
      exact (ih hm : endsWithEsc m.introducer = false)

theorem endsWithEsc_append {lead : JsString} (h : endsWithEsc lead = false) (text : JsString) :
    endsWithEsc (lead ++ text) = endsWithEsc text := by
  cases text with
  | nil => rw [List.append_nil, h]; rfl
  | cons c rest => rw [endsWithEsc, endsWithEsc, List.getLast?_append_cons]

theorem dropHeldEsc_append_left {lead : JsString} (h : endsWithEsc lead = false) (text : JsString) :
    dropHeldEsc (lead ++ text) = lead ++ dropHeldEsc text := by
  rw [dropHeldEsc, dropHeldEsc, endsWithEsc_append h]
  split
  · next hend =>
      have hne : text ≠ [] := by
        rintro rfl
        cases hend
      exact List.dropLast_append_of_ne_nil hne
  · rfl

theorem scanIncomplete_other (σ : Osc99Pending) {introducer : JsString}
    (h : endsWithEsc introducer = false) (text : JsString) :
    (scanIncomplete σ .other introducer text).Reads
      (⟨.forward .other (endsWithEsc text), σ⟩,
        controlRun introducer ++ controlRun (dropHeldEsc text)) := by
  rw [← controlRun_append, ← dropHeldEsc_append_left h, ← endsWithEsc_append h]
  have hscan : scanIncomplete σ .other introducer text =
      ⟨dropHeldEsc (introducer ++ text), [], [], .forwarding .other (endsWithEsc (introducer ++ text)),
        σ⟩ := rfl
  rw [hscan]
  exact ⟨by simp [ReadMode.early], by simp, by simp [nonBells], rfl, rfl⟩

theorem scanIncomplete_osc (σ : Osc99Pending) {introducer : JsString}
    (h : endsWithEsc introducer = false) (text : JsString) :
    (scanIncomplete σ .osc introducer text).Reads
      (atOscEnd σ introducer (dropHeldEsc text) (endsWithEsc text)) := by
  have htext := dropHeldEsc_append text
  have hscan : scanIncomplete σ .osc introducer text =
      if oscDispositionAt text = some .forward then
        ⟨dropHeldEsc (introducer ++ text), [], [], .forwarding .osc (endsWithEsc (introducer ++ text)),
          σ⟩
      else if (introducer ++ text).length ≤ OSC_INCOMPLETE_LIMIT then
        ⟨[], [], [], .ground (introducer ++ text), σ⟩
      else ⟨[], [], [], .discarding (endsWithEsc (introducer ++ text)), σ⟩ := rfl
  rw [hscan, dropHeldEsc_append_left h, endsWithEsc_append h, atOscEnd]
  by_cases hdrop : oscDispositionAt (dropHeldEsc text) = some .forward
  · have hall : oscDispositionAt text = some .forward := by
      rw [← htext]
      exact oscDispositionAt_append hdrop _
    rw [if_pos hdrop, if_pos hall]
    exact ⟨by simp [ReadMode.early], by simp, by simp [nonBells], rfl, rfl⟩
  rw [if_neg hdrop]
  by_cases hall : oscDispositionAt text = some .forward
  · have hesc : endsWithEsc text = true := by
      by_contra hesc
      have hsame : dropHeldEsc text = text := by
        rw [dropHeldEsc, if_neg hesc]
      exact hdrop (by rw [hsame]; exact hall)
    have hcontent : dropHeldEsc text ++ [ESC] = text := by
      rw [hesc] at htext
      exact htext
    rw [if_pos hall]
    refine ⟨?_, rfl, rfl, ?_, rfl⟩
    · simp [ReadMode.early, hesc, hcontent, hall]
    · simp [ReadMode.parserMode, hesc, escIf, hcontent, hall]
  · have hearly : (ReadMode.osc introducer (dropHeldEsc text) (endsWithEsc text)).early = [] := by
      cases hesc : endsWithEsc text with
      | false => rfl
      | true =>
        have hcontent : dropHeldEsc text ++ [ESC] = text := by
          rw [hesc] at htext
          exact htext
        simp [ReadMode.early, hcontent, hall]
    rw [if_neg hall]
    split
    · next hlen =>
        refine ⟨by rw [hearly]; rfl, rfl, rfl, ?_, rfl⟩
        simp only [ReadMode.parserMode, htext, if_neg hall, if_pos hlen]
    · next hlen =>
        refine ⟨by rw [hearly]; rfl, rfl, rfl, ?_, rfl⟩
        simp only [ReadMode.parserMode, htext, if_neg hall, if_neg hlen]

/-! ### The loop -/

section Host

variable {host : ParserHost}

theorem openString_osc {introducer : JsString} (h : stringControlKind introducer = .osc) :
    openString introducer = (.osc introducer [] false, []) := by
  rw [openString, h]

theorem openString_other {introducer : JsString} (h : stringControlKind introducer = .other) :
    openString introducer = (.forward .other false, controlRun introducer) := by
  rw [openString, h]

/-- One turn of the loop behind its gap. -/
def scanControl (host : ParserHost) (fuel : Nat) (σ : Osc99Pending) (control : IntroducerMatch) :
    Except Osc99Pending Scanned :=
  let kind := stringControlKind control.introducer
  match findStringControlEnd kind control.after with
  | none => .ok (scanIncomplete σ kind control.introducer control.after)
  | some controlEnd =>
    match parseControl host σ kind control.after controlEnd with
    | .throws => .error σ
    | .forward =>
      (scanLoop host fuel σ controlEnd.rest).map fun later =>
        { later with
          visibleData :=
            control.introducer ++ controlEnd.payload ++ controlEnd.ender ++ later.visibleData
          textData := [] ++ later.textData
          events := [] ++ later.events }
    | .consume events σ =>
      (scanLoop host fuel σ controlEnd.rest).map fun later =>
        { later with
          visibleData := [] ++ later.visibleData
          textData := [] ++ later.textData
          events := events ++ later.events }

theorem scanLoop_succ (fuel : Nat) (σ : Osc99Pending) (text : JsString) :
    scanLoop host (fuel + 1) σ text =
      match stringControlIntroducerScan text with
      | none => .ok (scanTail σ text)
      | some control =>
        (scanControl host fuel σ control).map fun later =>
          { later with
            visibleData := (scanGap control.before).1 ++ later.visibleData
            textData := (scanGap control.before).1 ++ later.textData
            events := (scanGap control.before).2 ++ later.events } := by
  rw [scanLoop]
  rcases stringControlIntroducerScan text with _ | control
  · rfl
  simp only [scanControl]
  rcases findStringControlEnd (stringControlKind control.introducer) control.after with _ | e
  · rfl
  simp only
  cases parseControl host σ (stringControlKind control.introducer) control.after e with
  | throws => rfl
  | forward =>
    simp only
    cases scanLoop host fuel σ e.rest <;> simp [Except.map, List.append_assoc]
  | consume events σ' =>
    simp only
    cases scanLoop host fuel σ' e.rest <;> simp [Except.map, List.append_assoc]

theorem scanControl_reads {fuel : Nat} {σ : Osc99Pending} {control : IntroducerMatch}
    (hintro : endsWithEsc control.introducer = false)
    (hlater : ∀ (σ : Osc99Pending) (e : StringControlEnd),
      findStringControlEnd (stringControlKind control.introducer) control.after = some e →
        ScanReads (scanLoop host fuel σ e.rest)
          ((readMachine host).run ⟨.ground .none false, σ⟩ e.rest)) :
    ScanReads (scanControl host fuel σ control)
      (((readMachine host).run ⟨(openString control.introducer).1, σ⟩ control.after).1,
        (openString control.introducer).2 ++
          ((readMachine host).run ⟨(openString control.introducer).1, σ⟩ control.after).2) := by
  rw [scanControl]
  cases hkind : stringControlKind control.introducer with
  | other =>
    rw [hkind] at hlater
    rw [openString_other hkind, run_forward]
    cases hfind : findStringControlEnd .other control.after with
    | none => exact ⟨by simp, scanIncomplete_other σ hintro control.after⟩
    | some e =>
      have hrest := (hlater σ e hfind).prepend
        (visibleOf_controlRun (control.introducer ++ (e.payload ++ e.ender)))
        (textOf_controlRun _) (show _ = nonBells [] from eventsOf_controlRun _)
      rw [controlRun_append] at hrest
      simpa [parseControl, List.append_assoc] using hrest
  | osc =>
    rw [hkind] at hlater
    have hstart : oscDispositionAt [] ≠ some .forward := by simp [oscDispositionAt]
    rw [openString_osc hkind, run_osc _ _ hstart]
    cases hfind : findStringControlEnd .osc control.after with
    | none =>
      have hreads := scanIncomplete_osc σ hintro control.after
      refine ⟨?_, hreads⟩
      simp only [List.nil_append, atOscEnd]
      split <;> simp
    | some e =>
      simp only [List.nil_append]
      cases hparse : parseControl host σ .osc control.after e with
      | throws => exact rfl
      | forward =>
        have hrest := (hlater σ e hfind).prepend
          (visibleOf_controlRun (control.introducer ++ e.payload ++ e.ender))
          (textOf_controlRun _) (show _ = nonBells [] from eventsOf_controlRun _)
        exact hrest
      | consume events σ' =>
        have hrest := (hlater σ' e hfind).prepend (visibleOf_eventRun events)
           (textOf_eventRun _) (eventsOf_eventRun _)
        exact hrest

theorem findStringControlEnd_length {kind : StringControlKind} {text : JsString}
    {e : StringControlEnd} (h : findStringControlEnd kind text = some e) :
    e.rest.length ≤ text.length := by
  induction text generalizing e with
  | nil => cases h
  | cons c rest ih =>
    by_cases hesc : c = ESC
    · subst hesc
      rcases rest with _ | ⟨d, after⟩
      · cases h
      by_cases hd : d = unit '\\'
      · subst hd
        rw [findStringControlEnd_st, Option.some.injEq] at h
        rw [← h]
        simp only [List.length_cons]
        omega
      · rw [findStringControlEnd_cancel kind hd, Option.some.injEq] at h
        rw [← h]
    · by_cases hend : endsString kind c = true
      · rw [findStringControlEnd_ender hesc hend, Option.some.injEq] at h
        rw [← h]
        exact Nat.le_succ _
      · rw [findStringControlEnd_cons hesc (by simpa using hend), Option.map_eq_some_iff] at h
        obtain ⟨e, he, rfl⟩ := h
        exact Nat.le_succ_of_le (ih he : e.rest.length ≤ rest.length)

theorem scanLoop_reads {fuel : Nat} {text : JsString} (h : text.length < fuel) (σ : Osc99Pending) :
    ScanReads (scanLoop host fuel σ text)
      ((readMachine host).run ⟨.ground .none false, σ⟩ text) := by
  induction fuel generalizing text σ with
  | zero => omega
  | succ fuel ih =>
    rw [scanLoop_succ]
    cases hscan : stringControlIntroducerScan text with
    | none =>
      obtain ⟨bells, hrun⟩ := @run_ground_stays host σ text .none false hscan
      obtain ⟨hprojects, htext, hmode, hosc99⟩ := scanTail_projects σ text
      rw [hrun]
      refine ⟨by simp, ?_, ?_, hprojects.events.symm, hmode, hosc99⟩
      · simp only [ReadMode.early, List.append_nil]
        exact hprojects.visible.symm
      · exact htext.trans hprojects.text.symm
    | some control =>
      have hrun := @run_ground_opens host σ text .none false control hscan
      have hgap := scanGap_projects control.before
      have hcontrol := @scanControl_reads host fuel σ control
        (introducer_shape hscan) (by
          intro σ e he
          have h1 := findStringControlEnd_length he
          have h2 := stringControlIntroducerScan_length hscan
          exact ih (by omega) σ)
      rw [hrun]
      exact hcontrol.prepend hgap.visible hgap.text hgap.events

/-- A scan of a text is its reading. -/
theorem scanText_reads (σ : Osc99Pending) (text : JsString) :
    ScanReads (scanText host σ text) ((readMachine host).run (.start σ) text) :=
  scanLoop_reads (Nat.lt_succ_self _) σ

end Host

end Dormouse.Terminal
