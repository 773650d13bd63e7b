import Dormouse.Terminal.ScanText

/-!
# Dormouse.Terminal.ChunkReads

A call of the parser reads on where the last one stopped, as long as the chunks do not
meet where the parser loses what it would need to know: behind an ESC whose BELs were
stripped, inside the terminator of a bare identifier, in an OSC that is over the limit.
-/

namespace Dormouse.Terminal

variable {host : ParserHost} {σ : Osc99Pending}

/-! ### Modes a reading can be in -/

/-- An OSC that is still undecided or consumed, and has not ended. -/
structure OpenOsc (introducer content : JsString) : Prop where
  introducer : introducer = [0x9d] ∨ introducer = [ESC, unit ']']
  undecided : oscDispositionAt content ≠ some .forward
  open_ : ∀ c ∈ content, endsString .osc c = false

def ReadMode.WellFormed : ReadMode → Prop
  | .osc introducer content _ => OpenOsc introducer content
  | _ => True

theorem introducerOf_cases {held : Held} {bells : Bool} {c : UInt16} {flushed introducer : JsString}
    (h : introducerOf held bells c = some (flushed, introducer)) :
    (introducer = [c] ∧ isC1Introducer c = true) ∨ (introducer = [ESC, c] ∧ opensString c = true) := by
  rw [introducerOf] at h
  split at h
  · next hc1 =>
      cases h
      exact Or.inl ⟨rfl, hc1⟩
  · split at h
    · next hopen =>
        cases h
        exact Or.inr ⟨rfl, hopen.2.2⟩
    · cases h

theorem openString_wellFormed {held : Held} {bells : Bool} {c : UInt16} {flushed introducer : JsString}
    (h : introducerOf held bells c = some (flushed, introducer)) :
    (openString introducer).1.WellFormed := by
  cases hkind : stringControlKind introducer with
  | other =>
    rw [openString_other hkind]
    trivial
  | osc =>
    rw [openString_osc hkind]
    refine ⟨?_, by simp [oscDispositionAt], fun _ hc => absurd hc List.not_mem_nil⟩
    have hopener : ∀ opener, introducer.getLast? = some opener → opener = unit ']' ∨ opener = 0x9d := by
      intro opener hlast
      rw [stringControlKind, hlast] at hkind
      simp only at hkind
      split at hkind
      · next h => simpa using h
      · cases hkind
    rcases introducerOf_cases h with ⟨rfl, hc1⟩ | ⟨rfl, hopen⟩
    · rcases hopener c rfl with rfl | rfl
      · revert hc1
        decide
      · exact Or.inl rfl
    · rcases hopener c rfl with rfl | rfl
      · exact Or.inr rfl
      · revert hopen
        decide

theorem groundStep_wellFormed (held : Held) (bells : Bool) (c : UInt16) :
    (groundStep σ held bells c).1.mode.WellFormed := by
  rw [groundStep]
  split
  · trivial
  · cases hintro : introducerOf held bells c with
    | none => trivial
    | some opened => exact openString_wellFormed hintro

theorem finishOsc_wellFormed (introducer content ender : JsString) :
    (finishOsc host σ introducer content ender).1.mode.WellFormed := by
  rw [finishOsc]
  cases parseOsc host σ content <;> trivial

theorem step_wellFormed {s : ReadState} (h : s.mode.WellFormed) (c : UInt16) :
    ((readMachine host).step s c).1.mode.WellFormed := by
  obtain ⟨mode, σ⟩ := s
  cases mode with
  | threw => trivial
  | ground held bells => exact groundStep_wellFormed held bells c
  | forward kind heldEsc =>
    show (forwardStep σ kind heldEsc c).1.mode.WellFormed
    rw [forwardStep]
    split
    · split
      · trivial
      · exact groundStep_wellFormed .esc false c
    · split
      · trivial
      · split <;> trivial
  | osc introducer content heldEsc =>
    have hopen : OpenOsc introducer content := h
    show (oscStep host σ introducer content heldEsc c).1.mode.WellFormed
    rw [oscStep]
    split
    · split
      · exact finishOsc_wellFormed introducer content _
      · exact groundStep_wellFormed .esc false c
    split
    · exact hopen
    split
    · trivial
    split
    · exact finishOsc_wellFormed introducer content _
    next hend =>
      split
      · trivial
      next hforward =>
        refine ⟨hopen.introducer, hforward, ?_⟩
        intro d hd
        rcases List.mem_append.1 hd with hd | hd
        · exact hopen.open_ d hd
        · rw [List.mem_singleton.1 hd]
          simpa using hend

theorem run_wellFormed {s : ReadState} (h : s.mode.WellFormed) (text : JsString) :
    ((readMachine host).state s text).mode.WellFormed := by
  induction text generalizing s with
  | nil => exact h
  | cons c rest ih => exact ih (step_wellFormed h c)

/-! ### Reading a pending text again -/

/-- What is held is read again to where it was. -/
theorem run_held (held : Held) :
    (readMachine host).run (.start σ) held.text = (⟨.ground held false, σ⟩, []) := by
  cases held <;> rfl

theorem not_endsString {c : UInt16} (h : endsString .osc c = false) : c ≠ ESC := by
  rintro rfl
  revert h
  decide

theorem OpenOsc.endsWithEsc {introducer content : JsString} (h : OpenOsc introducer content) :
    endsWithEsc content = false := by
  rw [Dormouse.Terminal.endsWithEsc]
  refine beq_false_of_ne ?_
  intro hlast
  exact not_endsString (h.open_ ESC (List.mem_of_getLast? hlast)) rfl

theorem findStringControlEnd_open {content : JsString}
    (h : ∀ c ∈ content, endsString .osc c = false) (text : JsString) :
    findStringControlEnd .osc (content ++ text) =
      (findStringControlEnd .osc text).map fun e => { e with payload := content ++ e.payload } := by
  induction content with
  | nil =>
    rw [List.nil_append]
    cases findStringControlEnd .osc text <;> rfl
  | cons c rest ih =>
    have hc := h c List.mem_cons_self
    rw [List.cons_append, findStringControlEnd_cons (not_endsString hc) hc,
      ih fun d hd => h d (List.mem_cons_of_mem c hd), Option.map_map]
    rfl

/-- A pending OSC is read again to where it was. -/
theorem run_openOsc {introducer content : JsString} (h : OpenOsc introducer content)
    (heldEsc : Bool) :
    (readMachine host).run (.start σ) (introducer ++ (content ++ escIf heldEsc)) =
      (⟨.osc introducer content heldEsc, σ⟩, []) := by
  have hintro : ∀ text, (readMachine host).run (.start σ) (introducer ++ text) =
      (readMachine host).run ⟨.osc introducer [] false, σ⟩ text := by
    intro text
    rcases h.introducer with rfl | rfl <;> rfl
  have hfind : findStringControlEnd .osc (content ++ escIf heldEsc) = none := by
    rw [findStringControlEnd_open h.open_]
    cases heldEsc <;> rfl
  have hends : endsWithEsc (content ++ escIf heldEsc) = heldEsc := by
    rw [endsWithEsc_append h.endsWithEsc]
    cases heldEsc <;> rfl
  have hdrop : dropHeldEsc (content ++ escIf heldEsc) = content := by
    rw [dropHeldEsc_append_left h.endsWithEsc]
    cases heldEsc <;> exact List.append_nil content
  rw [hintro, run_osc _ _ (by simp [oscDispositionAt]), hfind]
  simp only [List.nil_append]
  rw [hends, hdrop, atOscEnd, if_neg h.undecided]

/-! ### One call -/

/-- A call that put out what the reading did, `early` of it before. -/
structure Returns (early : JsString) (parser : TerminalProtocolParser)
    (result : TerminalProtocolParseResult) (r : ReadState × List Emission) : Prop where
  not_threw : r.1.mode ≠ .threw
  visible : early ++ result.visibleData = visibleOf r.2 ++ r.1.mode.early
  text : result.textData = textOf r.2
  events : nonBells result.events = eventsOf r.2
  parser : parser = ⟨r.1.mode.parserMode, r.1.osc99Pending⟩

/-- A call throws where the reading does. -/
def CallReads (early : JsString)
    (call : TerminalProtocolParser × Option TerminalProtocolParseResult)
    (r : ReadState × List Emission) : Prop :=
  match call.2 with
  | none => r.1.mode = .threw
  | some result => Returns early call.1 result r

theorem nonBells_filterTerminalBellEvents (events : List TerminalProtocolEvent) :
    nonBells (filterTerminalBellEvents events) = nonBells events := by
  have hkeep : ∀ kept, nonBells (keepFirstBell kept events) = nonBells events := by
    intro kept
    induction events generalizing kept with
    | nil => rfl
    | cons event rest ih =>
      rw [keepFirstBell]
      by_cases hbell : isBell event = true
      · have hdrop : nonBells (event :: rest) = nonBells rest := by simp [nonBells, hbell]
        rw [if_pos hbell, hdrop]
        split
        · exact ih true
        · have hdrop' : nonBells (event :: keepFirstBell true rest) =
              nonBells (keepFirstBell true rest) := by simp [nonBells, hbell]
          rw [hdrop', ih true]
      · have hcons : ∀ l, nonBells (event :: l) = event :: nonBells l := by
          intro l
          simp [nonBells, hbell]
        rw [if_neg hbell, hcons, hcons, ih kept]
  rw [filterTerminalBellEvents]
  split
  · rfl
  · split
    · rfl
    · split
      · simp [nonBells, List.filter_filter]
      · exact hkeep false

/-- A text with nothing in it to parse is put out as it is. -/
theorem run_not_needsParse {data : JsString} (h : needsParse data = false) :
    ∃ bells, (readMachine host).run (.start σ) data = (⟨.ground .none bells, σ⟩, groundRun data) := by
  rw [needsParse, Bool.or_eq_false_iff] at h
  obtain ⟨hany, hscan⟩ := h
  have hplain : ∀ c ∈ data, c ≠ BEL ∧ c ≠ ESC ∧ c ≠ CSI := by
    intro c hc
    have hc' := List.any_eq_false.1 hany c hc
    simp only [Bool.or_eq_true, beq_iff_eq, not_or] at hc'
    exact ⟨hc'.1.1, hc'.1.2, hc'.2⟩
  have hrun : ∀ text : JsString, (∀ c ∈ text, c ≠ BEL ∧ c ≠ ESC ∧ c ≠ CSI) →
      unbelled text = text ∧ heldMachine.run .none text = (.none, groundRun text) := by
    intro text htext
    induction text with
    | nil => exact ⟨rfl, rfl⟩
    | cons c rest ih =>
      obtain ⟨hbel, hesc, hcsi⟩ := htext c List.mem_cons_self
      obtain ⟨hun, hrest⟩ := ih fun d hd => htext d (List.mem_cons_of_mem c hd)
      have hstep : heldMachine.step .none c = (.none, [.ground c]) := by
        show freshByte c = _
        simp [freshByte, hesc, hcsi]
      refine ⟨by rw [unbelled_cons, if_neg hbel, hun], ?_⟩
      rw [Transducer.run_cons, hstep, hrest]
      rfl
  have hnone : stringControlIntroducerScan data = none := by simpa using hscan
  obtain ⟨bells, hstays⟩ := @run_ground_stays host σ data .none false hnone
  obtain ⟨hun, hheld⟩ := hrun data hplain
  rw [Transducer.run_eq, Prod.mk.injEq] at hheld
  rw [hun, hheld.1, hheld.2] at hstays
  exact ⟨bells, hstays⟩

/-- A call outside a string reads what is pending and the chunk. -/
theorem processGround_reads (pending data : JsString) :
    CallReads [] (processGround host σ pending data)
      ((readMachine host).run (.start σ) (pending ++ data)) := by
  rw [processGround]
  split
  · next h =>
      obtain ⟨rfl, hplain⟩ := h
      obtain ⟨bells, hrun⟩ := @run_not_needsParse host σ data hplain
      rw [List.nil_append, hrun]
      exact ⟨by simp, by simp [ReadMode.early], by simp, by simp [nonBells], rfl⟩
  have hscan := @scanText_reads host σ (pending ++ data)
  cases hresult : scanText host σ (pending ++ data) with
  | error σ' =>
    rw [hresult] at hscan
    exact congrArg ReadState.mode hscan
  | ok scanned =>
    rw [hresult] at hscan
    obtain ⟨hthrew, hreads⟩ := hscan
    refine ⟨hthrew, hreads.visible, hreads.text, ?_, ?_⟩
    · exact (nonBells_filterTerminalBellEvents _).trans hreads.events
    · show (⟨scanned.mode, scanned.osc99Pending⟩ : TerminalProtocolParser) = _
      rw [hreads.mode, hreads.osc99Pending]

/-- A call that ends a string first. -/
theorem CallReads.prepend {early ended : JsString} {lead out : List Emission} {state : ReadState}
    {call : TerminalProtocolParser × Option TerminalProtocolParseResult} {boundary : Option Nat}
    (h : CallReads [] call (state, out)) (hvisible : early ++ ended = visibleOf lead)
    (htext : textOf lead = []) (hevents : eventsOf lead = []) :
    CallReads early
      (call.1, call.2.map fun result =>
        { result with visibleData := ended ++ result.visibleData, resumedStringEnd := boundary })
      (state, lead ++ out) := by
  obtain ⟨parser, result⟩ := call
  rcases result with _ | result
  · exact h
  have hreturns : Returns [] parser result (state, out) := h
  refine ⟨hreturns.not_threw, ?_, ?_, ?_, hreturns.parser⟩
  · have hv := hreturns.visible
    rw [List.nil_append] at hv
    show early ++ (ended ++ result.visibleData) = visibleOf (lead ++ out) ++ _
    rw [hv, ← List.append_assoc, hvisible, visibleOf_append, List.append_assoc]
  · show result.textData = textOf (lead ++ out)
    rw [textOf_append, htext]
    exact hreturns.text
  · show nonBells result.events = eventsOf (lead ++ out)
    rw [eventsOf_append, hevents]
    exact hreturns.events

/-! ### Where chunks may meet -/

/-- The identifiers the parser consumes even when nothing follows them. -/
def BARE_IDS : List JsString :=
  [js "0", js "2", js "7", js "9", js "50", js "52", js "99", js "133", js "633", js "777",
    js "1337"]

/-- The parser loses nothing where a chunk ends in the mode and the next one begins. -/
structure Joins (mode : ReadMode) (next : JsString) : Prop where
  /-- A stripped BEL is not remembered. -/
  bells : ∀ c rest, mode = .ground .esc true → next = c :: rest → opensString c = false
  /-- A bare identifier before an ESC is put out ahead. -/
  bareId : ∀ introducer content rest, mode = .osc introducer content true →
    next = unit '\\' :: rest → content ∉ BARE_IDS
  /-- An OSC over the limit is discarded: what is left of it must not matter. -/
  limit : ∀ introducer content heldEsc, mode = .osc introducer content heldEsc →
    oscDispositionAt (content ++ escIf heldEsc) ≠ some .forward →
      (introducer ++ (content ++ escIf heldEsc)).length ≤ OSC_INCOMPLETE_LIMIT ∨
        (oscDispositionAt (content ++ escIf heldEsc) = none ∧
          next.all JsString.isDigit = true)

/-- An OSC that only its breaking off gives to the renderer is a bare number. -/
theorem digits_of_break {content : JsString} (h : oscDispositionAt content ≠ some .forward)
    (hesc : oscDispositionAt (content ++ [ESC]) = some .forward) :
    content.dropWhile JsString.isDigit = [] := by
  rcases hdrop : content.dropWhile JsString.isDigit with _ | ⟨d, rest⟩
  · rfl
  refine absurd ?_ h
  obtain ⟨htake', hdrop'⟩ := id_append hdrop [ESC]
  unfold oscDispositionAt at hesc ⊢
  rw [htake', hdrop'] at hesc
  rw [hdrop]
  simp only at hesc ⊢
  by_cases hend : content.takeWhile JsString.isDigit = [] ∨ d ≠ unit ';'
  · rw [if_pos hend]
  rw [if_neg hend] at hesc ⊢
  by_cases hid : content.takeWhile JsString.isDigit = js "1337"
  · rw [if_pos hid] at hesc ⊢
    unfold osc1337DispositionAt at hesc ⊢
    by_cases hany : (OSC1337_FORWARDED.any fun command => command.isPrefixOf (rest ++ [ESC])) = true
    · obtain ⟨command, hmem, hpre⟩ := List.any_eq_true.1 hany
      have hnot : ∀ command ∈ OSC1337_FORWARDED, ESC ∉ command := by decide
      rw [List.isPrefixOf_iff_prefix, List.prefix_concat_iff] at hpre
      rcases hpre with rfl | hpre
      · exact absurd (by simp) (hnot _ hmem)
      · have hany' : (OSC1337_FORWARDED.any fun command => command.isPrefixOf rest) = true :=
          List.any_eq_true.2 ⟨command, hmem, by rwa [List.isPrefixOf_iff_prefix]⟩
        rw [if_pos hany']
    · rw [if_neg hany] at hesc
      split at hesc <;> cases hesc
  · rw [if_neg hid] at hesc ⊢
    exact hesc

theorem eq_of_isOsc_digits {content : JsString} {id : String}
    (hdigits : (js id).all JsString.isDigit = true)
    (hcontent : content.dropWhile JsString.isDigit = []) (h : isOsc content id = true) :
    content = js id := by
  have htake := List.takeWhile_append_dropWhile (p := JsString.isDigit) (l := content)
  rw [hcontent, List.append_nil, (isOsc_id hdigits h).1] at htake
  exact htake.symm

/-- A bare number that is none of the identifiers is the renderer's. -/
theorem parseOsc_bare {content : JsString} (hcontent : content.dropWhile JsString.isDigit = [])
    (h : content ∉ BARE_IDS) : parseOsc host σ content = .null := by
  have hnot : ∀ id : String, js id ∈ BARE_IDS → isOsc content id = false := by
    have hdigits : ∀ id ∈ BARE_IDS, id.all JsString.isDigit = true := by decide
    intro id hid
    by_contra hosc
    exact h (eq_of_isOsc_digits (hdigits _ hid) hcontent (by simpa using hosc) ▸ hid)
  have hne : ∀ s : JsString, s.dropWhile JsString.isDigit ≠ [] → content ≠ s := by
    rintro s hs rfl
    exact hs hcontent
  have h10 : content ≠ js "10;?" := hne _ (by decide)
  have h11 : content ≠ js "11;?" := hne _ (by decide)
  have h12 : content ≠ js "12;?" := hne _ (by decide)
  have hquery : parseColorQuery host content = none := by
    simp only [parseColorQuery, h10, h11, h12, if_false]
  have hunsupported : isKnownUnsupportedIterm2Osc content = false := by
    rw [isKnownUnsupportedIterm2Osc, hnot "50" (by decide), hnot "52" (by decide)]
    rfl
  simp [parseOsc, hnot "7" (by decide), hnot "9" (by decide), hnot "133" (by decide),
    hnot "633" (by decide), hnot "1337" (by decide), hnot "0" (by decide), hnot "2" (by decide),
    hnot "99" (by decide), hnot "777" (by decide), hquery, hunsupported]

/-- An undecided identifier that is long is a bare number. -/
theorem digits_of_undecided {content : JsString} (h : oscDispositionAt content = none)
    (hlen : 30 < content.length) : content.dropWhile JsString.isDigit = [] := by
  rcases hdrop : content.dropWhile JsString.isDigit with _ | ⟨d, rest⟩
  · rfl
  have hsplit := congrArg List.length
    (List.takeWhile_append_dropWhile (p := JsString.isDigit) (l := content))
  unfold oscDispositionAt at h
  rw [hdrop] at h hsplit
  simp only at h
  split at h
  · cases h
  split at h
  · next hid =>
      have hshort : ∀ command ∈ OSC1337_FORWARDED, command.length ≤ 14 := by decide
      unfold osc1337DispositionAt at h
      split at h
      · cases h
      split at h
      · next hpartial =>
          obtain ⟨command, hmem, hboth⟩ := List.any_eq_true.1 hpartial
          rw [Bool.and_eq_true, decide_eq_true_iff] at hboth
          have h14 := hshort command hmem
          have h4 : (js "1337").length = 4 := by decide
          rw [List.length_append, hid, h4, List.length_cons] at hsplit
          omega
      · cases h
  · split at h <;> cases h

theorem oscDispositionAt_digits {content : JsString}
    (h : content.dropWhile JsString.isDigit = []) : oscDispositionAt content = none := by
  unfold oscDispositionAt
  rw [h]

theorem process_forwarding (σ : Osc99Pending) (kind : StringControlKind) (heldEsc : Bool)
    (data : JsString) :
    TerminalProtocolParser.process host ⟨.forwarding kind heldEsc, σ⟩ data =
      processForwarded host σ kind heldEsc data := rfl

/-- A text that is pending is read again to where it was, and on. -/
theorem pending_reads {mode : ReadMode} {pending : JsString}
    (hpending : (readMachine host).run (.start σ) pending = (⟨mode, σ⟩, [])) (data : JsString) :
    CallReads [] (TerminalProtocolParser.process host ⟨.ground pending, σ⟩ data)
      ((readMachine host).run ⟨mode, σ⟩ data) := by
  have h := @processGround_reads host σ pending data
  rw [Transducer.run_eq, Prod.mk.injEq] at hpending
  rw [Transducer.run_eq, Transducer.state_append, Transducer.output_append, hpending.1,
    hpending.2] at h
  exact h

/-- A stripped BEL matters to the byte behind it only. -/
theorem CallReads.bells {held : Held} {data : JsString}
    {call : TerminalProtocolParser × Option TerminalProtocolParseResult}
    (hjoins : ∀ c rest, held = .esc → data = c :: rest → opensString c = false)
    (h : CallReads [] call ((readMachine host).run ⟨.ground held false, σ⟩ data)) :
    CallReads [] call ((readMachine host).run ⟨.ground held true, σ⟩ data) := by
  cases data with
  | nil =>
    obtain ⟨parser, result⟩ := call
    cases result with
    | none => exact absurd h (by simp [CallReads])
    | some result =>
      have hreturns : Returns [] parser result (⟨.ground held false, σ⟩, []) := h
      exact ⟨by simp, hreturns.visible, hreturns.text, hreturns.events, hreturns.parser⟩
  | cons c rest =>
    have hintro : introducerOf held true c = introducerOf held false c := by
      rw [introducerOf, introducerOf]
      split
      · rfl
      · by_cases hheld : held = .esc
        · simp [hjoins c rest hheld rfl]
        · simp [hheld]
    have hstep : (readMachine host).step ⟨.ground held true, σ⟩ c =
        (readMachine host).step ⟨.ground held false, σ⟩ c := by
      show groundStep σ held true c = groundStep σ held false c
      rw [groundStep, groundStep, hintro]
    rw [Transducer.run_cons] at h ⊢
    rw [hstep]
    exact h

/-- A call inside a string that is forwarded reads on. -/
theorem processForwarded_reads (kind : StringControlKind) (heldEsc : Bool) (data : JsString) :
    CallReads [] (processForwarded host σ kind heldEsc data)
      ((readMachine host).run ⟨.forward kind heldEsc, σ⟩ data) := by
  have hheld : (readMachine host).run ⟨.forward kind heldEsc, σ⟩ data =
      (readMachine host).run ⟨.forward kind false, σ⟩ (escIf heldEsc ++ data) := by
    cases heldEsc <;> rfl
  rw [hheld, run_forward, processForwarded]
  cases hfind : findStringControlEnd kind (escIf heldEsc ++ data) with
  | none => exact ⟨by simp, by simp [ReadMode.early], by simp, by simp [nonBells], rfl⟩
  | some e =>
    have hrest := @processGround_reads host σ [] e.rest
    exact hrest.prepend (by simp : _ = visibleOf (controlRun (e.payload ++ e.ender))) (by simp) (by simp)

/-- A call behind a bare identifier and an ESC, which are put out already, reads on. -/
theorem early_reads {introducer content : JsString} (hopen : OpenOsc introducer content)
    (hearly : oscDispositionAt (content ++ [ESC]) = some .forward) {data : JsString}
    (hjoins : ∀ rest, data = unit '\\' :: rest → content ∉ BARE_IDS) :
    CallReads (introducer ++ content) (processForwarded host σ .osc true data)
      ((readMachine host).run ⟨.osc introducer content true, σ⟩ data) := by
  rw [processForwarded]
  cases data with
  | nil =>
    have hmode : (ReadMode.osc introducer content true).parserMode = .forwarding .osc true :=
      if_pos hearly
    have hput : (ReadMode.osc introducer content true).early = introducer ++ content :=
      if_pos hearly
    refine ⟨by simp, ?_, rfl, rfl, ?_⟩
    · show introducer ++ content ++ [] = [] ++ (ReadMode.osc introducer content true).early
      rw [hput, List.append_nil, List.nil_append]
    · show (⟨.forwarding .osc true, σ⟩ : TerminalProtocolParser) =
        ⟨(ReadMode.osc introducer content true).parserMode, σ⟩
      rw [hmode]
  | cons c rest =>
    rw [Transducer.run_cons]
    have hdata : escIf true ++ c :: rest = ESC :: c :: rest := rfl
    rw [hdata]
    by_cases hc : c = unit '\\'
    · subst hc
      have hparse : parseOsc host σ content = .null :=
        parseOsc_bare (digits_of_break hopen.undecided hearly) (hjoins rest rfl)
      have hstep : (readMachine host).step ⟨.osc introducer content true, σ⟩ (unit '\\') =
          (⟨.ground .none false, σ⟩, controlRun (introducer ++ content ++ [ESC, unit '\\'])) := by
        show finishOsc host σ introducer content [ESC, unit '\\'] = _
        rw [finishOsc, hparse]
      have hrest := @processGround_reads host σ [] rest
      rw [findStringControlEnd_st, hstep]
      exact hrest.prepend (by simp) (by simp) (by simp)
    · have hstep : (readMachine host).step ⟨.osc introducer content true, σ⟩ c =
          ((groundStep σ .esc false c).1,
            controlRun (introducer ++ content) ++ (groundStep σ .esc false c).2) := by
        have habort : abortOsc (content ++ [ESC]) (introducer ++ content) =
            controlRun (introducer ++ content) := if_pos hearly
        rw [← habort]
        exact if_neg hc
      have hrest := @processGround_reads host σ [] (ESC :: c :: rest)
      rw [List.nil_append, ReadState.start, run_ground_ESC, Transducer.run_cons] at hrest
      rw [findStringControlEnd_cancel .osc hc, hstep, List.append_assoc]
      exact hrest.prepend (by simp : _ = visibleOf (controlRun (introducer ++ content))) (by simp)
        (by simp)

/-- A call in an oversized identifier that goes on puts nothing out. -/
theorem discarding_reads {introducer content data : JsString} (hopen : OpenOsc introducer content)
    (hundecided : oscDispositionAt content = none)
    (hlimit : OSC_INCOMPLETE_LIMIT < (introducer ++ content).length)
    (hdata : data.all JsString.isDigit = true) :
    CallReads [] (TerminalProtocolParser.process host ⟨.discarding false, σ⟩ data)
      ((readMachine host).run ⟨.osc introducer content false, σ⟩ data) := by
  have hends : ∀ c ∈ data, endsString .osc c = false := by
    intro c hc
    have hdigit := List.all_eq_true.1 hdata c hc
    by_contra hend
    have hcases : endsString .osc c = true := by simpa using hend
    simp only [endsString, Bool.or_eq_true, beq_iff_eq] at hcases
    rcases hcases with (((rfl | rfl) | rfl) | rfl) | rfl <;> exact absurd hdigit (by decide)
  have hopen' : OpenOsc introducer (content ++ data) := by
    have hlen : introducer.length ≤ 2 := by
      rcases hopen.introducer with rfl | rfl <;> decide
    have hcontent := digits_of_undecided hundecided (by
      rw [List.length_append, OSC_INCOMPLETE_LIMIT] at hlimit
      omega)
    have hall : (content ++ data).dropWhile JsString.isDigit = [] := by
      rw [List.dropWhile_append, hcontent]
      simpa using hdata
    refine ⟨hopen.introducer, by rw [oscDispositionAt_digits hall]; simp, ?_⟩
    intro c hc
    rcases List.mem_append.1 hc with hc | hc
    · exact hopen.open_ c hc
    · exact hends c hc
  have hfind : findStringControlEnd .osc data = none := by
    have h := findStringControlEnd_open hends []
    rw [List.append_nil] at h
    exact h
  have hesc : endsWithEsc data = false := by
    refine beq_false_of_ne ?_
    intro hlast
    exact not_endsString (hends ESC (List.mem_of_getLast? hlast)) rfl
  have hdrop : dropHeldEsc data = data := by
    rw [dropHeldEsc, hesc]
    rfl
  have hprocess : TerminalProtocolParser.process host ⟨.discarding false, σ⟩ data =
      (⟨.discarding false, σ⟩, some ⟨[], [], [], some 0⟩) := by
    have hdata : escIf false ++ data = data := rfl
    simp only [TerminalProtocolParser.process, hdata, hfind]
    show ((⟨.discarding (endsWithEsc data), σ⟩ : TerminalProtocolParser), _) = _
    rw [hesc]
  have hrun : (readMachine host).run ⟨.osc introducer content false, σ⟩ data =
      (⟨.osc introducer (content ++ data) false, σ⟩, []) := by
    rw [run_osc _ _ hopen.undecided, hfind, hesc, hdrop]
    exact if_neg hopen'.undecided
  have hmode : (ReadMode.osc introducer (content ++ data) false).parserMode = .discarding false := by
    have hlen : ¬(introducer ++ (content ++ data)).length ≤ OSC_INCOMPLETE_LIMIT := by
      rw [List.length_append] at hlimit
      rw [List.length_append, List.length_append]
      omega
    simp only [ReadMode.parserMode, escIf, Bool.false_eq_true, if_false, List.append_nil,
      if_neg hopen'.undecided, if_neg hlen]
  rw [hprocess, hrun]
  exact ⟨by simp, by simp [ReadMode.early], rfl, rfl, by rw [hmode]⟩

/-- A call of the parser reads on where the last one stopped. -/
theorem process_reads {state : ReadState} {data : JsString} (hwf : state.mode.WellFormed)
    (hthrew : state.mode ≠ .threw) (hjoins : Joins state.mode data) :
    CallReads state.mode.early
      (TerminalProtocolParser.process host ⟨state.mode.parserMode, state.osc99Pending⟩ data)
      ((readMachine host).run state data) := by
  obtain ⟨mode, σ⟩ := state
  cases mode with
  | threw => exact absurd rfl hthrew
  | forward kind heldEsc => exact processForwarded_reads kind heldEsc data
  | ground held bells =>
    have h := pending_reads (@run_held host σ held) data
    cases bells with
    | false => exact h
    | true =>
      refine h.bells ?_
      rintro c rest rfl hdata
      exact hjoins.bells c rest rfl hdata
  | osc introducer content heldEsc =>
    have hopen : OpenOsc introducer content := hwf
    by_cases hearly : oscDispositionAt (content ++ escIf heldEsc) = some .forward
    · cases heldEsc with
      | false => exact absurd (by simpa [escIf] using hearly) hopen.undecided
      | true =>
        have hmode : (ReadMode.osc introducer content true).parserMode = .forwarding .osc true :=
          if_pos hearly
        have hput : (ReadMode.osc introducer content true).early = introducer ++ content :=
          if_pos hearly
        rw [hput, hmode, process_forwarding]
        exact early_reads hopen hearly fun rest hdata => hjoins.bareId _ _ rest rfl hdata
    · have hput : (ReadMode.osc introducer content heldEsc).early = [] := by
        cases heldEsc with
        | false => rfl
        | true => exact if_neg hearly
      rw [hput]
      by_cases hlen : (introducer ++ (content ++ escIf heldEsc)).length ≤ OSC_INCOMPLETE_LIMIT
      · have hmode : (ReadMode.osc introducer content heldEsc).parserMode =
            .ground (introducer ++ (content ++ escIf heldEsc)) := by
          rw [ReadMode.parserMode, if_neg hearly, if_pos hlen]
        rw [hmode]
        exact pending_reads (run_openOsc hopen heldEsc) data
      obtain hle | ⟨hnone, hdigits⟩ := hjoins.limit introducer content heldEsc rfl hearly
      · exact absurd hle hlen
      cases heldEsc with
      | true => exact absurd hnone (oscDispositionAt_break content (Or.inl rfl))
      | false =>
        have hmode : (ReadMode.osc introducer content false).parserMode = .discarding false := by
          rw [ReadMode.parserMode, if_neg hearly, if_neg hlen]
        simp only [escIf, Bool.false_eq_true, if_false, List.append_nil] at hnone hlen
        rw [hmode]
        exact discarding_reads hopen hnone (Nat.not_le.1 hlen) hdigits

end Dormouse.Terminal
