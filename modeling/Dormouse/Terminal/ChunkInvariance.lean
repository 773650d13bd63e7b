import Dormouse.Terminal.Resync

/-!
# Dormouse.Terminal.ChunkInvariance

The streams that come to one result however they are cut are exactly those in which no
cut can fall where the parser loses something.
-/

namespace Dormouse.Terminal

variable {host : ParserHost}

/-- What the reading of a new parser has put out. -/
def outputAt (host : ParserHost) (s : JsString) : List Emission :=
  (readMachine host).output (.start InsertionMap.empty) s

def pendingAt (host : ParserHost) (s : JsString) : Osc99Pending :=
  ((readMachine host).state (.start InsertionMap.empty) s).osc99Pending

theorem outputAt_append (a b : JsString) :
    outputAt host (a ++ b) =
      outputAt host a ++ (readMachine host).output ⟨modeAt host a, pendingAt host a⟩ b := by
  rw [outputAt, Transducer.output_append]
  rfl

theorem modeAt_append (a b : JsString) :
    modeAt host (a ++ b) = ((readMachine host).state ⟨modeAt host a, pendingAt host a⟩ b).mode := by
  rw [modeAt, Transducer.state_append]
  rfl

/-! ### One chunk and two -/

theorem process_new (s : JsString) :
    CallReads [] (TerminalProtocolParser.new.process host s)
      (⟨modeAt host s, pendingAt host s⟩, outputAt host s) :=
  @processGround_reads host InsertionMap.empty [] s

/-- A stream in one chunk comes to its reading if it comes to anything. -/
theorem parsedBy_single {s : JsString} {r : Parsed} (h : parsedBy host [s] = some r) :
    modeAt host s ≠ .threw ∧ r = readingOf host s := by
  have hcall := @process_new host s
  rw [parsedBy] at h
  simp only [TerminalProtocolParser.feed] at h
  rcases hresult : (TerminalProtocolParser.new.process host s).2 with _ | result
  · rw [hresult] at h
    cases h
  rw [CallReads, hresult] at hcall
  have hreturns : Returns [] _ result (⟨modeAt host s, pendingAt host s⟩, outputAt host s) := hcall
  rw [hresult, hreturns.parser] at h
  simp only [Option.bind_some, Option.map_some, List.flatMap_cons, List.flatMap_nil,
    List.append_nil, Option.some.injEq] at h
  have hvisible := hreturns.visible
  rw [List.nil_append] at hvisible
  refine ⟨hreturns.not_threw, ?_⟩
  rw [← h, hvisible, hreturns.text, hreturns.events,
    heldGround_parserMode (modeAt_wellFormed s)]
  rfl

/-- A stream in two chunks: the first one's reading, and a call behind it. -/
theorem parsedBy_pair {a b : JsString} {r : Parsed} (h : parsedBy host [a, b] = some r) :
    ∃ parser result,
      TerminalProtocolParser.process host ⟨(modeAt host a).parserMode, pendingAt host a⟩ b =
          (parser, some result) ∧
        r.visibleData = visibleOf (outputAt host a) ++ (modeAt host a).early ++ result.visibleData ∧
        r.textData = textOf (outputAt host a) ++ result.textData ++ heldGround parser.mode := by
  have hcall := @process_new host a
  rw [parsedBy] at h
  simp only [TerminalProtocolParser.feed] at h
  rcases hfirst : (TerminalProtocolParser.new.process host a).2 with _ | first
  · rw [hfirst] at h
    cases h
  rw [CallReads, hfirst] at hcall
  have hreturns : Returns [] _ first (⟨modeAt host a, pendingAt host a⟩, outputAt host a) := hcall
  rw [hfirst, hreturns.parser] at h
  simp only [Option.bind_some] at h
  cases hsecond : TerminalProtocolParser.process host
      ⟨(modeAt host a).parserMode, pendingAt host a⟩ b with
  | mk parser second =>
    rw [hsecond] at h
    rcases second with _ | result
    · cases h
    simp only [Option.bind_some, Option.map_some, List.flatMap_cons, List.flatMap_nil,
      List.append_nil, Option.some.injEq] at h
    have hvisible := hreturns.visible
    have htext := hreturns.text
    rw [List.nil_append] at hvisible
    simp only at hvisible htext
    refine ⟨parser, result, rfl, ?_, ?_⟩
    · rw [← h, hvisible]
    · rw [← h, htext]

/-! ### A stripped BEL -/

theorem opensString_cases {c : UInt16} (h : opensString c = true) :
    c = unit ']' ∨ c = unit 'P' ∨ c = unit 'X' ∨ c = unit '^' ∨ c = unit '_' := by
  have hmem : c ∈ [unit ']', unit 'P', unit 'X', unit '^', unit '_'] :=
    List.contains_iff_mem.1 h
  simpa using hmem

theorem total_opener_text {c : UInt16} (h : opensString c = true) (s : JsString) :
    total host (.ground .esc true) (c :: s) = ESC :: c :: total host (.ground .none false) s := by
  rw [total_cons]
  rcases opensString_cases h with rfl | rfl | rfl | rfl | rfl <;> rfl

theorem total_opener_string {c : UInt16} (h : opensString c = true) (s : JsString) :
    total host (.ground .none false) (ESC :: c :: s) = total host (openString [ESC, c]).1 s := by
  rw [total_cons, total_cons]
  rcases opensString_cases h with rfl | rfl | rfl | rfl | rfl <;> rfl

theorem state_opener {c : UInt16} (h : opensString c = true) (s : JsString) :
    (modeMachine host).state (.ground .esc true) (c :: s) =
        (modeMachine host).state (.ground .none false) s ∧
      (modeMachine host).state (.ground .none false) (ESC :: c :: s) =
        (modeMachine host).state (openString [ESC, c]).1 s := by
  rw [Transducer.state_cons, Transducer.state_cons, Transducer.state_cons]
  rcases opensString_cases h with rfl | rfl | rfl | rfl | rfl <;> exact ⟨rfl, rfl⟩

/-- The text a reading comes to. -/
theorem total_eq (σ : Osc99Pending) (mode : ReadMode) (s : JsString) :
    textOf ((readMachine host).output ⟨mode, σ⟩ s) ++
        ((readMachine host).state ⟨mode, σ⟩ s).mode.heldText = total host mode s := by
  rw [textOf_run, (run_mode σ mode s).1]
  rfl

theorem not_cut_at_bell {a b : JsString} {c : UInt16} (hmode : modeAt host a = .ground .esc true)
    (hc : opensString c = true) (hthrew : modeAt host (a ++ c :: b) ≠ .threw) :
    parsedBy host [a, c :: b] ≠ some (readingOf host (a ++ c :: b)) := by
  intro h
  obtain ⟨parser, result, hprocess, -, htext⟩ := parsedBy_pair h
  rw [hmode] at hprocess
  have hcall := @processGround_reads host (pendingAt host a) [ESC] (c :: b)
  have hground : processGround host (pendingAt host a) [ESC] (c :: b) = (parser, some result) :=
    hprocess
  rw [hground] at hcall
  have hreturns : Returns [] parser result
    ((readMachine host).run (.start (pendingAt host a)) (ESC :: c :: b)) := hcall
  have hthrew₂ := hreturns.not_threw
  rw [Transducer.run_eq] at hthrew₂
  simp only at hthrew₂
  have hheld : heldGround parser.mode =
      ((readMachine host).state (.start (pendingAt host a)) (ESC :: c :: b)).mode.heldText := by
    rw [hreturns.parser]
    exact heldGround_parserMode
      (run_wellFormed (s := .start (pendingAt host a)) trivial (ESC :: c :: b))
  have hreading : (readingOf host (a ++ c :: b)).textData =
      textOf (outputAt host a) ++ total host (.ground .esc true) (c :: b) := by
    show textOf (outputAt host (a ++ c :: b)) ++ (modeAt host (a ++ c :: b)).heldText = _
    rw [outputAt_append, modeAt_append, textOf_append, List.append_assoc, total_eq, hmode]
  rw [hreading, hreturns.text, hheld, List.append_assoc] at htext
  have hcancel := List.append_cancel_left htext
  rw [Transducer.run_eq] at hcancel
  simp only [ReadState.start] at hcancel hthrew₂
  rw [total_eq, total_opener_text hc, total_opener_string hc] at hcancel
  obtain ⟨hstate₁, hstate₂⟩ := @state_opener host c hc b
  have hcalm : (ReadMode.ground .none false).Calm := Or.inl rfl
  refine total_ne hcalm (openString_calm [ESC, c]) ?_ ?_ ?_ hcancel
  · rcases opensString_cases hc with rfl | rfl | rfl | rfl | rfl <;> decide
  · rw [modeAt_append, hmode, (run_mode _ _ _).1, hstate₁] at hthrew
    exact hthrew
  · rw [(run_mode _ _ _).1, hstate₂] at hthrew₂
    exact hthrew₂

/-! ### A bare identifier -/

theorem parseOsc_consumes {content : JsString} (h : content ∈ BARE_IDS) (σ : Osc99Pending) :
    ∃ events σ', parseOsc host σ content = .events events σ' := by
  simp only [BARE_IDS, List.mem_cons, List.not_mem_nil, or_false] at h
  rcases h with rfl | rfl | rfl | rfl | rfl | rfl | rfl | rfl | rfl | rfl | rfl <;>
    exact ⟨_, _, rfl⟩

theorem bare_early {content : JsString} (h : content ∈ BARE_IDS) :
    oscDispositionAt (content ++ [ESC]) = some .forward := by
  revert content
  decide

/-- The part of a reading's visible text that is still to come. -/
def visibleFrom (host : ParserHost) (mode : ReadMode) (s : JsString) : JsString :=
  visibleOf ((modeMachine host).output mode s) ++ ((modeMachine host).state mode s).early

theorem visibleFrom_eq (σ : Osc99Pending) (mode : ReadMode) (s : JsString) :
    visibleOf ((readMachine host).output ⟨mode, σ⟩ s) ++
        ((readMachine host).state ⟨mode, σ⟩ s).mode.early = visibleFrom host mode s := by
  rw [visibleOf_run, (run_mode σ mode s).1]
  rfl

theorem visibleFrom_cons (mode : ReadMode) (c : UInt16) (s : JsString) :
    visibleFrom host mode (c :: s) =
      visibleOf ((modeMachine host).step mode c).2 ++
        visibleFrom host ((modeMachine host).step mode c).1 s := by
  rw [visibleFrom, Transducer.output_cons, Transducer.state_cons, visibleOf_append,
    List.append_assoc]
  rfl

theorem readingOf_visible (a b : JsString) :
    (readingOf host (a ++ b)).visibleData =
      visibleOf (outputAt host a) ++ visibleFrom host (modeAt host a) b := by
  show visibleOf (outputAt host (a ++ b)) ++ (modeAt host (a ++ b)).early = _
  rw [outputAt_append, modeAt_append, visibleOf_append, List.append_assoc, visibleFrom_eq]

theorem Returns.visible_ground {σ : Osc99Pending} {s : JsString} {parser : TerminalProtocolParser}
    {result : TerminalProtocolParseResult}
    (h : processGround host σ [] s = (parser, some result)) :
    result.visibleData = visibleFrom host (.ground .none false) s := by
  have hcall := @processGround_reads host σ [] s
  rw [h] at hcall
  have hreturns : Returns [] parser result ((readMachine host).run (.start σ) s) := hcall
  have hvisible := hreturns.visible
  rw [List.nil_append, Transducer.run_eq] at hvisible
  rw [hvisible]
  exact visibleFrom_eq σ (.ground .none false) s

theorem append_longer {x lead l : JsString} (hlead : lead ≠ []) : x ++ (lead ++ l) ≠ x ++ l := by
  intro h
  have hlen := congrArg List.length h
  rw [List.length_append, List.length_append, List.length_append] at hlen
  exact hlead (List.eq_nil_of_length_eq_zero (by omega))

theorem not_cut_at_bare_id {a b introducer content : JsString}
    (hmode : modeAt host a = .osc introducer content true) (hcontent : content ∈ BARE_IDS) :
    parsedBy host [a, unit '\\' :: b] ≠ some (readingOf host (a ++ unit '\\' :: b)) := by
  intro h
  obtain ⟨parser, result, hprocess, hvisible, -⟩ := parsedBy_pair h
  have hparser : (ReadMode.osc introducer content true).parserMode = .forwarding .osc true :=
    if_pos (bare_early hcontent)
  have hearly : (ReadMode.osc introducer content true).early = introducer ++ content :=
    if_pos (bare_early hcontent)
  rw [hmode, hparser, process_forwarding, processForwarded] at hprocess
  have hfind : findStringControlEnd .osc (escIf true ++ unit '\\' :: b) =
      some ⟨[], [ESC, unit '\\'], b, false⟩ := findStringControlEnd_st .osc b
  rw [hfind] at hprocess
  simp only [Prod.mk.injEq, Option.map_eq_some_iff] at hprocess
  obtain ⟨-, rest, hrest, hresult⟩ := hprocess
  have hground := Returns.visible_ground
    (Prod.ext rfl hrest : processGround host (pendingAt host a) [] b = (_, some rest))
  obtain ⟨events, σ', hparse⟩ := @parseOsc_consumes host content hcontent InsertionMap.empty
  have hstep : (modeMachine host).step (.osc introducer content true) (unit '\\') =
      (.ground .none false, dataOf (eventRun events)) := by
    show ((finishOsc host InsertionMap.empty introducer content [ESC, unit '\\']).1.mode,
      dataOf (finishOsc host InsertionMap.empty introducer content [ESC, unit '\\']).2) = _
    rw [finishOsc, hparse]
  rw [readingOf_visible, hmode, visibleFrom_cons, hstep, dataOf_eventRun, hearly, ← hresult, hground,
    List.append_assoc] at hvisible
  refine @append_longer (visibleOf (outputAt host a)) (introducer ++ content ++ [ESC, unit '\\'])
    (visibleFrom host (.ground .none false) b) (by simp) ?_
  simpa [List.append_assoc] using hvisible.symm

/-! ### An oversized identifier -/

theorem payload_head {kind : StringControlKind} {c : UInt16} {b : JsString} {e : StringControlEnd}
    (h : findStringControlEnd kind (c :: b) = some e) : e.payload = [] ∨ ∃ p, e.payload = c :: p := by
  by_cases hesc : c = ESC
  · subst hesc
    cases b with
    | nil => cases h
    | cons d after =>
      by_cases hd : d = unit '\\'
      · subst hd
        rw [findStringControlEnd_st, Option.some.injEq] at h
        exact Or.inl (by rw [← h])
      · rw [findStringControlEnd_cancel kind hd, Option.some.injEq] at h
        exact Or.inl (by rw [← h])
  · by_cases hend : endsString kind c = true
    · rw [findStringControlEnd_ender hesc hend, Option.some.injEq] at h
      exact Or.inl (by rw [← h])
    · rw [findStringControlEnd_cons hesc (by simpa using hend), Option.map_eq_some_iff] at h
      obtain ⟨e, -, rfl⟩ := h
      exact Or.inr ⟨e.payload, rfl⟩

/-- A number too long for any identifier the parser claims. -/
structure LongNumber (content : JsString) : Prop where
  digits : content.dropWhile JsString.isDigit = []
  long : 4 < content.length

theorem LongNumber.not_bare {content : JsString} (h : LongNumber content) : content ∉ BARE_IDS := by
  have hshort : ∀ id ∈ BARE_IDS, id.length ≤ 4 := by decide
  intro hmem
  exact absurd h.long (Nat.not_lt.2 (hshort content hmem))

theorem LongNumber.forward {content : JsString} (h : LongNumber content) {c : UInt16}
    (hc : JsString.isDigit c = false) : oscDispositionAt (content ++ [c]) = some .forward := by
  have hall : ∀ d ∈ content, JsString.isDigit d = true := List.dropWhile_eq_nil_iff.1 h.digits
  have htake : (content ++ [c]).takeWhile JsString.isDigit = content := by
    rw [List.takeWhile_append_of_pos hall]
    simp [hc]
  have hdrop : (content ++ [c]).dropWhile JsString.isDigit = [c] := by
    rw [List.dropWhile_append_of_pos hall]
    simp [hc]
  have hshort : ∀ id ∈ js "1337" :: OSC_CONSUMED_IDS, id.length ≤ 4 := by decide
  have hnot : content ∉ js "1337" :: OSC_CONSUMED_IDS := by
    intro hmem
    exact absurd h.long (Nat.not_lt.2 (hshort content hmem))
  rw [List.mem_cons, not_or] at hnot
  unfold oscDispositionAt
  rw [htake, hdrop]
  simp only [hnot.1, hnot.2, if_false, ite_self]

theorem LongNumber.parseControl_eq {content b : JsString} {c : UInt16} {e : StringControlEnd}
    (h : LongNumber content) (hc : JsString.isDigit c = false)
    (he : findStringControlEnd .osc (c :: b) = some e) (σ : Osc99Pending) :
    parseControl host σ .osc (content ++ c :: b) { e with payload := content ++ e.payload } =
      .forward := by
  have hforward := h.forward hc
  have hwhole : oscDispositionAt (content ++ c :: b) = some .forward := by
    have happ := oscDispositionAt_append hforward b
    rwa [List.append_assoc] at happ
  have hparse : parseOsc host σ (content ++ e.payload) = .null := by
    rcases payload_head he with hnil | ⟨p, hp⟩
    · rw [hnil, List.append_nil]
      exact parseOsc_bare h.digits h.not_bare
    · have happ := oscDispositionAt_append hforward p
      rw [List.append_assoc] at happ
      rw [hp]
      exact parseOsc_of_forward host σ happ
  rw [parseControl]
  simp only [hwhole, if_true, hparse]
  split <;> rfl

/-- The reading puts a long number out as soon as a byte that is no digit follows it. -/
theorem LongNumber.visibleFrom_eq {introducer content b : JsString} {c : UInt16}
    (h : LongNumber content) (hopen : OpenOsc introducer content)
    (hc : JsString.isDigit c = false) :
    ∃ lead : JsString, lead ≠ [] ∧
      visibleFrom host (.osc introducer content false) (c :: b) =
        lead ++ (match findStringControlEnd .osc (c :: b) with
          | none => []
          | some e => visibleFrom host (.ground .none false) e.rest) := by
  let σ : Osc99Pending := InsertionMap.empty
  have hintro : introducer ≠ [] := by
    rcases hopen.introducer with rfl | rfl <;> exact List.cons_ne_nil _ _
  have hrun := @run_osc host σ introducer (c :: b) content hopen.undecided
  rw [← Dormouse.Terminal.visibleFrom_eq σ]
  rw [Transducer.run_eq] at hrun
  cases hfind : findStringControlEnd .osc (c :: b) with
  | some e =>
    rw [hfind] at hrun
    simp only [h.parseControl_eq hc hfind, afterControl, Prod.mk.injEq] at hrun
    refine ⟨introducer ++ (content ++ e.payload) ++ e.ender, by simp [hintro], ?_⟩
    rw [hrun.1, hrun.2, visibleOf_append, visibleOf_controlRun, List.append_assoc]
    exact congrArg _ (Dormouse.Terminal.visibleFrom_eq σ (.ground .none false) e.rest)
  | none =>
    rw [hfind] at hrun
    simp only [atOscEnd] at hrun
    by_cases hesc : c = ESC ∧ b = []
    · obtain ⟨rfl, rfl⟩ := hesc
      have hnot : oscDispositionAt (content ++ dropHeldEsc [ESC]) ≠ some .forward := by
        have hdrop : content ++ dropHeldEsc [ESC] = content := List.append_nil content
        rw [hdrop]
        exact hopen.undecided
      rw [if_neg hnot, Prod.mk.injEq] at hrun
      refine ⟨introducer ++ content, by simp [hintro], ?_⟩
      rw [hrun.1, hrun.2]
      have hearly : (ReadMode.osc introducer content true).early = introducer ++ content :=
        if_pos (h.forward hc)
      have hmode : ReadMode.osc introducer (content ++ dropHeldEsc [ESC]) (endsWithEsc [ESC]) =
          .osc introducer content true := by
        rw [show dropHeldEsc [ESC] = [] from rfl, List.append_nil]
        rfl
      rw [hmode, hearly]
      simp
    · have hkeep : ∃ more, dropHeldEsc (c :: b) = c :: more := by
        by_cases hce : c = ESC
        · subst hce
          cases b with
          | nil => exact absurd ⟨rfl, rfl⟩ hesc
          | cons d after =>
            by_cases hd : d = unit '\\'
            · subst hd
              rw [findStringControlEnd_st] at hfind
              cases hfind
            · rw [findStringControlEnd_cancel .osc hd] at hfind
              cases hfind
        · exact ⟨_, dropHeldEsc_cons hce b⟩
      obtain ⟨more, hmore⟩ := hkeep
      have hforward : oscDispositionAt (content ++ dropHeldEsc (c :: b)) = some .forward := by
        have happ := oscDispositionAt_append (h.forward hc) more
        rw [List.append_assoc] at happ
        rw [hmore]
        exact happ
      rw [if_pos hforward, Prod.mk.injEq] at hrun
      refine ⟨introducer ++ (content ++ dropHeldEsc (c :: b)), by simp [hintro], ?_⟩
      rw [hrun.1, hrun.2, visibleOf_controlRun]
      rfl

theorem not_cut_at_number {a b introducer content : JsString} {c : UInt16}
    (hmode : modeAt host a = .osc introducer content false) (hnumber : LongNumber content)
    (hlimit : OSC_INCOMPLETE_LIMIT < (introducer ++ content).length)
    (hc : JsString.isDigit c = false) :
    parsedBy host [a, c :: b] ≠ some (readingOf host (a ++ c :: b)) := by
  intro h
  have hopen : OpenOsc introducer content := by
    have hwf := @modeAt_wellFormed host a
    rw [hmode] at hwf
    exact hwf
  obtain ⟨parser, result, hprocess, hvisible, -⟩ := parsedBy_pair h
  have hparser : (ReadMode.osc introducer content false).parserMode = .discarding false := by
    have hlen : ¬(introducer ++ (content ++ escIf false)).length ≤ OSC_INCOMPLETE_LIMIT := by
      rw [show escIf false = [] from rfl, List.append_nil]
      exact Nat.not_le.2 hlimit
    have hnot : oscDispositionAt (content ++ escIf false) ≠ some .forward := by
      rw [show escIf false = [] from rfl, List.append_nil]
      exact hopen.undecided
    rw [ReadMode.parserMode, if_neg hnot, if_neg hlen]
  obtain ⟨lead, hlead, hreading⟩ := @LongNumber.visibleFrom_eq host _ _ b _ hnumber hopen hc
  rw [readingOf_visible, hmode, hreading] at hvisible
  have hearly : (ReadMode.osc introducer content false).early = [] := rfl
  have hresult : result.visibleData = match findStringControlEnd .osc (c :: b) with
      | none => []
      | some e => visibleFrom host (.ground .none false) e.rest := by
    rw [hmode, hparser] at hprocess
    have hcall : (match findStringControlEnd .osc (c :: b) with
        | none =>
          ((⟨.discarding (endsWithEsc (c :: b)), pendingAt host a⟩ : TerminalProtocolParser),
            some ⟨[], [], [], some 0⟩)
        | some controlEnd => processGround host (pendingAt host a) [] controlEnd.rest) =
        (parser, some result) := hprocess
    cases hfind : findStringControlEnd .osc (c :: b) with
    | none =>
      rw [hfind] at hcall
      simp only [Prod.mk.injEq, Option.some.injEq] at hcall
      rw [← hcall.2]
    | some e =>
      rw [hfind] at hcall
      exact Returns.visible_ground hcall
  rw [hearly, List.append_nil, hresult] at hvisible
  exact append_longer hlead hvisible

/-! ### Exactly the seamless streams -/

/-- A platform that has nothing to parse. -/
def plainHost : ParserHost where
  now := 0
  url _ := none
  decodeURIComponent text := some text
  toLowerCase text := text
  number _ := none
  atob _ := none
  textDecoder text := text
  colorProvider := none
  parseColor _ := none

/-- A stream within the limit comes to one result however it is cut exactly if no cut can
fall where the parser loses something. -/
theorem chunking_invariant_iff (host : ParserHost) (s : JsString)
    (hlimit : ConsumedWithinLimit host s) :
    (∀ chunks chunks', chunks.flatten = s → chunks'.flatten = s →
        ∃ r, parsedBy host chunks = some r ∧ parsedBy host chunks' = some r) ↔
      Seamless host s := by
  constructor
  · intro h
    have hone : [s].flatten = s := by simp
    obtain ⟨r, hwhole, -⟩ := h [s] [s] hone hone
    obtain ⟨hthrew, rfl⟩ := parsedBy_single hwhole
    have hpair : ∀ a b, s = a ++ b → parsedBy host [a, b] = some (readingOf host s) := by
      rintro a b rfl
      obtain ⟨r, hpair, hwhole'⟩ := h [a, b] [a ++ b] (by simp) hone
      rw [hpair, ← hwhole', hwhole]
    refine ⟨hthrew, ?_, ?_, ?_⟩
    · rintro a c b rfl hmode
      by_contra hc
      exact not_cut_at_bell hmode (by simpa using hc) hthrew (hpair a (c :: b) rfl)
    · rintro a b introducer content rfl hmode hcontent
      exact not_cut_at_bare_id hmode hcontent (hpair a _ rfl)
    · rintro a c b introducer content rfl hmode hnone hlen
      by_contra hc
      have hwf := @modeAt_wellFormed host a
      rw [hmode] at hwf
      have hintro : introducer.length ≤ 2 := by
        rcases (hwf : OpenOsc introducer content).introducer with rfl | rfl <;> decide
      have hlong : 30 < content.length := by
        rw [List.length_append, OSC_INCOMPLETE_LIMIT] at hlen
        omega
      have hnumber : LongNumber content := ⟨digits_of_undecided hnone hlong, by omega⟩
      exact not_cut_at_number hmode hnumber hlen (by simpa using hc) (hpair a (c :: b) rfl)
  · intro h chunks chunks' hchunks hchunks'
    exact ⟨readingOf host s, h.parsedBy_eq hlimit hchunks, h.parsedBy_eq hlimit hchunks'⟩

theorem chunking_invariant_iff_title :
    (∀ chunks chunks', chunks.flatten = js "\x1b]0;t\x07" → chunks'.flatten = js "\x1b]0;t\x07" →
        ∃ r, parsedBy plainHost chunks = some r ∧ parsedBy plainHost chunks' = some r) ↔
      Seamless plainHost (js "\x1b]0;t\x07") :=
  chunking_invariant_iff plainHost (js "\x1b]0;t\x07")
    (consumedWithinLimit_of_length_le (by decide))

/-- `ESC ]0 ESC \` is consumed whole and forwarded when cut inside its terminator. -/
theorem bare_id_cut :
    ConsumedWithinLimit plainHost (js "\x1b]0\x1b\\") ∧
      [js "\x1b]0\x1b\\"].flatten = js "\x1b]0\x1b\\" ∧
      [js "\x1b]0\x1b", js "\\"].flatten = js "\x1b]0\x1b\\" ∧
      parsedBy plainHost [js "\x1b]0\x1b\\"] = some ⟨[], [], []⟩ ∧
      parsedBy plainHost [js "\x1b]0\x1b", js "\\"] = some ⟨js "\x1b]0\x1b\\", [], []⟩ := by
  refine ⟨consumedWithinLimit_of_length_le (by decide), by decide, by decide, ?_, ?_⟩
  · decide +kernel
  · decide +kernel
end Dormouse.Terminal
