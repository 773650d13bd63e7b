import Dormouse.Terminal.ChunkReads

/-!
# Dormouse.Terminal.Chunking

A stream fed in chunks comes to its reading, wherever it is cut, if no cut can fall where
the parser loses something.
-/

namespace Dormouse.Terminal

/-! ### Feeding chunks -/

/-- The results of the calls in order, `none` if one of them throws. -/
def TerminalProtocolParser.feed (host : ParserHost) (parser : TerminalProtocolParser) :
    List JsString → TerminalProtocolParser × Option (List TerminalProtocolParseResult)
  | [] => (parser, some [])
  | chunk :: chunks =>
    let call := parser.process host chunk
    let later := feed host call.1 chunks
    (later.1, call.2.bind fun result => later.2.map (result :: ·))

/-- The ground text the parser still holds. -/
def heldGround (mode : ParserMode) : JsString :=
  match mode with
  | .ground pending => if pending ∈ DEVICE_ATTRIBUTE_PENDING_SUFFIXES then pending else []
  | _ => []

/-- What a stream came to: `textData` with the held suffix, the events but the bells. -/
structure Parsed where
  visibleData : JsString
  textData : JsString
  events : List TerminalProtocolEvent
  deriving DecidableEq

def parsedBy (host : ParserHost) (chunks : List JsString) : Option Parsed :=
  let fed := TerminalProtocolParser.new.feed host chunks
  fed.2.map fun results =>
    ⟨results.flatMap (·.visibleData), results.flatMap (·.textData) ++ heldGround fed.1.mode,
      nonBells (results.flatMap (·.events))⟩

variable {host : ParserHost} {σ : Osc99Pending}

/-- What feeding chunks comes to, behind a reading that has put `early` out ahead. -/
structure Feeds (early : JsString) (parser : TerminalProtocolParser)
    (results : List TerminalProtocolParseResult) (r : ReadState × List Emission) : Prop where
  visible : early ++ results.flatMap (·.visibleData) = visibleOf r.2 ++ r.1.mode.early
  text : results.flatMap (·.textData) = textOf r.2
  events : nonBells (results.flatMap (·.events)) = eventsOf r.2
  parser : parser = ⟨r.1.mode.parserMode, r.1.osc99Pending⟩

theorem Feeds.cons {early : JsString} {first parser : TerminalProtocolParser}
    {result : TerminalProtocolParseResult} {results : List TerminalProtocolParseResult}
    {s₁ s₂ : ReadState} {out₁ out₂ : List Emission} (h₁ : Returns early first result (s₁, out₁))
    (h₂ : Feeds s₁.mode.early parser results (s₂, out₂)) :
    Feeds early parser (result :: results) (s₂, out₁ ++ out₂) := by
  refine ⟨?_, ?_, ?_, h₂.parser⟩
  · have hv₁ := h₁.visible
    have hv₂ := h₂.visible
    simp only at hv₁ hv₂ ⊢
    rw [List.flatMap_cons, ← List.append_assoc, hv₁, List.append_assoc, hv₂, visibleOf_append,
      List.append_assoc]
  · rw [List.flatMap_cons, h₁.text, h₂.text, textOf_append]
  · rw [List.flatMap_cons, nonBells_append, h₁.events, h₂.events, eventsOf_append]

/-- No cut of the stream falls where the parser loses something. -/
def JoinsEverywhere (host : ParserHost) (state : ReadState) (s : JsString) : Prop :=
  ∀ a b, s = a ++ b → Joins ((readMachine host).state state a).mode b

theorem Joins.left {mode : ReadMode} {chunk more : JsString} (h : Joins mode (chunk ++ more)) :
    Joins mode chunk := by
  refine ⟨?_, ?_, ?_⟩
  · rintro c rest hmode rfl
    exact h.bells c (rest ++ more) hmode rfl
  · rintro introducer content rest hmode rfl
    exact h.bareId introducer content (rest ++ more) hmode rfl
  · intro introducer content heldEsc hmode hdisposition
    refine (h.limit introducer content heldEsc hmode hdisposition).imp_right ?_
    rintro ⟨hnone, hdigits⟩
    rw [List.all_append, Bool.and_eq_true] at hdigits
    exact ⟨hnone, hdigits.1⟩

theorem JoinsEverywhere.later {state : ReadState} {chunk more : JsString}
    (h : JoinsEverywhere host state (chunk ++ more)) :
    JoinsEverywhere host ((readMachine host).state state chunk) more := by
  rintro a b rfl
  rw [← Transducer.state_append]
  exact h (chunk ++ a) b (by rw [List.append_assoc])

theorem state_threw {state : ReadState} (h : state.mode = .threw) (text : JsString) :
    ((readMachine host).state state text).mode = .threw := by
  obtain ⟨mode, σ⟩ := state
  subst h
  exact congrArg (fun r => r.1.mode) (@run_threw host σ text)

theorem feed_reads {state : ReadState} {chunks : List JsString} (hwf : state.mode.WellFormed)
    (hthrew : ((readMachine host).state state chunks.flatten).mode ≠ .threw)
    (hjoins : JoinsEverywhere host state chunks.flatten) :
    ∃ results parser,
      TerminalProtocolParser.feed host ⟨state.mode.parserMode, state.osc99Pending⟩ chunks =
          (parser, some results) ∧
        Feeds state.mode.early parser results ((readMachine host).run state chunks.flatten) := by
  induction chunks generalizing state with
  | nil => exact ⟨[], _, rfl, by simp, rfl, rfl, rfl⟩
  | cons chunk chunks ih =>
    rw [List.flatten_cons] at hthrew hjoins ⊢
    rw [Transducer.state_append] at hthrew
    have hnow : state.mode ≠ .threw := fun h => hthrew (state_threw (state_threw h _) _)
    have hcall := @process_reads host state chunk hwf hnow (hjoins [] _ rfl).left
    obtain ⟨results, parser, hfeed, hlater⟩ := ih (run_wellFormed hwf chunk) hthrew hjoins.later
    cases hresult : (TerminalProtocolParser.process host
        ⟨state.mode.parserMode, state.osc99Pending⟩ chunk).2 with
    | none =>
      rw [CallReads, hresult] at hcall
      exact absurd (state_threw hcall chunks.flatten) hthrew
    | some result =>
      rw [CallReads, hresult] at hcall
      have hreturns : Returns state.mode.early _ result
        ((readMachine host).state state chunk, (readMachine host).output state chunk) := hcall
      refine ⟨result :: results, parser, ?_, ?_⟩
      · show (_, _) = _
        rw [hresult, hreturns.parser]
        show (_, _) = _
        rw [hfeed]
        rfl
      · have hcons := Feeds.cons hreturns hlater
        rw [Transducer.run_eq, Transducer.state_append, Transducer.output_append]
        exact hcons

/-! ### Streams that may be cut anywhere -/

/-- The mode the reading of a new parser is in. -/
def modeAt (host : ParserHost) (s : JsString) : ReadMode :=
  ((readMachine host).state (.start InsertionMap.empty) s).mode

/-- No OSC that is certain to be consumed is over the limit before it ends. -/
def ConsumedWithinLimit (host : ParserHost) (s : JsString) : Prop :=
  ∀ a b introducer content heldEsc, s = a ++ b → modeAt host a = .osc introducer content heldEsc →
    oscDispositionAt (content ++ escIf heldEsc) = some .consume →
      (introducer ++ (content ++ escIf heldEsc)).length ≤ OSC_INCOMPLETE_LIMIT

/-- The parser loses nothing, however the stream is cut. -/
structure Seamless (host : ParserHost) (s : JsString) : Prop where
  not_threw : modeAt host s ≠ .threw
  bells : ∀ a c b, s = a ++ c :: b → modeAt host a = .ground .esc true → opensString c = false
  bareId : ∀ a b introducer content, s = a ++ unit '\\' :: b →
    modeAt host a = .osc introducer content true → content ∉ BARE_IDS
  number : ∀ a c b introducer content, s = a ++ c :: b →
    modeAt host a = .osc introducer content false → oscDispositionAt content = none →
      OSC_INCOMPLETE_LIMIT < (introducer ++ content).length → JsString.isDigit c = true

theorem modeAt_append_singleton (a : JsString) (c : UInt16) :
    ∃ σ, modeAt host (a ++ [c]) = ((readMachine host).step ⟨modeAt host a, σ⟩ c).1.mode := by
  refine ⟨((readMachine host).state (.start InsertionMap.empty) a).osc99Pending, ?_⟩
  rw [modeAt, Transducer.state_append]
  rfl

theorem modeAt_wellFormed (s : JsString) : (modeAt host s).WellFormed :=
  @run_wellFormed host (.start InsertionMap.empty) trivial s

theorem step_digit {introducer content : JsString} {c : UInt16} (hc : JsString.isDigit c = true)
    (hcontent : oscDispositionAt (content ++ [c]) ≠ some .forward) :
    ((readMachine host).step ⟨.osc introducer content false, σ⟩ c).1.mode =
      .osc introducer (content ++ [c]) false := by
  have hne : ∀ d, JsString.isDigit d = false → c ≠ d := by
    rintro d hd rfl
    rw [hc] at hd
    cases hd
  have hesc := hne ESC (by decide)
  have habort : ¬(c = CAN ∨ c = SUB) := by
    rintro (h | h)
    · exact hne CAN (by decide) h
    · exact hne SUB (by decide) h
  have hend : endsString .osc c = false := by
    simp [endsString, hesc, hne BEL (by decide), hne CAN (by decide), hne SUB (by decide),
      hne ST (by decide)]
  show (oscStep host σ introducer content false c).1.mode = _
  simp [oscStep, hesc, habort, hend, hcontent]

/-- An oversized identifier that may be cut anywhere goes on to the end of the stream. -/
theorem Seamless.digits {s : JsString} (h : Seamless host s) {a b introducer content : JsString}
    (hs : s = a ++ b) (hmode : modeAt host a = .osc introducer content false)
    (hnone : oscDispositionAt content = none)
    (hlen : OSC_INCOMPLETE_LIMIT < (introducer ++ content).length) :
    b.all JsString.isDigit = true := by
  induction b generalizing a content with
  | nil => rfl
  | cons c rest ih =>
    have hc := h.number a c rest introducer content hs hmode hnone hlen
    have hintro : introducer.length ≤ 2 := by
      have hwf := @modeAt_wellFormed host a
      rw [hmode] at hwf
      rcases (hwf : OpenOsc introducer content).introducer with rfl | rfl <;> decide
    have hdigits := digits_of_undecided hnone (by
      rw [List.length_append, OSC_INCOMPLETE_LIMIT] at hlen
      omega)
    have hnone' : oscDispositionAt (content ++ [c]) = none := by
      refine oscDispositionAt_digits ?_
      rw [List.dropWhile_append, hdigits]
      simp [hc]
    obtain ⟨σ, hstep⟩ := @modeAt_append_singleton host a c
    rw [hmode, step_digit hc (by rw [hnone']; simp)] at hstep
    rw [List.all_cons, hc, Bool.true_and]
    refine ih (a := a ++ [c]) (by rw [hs]; simp) hstep hnone' ?_
    rw [List.length_append, List.length_append] at *
    omega

theorem Seamless.joinsEverywhere {s : JsString} (h : Seamless host s)
    (hlimit : ConsumedWithinLimit host s) :
    JoinsEverywhere host (.start InsertionMap.empty) s := by
  intro a b hs
  refine ⟨?_, ?_, ?_⟩
  · rintro c rest hmode rfl
    exact h.bells a c rest hs hmode
  · rintro introducer content rest hmode rfl
    exact h.bareId a rest introducer content hs hmode
  · intro introducer content heldEsc hmode hdisposition
    by_cases hlen : (introducer ++ (content ++ escIf heldEsc)).length ≤ OSC_INCOMPLETE_LIMIT
    · exact Or.inl hlen
    cases hd : oscDispositionAt (content ++ escIf heldEsc) with
    | some d =>
      cases d with
      | forward => exact absurd hd hdisposition
      | consume => exact absurd (hlimit a b introducer content heldEsc hs hmode hd) hlen
    | none =>
      cases heldEsc with
      | true => exact absurd hd (oscDispositionAt_break content (Or.inl rfl))
      | false =>
        simp only [escIf, Bool.false_eq_true, if_false, List.append_nil] at hd hlen
        exact Or.inr ⟨rfl, h.digits hs hmode hd (Nat.not_le.1 hlen)⟩

/-- The held text of a mode. -/
def ReadMode.heldText : ReadMode → JsString
  | .ground held _ => held.text
  | _ => []

theorem heldGround_parserMode {mode : ReadMode} (hwf : mode.WellFormed) :
    heldGround mode.parserMode = mode.heldText := by
  cases mode with
  | threw => rfl
  | forward kind heldEsc => rfl
  | ground held bells => cases held <;> rfl
  | osc introducer content heldEsc =>
    have hopen : OpenOsc introducer content := hwf
    have hnot : ∀ text, introducer ++ text ∉ DEVICE_ATTRIBUTE_PENDING_SUFFIXES := by
      intro text hmem
      simp only [DEVICE_ATTRIBUTE_PENDING_SUFFIXES, List.mem_cons, List.not_mem_nil,
        or_false] at hmem
      have h1 : unit ']' ≠ unit '[' := by decide
      have h2 : unit ']' ≠ unit '>' := by decide
      have h3 : (0x9d : UInt16) ≠ ESC := by decide
      have h4 : (0x9d : UInt16) ≠ CSI := by decide
      have h5 : ESC ≠ CSI := by decide
      rcases hopen.introducer with rfl | rfl <;> simp [h1, h3, h4, h5] at hmem
    rw [ReadMode.parserMode]
    split
    · rfl
    · split
      · rw [heldGround, if_neg (hnot _)]
        rfl
      · rfl

/-- What the reading of a stream comes to. -/
def readingOf (host : ParserHost) (s : JsString) : Parsed :=
  let r := (readMachine host).run (.start InsertionMap.empty) s
  ⟨visibleOf r.2 ++ r.1.mode.early, textOf r.2 ++ r.1.mode.heldText, eventsOf r.2⟩

/-- A stream that may be cut anywhere comes to its reading however it is cut. -/
theorem Seamless.parsedBy_eq {s : JsString} (h : Seamless host s)
    (hlimit : ConsumedWithinLimit host s) {chunks : List JsString} (hchunks : chunks.flatten = s) :
    parsedBy host chunks = some (readingOf host s) := by
  obtain ⟨results, parser, hfeed, hfeeds⟩ := @feed_reads host
    (.start InsertionMap.empty) chunks trivial (by rw [hchunks]; exact h.not_threw)
    (by rw [hchunks]; exact h.joinsEverywhere hlimit)
  have hnew : TerminalProtocolParser.new.feed host chunks = (parser, some results) := hfeed
  rw [hchunks] at hfeeds
  rw [parsedBy, hnew]
  simp only [Option.map_some, hfeeds.parser]
  have hvisible := hfeeds.visible
  have hheld : heldGround (modeAt host s).parserMode = (modeAt host s).heldText :=
    heldGround_parserMode (modeAt_wellFormed s)
  rw [hfeeds.text, hfeeds.events, readingOf, ← hvisible]
  exact congrArg (fun held => some (Parsed.mk _ (_ ++ held) _)) hheld

/-! ### Short streams -/

/-- What a mode holds back of the stream. -/
def ReadMode.heldLength : ReadMode → Nat
  | .ground held _ => held.text.length
  | .osc introducer content heldEsc => (introducer ++ (content ++ escIf heldEsc)).length
  | .forward _ heldEsc => (escIf heldEsc).length
  | .threw => 0

theorem Held.continue?_length {held : Held} {c : UInt16} {r : Held × List Emission}
    (h : held.continue? c = some r) : r.1.text.length ≤ held.text.length + 1 := by
  cases held with
  | none => cases h
  | _ =>
    simp only [Held.continue?] at h
    split at h
    · cases h
      decide
    · cases h

theorem groundStep_heldLength (held : Held) (bells : Bool) (c : UInt16) :
    (groundStep σ held bells c).1.mode.heldLength ≤ held.text.length + 1 := by
  rw [groundStep]
  split
  · exact Nat.le_succ _
  split
  · rename_i flushed introducer h
    have hlen : introducer.length ≤ held.text.length + 1 := by
      rw [introducerOf] at h
      split at h
      · cases h
        exact Nat.le_add_left 1 _
      split at h
      · rename_i hesc
        cases h
        rw [hesc.1]
        exact Nat.le_refl _
      · cases h
    show (openString introducer).1.heldLength ≤ _
    rw [openString]
    split
    · simpa [ReadMode.heldLength, escIf] using hlen
    · exact Nat.zero_le _
  · show (heldMachine.step held c).1.text.length ≤ _
    simp only [heldMachine]
    cases hcontinue : held.continue? c with
    | none =>
      simp only [freshByte]
      split
      · exact Nat.le_add_left 1 _
      · split
        · exact Nat.le_add_left 1 _
        · exact Nat.zero_le _
    | some continued => exact Held.continue?_length hcontinue

theorem step_heldLength (mode : ReadMode) (c : UInt16) :
    ((readMachine host).step ⟨mode, σ⟩ c).1.mode.heldLength ≤ mode.heldLength + 1 := by
  have hesc : (Held.esc).text.length = 1 := rfl
  cases mode with
  | threw => exact Nat.zero_le _
  | ground held bells => exact groundStep_heldLength held bells c
  | forward kind heldEsc =>
    show (forwardStep σ kind heldEsc c).1.mode.heldLength ≤ (escIf heldEsc).length + 1
    have h := @groundStep_heldLength σ .esc false c
    rw [forwardStep]
    split
    · rename_i hheld
      split
      · exact Nat.zero_le _
      · rw [hheld]
        exact h
    · split
      · exact Nat.le_add_left 1 _
      · split <;> exact Nat.zero_le _
  | osc introducer content heldEsc =>
    show (oscStep host σ introducer content heldEsc c).1.mode.heldLength ≤
      (introducer ++ (content ++ escIf heldEsc)).length + 1
    have h := @groundStep_heldLength σ .esc false c
    have hfinish : ∀ ender,
        (finishOsc host σ introducer content ender).1.mode.heldLength = 0 := by
      intro ender
      rw [finishOsc]
      split <;> rfl
    rw [oscStep]
    split
    · rename_i hheld
      split
      · rw [hfinish]
        exact Nat.zero_le _
      · refine Nat.le_trans h ?_
        rw [hesc, hheld]
        simp [escIf]
        omega
    · rename_i hheld
      rw [Bool.not_eq_true] at hheld
      subst hheld
      split
      · simp [ReadMode.heldLength, escIf]
        omega
      split
      · exact Nat.zero_le _
      split
      · rw [hfinish]
        exact Nat.zero_le _
      · split
        · exact Nat.zero_le _
        · simp [ReadMode.heldLength, escIf]
          omega

theorem modeAt_heldLength_le (s : JsString) : (modeAt host s).heldLength ≤ s.length := by
  induction s using List.reverseRecOn with
  | nil => exact Nat.zero_le _
  | append_singleton s c ih =>
    obtain ⟨σ, hstep⟩ := @modeAt_append_singleton host s c
    rw [hstep, List.length_append]
    exact Nat.le_trans (step_heldLength _ c) (Nat.succ_le_succ ih)

theorem consumedWithinLimit_of_length_le {s : JsString} (h : s.length ≤ OSC_INCOMPLETE_LIMIT) :
    ConsumedWithinLimit host s := by
  rintro a b introducer content heldEsc rfl hmode -
  have hheld := @modeAt_heldLength_le host a
  rw [hmode] at hheld
  rw [List.length_append] at h
  exact Nat.le_trans hheld (by omega)

end Dormouse.Terminal
