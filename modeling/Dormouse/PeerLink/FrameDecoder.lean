import Dormouse.Lib.JsonText

/-!
# Dormouse.PeerLink.FrameDecoder

The **framing of the peer link**: one JSON value a line, and the decoder that takes whole frames
out of the chunks a socket makes of them. A frame that outgrows the cap before its newline came is
discarded up to that newline.
-/

namespace Dormouse.PeerLink

open JsonText (NumberFormat Wellformed stringify)

def newline : UInt16 := unit '\n'

def encodeFrame (fmt : NumberFormat) (frame : Json) : JsString := stringify fmt frame ++ [newline]

structure FrameDecoder where
  buffer : JsString
  discarding : Bool
  maxFrameBytes : Nat

namespace FrameDecoder

variable {fmt : NumberFormat}

/-- `new FrameDecoder(maxFrameBytes)`. -/
def new (maxFrameBytes : Nat) : FrameDecoder := ⟨[], false, maxFrameBytes⟩

/-- The frame on a line; none on a blank line and on one that does not parse. -/
def readLine (fmt : NumberFormat) (line : JsString) : Option Json :=
  if JsString.trim line = [] then none else JsonText.parse fmt line

/-- The loop of `push`: the frames of the whole lines, whether the discarding goes on, and the
unterminated rest. -/
def takeLines (fmt : NumberFormat) (discarding : Bool) (buffer : JsString) :
    List Json × Bool × JsString :=
  if _h : buffer.idxOf newline < buffer.length then
    let line := buffer.take (buffer.idxOf newline)
    let rest := buffer.drop (buffer.idxOf newline + 1)
    -- the terminator of the oversized frame; the bytes after it are a frame boundary again
    if discarding then takeLines fmt false rest
    else
      let taken := takeLines fmt false rest
      ((readLine fmt line).toList ++ taken.1, taken.2)
  else ([], discarding, buffer)
termination_by buffer.length
decreasing_by all_goals (rw [List.length_drop]; omega)

def push (fmt : NumberFormat) (decoder : FrameDecoder) (chunk : JsString) :
    List Json × FrameDecoder :=
  let taken := takeLines fmt decoder.discarding (decoder.buffer ++ chunk)
  let discarding := taken.2.1 || decide (decoder.maxFrameBytes < taken.2.2.length)
  (taken.1,
    { decoder with discarding, buffer := if discarding then [] else taken.2.2 })

/-- The frames of the chunks of a connection, in turn. -/
def pushAll (fmt : NumberFormat) (decoder : FrameDecoder) : List JsString → List Json
  | [] => []
  | chunk :: chunks =>
    (decoder.push fmt chunk).1 ++ pushAll fmt (decoder.push fmt chunk).2 chunks

def decode (fmt : NumberFormat) (maxFrameBytes : Nat) (chunks : List JsString) : List Json :=
  (new maxFrameBytes).pushAll fmt chunks

/-! ### The loop over lines -/

theorem takeLines_unterminated {buffer : JsString} (h : newline ∉ buffer) (discarding : Bool) :
    takeLines fmt discarding buffer = ([], discarding, buffer) := by
  rw [takeLines, dif_neg]
  rwa [List.idxOf_lt_length_iff]

theorem takeLines_line {line : JsString} (h : newline ∉ line) (rest : JsString)
    (discarding : Bool) :
    takeLines fmt discarding (line ++ newline :: rest) =
      if discarding then takeLines fmt false rest
      else
        ((readLine fmt line).toList ++ (takeLines fmt false rest).1,
          (takeLines fmt false rest).2) := by
  have hidx : (line ++ newline :: rest).idxOf newline = line.length := by
    rw [List.idxOf_append_of_notMem h, List.idxOf_cons_self, Nat.add_zero]
  rw [takeLines, dif_pos]
  · rw [hidx, List.take_left, ← List.singleton_append, ← List.append_assoc, List.drop_left']
    simp
  · rw [hidx, List.length_append, List.length_cons]
    omega

/-- A stream of lines. -/
def stream (lines : List JsString) : JsString := (lines.map (· ++ [newline])).flatten

theorem stream_cons (line : JsString) (lines : List JsString) :
    stream (line :: lines) = line ++ newline :: stream lines := by
  simp [stream]

/-- What two ways to cut a stream behind a line have in common. -/
theorem append_eq_line {a b line rest : JsString} (h : a ++ b = line ++ newline :: rest) :
    (∃ more, line = a ++ more ∧ b = more ++ newline :: rest) ∨
      ∃ more, a = line ++ newline :: more ∧ more ++ b = rest := by
  rcases List.append_eq_append_iff.1 h with ⟨more, hline, hb⟩ | ⟨more, ha, hrest⟩
  · exact .inl ⟨more, hline, hb⟩
  · cases more with
    | nil => exact .inl ⟨[], by simpa using ha.symm, by simpa using hrest.symm⟩
    | cons c more =>
      obtain ⟨rfl, htail⟩ := List.cons.inj hrest
      exact .inr ⟨more, ha, htail.symm⟩

/-- The front of a stream of lines, read from a frame boundary on: the whole lines give their
frames, and a part of the next line is left. -/
theorem takeLines_stream (fmt : NumberFormat) (lines : List JsString) : ∀ front rest : JsString,
    (∀ line ∈ lines, newline ∉ line) → front ++ rest = stream lines →
      ∃ done remaining part, lines = done ++ remaining ∧ newline ∉ part ∧
        part ++ rest = stream remaining ∧
        takeLines fmt false front = (done.filterMap (readLine fmt), false, part) := by
  induction lines with
  | nil =>
    intro front rest _ hfront
    obtain ⟨rfl, rfl⟩ := List.append_eq_nil_iff.1 hfront
    exact ⟨[], [], [], rfl, List.not_mem_nil, rfl, takeLines_unterminated List.not_mem_nil false⟩
  | cons line lines ih =>
    intro front rest hlines hfront
    have hline := hlines line List.mem_cons_self
    rw [stream_cons] at hfront
    rcases append_eq_line hfront with ⟨more, rfl, hrest⟩ | ⟨more, rfl, hmore⟩
    · -- the newline of the first line has not come
      have hfree : newline ∉ front := fun hmem => hline (List.mem_append_left _ hmem)
      refine ⟨[], (front ++ more) :: lines, front, rfl, hfree, ?_, takeLines_unterminated hfree _⟩
      rw [stream_cons, hrest, List.append_assoc]
    · obtain ⟨done, remaining, part, rfl, hfree, hpart, htaken⟩ :=
        ih more rest (fun l hl => hlines l (List.mem_cons_of_mem _ hl)) hmore
      refine ⟨line :: done, remaining, part, rfl, hfree, hpart, ?_⟩
      rw [takeLines_line hline, if_neg Bool.false_ne_true, htaken, List.filterMap_cons]
      cases readLine fmt line <;> rfl

/-! ### The decoder in the middle of a line -/

/-- The part of a line that has arrived: it is in the buffer, or it has outgrown the cap and is
being discarded. -/
structure Holds (decoder : FrameDecoder) (part : JsString) : Prop where
  newline_free : newline ∉ part
  read : (decoder.discarding = false ∧ decoder.buffer = part) ∨
    (decoder.discarding = true ∧ decoder.buffer = [] ∧ decoder.maxFrameBytes < part.length)

theorem new_holds (maxFrameBytes : Nat) : (new maxFrameBytes).Holds [] :=
  ⟨List.not_mem_nil, .inl ⟨rfl, rfl⟩⟩

/-- What the lines of a stream may give: a line its frame, if it has one, and nothing else;
a line over the cap perhaps nothing. -/
inductive Delivers (fmt : NumberFormat) (maxFrameBytes : Nat) : List JsString → List Json → Prop
  | nil : Delivers fmt maxFrameBytes [] []
  | line {line : JsString} {lines : List JsString} {frames : List Json} :
      Delivers fmt maxFrameBytes lines frames →
      Delivers fmt maxFrameBytes (line :: lines) ((readLine fmt line).toList ++ frames)
  | oversized {line : JsString} {lines : List JsString} {frames : List Json} :
      maxFrameBytes < line.length → Delivers fmt maxFrameBytes lines frames →
      Delivers fmt maxFrameBytes (line :: lines) frames

theorem Delivers.filterMap (maxFrameBytes : Nat) (lines : List JsString) :
    Delivers fmt maxFrameBytes lines (lines.filterMap (readLine fmt)) := by
  induction lines with
  | nil => exact .nil
  | cons line lines ih =>
    rw [List.filterMap_cons]
    have hline : Delivers fmt maxFrameBytes (line :: lines)
        ((readLine fmt line).toList ++ lines.filterMap (readLine fmt)) := .line ih
    cases hread : readLine fmt line with
    | none => rwa [hread] at hline
    | some frame => rwa [hread] at hline

theorem Delivers.append {maxFrameBytes : Nat} {lines lines' : List JsString}
    {frames frames' : List Json} (h : Delivers fmt maxFrameBytes lines frames)
    (h' : Delivers fmt maxFrameBytes lines' frames') :
    Delivers fmt maxFrameBytes (lines ++ lines') (frames ++ frames') := by
  induction h with
  | nil => exact h'
  | line _ ih =>
    rw [List.append_assoc]
    exact .line ih
  | oversized hcap _ ih => exact .oversized hcap ih

/-- Where no line is over the cap, all lines give their frames. -/
theorem Delivers.eq_filterMap {maxFrameBytes : Nat} {lines : List JsString} {frames : List Json}
    (h : Delivers fmt maxFrameBytes lines frames)
    (hcap : ∀ line ∈ lines, line.length ≤ maxFrameBytes) :
    frames = lines.filterMap (readLine fmt) := by
  induction h with
  | nil => rfl
  | @line line _ _ _ ih =>
    rw [List.filterMap_cons, ih fun l hl => hcap l (List.mem_cons_of_mem _ hl)]
    cases readLine fmt line <;> rfl
  | oversized hover _ _ => exact absurd (hcap _ List.mem_cons_self) (Nat.not_le_of_lt hover)

/-- One chunk of a stream: some lines are done, and a part of the next one is held. -/
theorem push_stream (fmt : NumberFormat) {decoder : FrameDecoder} {part : JsString} (hpart : decoder.Holds part)
    {chunk rest : JsString} {lines : List JsString} (hlines : ∀ line ∈ lines, newline ∉ line)
    (h : part ++ (chunk ++ rest) = stream lines) :
    ∃ done remaining part', lines = done ++ remaining ∧
      Delivers fmt decoder.maxFrameBytes done (decoder.push fmt chunk).1 ∧
      (decoder.push fmt chunk).2.Holds part' ∧ part' ++ rest = stream remaining := by
  obtain ⟨hfree, ⟨hdiscarding, rfl⟩ | ⟨hdiscarding, hbuffer, hover⟩⟩ := hpart
  · rw [← List.append_assoc] at h
    obtain ⟨done, remaining, part', hsplit, hfree', hpart', htaken⟩ :=
      takeLines_stream fmt lines _ rest hlines h
    refine ⟨done, remaining, part', hsplit, ?_, ⟨hfree', ?_⟩, hpart'⟩
    · rw [push, hdiscarding, htaken]
      exact .filterMap _ done
    · rw [push, hdiscarding, htaken]
      by_cases hcap : decoder.maxFrameBytes < part'.length
      · exact .inr (by simp [hcap])
      · exact .inl (by simp [hcap])
  · -- the line whose front is discarded
    rcases lines with _ | ⟨line, lines⟩
    · rw [(List.append_eq_nil_iff.1 h).1] at hover
      exact absurd hover (Nat.not_lt_zero _)
    have hline := hlines line List.mem_cons_self
    rw [stream_cons] at h
    rcases append_eq_line h with ⟨more, rfl, hmore⟩ | ⟨more, rfl, -⟩
    · have hfree' : newline ∉ more := fun hmem => hline (List.mem_append_right _ hmem)
      have hcap : decoder.maxFrameBytes < (part ++ more).length := by
        rw [List.length_append]
        omega
      rcases append_eq_line hmore with ⟨behind, rfl, hrest⟩ | ⟨front, rfl, hfront⟩
      · -- still no newline
        have hchunk : newline ∉ chunk := fun hmem => hfree' (List.mem_append_left _ hmem)
        refine ⟨[], (part ++ (chunk ++ behind)) :: lines, part ++ chunk, rfl, ?_, ⟨?_, ?_⟩, ?_⟩
        · rw [push, hbuffer, List.nil_append, takeLines_unterminated hchunk]
          exact .nil
        · exact fun hmem => (List.mem_append.1 hmem).elim hfree hchunk
        · rw [push, hbuffer, List.nil_append, takeLines_unterminated hchunk, hdiscarding,
            List.length_append]
          exact .inr ⟨rfl, rfl, by dsimp only; omega⟩
        · rw [stream_cons, hrest]
          simp
      · obtain ⟨done, remaining, part', hsplit, hfree', hpart', htaken⟩ :=
          takeLines_stream fmt lines front rest
            (fun l hl => hlines l (List.mem_cons_of_mem _ hl)) hfront
        refine ⟨(part ++ more) :: done, remaining, part', by rw [hsplit, List.cons_append], ?_,
          ⟨hfree', ?_⟩, hpart'⟩
        · rw [push, hbuffer, List.nil_append, takeLines_line ‹_›, hdiscarding, if_pos rfl, htaken]
          exact .oversized hcap (.filterMap _ done)
        · rw [push, hbuffer, List.nil_append, takeLines_line ‹_›, hdiscarding, if_pos rfl, htaken]
          by_cases hcap : decoder.maxFrameBytes < part'.length
          · exact .inr (by simp [hcap])
          · exact .inl (by simp [hcap])
    · exact absurd (by simp) hfree

/-- The chunks of a stream, from the middle of a line on. -/
theorem pushAll_stream (chunks : List JsString) : ∀ (decoder : FrameDecoder) (part : JsString)
    (lines : List JsString), decoder.Holds part → (∀ line ∈ lines, newline ∉ line) →
      part ++ chunks.flatten = stream lines →
        Delivers fmt decoder.maxFrameBytes lines (decoder.pushAll fmt chunks) := by
  induction chunks with
  | nil =>
    intro decoder part lines hpart hlines h
    cases lines with
    | nil => exact .nil
    | cons line lines =>
      rw [stream_cons, List.flatten_nil, List.append_nil] at h
      exact absurd (h ▸ by simp) hpart.newline_free
  | cons chunk chunks ih =>
    intro decoder part lines hpart hlines h
    rw [List.flatten_cons] at h
    obtain ⟨done, remaining, part', rfl, hdone, hpart', hremaining⟩ :=
      push_stream fmt hpart hlines h
    have hrest := ih (decoder.push fmt chunk).2 part' remaining hpart'
      (fun l hl => hlines l (List.mem_append_right _ hl)) hremaining
    exact hdone.append hrest

end FrameDecoder

/-! ### What was sent -/

/-- What a peer puts on the link: a frame, or a line that is none. -/
inductive Sent
  | frame (value : Json)
  | junk (line : JsString)

namespace Sent

variable {fmt : NumberFormat}

def line (fmt : NumberFormat) : Sent → JsString
  | frame value => stringify fmt value
  | junk line => line

def encoded (fmt : NumberFormat) : Sent → JsString
  | frame value => encodeFrame fmt value
  | junk line => line ++ [newline]

/-- The value that is sent: a frame's own, and what a line happens to say. -/
def value (fmt : NumberFormat) : Sent → Option Json
  | frame value => some value
  | junk line => FrameDecoder.readLine fmt line

/-- A frame is a JSON value, and a line has no newline in it. -/
def Sendable (fmt : NumberFormat) : Sent → Prop
  | frame value => Wellformed fmt value
  | junk line => newline ∉ line

/-- The received sequence is the sent one; only what is over the cap and what is unparseable may be
missing. -/
inductive Received (fmt : NumberFormat) (maxFrameBytes : Nat) : List Sent → List Json → Prop
  | nil : Received fmt maxFrameBytes [] []
  | value {item : Sent} {v : Json} {sent : List Sent} {frames : List Json} :
      item.value fmt = some v → Received fmt maxFrameBytes sent frames →
      Received fmt maxFrameBytes (item :: sent) (v :: frames)
  | unparseable {item : Sent} {sent : List Sent} {frames : List Json} :
      item.value fmt = none → Received fmt maxFrameBytes sent frames →
      Received fmt maxFrameBytes (item :: sent) frames
  | oversized {item : Sent} {sent : List Sent} {frames : List Json} :
      maxFrameBytes < (item.line fmt).length → Received fmt maxFrameBytes sent frames →
      Received fmt maxFrameBytes (item :: sent) frames

theorem encoded_eq (item : Sent) : item.encoded fmt = item.line fmt ++ [newline] := by
  cases item <;> rfl

theorem newline_notMem_line {item : Sent} (h : item.Sendable fmt) : newline ∉ item.line fmt := by
  cases item with
  | frame value =>
    intro hmem
    exact absurd ((JsonText.clean_stringify fmt h).printable newline hmem) (by decide)
  | junk line => exact h

theorem readLine_line {item : Sent} (h : item.Sendable fmt) :
    FrameDecoder.readLine fmt (item.line fmt) = item.value fmt := by
  cases item with
  | frame value =>
    rw [line, FrameDecoder.readLine, if_neg (JsonText.trim_stringify_ne_nil fmt value),
      JsonText.parse_stringify fmt h]
    rfl
  | junk line => rfl

theorem received_of_delivers {maxFrameBytes : Nat} {sent : List Sent}
    (hsent : ∀ item ∈ sent, item.Sendable fmt) : ∀ {frames : List Json},
      FrameDecoder.Delivers fmt maxFrameBytes (sent.map (line fmt)) frames →
        Received fmt maxFrameBytes sent frames := by
  induction sent with
  | nil =>
    rintro frames ⟨⟩
    exact .nil
  | cons item sent ih =>
    intro frames h
    have htail := @ih fun i hi => hsent i (List.mem_cons_of_mem _ hi)
    rw [List.map_cons] at h
    cases h with
    | line hrest =>
      rw [readLine_line (hsent item List.mem_cons_self)]
      cases hvalue : item.value fmt with
      | none => exact .unparseable hvalue (htail hrest)
      | some v => exact .value hvalue (htail hrest)
    | oversized hover hrest => exact .oversized hover (htail hrest)

theorem stream_lines (sent : List Sent) :
    FrameDecoder.stream (sent.map (line fmt)) = (sent.map (encoded fmt)).flatten := by
  rw [FrameDecoder.stream, List.map_map]
  congr 1
  exact List.map_congr_left fun item _ => (encoded_eq item).symm

end Sent

/-- **Peer link framing**: however the stream is cut into chunks, frames within the cap are decoded
exactly and in order; and with frames over the cap and lines of junk among them, only what is over
the cap and what does not parse is missing. -/
theorem FrameDecoder.decodes_sent (fmt : NumberFormat) (maxFrameBytes : Nat) (sent : List Sent)
    (chunks : List JsString) (hsent : ∀ item ∈ sent, item.Sendable fmt)
    (hchunks : chunks.flatten = (sent.map (Sent.encoded fmt)).flatten) :
    ((∀ item ∈ sent, (item.line fmt).length ≤ maxFrameBytes) →
        decode fmt maxFrameBytes chunks = sent.filterMap (Sent.value fmt)) ∧
      Sent.Received fmt maxFrameBytes sent (decode fmt maxFrameBytes chunks) := by
  have hfree : ∀ line ∈ sent.map (Sent.line fmt), newline ∉ line := by
    intro line hline
    obtain ⟨item, hitem, rfl⟩ := List.mem_map.1 hline
    exact Sent.newline_notMem_line (hsent item hitem)
  have hdelivers : Delivers fmt maxFrameBytes (sent.map (Sent.line fmt))
      (decode fmt maxFrameBytes chunks) :=
    pushAll_stream chunks (new maxFrameBytes) [] _ (new_holds maxFrameBytes) hfree
      (by rw [List.nil_append, hchunks, Sent.stream_lines])
  refine ⟨fun hcap => ?_, Sent.received_of_delivers hsent hdelivers⟩
  rw [hdelivers.eq_filterMap (by simpa using hcap), List.filterMap_map]
  exact List.filterMap_congr fun item hitem => Sent.readLine_line (hsent item hitem)

/-- A frame, a line of junk and an oversized frame whose terminator comes with the frame behind it. -/
theorem FrameDecoder.decodes_sent_oversized :
    Sent.Received JsonText.naturals 12
      [.frame (.object [(js "id", .number 7)]), .junk (js "\x7bnot json"),
        .frame (.array [.string (js "0123456789"), .null]), .frame (.bool true)]
      (decode JsonText.naturals 12
        [js "\x7b\"id\"", js ":7\x7d\n\x7bnot json\n[\"012345", js "6789\",", js "null]\ntrue\n"]) :=
  (FrameDecoder.decodes_sent JsonText.naturals 12 _ _
    (by
      intro item hitem
      simp only [List.mem_cons, List.not_mem_nil, or_false] at hitem
      rcases hitem with rfl | rfl | rfl | rfl
      · exact .object (by decide) (by
          intro f hf
          obtain rfl := List.mem_singleton.1 hf
          exact .number ⟨7, rfl⟩)
      · exact (by decide : newline ∉ js "\x7bnot json")
      · exact .array (by
          intro v hv
          simp only [List.mem_cons, List.not_mem_nil, or_false] at hv
          rcases hv with rfl | rfl
          · exact .string _
          · exact .null)
      · exact .bool true)
    (by decide +kernel)).2

end Dormouse.PeerLink
