import Dormouse.Noise.Transport

/-!
# Dormouse.Noise.PlaintextSound

**Transport plaintexts decode to what was encoded**; a control plaintext has one size whatever it
says, and every one leaves room for its tag.
-/

namespace Dormouse.Noise

variable {J : Type} {json : JsonText J}

/-- The JSON text of an object reads back as that object, and it does not end in a NUL. -/
def JsonText.RoundTrips (json : JsonText J) : Prop :=
  ∀ value, json.isObject value = true → json.parse (json.stringify value) = some value ∧
    ∃ front last, json.stringify value = front ++ [last] ∧ last ≠ 0

theorem dropTrailingNuls_padded {front : Bytes} {last : UInt8} (hlast : last ≠ 0) (k : Nat) :
    dropTrailingNuls (front ++ [last] ++ List.replicate k 0) = front ++ [last] := by
  have hnuls : ∀ b ∈ List.replicate k (0 : UInt8), (b == 0) = true :=
    fun b hb => by simp [List.eq_of_mem_replicate hb]
  rw [dropTrailingNuls, List.reverse_append, List.reverse_replicate,
    List.dropWhile_append_of_pos hnuls]
  simp [hlast]

theorem encodeControlBody_ok {value : J} {body : Bytes}
    (h : encodeControlBody json value = .ok body) :
    (json.stringify value).length ≤ controlPayloadSize ∧ body =
      json.stringify value ++ List.replicate (controlPayloadSize - (json.stringify value).length) 0 := by
  unfold encodeControlBody at h
  dsimp only at h
  split at h
  case isTrue => cases h
  case isFalse hfits => exact ⟨Nat.le_of_not_lt hfits, (Except.ok.inj h).symm⟩

/-- **A control body has one size.** -/
theorem length_encodeControlBody {value : J} {body : Bytes}
    (h : encodeControlBody json value = .ok body) : body.length = controlPayloadSize := by
  obtain ⟨hfits, rfl⟩ := encodeControlBody_ok h
  rw [List.length_append, List.length_replicate]
  omega

theorem decodeControlBody_encode (hjson : json.RoundTrips) {value : J} {body : Bytes}
    (hvalue : json.isObject value = true) (h : encodeControlBody json value = .ok body) :
    decodeControlBody json body = .ok value := by
  obtain ⟨hparse, front, last, htext, hlast⟩ := hjson value hvalue
  have hlength := length_encodeControlBody h
  obtain ⟨-, hbody⟩ := encodeControlBody_ok h
  rw [decodeControlBody, if_neg (not_not.2 hlength), hbody, htext, dropTrailingNuls_padded hlast,
    ← htext, hparse]
  simp only [hvalue, if_true]

/-- What the encoder writes, kind by kind. -/
theorem encodeTransportPlaintext_ok {frame : TransportPlaintext J} {plaintext : Bytes}
    (h : encodeTransportPlaintext json frame = .ok plaintext) :
    match frame with
    | .keepalive => plaintext = transportKindKeepalive :: List.replicate keepaliveBodySize 0
    | .control value => ∃ body, encodeControlBody json value = .ok body ∧
        plaintext = transportKindControl :: body
    | .stream body =>
    body.length ≤ maxStreamBodyLength ∧ plaintext = transportKindStream :: body := by
  cases frame with
  | keepalive => exact (Except.ok.inj h).symm
  | control value =>
    rw [encodeTransportPlaintext] at h
    cases hbody : encodeControlBody json value with
    | error e =>
      rw [hbody] at h
      cases h
    | ok body =>
      rw [hbody] at h
      exact ⟨body, hbody, (Except.ok.inj h).symm⟩
  | stream body =>
    rw [encodeTransportPlaintext] at h
    split at h
    case isTrue => cases h
    case isFalse hfits => exact ⟨Nat.le_of_not_lt hfits, (Except.ok.inj h).symm⟩

theorem decode_encode (hjson : json.RoundTrips) {frame : TransportPlaintext J} {plaintext : Bytes}
    (hobject : ∀ value, frame = .control value → json.isObject value = true)
    (h : encodeTransportPlaintext json frame = .ok plaintext) :
    decodeTransportPlaintext json plaintext = .ok frame := by
  have hok := encodeTransportPlaintext_ok h
  cases frame with
  | keepalive =>
    rw [hok]
    rfl
  | control value =>
    obtain ⟨body, hbody, rfl⟩ := hok
    rw [decodeTransportPlaintext, if_neg (by decide), if_neg (by decide), if_pos rfl,
      decodeControlBody_encode hjson (hobject value rfl) hbody]
    rfl
  | stream body =>
    obtain ⟨hfits, rfl⟩ := hok
    rw [decodeTransportPlaintext, if_neg (by decide), if_pos rfl, if_neg (Nat.not_lt_of_le hfits)]

/-- A keepalive or a stream frame is decoded from its own encoding alone. -/
theorem decodeTransportPlaintext_ok {frame : TransportPlaintext J} {plaintext : Bytes}
    (hframe : ∀ value, frame ≠ .control value)
    (h : decodeTransportPlaintext json plaintext = .ok frame) :
    encodeTransportPlaintext json frame = .ok plaintext := by
  unfold decodeTransportPlaintext at h
  split at h
  · cases h
  next kind body =>
    split_ifs at h with hkeepalive hsize hzero hstream hfits hcontrol
    · obtain rfl := Except.ok.inj h
      have hbody : body = List.replicate keepaliveBodySize 0 := by
        refine List.eq_replicate_iff.2 ⟨not_not.1 hsize, fun b hb => ?_⟩
        by_contra hne
        exact hzero (List.any_eq_true.2 ⟨b, hb, by simpa using hne⟩)
      rw [hkeepalive, hbody]
      rfl
    · obtain rfl := Except.ok.inj h
      rw [encodeTransportPlaintext, if_neg hfits, hstream]
    · cases hvalue : decodeControlBody json body with
      | error e =>
        rw [hvalue] at h
        cases h
      | ok value =>
        rw [hvalue] at h
        exact absurd (Except.ok.inj h).symm (hframe value)

/-- **The codec of transport plaintexts**: what is encoded is decoded; a keepalive or a stream
frame is read from no other bytes; control plaintexts have one size, and all leave room for the
tag. -/
theorem transport_codec (hjson : json.RoundTrips) :
    (∀ frame plaintext, (∀ value, frame = .control value → json.isObject value = true) →
      encodeTransportPlaintext json frame = .ok plaintext →
      decodeTransportPlaintext json plaintext = .ok frame) ∧
    (∀ frame plaintext, (∀ value, frame ≠ .control value) →
      (decodeTransportPlaintext json plaintext = .ok frame ↔
        encodeTransportPlaintext json frame = .ok plaintext)) ∧
    (∀ value plaintext, encodeTransportPlaintext json (.control value) = .ok plaintext →
      plaintext.length = 1 + controlPayloadSize) ∧
    ∀ frame plaintext, encodeTransportPlaintext json frame = .ok plaintext →
      plaintext.length + noiseTagLength ≤ 65535 := by
  refine ⟨fun _ _ hobject h => decode_encode hjson hobject h, fun frame _ hframe =>
    ⟨decodeTransportPlaintext_ok hframe, decode_encode hjson fun value hvalue =>
      absurd hvalue (hframe value)⟩, fun value plaintext h => ?_, fun frame plaintext h => ?_⟩
  · obtain ⟨body, hbody, rfl⟩ := encodeTransportPlaintext_ok h
    rw [List.length_cons, length_encodeControlBody hbody, Nat.add_comm]
  · have hok := encodeTransportPlaintext_ok h
    cases frame with
    | keepalive =>
      rw [hok]
      decide
    | control value =>
      obtain ⟨body, hbody, rfl⟩ := hok
      rw [List.length_cons, length_encodeControlBody hbody]
      decide
    | stream body =>
      obtain ⟨hfits, rfl⟩ := hok
      simp only [maxStreamBodyLength, noiseMaxMessageLength, noiseTagLength, List.length_cons]
        at hfits ⊢
      omega

/-- One value, whose text is `\x7b\x7d`. -/
def emptyObject : JsonText Unit where
  stringify _ := [0x7B, 0x7D]
  parse bytes := if bytes = [0x7B, 0x7D] then some () else none
  isObject _ := true

theorem transport_codec_emptyObject :
    emptyObject.RoundTrips ∧ decodeTransportPlaintext emptyObject
      (transportKindControl :: [0x7B, 0x7D] ++ List.replicate 4094 0) = .ok (.control ()) := by
  have hjson : emptyObject.RoundTrips := fun _ _ => ⟨rfl, [0x7B], 0x7D, rfl, by decide⟩
  exact ⟨hjson, (transport_codec hjson).1 _ _ (fun _ _ => rfl) rfl⟩

end Dormouse.Noise
