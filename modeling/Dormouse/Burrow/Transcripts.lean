import Dormouse.Security.Decoding
import Dormouse.Security.PresenceSound
import Dormouse.Burrow.Invitation

/-!
# Dormouse.Burrow.Transcripts

**What the ceremonies hash and bind is told apart**: the two prologues and the two presence
challenges agree only when they are of one kind and say the same, as long as every field's length
fits its prefix.
-/

namespace Dormouse.Burrow

open Noise (Bytes writeUint32BE)
open Security

/-- A field of a transcript: text that is encoded, or base64url that is decoded. -/
inductive Field
  | text (s : JsString)
  | base64Url (s : JsString)

def Field.bytes : Field → Option Bytes
  | text s => some (utf8Encode s)
  | base64Url s => fromBase64Url s

inductive Transcript
  | connection (burrowId connectionId : JsString)
  | pairing (burrowId : JsString) (invitationFields : List JsString)
  | presence (binding : PresenceBinding) (relayNonce : JsString)

namespace Transcript

def preimage : Transcript → Option Bytes
  | connection burrowId connectionId => some (e2eConnectionPrologue burrowId connectionId)
  | pairing burrowId invitationFields => some (e2ePairingPrologue burrowId invitationFields)
  | presence binding relayNonce => presencePreimage binding relayNonce

/-- The domain and the ceremony. -/
def kind : Transcript → JsString × JsString
  | connection .. => (e2ePrologueDomain, js "connection")
  | pairing .. => (e2ePrologueDomain, js "pairing")
  | presence binding _ => (presenceDomain, binding.kind)

def fields : Transcript → List Field
  | connection burrowId connectionId => [.text burrowId, .text connectionId]
  | pairing burrowId invitationFields => .text burrowId :: invitationFields.map .text
  | presence (.pairing burrowId handshakeHash passkeyCredentialId) relayNonce =>
    [.text burrowId, .base64Url handshakeHash, .text passkeyCredentialId, .base64Url relayNonce]
  | presence (.connection burrowId connectionId burrowChallenge handshakeHash
      passkeyCredentialId) relayNonce =>
    [.text burrowId, .base64Url connectionId, .base64Url burrowChallenge,
      .base64Url handshakeHash, .text passkeyCredentialId, .base64Url relayNonce]

/-- Every field's length fits the four bytes in front of it. -/
def Short (t : Transcript) : Prop :=
  ∀ field ∈ t.fields, ∀ bytes, field.bytes = some bytes → bytes.length < 2 ^ 32

variable {t t' : Transcript} {preimage : Bytes}

theorem preimage_parts (h : t.preimage = some preimage) :
    ∃ parts, t.fields.map Field.bytes = parts.map some ∧
      preimage = lengthPrefixedConcat (utf8Encode t.kind.1 :: utf8Encode t.kind.2 :: parts) := by
  cases t with
  | connection burrowId connectionId =>
    exact ⟨[utf8Encode burrowId, utf8Encode connectionId], rfl, (Option.some.inj h).symm⟩
  | pairing burrowId invitationFields =>
    refine ⟨utf8Encode burrowId :: invitationFields.map utf8Encode, ?_, (Option.some.inj h).symm⟩
    simp [Transcript.fields, Field.bytes]
  | presence binding relayNonce =>
    obtain ⟨fields, nonce, -, hfields, hnonce, rfl⟩ := presencePreimage_parts h
    refine ⟨fields ++ [nonce], ?_, rfl⟩
    cases binding with
    | pairing burrowId handshakeHash passkeyCredentialId =>
      simp only [PresenceBinding.bindingFields, Option.bind_eq_bind,
        Option.bind_eq_some_iff] at hfields
      obtain ⟨hash, hhash, hfields⟩ := hfields
      obtain rfl := Option.some.inj hfields
      simp [Transcript.fields, Field.bytes, hhash, hnonce]
    | connection burrowId connectionId burrowChallenge handshakeHash passkeyCredentialId =>
      simp only [PresenceBinding.bindingFields, Option.bind_eq_bind,
        Option.bind_eq_some_iff] at hfields
      obtain ⟨connection, hconnection, challenge, hchallenge, hash, hhash, hfields⟩ := hfields
      obtain rfl := Option.some.inj hfields
      simp [Transcript.fields, Field.bytes, hconnection, hchallenge, hhash, hnonce]

theorem kind_ascii (t : Transcript) : (∀ c ∈ t.kind.1, c.toNat < 0x80) ∧
    ∀ c ∈ t.kind.2, c.toNat < 0x80 := by
  have hprologue : ∀ c ∈ e2ePrologueDomain, c.toNat < 0x80 := ascii_of_all (by decide)
  have hpresence : ∀ c ∈ presenceDomain, c.toNat < 0x80 := ascii_of_all (by decide)
  cases t with
  | connection => exact ⟨hprologue, ascii_of_all (by decide : (js "connection").all _ = true)⟩
  | pairing => exact ⟨hprologue, ascii_of_all (by decide : (js "pairing").all _ = true)⟩
  | presence binding _ => exact ⟨hpresence, binding.kind_ascii⟩

theorem kind_lt (t : Transcript) : (utf8Encode t.kind.1).length < 2 ^ 32 ∧
    (utf8Encode t.kind.2).length < 2 ^ 32 := by
  have hprologue : (utf8Encode e2ePrologueDomain).length < 2 ^ 32 := by decide
  have hpresence : (utf8Encode presenceDomain).length < 2 ^ 32 := by decide
  cases t with
  | connection => exact ⟨hprologue, (by decide : (utf8Encode (js "connection")).length < 2 ^ 32)⟩
  | pairing => exact ⟨hprologue, (by decide : (utf8Encode (js "pairing")).length < 2 ^ 32)⟩
  | presence binding _ => exact ⟨hpresence, binding.length_kind_lt⟩

/-- Preimages of short fields tell the kind and the bytes of every field. -/
theorem preimage_inj (ht : t.Short) (ht' : t'.Short) (h : t.preimage = some preimage)
    (h' : t'.preimage = some preimage) :
    t.kind = t'.kind ∧ t.fields.map Field.bytes = t'.fields.map Field.bytes := by
  obtain ⟨parts, hparts, hpreimage⟩ := preimage_parts h
  obtain ⟨parts', hparts', hpreimage'⟩ := preimage_parts h'
  have hlt : ∀ {t : Transcript} {parts : List Bytes}, t.Short →
      t.fields.map Field.bytes = parts.map some →
      ∀ part ∈ utf8Encode t.kind.1 :: utf8Encode t.kind.2 :: parts, part.length < 2 ^ 32 := by
    intro t parts ht hparts part hpart
    rcases List.mem_cons.1 hpart with rfl | hpart
    · exact t.kind_lt.1
    rcases List.mem_cons.1 hpart with rfl | hpart
    · exact t.kind_lt.2
    have hmem := List.mem_map_of_mem (f := some) hpart
    rw [← hparts] at hmem
    obtain ⟨field, hfield, hbytes⟩ := List.mem_map.1 hmem
    exact ht field hfield part hbytes
  have hsame := lengthPrefixedConcat_inj (hlt ht hparts) (hlt ht' hparts')
    (hpreimage.symm.trans hpreimage')
  obtain ⟨hdomain, hrest⟩ := List.cons.inj hsame
  obtain ⟨hkind, rfl⟩ := List.cons.inj hrest
  exact ⟨Prod.ext (utf8Encode_inj_ascii hdomain t'.kind_ascii.1)
    (utf8Encode_inj_ascii hkind t'.kind_ascii.2), hparts.trans hparts'.symm⟩

/-- **Transcripts that coincide say the same**: they are of one kind, every field has the same
bytes, and a text without lone surrogates is the same text. -/
theorem transcripts_apart :
    (∀ ps qs : List Bytes, (∀ p ∈ ps, p.length < 2 ^ 32) → (∀ q ∈ qs, q.length < 2 ^ 32) →
      lengthPrefixedConcat ps = lengthPrefixedConcat qs → ps = qs) ∧
    ∀ (t t' : Transcript) (preimage : Bytes), t.Short → t'.Short → t.preimage = some preimage →
      t'.preimage = some preimage →
      t.kind = t'.kind ∧ t.fields.map Field.bytes = t'.fields.map Field.bytes ∧
      ∀ (i : Nat) text text', t.fields[i]? = some (.text text) →
        t'.fields[i]? = some (.text text') → text.WellFormed → text'.WellFormed →
        text = text' := by
  refine ⟨fun ps qs hps hqs h => lengthPrefixedConcat_inj hps hqs h,
    fun t t' preimage ht ht' h h' => ?_⟩
  obtain ⟨hkind, hbytes⟩ := preimage_inj ht ht' h h'
  refine ⟨hkind, hbytes, fun i text text' htext htext' hwell hwell' => ?_⟩
  have hat := congrArg (·[i]?) hbytes
  simp only [List.getElem?_map, htext, htext', Option.map_some, Field.bytes,
    Option.some.injEq] at hat
  have hdecoded := utf8Decode_utf8Encode hwell
  rw [hat, utf8Decode_utf8Encode hwell'] at hdecoded
  exact (Option.some.inj hdecoded).symm

theorem concat_empty (n : Nat) :
    lengthPrefixedConcat (List.replicate n []) = List.replicate (n * 4) 0 := by
  rw [lengthPrefixedConcat, List.flatMap_def, List.map_replicate]
  change (List.replicate n (List.replicate 4 (0 : UInt8))).flatten = _
  exact List.flatten_replicate_replicate

/-- A length of `2 ^ 32` is written as zero. -/
theorem concat_full :
    lengthPrefixedConcat [List.replicate (2 ^ 32) 0] = List.replicate (4 + 2 ^ 32) 0 := by
  have hzero : writeUint32BE (2 ^ 32) = List.replicate 4 0 := by decide
  rw [lengthPrefixedConcat, List.flatMap_singleton, List.length_replicate, hzero,
    List.replicate_append_replicate]

/-- One part of `2 ^ 32` bytes reads as many empty ones; and one lone surrogate as any other. -/
theorem transcripts_collide :
    (¬ ∀ ps qs : List Bytes, lengthPrefixedConcat ps = lengthPrefixedConcat qs → ps = qs) ∧
    ¬ ∀ burrowId burrowId' connectionId,
      e2eConnectionPrologue burrowId connectionId = e2eConnectionPrologue burrowId' connectionId →
      burrowId = burrowId' := by
  constructor
  · intro h
    have hsame := h _ _ (concat_full.trans (concat_empty (2 ^ 30 + 1)).symm)
    have hlength := congrArg List.length hsame
    rw [List.length_singleton, List.length_replicate] at hlength
    exact absurd hlength (by decide)
  · intro h
    exact absurd (h [0xD800] [0xD801] [] (by decide)) (by decide)

end Transcript

end Dormouse.Burrow
