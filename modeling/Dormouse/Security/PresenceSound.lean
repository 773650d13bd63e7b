import Mathlib.Data.Set.Defs
import Dormouse.Security.Encoding
import Dormouse.Security.Presence

/-!
# Dormouse.Security.PresenceSound

**Presence proofs are bound to one ceremony.** What an accepted proof has been checked for
is its evidence: the client data with the derived challenge, and the message that the key's
holder signed. One signed message speaks for one binding.
-/

namespace Dormouse.Security

open Noise (Bytes)

/-! ### What the challenge says -/

theorem ascii_of_all {text : JsString}
    (h : text.all (fun c => decide (c.toNat < 0x80)) = true) : ∀ c ∈ text, c.toNat < 0x80 :=
  fun c hc => of_decide_eq_true (List.all_eq_true.1 h c hc)

namespace PresenceBinding

/-- Every field is within the limit that the guard puts on it. -/
def Bounded : PresenceBinding → Prop
  | pairing burrowId handshakeHash passkeyCredentialId =>
    burrowId.length ≤ presenceFieldLimit ∧ handshakeHash.length ≤ presenceFieldLimit ∧
      passkeyCredentialId.length ≤ presenceFieldLimit
  | connection burrowId connectionId burrowChallenge handshakeHash passkeyCredentialId =>
    burrowId.length ≤ presenceFieldLimit ∧ connectionId.length ≤ presenceFieldLimit ∧
      burrowChallenge.length ≤ presenceFieldLimit ∧ handshakeHash.length ≤ presenceFieldLimit ∧
        passkeyCredentialId.length ≤ presenceFieldLimit

/-- One kind, and the same bytes in every field. -/
def SameBytes (b b' : PresenceBinding) : Prop :=
  b.kind = b'.kind ∧ b.bindingFields = b'.bindingFields

/-- The way this program's own bindings are written: ids in ASCII, bytes in base64url. -/
def Canonical : PresenceBinding → Prop
  | pairing burrowId handshakeHash passkeyCredentialId =>
    (∀ c ∈ burrowId, c.toNat < 0x80) ∧ (∃ bytes, handshakeHash = toBase64Url bytes) ∧
      ∀ c ∈ passkeyCredentialId, c.toNat < 0x80
  | connection burrowId connectionId burrowChallenge handshakeHash passkeyCredentialId =>
    (∀ c ∈ burrowId, c.toNat < 0x80) ∧ (∃ bytes, connectionId = toBase64Url bytes) ∧
      (∃ bytes, burrowChallenge = toBase64Url bytes) ∧
        (∃ bytes, handshakeHash = toBase64Url bytes) ∧
          ∀ c ∈ passkeyCredentialId, c.toNat < 0x80

theorem length_of_boundedField {value : Json} {key text : JsString} {limit : Nat}
    (h : boundedField limit value key = some text) : text.length ≤ limit := by
  obtain ⟨-, hbounded⟩ := Option.filter_eq_some_iff.1 h
  exact of_decide_eq_true hbounded

/-- What the guard lets through is bounded field by field. -/
theorem bounded_of_ofJson {value : Json} {b : PresenceBinding} (h : ofJson value = some b) :
    b.Bounded := by
  simp only [ofJson, Option.bind_eq_bind, Option.bind_eq_some_iff] at h
  obtain ⟨kind, -, h⟩ := h
  split at h
  · split at h
    · cases h
    · simp only [Option.bind_eq_some_iff] at h
      obtain ⟨burrowId, hburrow, handshakeHash, hhash, id, hid, hb⟩ := h
      cases hb
      exact ⟨length_of_boundedField hburrow, length_of_boundedField hhash,
        length_of_boundedField hid⟩
  · split at h
    · split at h
      · cases h
      · simp only [Option.bind_eq_some_iff] at h
        obtain ⟨burrowId, hburrow, connectionId, hconnection, challenge, hchallenge,
          handshakeHash, hhash, id, hid, hb⟩ := h
        cases hb
        exact ⟨length_of_boundedField hburrow, length_of_boundedField hconnection,
          length_of_boundedField hchallenge, length_of_boundedField hhash,
          length_of_boundedField hid⟩
    · cases h

theorem length_utf8_lt {text : JsString} (h : text.length ≤ presenceFieldLimit) :
    (utf8Encode text).length < 2 ^ 32 := by
  have hutf8 := length_utf8Encode_le text
  unfold presenceFieldLimit at h
  omega

theorem length_base64Url_lt {text : JsString} {bytes : Bytes}
    (h : text.length ≤ presenceFieldLimit) (hbytes : fromBase64Url text = some bytes) :
    bytes.length < 2 ^ 32 := by
  have hdecoded := length_fromBase64Url_le hbytes
  unfold presenceFieldLimit at h
  omega

/-- The fields of a bounded binding have lengths that four bytes hold. -/
theorem length_bindingFields {b : PresenceBinding} (hb : b.Bounded) {fields : List Bytes}
    (h : b.bindingFields = some fields) : ∀ field ∈ fields, field.length < 2 ^ 32 := by
  cases b with
  | pairing burrowId handshakeHash id =>
    obtain ⟨hburrow, hhash, hid⟩ := hb
    simp only [bindingFields, Option.bind_eq_bind, Option.bind_eq_some_iff] at h
    obtain ⟨hashBytes, hdecoded, hfields⟩ := h
    cases hfields
    simp only [List.forall_mem_cons, List.not_mem_nil, false_implies, implies_true, and_true]
    exact ⟨length_utf8_lt hburrow, length_base64Url_lt hhash hdecoded, length_utf8_lt hid⟩
  | connection burrowId connectionId burrowChallenge handshakeHash id =>
    obtain ⟨hburrow, hconnection, hchallenge, hhash, hid⟩ := hb
    simp only [bindingFields, Option.bind_eq_bind, Option.bind_eq_some_iff] at h
    obtain ⟨connectionBytes, hconnected, challengeBytes, hchallenged, hashBytes, hdecoded,
      hfields⟩ := h
    cases hfields
    simp only [List.forall_mem_cons, List.not_mem_nil, false_implies, implies_true, and_true]
    exact ⟨length_utf8_lt hburrow, length_base64Url_lt hconnection hconnected,
      length_base64Url_lt hchallenge hchallenged, length_base64Url_lt hhash hdecoded,
      length_utf8_lt hid⟩

theorem kind_ascii (b : PresenceBinding) : ∀ c ∈ b.kind, c.toNat < 0x80 := by
  cases b with
  | pairing => exact ascii_of_all (by decide : (js "pairing").all _ = true)
  | connection => exact ascii_of_all (by decide : (js "connection").all _ = true)

theorem length_kind_lt (b : PresenceBinding) : (utf8Encode b.kind).length < 2 ^ 32 := by
  cases b with
  | pairing =>
    show (utf8Encode (js "pairing")).length < 2 ^ 32
    decide
  | connection =>
    show (utf8Encode (js "connection")).length < 2 ^ 32
    decide

theorem kinds_ne : js "pairing" ≠ js "connection" := by
  decide

/-- **Bindings in canonical form that say the same are the same.** -/
theorem eq_of_sameBytes {b b' : PresenceBinding} (hb : b.Canonical) (hb' : b'.Canonical)
    (h : SameBytes b b') : b = b' := by
  obtain ⟨hkind, hfields⟩ := h
  cases b with
  | pairing burrowId handshakeHash id =>
    cases b' with
    | connection => exact absurd hkind kinds_ne
    | pairing burrowId' handshakeHash' id' =>
      obtain ⟨-, ⟨hash, rfl⟩, -⟩ := hb
      obtain ⟨hburrow, ⟨hash', rfl⟩, hid⟩ := hb'
      simp only [bindingFields, fromBase64Url_toBase64Url, Option.bind_eq_bind,
        Option.bind_some, Option.pure_def, Option.some.injEq, List.cons.injEq, and_true]
        at hfields
      obtain ⟨h₁, h₂, h₃⟩ := hfields
      rw [utf8Encode_inj_ascii h₁ hburrow, h₂, utf8Encode_inj_ascii h₃ hid]
  | connection burrowId connectionId burrowChallenge handshakeHash id =>
    cases b' with
    | pairing => exact absurd hkind.symm kinds_ne
    | connection burrowId' connectionId' burrowChallenge' handshakeHash' id' =>
      obtain ⟨-, ⟨connection, rfl⟩, ⟨challenge, rfl⟩, ⟨hash, rfl⟩, -⟩ := hb
      obtain ⟨hburrow, ⟨connection', rfl⟩, ⟨challenge', rfl⟩, ⟨hash', rfl⟩, hid⟩ := hb'
      simp only [bindingFields, fromBase64Url_toBase64Url, Option.bind_eq_bind,
        Option.bind_some, Option.pure_def, Option.some.injEq, List.cons.injEq, and_true]
        at hfields
      obtain ⟨h₁, h₂, h₃, h₄, h₅⟩ := hfields
      rw [utf8Encode_inj_ascii h₁ hburrow, h₂, h₃, h₄, utf8Encode_inj_ascii h₅ hid]

end PresenceBinding

/-- The parts of a preimage. -/
theorem presencePreimage_parts {b : PresenceBinding} {relayNonce : JsString} {preimage : Bytes}
    (h : presencePreimage b relayNonce = some preimage) :
    ∃ fields nonce, relayNonce.length ≤ presenceFieldLimit ∧ b.bindingFields = some fields ∧
      fromBase64Url relayNonce = some nonce ∧
        preimage = lengthPrefixedConcat
          ([utf8Encode presenceDomain, utf8Encode b.kind] ++ fields ++ [nonce]) := by
  unfold presencePreimage at h
  by_cases hnonce : isBoundedString relayNonce presenceFieldLimit = true
  · simp only [hnonce, Bool.not_true, Bool.false_eq_true, if_false, Option.pure_def,
      Option.bind_eq_bind, Option.bind_eq_some_iff] at h
    obtain ⟨fields, hfields, nonce, hdecoded, hpreimage⟩ := h
    exact ⟨fields, nonce, of_decide_eq_true hnonce, hfields, hdecoded,
      (Option.some.inj hpreimage).symm⟩
  · simp [hnonce] at h

/-- **One preimage is of one ceremony**: its kind, the bytes of every field, and the nonce. -/
theorem presencePreimage_inj {b b' : PresenceBinding} {relayNonce relayNonce' : JsString}
    {preimage : Bytes} (hb : b.Bounded) (hb' : b'.Bounded)
    (h : presencePreimage b relayNonce = some preimage)
    (h' : presencePreimage b' relayNonce' = some preimage) :
    PresenceBinding.SameBytes b b' ∧ fromBase64Url relayNonce = fromBase64Url relayNonce' := by
  have parts_lt {b : PresenceBinding} {relayNonce : JsString} {fields : List Bytes}
      {nonce : Bytes} (hb : b.Bounded) (hlength : relayNonce.length ≤ presenceFieldLimit)
      (hfields : b.bindingFields = some fields) (hnonce : fromBase64Url relayNonce = some nonce) :
      ∀ part ∈ [utf8Encode presenceDomain, utf8Encode b.kind] ++ fields ++ [nonce],
        part.length < 2 ^ 32 := by
    intro part hpart
    simp only [List.mem_append, List.mem_cons, List.not_mem_nil, or_false] at hpart
    rcases hpart with ((rfl | rfl) | hfield) | rfl
    · exact PresenceBinding.length_utf8_lt (by decide)
    · exact b.length_kind_lt
    · exact PresenceBinding.length_bindingFields hb hfields part hfield
    · exact PresenceBinding.length_base64Url_lt hlength hnonce
  obtain ⟨fields, nonce, hlength, hfields, hnonce, hpreimage⟩ := presencePreimage_parts h
  obtain ⟨fields', nonce', hlength', hfields', hnonce', hpreimage'⟩ := presencePreimage_parts h'
  have hparts := lengthPrefixedConcat_inj (parts_lt hb hlength hfields hnonce)
    (parts_lt hb' hlength' hfields' hnonce') (hpreimage.symm.trans hpreimage')
  obtain ⟨-, hrest⟩ := List.cons.inj hparts
  obtain ⟨hkind, hrest⟩ := List.cons.inj hrest
  have htail := List.append_inj' hrest rfl
  have hkinds : b.kind = b'.kind := utf8Encode_inj_ascii hkind b'.kind_ascii
  refine ⟨⟨hkinds, ?_⟩, ?_⟩
  · rw [hfields, hfields']
    exact congrArg some htail.1
  · rw [hnonce, hnonce']
    exact congrArg some (List.cons.inj htail.2).1

/-! ### Evidence -/

variable {Key : Type}

/-- What an accepted assertion has been checked for, with the message that was signed. -/
structure AssertionEvidence (runtime : WebRuntime Key) (crypto : WebCryptoLike Key)
    (policy : PresencePolicy) (assertion : PasskeyAssertion)
    (passkeyPublicKey expectedChallenge : JsString) where
  clientDataBytes : Bytes
  clientData : Json
  challenge : JsString
  origin : JsString
  authenticatorData : Bytes
  spki : Bytes
  publicKey : Key
  clientDataHash : Bytes
  signature : Bytes
  parses : runtime.readClientData assertion = some (clientDataBytes, clientData)
  typed : clientData.stringField (js "type") = some (js "webauthn.get")
  challenged : clientData.stringField (js "challenge") = some challenge
  answers : base64UrlValuesEqual challenge expectedChallenge = true
  fromOrigin : clientData.stringField (js "origin") = some origin
  allowed : origin ∈ policy.origin.origins
  authenticated : fromBase64Url assertion.authenticatorData = some authenticatorData
  complete : authenticatorDataMinLength ≤ authenticatorData.length
  relyingParty : crypto.digest (utf8Encode policy.rpId) = some (authenticatorData.take 32)
  userPresent : authenticatorData.getD 32 0 &&& flagUserPresent ≠ 0
  userVerified : policy.requireUserVerification = true →
    authenticatorData.getD 32 0 &&& flagUserVerified ≠ 0
  keyed : fromBase64Url passkeyPublicKey = some spki
  imported : crypto.importKey spki = some publicKey
  hashed : crypto.digest clientDataBytes = some clientDataHash
  signed : crypto.verify publicKey signature (authenticatorData ++ clientDataHash) = some true

/-- The bytes the authenticator signed. -/
def AssertionEvidence.message {runtime : WebRuntime Key} {crypto : WebCryptoLike Key}
    {policy : PresencePolicy} {assertion : PasskeyAssertion}
    {passkeyPublicKey expectedChallenge : JsString}
    (e : AssertionEvidence runtime crypto policy assertion passkeyPublicKey expectedChallenge) :
    Bytes :=
  e.authenticatorData ++ e.clientDataHash

/-- A verified assertion has its evidence: every earlier branch rejects. -/
theorem WebRuntime.evidence_of_verifyAssertion {runtime : WebRuntime Key}
    {crypto : WebCryptoLike Key} {policy : PresencePolicy} {assertion : PasskeyAssertion}
    {passkeyPublicKey expectedChallenge : JsString} {result : VerifiedAssertion}
    (h : runtime.verifyAssertion assertion passkeyPublicKey expectedChallenge policy crypto =
      some (.ok result)) :
    Nonempty
      (AssertionEvidence runtime crypto policy assertion passkeyPublicKey expectedChallenge) := by
  unfold WebRuntime.verifyAssertion at h
  dsimp only at h
  split at h
  · cases h
  rename_i clientDataBytes clientData hparses
  split at h
  · cases h
  rename_i htype
  split at h
  · cases h
  rename_i hchallenge
  split at h
  · cases h
  rename_i horigin
  split at h
  · cases h
  rename_i authenticatorData hdecoded
  split at h
  · cases h
  rename_i hlength
  split at h
  · cases h
  rename_i expectedRpIdHash hrpId
  split at h
  · cases h
  rename_i hequal
  split at h
  · cases h
  rename_i hpresent
  split at h
  · cases h
  rename_i hverified
  split at h
  · cases h
  rename_i publicKey hkey
  split at h
  · cases h
  rename_i clientDataHash hhash
  split at h
  · next hsigned =>
      rw [Bool.not_eq_true', Bool.not_eq_false, Option.any_eq_true] at hchallenge horigin
      rw [Bool.not_eq_true', Bool.not_eq_false, constantTimeEqual_iff] at hequal
      obtain ⟨challenge, hchallenged, hanswers⟩ := hchallenge
      obtain ⟨origin, hfrom, hallowed⟩ := horigin
      obtain ⟨spki, hspki, himported⟩ := Option.bind_eq_some_iff.1 hkey
      obtain ⟨signature, -, hverify⟩ := Option.bind_eq_some_iff.1 hsigned
      exact ⟨{
        clientDataBytes, clientData, challenge, origin, authenticatorData
        spki, publicKey, clientDataHash, signature
        parses := hparses
        typed := Decidable.not_not.1 htype
        challenged := hchallenged
        answers := hanswers
        fromOrigin := hfrom
        allowed := List.contains_iff_mem.1 hallowed
        authenticated := hdecoded
        complete := Nat.le_of_not_lt hlength
        relyingParty := hequal ▸ hrpId
        userPresent := hpresent
        userVerified := by
          intro hrequired
          simpa [hrequired] using hverified
        keyed := hspki
        imported := himported
        hashed := hhash
        signed := hverify }⟩
  · cases h
  · cases h

/-- What an accepted presence proof has been checked for. -/
structure PresenceEvidence (runtime : WebRuntime Key) (crypto : WebCryptoLike Key)
    (policy : PresencePolicy) (binding : PresenceBinding) (value : Json) where
  proof : PresenceProofV1
  preimage : Bytes
  digest : Bytes
  decoded : PresenceProofV1.ofJson value = some proof
  bound : proof.binding = binding
  asserted : proof.assertion.credentialId = binding.passkeyCredentialId
  credential : proof.passkeyCredentialId = binding.passkeyCredentialId
  derived : presencePreimage binding proof.relayNonce = some preimage
  digested : crypto.digest preimage = some digest
  assertion : AssertionEvidence runtime crypto policy proof.assertion proof.passkeyPublicKey
    (toBase64Url digest)

namespace WebRuntime

variable {runtime : WebRuntime Key} {policy : PresencePolicy}
  {crypto : Option (WebCryptoLike Key)}

/-- Accepted proofs have their evidence, under the crypto that the verifier ran with. -/
theorem evidence_of_verifyPresenceProof {value : Json} {expected : PresenceBinding}
    {hash : JsString}
    (h : runtime.verifyPresenceProof value expected policy crypto = some (.ok hash)) :
    ∃ used, crypto.or runtime.getWebCrypto = some used ∧
      Nonempty (PresenceEvidence runtime used policy expected value) := by
  unfold verifyPresenceProof at h
  split at h
  · cases h
  rename_i proof hproof
  split at h
  · cases h
  rename_i hbinding
  split at h
  · cases h
  rename_i hasserted
  split at h
  · cases h
  rename_i hcredential
  split at h
  · cases h
  rename_i used challenge hderived
  split at h
  · cases h
  rename_i result hassertion
  obtain ⟨used', hused, hchallenge⟩ := Option.bind_eq_some_iff.1 hderived
  obtain ⟨challenge', hchallenge', hpair⟩ := Option.map_eq_some_iff.1 hchallenge
  cases hpair
  have hbound := Decidable.not_not.1 hbinding
  rw [hbound] at hasserted hcredential hchallenge'
  simp only [WebCryptoLike.presenceChallenge, Option.bind_eq_bind, Option.bind_eq_some_iff]
    at hchallenge'
  obtain ⟨preimage, hpreimage, digest, hdigest, hencoded⟩ := hchallenge'
  cases hencoded
  simp only [verifyPasskeyAssertion, Option.some_or] at hassertion
  cases hverdict : runtime.verifyAssertion proof.assertion proof.passkeyPublicKey
      (toBase64Url digest) policy used with
  | none =>
    rw [hverdict] at hassertion
    cases hassertion
  | some verdict =>
    rw [hverdict, Option.getD_some] at hassertion
    rw [hassertion] at hverdict
    obtain ⟨assertion⟩ := evidence_of_verifyAssertion hverdict
    exact ⟨used, hused, ⟨{
      proof, preimage, digest, assertion
      decoded := hproof
      bound := hbound
      asserted := Decidable.not_not.1 hasserted
      credential := Decidable.not_not.1 hcredential
      derived := hpreimage
      digested := hdigest }⟩⟩

/-- Every branch of the verifier answers. -/
theorem verifyPresenceProof_answers (runtime : WebRuntime Key) (value : Json)
    (expected : PresenceBinding) (policy : PresencePolicy)
    (crypto : Option (WebCryptoLike Key)) :
    ∃ verdict, runtime.verifyPresenceProof value expected policy crypto = some verdict := by
  unfold verifyPresenceProof
  repeat' split
  all_goals exact ⟨_, rfl⟩

/-- What is presented for another binding is rejected for that. -/
theorem verifyPresenceProof_mismatch {value : Json} {proof : PresenceProofV1}
    {expected : PresenceBinding} (hproof : PresenceProofV1.ofJson value = some proof)
    (h : proof.binding ≠ expected) :
    runtime.verifyPresenceProof value expected policy crypto =
      some (.error (.failed .bindingMismatch)) := by
  simp only [verifyPresenceProof, hproof, if_pos h]

end WebRuntime

/-! ### The platform of a Burrow -/

/-- WebCrypto on a platform whose primitives never reject but for the import. -/
def Platform.webCrypto (platform : Platform Key) : WebCryptoLike (Bytes → Bytes → Bool) where
  digest input := some (platform.suite.sha256 input)
  importKey := platform.importSpki
  verify verify signature data := some (verify signature data)

def Platform.webRuntime (platform : Platform Key) : WebRuntime (Bytes → Bytes → Bool) where
  getWebCrypto := some platform.webCrypto
  parseJson := platform.json.parse

def ConnectionPolicy.presencePolicy (policy : ConnectionPolicy) : PresencePolicy :=
  ⟨.one policy.origin, policy.rpId, policy.requireUserVerification⟩

theorem any_oneOrigin (given : Option JsString) (origin : JsString) :
    (!(given.any (OriginPolicy.one origin).origins.contains)) = true ↔ given ≠ some origin := by
  cases given with
  | none => simp
  | some given => simp [OriginPolicy.origins]

/-- A check that rejects on both sides. -/
theorem map_reject {ε α β : Type} {c : Prop} [Decidable c] {reason : ε} {f : α → β}
    {verdict : Option (Except ε α)} {verdict' : Except ε β}
    (h : verdict.map (·.map f) = some verdict') :
    (if c then some (.error reason) else verdict).map (·.map f) =
      some (if c then .error reason else verdict') := by
  by_cases hc : c
  · rw [if_pos hc, if_pos hc]
    rfl
  · rw [if_neg hc, if_neg hc, h]

/-- On such a platform the two verifiers of an assertion agree, branch by branch. -/
theorem verifyAssertion_platform (platform : Platform Key) (policy : ConnectionPolicy)
    (assertion : PasskeyAssertion) (passkeyPublicKey challenge : JsString)
    (hobject : ∀ value, platform.json.isObject value = value.isObject) :
    (platform.webRuntime.verifyAssertion assertion passkeyPublicKey challenge
      policy.presencePolicy platform.webCrypto).map (·.map (·.userVerified)) =
      some (verifyPasskeyAssertion platform assertion passkeyPublicKey challenge policy) := by
  have hclient : platform.webRuntime.readClientData assertion =
      parseClientData platform assertion := by
    simp only [WebRuntime.readClientData, parseClientData, Platform.webRuntime, hobject]
  unfold WebRuntime.verifyAssertion verifyPasskeyAssertion
  rw [hclient]
  rcases parseClientData platform assertion with _ | ⟨clientDataBytes, clientData⟩
  · rfl
  simp only [ConnectionPolicy.presencePolicy, any_oneOrigin]
  refine map_reject (map_reject (map_reject ?_))
  rcases fromBase64Url assertion.authenticatorData with _ | authenticatorData
  · rfl
  refine map_reject (map_reject (map_reject (map_reject ?_)))
  dsimp only [Platform.webCrypto, WebCryptoLike.verifySignature, Option.bind_eq_bind]
  rcases (fromBase64Url passkeyPublicKey).bind platform.importSpki with _ | verify
  · rfl
  rcases (fromBase64Url assertion.signature).bind ecdsaDerToRaw with _ | signature
  · rfl
  simp only [Option.bind_some]
  cases verify signature (authenticatorData ++ platform.suite.sha256 clientDataBytes) <;> rfl

/-- **The verifier that a Burrow runs is this one on its platform.** -/
theorem WebRuntime.verifyPresenceProof_platform (platform : Platform Key)
    (policy : ConnectionPolicy)
    (hobject : ∀ value, platform.json.isObject value = value.isObject) {value : Json}
    {proof : PresenceProofV1} (hproof : PresenceProofV1.ofJson value = some proof)
    (expected : PresenceBinding) :
    platform.webRuntime.verifyPresenceProof value expected policy.presencePolicy none =
      some ((Security.verifyPresenceProof platform proof expected policy).mapError .failed) := by
  have hchallenge : platform.webCrypto.presenceChallenge proof.binding proof.relayNonce =
      presenceChallenge platform proof.binding proof.relayNonce := by
    simp only [WebCryptoLike.presenceChallenge, presencePreimage, presenceChallenge,
      Platform.webCrypto]
    split
    · rfl
    cases proof.binding.bindingFields with
    | none => rfl
    | some fields =>
      cases fromBase64Url proof.relayNonce with
      | none => rfl
      | some nonce => rfl
  have hhash : platform.webCrypto.hashPasskeyPublicKey proof.passkeyPublicKey =
      hashPasskeyPublicKey platform proof.passkeyPublicKey := by
    simp only [WebCryptoLike.hashPasskeyPublicKey, hashPasskeyPublicKey, Platform.webCrypto]
    cases fromBase64Url proof.passkeyPublicKey with
    | none => rfl
    | some key => rfl
  have hcrypto : (none : Option (WebCryptoLike _)).or platform.webRuntime.getWebCrypto =
      some platform.webCrypto := rfl
  simp only [verifyPresenceProof, Security.verifyPresenceProof, hproof, hcrypto, Option.bind_some,
    hchallenge]
  split
  · rfl
  split
  · rfl
  split
  · rfl
  rcases presenceChallenge platform proof.binding proof.relayNonce with _ | challenge
  · rfl
  simp only [Option.map_some, verifyPasskeyAssertion, Option.some_or]
  have hassertion := verifyAssertion_platform platform policy proof.assertion
    proof.passkeyPublicKey challenge hobject
  cases hverdict : platform.webRuntime.verifyAssertion proof.assertion
      proof.passkeyPublicKey challenge policy.presencePolicy platform.webCrypto with
  | none =>
    rw [hverdict] at hassertion
    cases hassertion
  | some verdict =>
    rw [hverdict, Option.map_some] at hassertion
    rw [← Option.some.inj hassertion, Option.getD_some]
    cases verdict with
    | error reason => rfl
    | ok result =>
      simp only [Except.map, hhash]
      cases hashPasskeyPublicKey platform proof.passkeyPublicKey with
      | none => rfl
      | some hash => rfl

/-! ### One message, one ceremony -/

/-- The digests are 32 bytes, and no two of these inputs share one. -/
structure WebCryptoLike.CollisionFree (crypto : WebCryptoLike Key) (inputs : Set Bytes) : Prop where
  length : ∀ input digest, crypto.digest input = some digest → digest.length = 32
  injective : ∀ x ∈ inputs, ∀ y ∈ inputs, ∀ digest,
    crypto.digest x = some digest → crypto.digest y = some digest → x = y

/-- What verifies under an imported key was signed by its holder. -/
def WebCryptoLike.Unforgeable (crypto : WebCryptoLike Key) (signed : Bytes → Bytes → Prop) : Prop :=
  ∀ spki publicKey signature message, crypto.importKey spki = some publicKey →
    crypto.verify publicKey signature message = some true → signed spki message

namespace PresenceEvidence

variable {runtime : WebRuntime Key} {crypto : WebCryptoLike Key} {policy : PresencePolicy}
  {b b' : PresenceBinding} {value value' : Json}

/-- The hash inputs that an acceptance rests on. -/
def Within (e : PresenceEvidence runtime crypto policy b value) (inputs : Set Bytes) : Prop :=
  e.preimage ∈ inputs ∧ e.assertion.clientDataBytes ∈ inputs

/-- The client data answers with the digest of the preimage. -/
theorem answers_digest (e : PresenceEvidence runtime crypto policy b value) :
    fromBase64Url e.assertion.challenge = some e.digest := by
  have hanswers := e.assertion.answers
  unfold base64UrlValuesEqual at hanswers
  rw [fromBase64Url_toBase64Url] at hanswers
  split at hanswers
  · next given digest hgiven hdigest =>
      rw [hgiven, constantTimeEqual_iff.1 hanswers, hdigest]
  · cases hanswers

theorem bounded (e : PresenceEvidence runtime crypto policy b value) : b.Bounded := by
  have hdecoded := e.decoded
  simp only [PresenceProofV1.ofJson, Option.bind_eq_bind, Option.bind_eq_some_iff] at hdecoded
  obtain ⟨binding, ⟨part, -, hbinding⟩, relayNonce, -, accountId, -, id, -, key, -, assertion, -,
    hproof⟩ := hdecoded
  have hbound : binding = b := by
    rw [← e.bound, ← Option.some.inj hproof]
  exact hbound ▸ PresenceBinding.bounded_of_ofJson hbinding

/-- **One signed message speaks for one ceremony**, as long as its hash inputs have no
collision: the signature fixes the client data, that the challenge, and that the binding. -/
theorem sameBytes_of_message {inputs : Set Bytes} (hfree : crypto.CollisionFree inputs)
    (e : PresenceEvidence runtime crypto policy b value)
    (e' : PresenceEvidence runtime crypto policy b' value') (hin : e.Within inputs)
    (hin' : e'.Within inputs) (h : e.assertion.message = e'.assertion.message) :
    PresenceBinding.SameBytes b b' := by
  -- The hash at the end of the message has its fixed length.
  have hhash : e.assertion.clientDataHash = e'.assertion.clientDataHash := by
    refine (List.append_inj' h ?_).2
    rw [hfree.length _ _ e.assertion.hashed, hfree.length _ _ e'.assertion.hashed]
  have hclient : e.assertion.clientDataBytes = e'.assertion.clientDataBytes :=
    hfree.injective _ hin.2 _ hin'.2 _ e.assertion.hashed (hhash ▸ e'.assertion.hashed)
  have hdata : e.assertion.clientData = e'.assertion.clientData := by
    have hparses := e.assertion.parses
    have hparses' := e'.assertion.parses
    simp only [WebRuntime.readClientData, Option.bind_eq_bind, Option.bind_eq_some_iff]
      at hparses hparses'
    obtain ⟨bytes, -, data, hdata, hread⟩ := hparses
    obtain ⟨bytes', -, data', hdata', hread'⟩ := hparses'
    split at hread
    · split at hread'
      · obtain ⟨hbytes, hvalue⟩ := Prod.mk.inj (Option.some.inj hread)
        obtain ⟨hbytes', hvalue'⟩ := Prod.mk.inj (Option.some.inj hread')
        rw [hbytes, hclient, ← hbytes', hdata'] at hdata
        rw [← hvalue, ← hvalue', Option.some.inj hdata]
      · cases hread'
    · cases hread
  have hchallenge : e.assertion.challenge = e'.assertion.challenge := by
    have hread := e.assertion.challenged
    rw [hdata, e'.assertion.challenged] at hread
    exact (Option.some.inj hread).symm
  have hdigest : e.digest = e'.digest := by
    have hanswers := e.answers_digest
    rw [hchallenge, e'.answers_digest] at hanswers
    exact (Option.some.inj hanswers).symm
  have hpreimage : e.preimage = e'.preimage := by
    have hdigested := e'.digested
    rw [← hdigest] at hdigested
    exact hfree.injective _ hin.1 _ hin'.1 _ e.digested hdigested
  exact (presencePreimage_inj e.bounded e'.bounded e.derived (hpreimage ▸ e'.derived)).1

end PresenceEvidence

/-- **Presence proofs are bound to one ceremony.** On any value the verifier answers; what it
accepts for one binding it rejects for every other; an acceptance has passed every policy check
over a message that the key's holder signed; and no such message, however it is presented
again, is accepted for a second binding that says something else. -/
theorem presence_proof_bound (runtime : WebRuntime Key) (crypto : Option (WebCryptoLike Key))
    (policy : PresencePolicy) (inputs : Set Bytes) (signed : Bytes → Bytes → Prop)
    (hfree : ∀ used, crypto.or runtime.getWebCrypto = some used → used.CollisionFree inputs)
    (hsigned : ∀ used, crypto.or runtime.getWebCrypto = some used → used.Unforgeable signed) :
    (∀ value expected, ∃ verdict,
      runtime.verifyPresenceProof value expected policy crypto = some verdict) ∧
    (∀ value b b' hash, b ≠ b' →
      runtime.verifyPresenceProof value b policy crypto = some (.ok hash) →
        ∃ reason, runtime.verifyPresenceProof value b' policy crypto = some (.error reason)) ∧
    (∀ value b hash, runtime.verifyPresenceProof value b policy crypto = some (.ok hash) →
      ∃ used, crypto.or runtime.getWebCrypto = some used ∧
        ∃ e : PresenceEvidence runtime used policy b value,
          signed e.assertion.spki e.assertion.message) ∧
    (∀ used, crypto.or runtime.getWebCrypto = some used →
      ∀ value value' b b' (e : PresenceEvidence runtime used policy b value)
        (e' : PresenceEvidence runtime used policy b' value'),
        e.Within inputs → e'.Within inputs → e.assertion.message = e'.assertion.message →
          PresenceBinding.SameBytes b b' ∧ (b.Canonical → b'.Canonical → b = b')) := by
  refine ⟨?_, ?_, ?_, ?_⟩
  · intro value expected
    exact runtime.verifyPresenceProof_answers value expected policy crypto
  · intro value b b' hash hne haccepted
    obtain ⟨used, -, ⟨e⟩⟩ := WebRuntime.evidence_of_verifyPresenceProof haccepted
    have hmismatch : e.proof.binding ≠ b' := by
      rw [e.bound]
      exact hne
    exact ⟨_, WebRuntime.verifyPresenceProof_mismatch e.decoded hmismatch⟩
  · intro value b hash haccepted
    obtain ⟨used, hused, ⟨e⟩⟩ := WebRuntime.evidence_of_verifyPresenceProof haccepted
    exact ⟨used, hused, e,
      hsigned used hused _ _ _ _ e.assertion.imported e.assertion.signed⟩
  · intro used hused value value' b b' e e' hin hin' hmessage
    have hsame := e.sameBytes_of_message (hfree used hused) e' hin hin' hmessage
    exact ⟨hsame, fun hb hb' => PresenceBinding.eq_of_sameBytes hb hb' hsame⟩

/-! ### One pairing -/

namespace OnePairing

def handshakeHash : Bytes :=
  [0xdf, 0xff, 0x30, 0xd1, 0x88, 0x05, 0x5f, 0x20, 0xaa, 0xa1, 0x61, 0x0f, 0x29, 0x10, 0x28, 0x05,
    0x52, 0x84, 0x65, 0xbb, 0xad, 0x91, 0x70, 0x9d, 0xed, 0x76, 0x4e, 0x88, 0x99, 0xf5, 0xad,
    0x2b]

def relayNonce : Bytes :=
  [0x78, 0x37, 0x7b, 0x52, 0x57, 0x57, 0xb4, 0x94, 0x42, 0x7f, 0x89, 0x01, 0x4f, 0x97, 0xd7, 0x99,
    0x28, 0xf3, 0x93, 0x8d, 0x14, 0xeb, 0x51, 0xe2, 0x0f, 0xb5, 0xde, 0xc9, 0x83, 0x4e, 0xb3,
    0x04]

def challenge : Bytes :=
  [0x9d, 0xf3, 0x8d, 0x3f, 0x52, 0xbc, 0x19, 0xf6, 0xd3, 0x5c, 0xf2, 0x5b, 0x76, 0xe6, 0xd2, 0xca,
    0x86, 0x19, 0xe5, 0x21, 0x65, 0x1e, 0x8c, 0x11, 0xcd, 0x2a, 0xdb, 0xc3, 0xdf, 0x09, 0x32,
    0xc2]

def publicKey : Bytes :=
  [0x30, 0x59, 0x30, 0x13, 0x06, 0x07, 0x2a, 0x86, 0x48, 0xce, 0x3d, 0x02, 0x01, 0x06, 0x08, 0x2a,
    0x86, 0x48, 0xce, 0x3d, 0x03, 0x01, 0x07, 0x03, 0x42, 0x00, 0x04, 0x50, 0x0d, 0x80, 0x85,
    0xe0, 0xd7, 0x18, 0x4d, 0x7f, 0x28, 0xbc, 0x37, 0x60, 0x23, 0xa0, 0x21, 0x89, 0x01, 0x0b,
    0x3b, 0x2f, 0x0f, 0x04, 0x7a, 0xd9, 0x3c, 0x89, 0xde, 0x9c, 0xad, 0x42, 0x49, 0xb7, 0x10,
    0xf2, 0x4d, 0x03, 0x23, 0xc0, 0xe2, 0xd0, 0x01, 0x8f, 0x63, 0x83, 0x36, 0xc3, 0xd9, 0x43,
    0xb4, 0x13, 0x5d, 0xe7, 0xe3, 0x82, 0x88, 0x32, 0xbd, 0x7c, 0x11, 0xbd, 0xf8, 0xea, 0xbc]

def publicKeyHash : Bytes :=
  [0x26, 0x0a, 0x55, 0xd3, 0xc5, 0xdd, 0x0e, 0x99, 0x0f, 0x9a, 0x96, 0xf8, 0x27, 0x35, 0xae, 0xbf,
    0xf2, 0xf4, 0x82, 0x92, 0xba, 0x8d, 0x5c, 0x78, 0x69, 0x3f, 0x23, 0xbf, 0x43, 0x1e, 0xc3,
    0xec]

def rpIdHash : Bytes :=
  [0xc5, 0xc6, 0xfb, 0x05, 0x9e, 0xcb, 0xbc, 0x23, 0xdd, 0x8f, 0x6a, 0xbc, 0xee, 0xa5, 0x09, 0x1c,
    0x84, 0x62, 0x35, 0xd1, 0x64, 0x53, 0x29, 0x1f, 0x56, 0x65, 0x79, 0x6a, 0xbe, 0x59, 0xdb,
    0x6c]

def clientDataHash : Bytes :=
  [0xb9, 0x14, 0xdb, 0x4d, 0xa3, 0x16, 0xee, 0xe8, 0x3f, 0x19, 0x87, 0x6f, 0x75, 0x17, 0xc3, 0xe9,
    0x3d, 0x5b, 0x0c, 0xe2, 0xe1, 0xcc, 0xe4, 0x66, 0xa1, 0x2a, 0xe5, 0xe2, 0x87, 0xad, 0xc9,
    0xc2]

def signature : Bytes :=
  [0x30, 0x45, 0x02, 0x20, 0x2b, 0xd4, 0xbc, 0x64, 0x30, 0xc2, 0x48, 0xe2, 0xaa, 0x9f, 0x85, 0x54,
    0x73, 0x34, 0xbe, 0x63, 0xa0, 0x4c, 0x1a, 0x98, 0xd6, 0x40, 0xc0, 0x12, 0xff, 0x6d, 0x0d,
    0xab, 0xed, 0x64, 0x01, 0x54, 0x02, 0x21, 0x00, 0xca, 0x6a, 0xbb, 0x63, 0x37, 0x5c, 0x89,
    0xff, 0x46, 0x81, 0xa9, 0x3c, 0x50, 0xb6, 0x7b, 0x37, 0x0f, 0x5e, 0xa5, 0xd2, 0x60, 0xca,
    0x8d, 0xf6, 0x75, 0x44, 0x89, 0xb1, 0x0a, 0xdf, 0x34, 0x97]

def rawSignature : Bytes :=
  [0x2b, 0xd4, 0xbc, 0x64, 0x30, 0xc2, 0x48, 0xe2, 0xaa, 0x9f, 0x85, 0x54, 0x73, 0x34, 0xbe, 0x63,
    0xa0, 0x4c, 0x1a, 0x98, 0xd6, 0x40, 0xc0, 0x12, 0xff, 0x6d, 0x0d, 0xab, 0xed, 0x64, 0x01,
    0x54, 0xca, 0x6a, 0xbb, 0x63, 0x37, 0x5c, 0x89, 0xff, 0x46, 0x81, 0xa9, 0x3c, 0x50, 0xb6,
    0x7b, 0x37, 0x0f, 0x5e, 0xa5, 0xd2, 0x60, 0xca, 0x8d, 0xf6, 0x75, 0x44, 0x89, 0xb1, 0x0a,
    0xdf, 0x34, 0x97]

def origin : JsString := js "https://dormouse.dev"

def clientDataBytes : Bytes :=
  utf8Encode (js "\x7b\"type\":\"webauthn.get\",\"challenge\":\"" ++ toBase64Url challenge ++
    js "\",\"origin\":\"" ++ origin ++ js "\"\x7d")

def clientData : Json :=
  .object [(js "type", .string (js "webauthn.get")),
    (js "challenge", .string (toBase64Url challenge)), (js "origin", .string origin)]

def authenticatorData : Bytes := rpIdHash ++ [0x05, 0, 0, 0, 1]

def message : Bytes := authenticatorData ++ clientDataHash

def pairing : PresenceBinding :=
  .pairing (js "burrow-1") (toBase64Url handshakeHash) (js "cred-1")

def connection : PresenceBinding :=
  .connection (js "burrow-1") (js "AAAA") (js "BBBB") (toBase64Url handshakeHash) (js "cred-1")

def preimage : Bytes :=
  lengthPrefixedConcat [utf8Encode presenceDomain, utf8Encode (js "pairing"),
    utf8Encode (js "burrow-1"), handshakeHash, utf8Encode (js "cred-1"), relayNonce]

/-- SHA-256 on the four inputs of this pairing, and P-256 on its key and signature. -/
def crypto : WebCryptoLike Unit where
  digest input :=
    if input = preimage then some challenge
    else if input = clientDataBytes then some clientDataHash
    else if input = utf8Encode (js "dormouse.dev") then some rpIdHash
    else if input = publicKey then some publicKeyHash
    else none
  importKey spki := if spki = publicKey then some () else none
  verify _ given data := some (given == rawSignature && data == message)

def runtime : WebRuntime Unit where
  getWebCrypto := some crypto
  parseJson bytes := if bytes = clientDataBytes then some clientData else none

def policy : PresencePolicy := ⟨.one origin, js "dormouse.dev", true⟩

def assertion : PasskeyAssertion where
  credentialId := js "cred-1"
  clientDataJSON := toBase64Url clientDataBytes
  authenticatorData := toBase64Url authenticatorData
  signature := toBase64Url signature

def proof : PresenceProofV1 where
  binding := pairing
  relayNonce := toBase64Url relayNonce
  accountId := js "account-1"
  passkeyCredentialId := js "cred-1"
  passkeyPublicKey := toBase64Url publicKey
  assertion := assertion

def proofJson : Json :=
  .object [
    (js "binding", .object [(js "kind", .string (js "pairing")),
      (js "burrowId", .string (js "burrow-1")),
      (js "handshakeHash", .string (toBase64Url handshakeHash)),
      (js "passkeyCredentialId", .string (js "cred-1"))]),
    (js "relayNonce", .string proof.relayNonce), (js "accountId", .string proof.accountId),
    (js "passkeyCredentialId", .string proof.passkeyCredentialId),
    (js "passkeyPublicKey", .string proof.passkeyPublicKey),
    (js "assertion", .object [(js "credentialId", .string assertion.credentialId),
      (js "clientDataJSON", .string assertion.clientDataJSON),
      (js "authenticatorData", .string assertion.authenticatorData),
      (js "signature", .string assertion.signature)])]

theorem digest_preimage : crypto.digest preimage = some challenge := by
  simp only [crypto, if_true]

theorem digest_clientData : crypto.digest clientDataBytes = some clientDataHash := by
  have hne : clientDataBytes ≠ preimage :=
    fun h => absurd (congrArg List.head? h) (by decide +kernel)
  simp only [crypto, if_neg hne, if_true]

theorem crypto_collisionFree :
    crypto.CollisionFree {input | input = preimage ∨ input = clientDataBytes} where
  length := by
    intro input digest h
    simp only [crypto] at h
    split at h
    · exact Option.some.inj h ▸ rfl
    split at h
    · exact Option.some.inj h ▸ rfl
    · split at h
      · exact Option.some.inj h ▸ rfl
      · split at h
        · exact Option.some.inj h ▸ rfl
        · cases h
  injective := by
    intro x hx y hy digest hxd hyd
    have hne : some challenge ≠ some clientDataHash := by
      decide
    rcases hx with hx | hx
    · rcases hy with hy | hy
      · exact hx.trans hy.symm
      · rw [hx, digest_preimage] at hxd
        rw [hy, digest_clientData] at hyd
        exact absurd (hxd.trans hyd.symm) hne
    · rcases hy with hy | hy
      · rw [hx, digest_clientData] at hxd
        rw [hy, digest_preimage] at hyd
        exact absurd (hyd.trans hxd.symm) hne
      · exact hx.trans hy.symm

theorem crypto_unforgeable :
    crypto.Unforgeable fun spki data => spki = publicKey ∧ data = message := by
  intro spki key given data himport hverify
  simp only [crypto] at himport hverify
  split at himport
  · next hspki =>
      simp only [Option.some.injEq, Bool.and_eq_true, beq_iff_eq] at hverify
      exact ⟨hspki, hverify.2⟩
  · cases himport

theorem proof_ofJson : PresenceProofV1.ofJson proofJson = some proof := by
  decide +kernel

theorem pairing_ne_connection : pairing ≠ connection := by
  simp [pairing, connection]

theorem presenceChallenge_eq :
    crypto.presenceChallenge pairing (toBase64Url relayNonce) = some (toBase64Url challenge) := by
  have hpreimage : presencePreimage pairing (toBase64Url relayNonce) = some preimage := by
    have hbounded : isBoundedString (toBase64Url relayNonce) presenceFieldLimit = true := by
      decide +kernel
    simp only [presencePreimage, hbounded, pairing, PresenceBinding.bindingFields,
      PresenceBinding.kind, fromBase64Url_toBase64Url]
    rfl
  simp only [WebCryptoLike.presenceChallenge, hpreimage, digest_preimage, Option.bind_eq_bind,
    Option.bind_some, Option.pure_def]

theorem verifyAssertion_eq :
    runtime.verifyAssertion assertion proof.passkeyPublicKey (toBase64Url challenge) policy
      crypto = some (.ok ⟨true, 1⟩) := by
  have hread : runtime.readClientData assertion = some (clientDataBytes, clientData) := by
    simp only [WebRuntime.readClientData, assertion, fromBase64Url_toBase64Url, runtime,
      Option.bind_eq_bind, Option.bind_some, if_true]
    rfl
  have htype : clientData.stringField (js "type") = some (js "webauthn.get") := by
    decide +kernel
  have hchallenge : clientData.stringField (js "challenge") = some (toBase64Url challenge) := by
    decide +kernel
  have horigin : clientData.stringField (js "origin") = some origin := by
    decide +kernel
  have hanswers : base64UrlValuesEqual (toBase64Url challenge) (toBase64Url challenge) = true := by
    simp only [base64UrlValuesEqual, fromBase64Url_toBase64Url, constantTimeEqual_iff]
  have hallowed : policy.origin.origins.contains origin = true := by
    decide +kernel
  have hdata : fromBase64Url assertion.authenticatorData = some authenticatorData :=
    fromBase64Url_toBase64Url _
  have hrpId : crypto.digest (utf8Encode policy.rpId) = some rpIdHash := by
    decide +kernel
  have hkey : (fromBase64Url proof.passkeyPublicKey).bind crypto.importKey = some () := by
    simp only [proof, fromBase64Url_toBase64Url, Option.bind_some, crypto, if_true]
  have hsigned : crypto.verifySignature assertion () authenticatorData clientDataHash =
      some true := by
    have hraw : ecdsaDerToRaw signature = some rawSignature := by
      decide +kernel
    simp only [WebCryptoLike.verifySignature, assertion, fromBase64Url_toBase64Url, hraw,
      Option.bind_eq_bind, Option.bind_some, crypto]
    decide +kernel
  have hcomplete : ¬ authenticatorData.length < authenticatorDataMinLength := by
    decide
  have hparty : constantTimeEqual (authenticatorData.take 32) rpIdHash = true := by
    decide +kernel
  have hpresent : ¬ authenticatorData.getD 32 0 &&& flagUserPresent = 0 := by
    decide
  have hverified : decide (authenticatorData.getD 32 0 &&& flagUserVerified ≠ 0) = true := by
    decide
  have hcount : signCountOf authenticatorData = 1 := by
    decide
  unfold WebRuntime.verifyAssertion
  simp only [hread, htype, hchallenge, horigin, hanswers, hallowed, hdata, hcomplete, hrpId, hparty,
    hpresent, hverified, hcount, hkey, digest_clientData, hsigned, ne_eq, not_true_eq_false,
    Option.any_some, Bool.not_true, Bool.and_false, Bool.false_eq_true, if_false]

theorem proof_accepted :
    runtime.verifyPresenceProof proofJson pairing policy none =
      some (.ok (toBase64Url publicKeyHash)) := by
  have hhash : crypto.hashPasskeyPublicKey proof.passkeyPublicKey =
      some (toBase64Url publicKeyHash) := by
    have hdigest : crypto.digest publicKey = some publicKeyHash := by
      decide +kernel
    simp only [WebCryptoLike.hashPasskeyPublicKey, proof, fromBase64Url_toBase64Url, hdigest,
      Option.bind_eq_bind, Option.bind_some, Option.pure_def]
  have hassertion : runtime.verifyPasskeyAssertion assertion proof.passkeyPublicKey
      (toBase64Url challenge) policy (some crypto) = .ok ⟨true, 1⟩ := by
    simp only [WebRuntime.verifyPasskeyAssertion, Option.some_or, verifyAssertion_eq,
      Option.getD_some]
  have hcrypto : none.or runtime.getWebCrypto = some crypto := rfl
  have hbinding : proof.binding = pairing := rfl
  have hproof : proof.assertion = assertion := rfl
  have hasserted : assertion.credentialId = pairing.passkeyCredentialId := rfl
  have hcredential : proof.passkeyCredentialId = pairing.passkeyCredentialId := rfl
  have hchallenge : crypto.presenceChallenge pairing proof.relayNonce = _ := presenceChallenge_eq
  simp only [WebRuntime.verifyPresenceProof, proof_ofJson, hbinding, hproof, hasserted, hcredential, hcrypto,
    hchallenge, hassertion, hhash, ne_eq, not_true_eq_false, if_false, Option.bind_some,
    Option.map_some]

/-- The pairing's proof is rejected for a connection, and its message was signed. -/
theorem presence_proof_bound_pairing :
    (∃ reason, runtime.verifyPresenceProof proofJson connection policy none =
      some (.error reason)) ∧
    ∃ e : PresenceEvidence runtime crypto policy pairing proofJson,
      e.assertion.message = message := by
  obtain ⟨-, hrejects, hevidence, -⟩ := presence_proof_bound runtime none policy
    {input | input = preimage ∨ input = clientDataBytes}
    (fun spki data => spki = publicKey ∧ data = message)
    (fun used hused => Option.some.inj hused ▸ crypto_collisionFree)
    (fun used hused => Option.some.inj hused ▸ crypto_unforgeable)
  refine ⟨hrejects _ _ _ _ pairing_ne_connection proof_accepted, ?_⟩
  obtain ⟨used, hused, e, -, hmessage⟩ := hevidence _ _ _ proof_accepted
  cases hused
  exact ⟨e, hmessage⟩

end OnePairing

end Dormouse.Security
