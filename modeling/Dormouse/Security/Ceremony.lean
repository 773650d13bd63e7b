import Dormouse.Security.Passkey

/-!
# Dormouse.Security.Ceremony

What the two end-to-end ceremonies exchange: the **presence proof** and its verifier,
the pairing and connection messages, and the labels they carry
(`remote-lib-common/src/security/presence.ts`, `e2e-ceremony.ts`, `pairing.ts`).

A structural guard and the cast it licenses are one decoder here: `ofJson` answers
`none` where the guard answers `false`.
-/

namespace Dormouse.Security

open Noise (Bytes)

/-! ### Presence bindings -/

def presenceDomain : JsString := js "dormouse/presence/v1"

def presenceFieldLimit : Nat := 1024

/-- What one presence assertion is bound to. -/
inductive PresenceBinding
  | pairing (burrowId handshakeHash passkeyCredentialId : JsString)
  | connection (burrowId connectionId burrowChallenge handshakeHash passkeyCredentialId : JsString)
  deriving DecidableEq

namespace PresenceBinding

def kind : PresenceBinding → JsString
  | pairing .. => js "pairing"
  | connection .. => js "connection"

def passkeyCredentialId : PresenceBinding → JsString
  | pairing _ _ id => id
  | connection _ _ _ _ id => id

/-- A bounded string field of an unknown value. -/
def boundedField (limit : Nat) (value : Json) (key : JsString) : Option JsString :=
  (value.stringField key).filter fun text => isBoundedString text limit

/-- Exactly the fields of one kind, no more. -/
def ofJson (value : Json) : Option PresenceBinding := do
  let kind ← value.stringField (js "kind")
  let field := boundedField presenceFieldLimit value
  if kind = js "pairing" then
    if value.keyCount ≠ 4 then none
    else
      return pairing (← field (js "burrowId")) (← field (js "handshakeHash"))
        (← field (js "passkeyCredentialId"))
  else if kind = js "connection" then
    if value.keyCount ≠ 6 then none
    else
      return connection (← field (js "burrowId")) (← field (js "connectionId"))
        (← field (js "burrowChallenge")) (← field (js "handshakeHash"))
        (← field (js "passkeyCredentialId"))
  else none

/-- The binding's own fields, in the order the type declares them. -/
def bindingFields : PresenceBinding → Option (List Bytes)
  | pairing burrowId handshakeHash passkeyCredentialId => do
      return [utf8Encode burrowId, ← fromBase64Url handshakeHash, utf8Encode passkeyCredentialId]
  | connection burrowId connectionId burrowChallenge handshakeHash passkeyCredentialId => do
      return [utf8Encode burrowId, ← fromBase64Url connectionId, ← fromBase64Url burrowChallenge,
        ← fromBase64Url handshakeHash, utf8Encode passkeyCredentialId]

end PresenceBinding

/-! ### Presence proofs -/

def ceremonyFieldLimit : Nat := 1024

def ceremonyField (value : Json) (key : JsString) : Option JsString :=
  PresenceBinding.boundedField ceremonyFieldLimit value key

def PasskeyAssertion.ofJson (value : Json) : Option PasskeyAssertion := do
  return {
    credentialId := ← ceremonyField value (js "credentialId")
    clientDataJSON := ← ceremonyField value (js "clientDataJSON")
    authenticatorData := ← ceremonyField value (js "authenticatorData")
    signature := ← ceremonyField value (js "signature") }

structure PresenceProofV1 where
  binding : PresenceBinding
  relayNonce : JsString
  accountId : JsString
  passkeyCredentialId : JsString
  passkeyPublicKey : JsString
  assertion : PasskeyAssertion
  deriving DecidableEq

def PresenceProofV1.ofJson (value : Json) : Option PresenceProofV1 := do
  return {
    binding := ← (value.field (js "binding")).bind PresenceBinding.ofJson
    relayNonce := ← ceremonyField value (js "relayNonce")
    accountId := ← ceremonyField value (js "accountId")
    passkeyCredentialId := ← ceremonyField value (js "passkeyCredentialId")
    passkeyPublicKey := ← ceremonyField value (js "passkeyPublicKey")
    assertion := ← (value.field (js "assertion")).bind PasskeyAssertion.ofJson }

inductive PresenceProofFailure
  | bindingMismatch
  | credentialMismatch
  | challengeUnderivable
  | assertionInvalid
  deriving DecidableEq

section Verify

variable {Key : Type} (platform : Platform Key)

/-- The WebAuthn challenge for one presence assertion; it throws on a field that is not
base64url and on an unbounded nonce. -/
def presenceChallenge (binding : PresenceBinding) (relayNonce : JsString) : Option JsString := do
  if !isBoundedString relayNonce presenceFieldLimit then none
  let fields ← binding.bindingFields
  let nonce ← fromBase64Url relayNonce
  return toBase64Url (platform.suite.sha256 (lengthPrefixedConcat
    ([utf8Encode presenceDomain, utf8Encode binding.kind] ++ fields ++ [nonce])))

/-- The one presence verifier both ceremonies run; success answers the passkey's hash.
Its first check, that the value is a proof at all, is the type here. -/
def verifyPresenceProof (proof : PresenceProofV1) (expected : PresenceBinding)
    (policy : ConnectionPolicy) : Except PresenceProofFailure JsString :=
  if proof.binding ≠ expected then .error .bindingMismatch
  else if proof.assertion.credentialId ≠ proof.binding.passkeyCredentialId then
    .error .credentialMismatch
  else if proof.passkeyCredentialId ≠ proof.binding.passkeyCredentialId then
    .error .credentialMismatch
  else
    match presenceChallenge platform proof.binding proof.relayNonce with
    | none => .error .challengeUnderivable
    | some challenge =>
      match verifyPasskeyAssertion platform proof.assertion proof.passkeyPublicKey challenge
          policy with
      | .error _ => .error .assertionInvalid
      | .ok _ =>
        match hashPasskeyPublicKey platform proof.passkeyPublicKey with
        | none => .error .assertionInvalid
        | some passkeyPublicKeyHash => .ok passkeyPublicKeyHash

end Verify

/-! ### Pairing messages -/

/-- Whether a value is a well-formed pairing code, `00` to `99`. -/
def isPairingCode (value : JsString) : Bool := value.length == 2 && value.all JsString.isDigit

/-- Typed digits compare equal to a pairing code only when they are that code. -/
theorem eq_of_constantTimeEqual {typed code : JsString} (hcode : isPairingCode code = true)
    (h : constantTimeEqual (utf8Encode typed) (utf8Encode code) = true) : typed = code := by
  refine utf8Encode_inj_ascii (constantTimeEqual_iff.1 h) fun c hc => ?_
  rw [isPairingCode, Bool.and_eq_true, List.all_eq_true] at hcode
  have hdigit := hcode.2 c hc
  simp only [JsString.isDigit, Bool.and_eq_true, decide_eq_true_eq, UInt16.le_iff_toNat_le,
    UInt16.reduceToNat] at hdigit
  omega

/-- The first Client-to-Burrow control message of a pairing ceremony. -/
structure PairingRequestV1 where
  code : JsString
  label : JsString
  presence : PresenceProofV1

def PairingRequestV1.ofJson (value : Json) : Option PairingRequestV1 := do
  return {
    code := ← (value.stringField (js "code")).filter isPairingCode
    label := ← ceremonyField value (js "label")
    presence := ← (value.field (js "presence")).bind PresenceProofV1.ofJson }

theorem PairingRequestV1.isPairingCode_of_ofJson {value : Json} {request : PairingRequestV1}
    (h : PairingRequestV1.ofJson value = some request) : isPairingCode request.code = true := by
  simp only [ofJson, Option.bind_eq_bind, Option.bind_eq_some_iff, Option.filter_eq_some_iff] at h
  obtain ⟨code, ⟨-, hcode⟩, label, -, presence, -, hrequest⟩ := h
  cases hrequest
  exact hcode

inductive PairingDenialCode
  | userDenied
  | confirmationMismatch
  | presenceRejected
  | invitationExpired
  | superseded
  | burrowError
  deriving DecidableEq, Repr

def PairingDenialCode.text : PairingDenialCode → JsString
  | userDenied => js "user-denied"
  | confirmationMismatch => js "confirmation-mismatch"
  | presenceRejected => js "presence-rejected"
  | invitationExpired => js "invitation-expired"
  | superseded => js "superseded"
  | burrowError => js "burrow-error"

/-- The single Burrow-to-Client control message that ends a pairing, either way. -/
inductive PairingOutcomeV1
  | ok (burrowStaticPublicKey burrowLabel accountId passkeyCredentialId passkeyPublicKeyHash
      deliveryId : JsString)
  | denied (code : PairingDenialCode)

def PairingOutcomeV1.toJson : PairingOutcomeV1 → Json
  | ok burrowStaticPublicKey burrowLabel accountId passkeyCredentialId passkeyPublicKeyHash
      deliveryId =>
      .object [(js "ok", .bool true), (js "burrowStaticPublicKey", .string burrowStaticPublicKey),
        (js "burrowLabel", .string burrowLabel), (js "accountId", .string accountId),
        (js "passkeyCredentialId", .string passkeyCredentialId),
        (js "passkeyPublicKeyHash", .string passkeyPublicKeyHash),
        (js "deliveryId", .string deliveryId)]
  | denied code => .object [(js "ok", .bool false), (js "code", .string code.text)]

/-! ### Connection messages -/

/-- The first Client-to-Burrow control message of a connection ceremony: its proof. -/
def connectionRequestOfJson (value : Json) : Option PresenceProofV1 :=
  (value.field (js "presence")).bind PresenceProofV1.ofJson

inductive ConnectionDenialCode
  | pairingRequired
  | presenceRejected
  | protocolRejected
  | burrowBusy
  | burrowError
  deriving DecidableEq, Repr

def ConnectionDenialCode.text : ConnectionDenialCode → JsString
  | pairingRequired => js "pairing-required"
  | presenceRejected => js "presence-rejected"
  | protocolRejected => js "protocol-rejected"
  | burrowBusy => js "burrow-busy"
  | burrowError => js "burrow-error"

inductive ConnectionOutcomeV1
  | ok (burrowLabel : JsString)
  | denied (code : ConnectionDenialCode)

def ConnectionOutcomeV1.toJson : ConnectionOutcomeV1 → Json
  | ok burrowLabel => .object [(js "ok", .bool true), (js "burrowLabel", .string burrowLabel)]
  | denied code => .object [(js "ok", .bool false), (js "code", .string code.text)]

/-! ### Labels -/

/-- C0, DEL and C1 control characters. -/
def isControlUnit (c : UInt16) : Bool := c ≤ 0x1f || (0x7f ≤ c && c ≤ 0x9f)

/-- The letter mark, zero-width, joiner and bidirectional format characters. -/
def isFormatUnit (c : UInt16) : Bool :=
  c == 0x061c || (0x200b ≤ c && c ≤ 0x200f) || (0x202a ≤ c && c ≤ 0x202e) ||
    (0x2060 ≤ c && c ≤ 0x2064) || (0x2066 ≤ c && c ≤ 0x2069) || c == 0xfeff

/-- `text.replace(/\s+/g, ' ')`. -/
def collapseWhitespace : JsString → JsString
  | [] => []
  | [c] => if JsString.isWhitespace c then [unit ' '] else [c]
  | c :: d :: rest =>
    if JsString.isWhitespace c then
      if JsString.isWhitespace d then collapseWhitespace (d :: rest)
      else unit ' ' :: collapseWhitespace (d :: rest)
    else c :: collapseWhitespace (d :: rest)

/-- Reduce untrusted text to something safe to show. -/
def boundedPushText (value : JsString) (limit : Nat) (fallback : JsString) : JsString :=
  let cleaned := value.map fun c => if isControlUnit c then unit ' ' else c
  let cleaned := JsString.trim (collapseWhitespace (cleaned.filter fun c => !isFormatUnit c))
  let bounded := JsString.trim ((JsString.codePoints cleaned).take limit).flatten
  if bounded = [] then fallback else bounded

def pairingLabelLimit : Nat := 64

/-- A device label reduced to something safe to render in the approval modal. -/
def boundedPairingLabel (value : JsString) : JsString :=
  boundedPushText value pairingLabelLimit (js "(unnamed)")

/-- The Burrow's own label; one that is not there is empty. -/
def boundedBurrowLabel : Option JsString → JsString
  | some value => boundedPushText value pairingLabelLimit []
  | none => []

end Dormouse.Security
