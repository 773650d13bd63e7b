import Dormouse.Security.Ceremony

/-!
# Dormouse.Security.Presence

**The presence verifier on untrusted input** (`verifyPresenceProof` of
`remote-lib-common/src/security/e2e-ceremony.ts`, over `presence.ts` and `passkey.ts`):
every value a peer may send, a runtime whose crypto may be missing and whose promises may
reject, and a policy of one origin or several. A call that throws answers `none`.
-/

namespace Dormouse.Security

open Noise (Bytes)

/-- WebCrypto, as far as the verifiers use it; a promise that rejects is `none`. -/
structure WebCryptoLike (Key : Type) where
  digest : Bytes → Option Bytes
  importKey : Bytes → Option Key
  verify : Key → Bytes → Bytes → Option Bool

/-- What `getWebCrypto()` finds, and `JSON.parse` of decoded bytes. -/
structure WebRuntime (Key : Type) where
  getWebCrypto : Option (WebCryptoLike Key)
  parseJson : Bytes → Option Json

/-- `string | readonly string[]`. -/
inductive OriginPolicy
  | one (origin : JsString)
  | anyOf (origins : List JsString)

def OriginPolicy.origins : OriginPolicy → List JsString
  | one origin => [origin]
  | anyOf origins => origins

/-- The standing half of what both verifiers demand of an assertion. -/
structure PresencePolicy where
  origin : OriginPolicy
  rpId : JsString
  requireUserVerification : Bool

structure VerifiedAssertion where
  userVerified : Bool
  signCount : Nat

inductive PresenceProofRejection
  | malformed
  | failed (reason : PresenceProofFailure)

/-- What the challenge of a binding and a nonce is the hash of. -/
def presencePreimage (binding : PresenceBinding) (relayNonce : JsString) : Option Bytes := do
  if !isBoundedString relayNonce presenceFieldLimit then none
  let fields ← binding.bindingFields
  let nonce ← fromBase64Url relayNonce
  return lengthPrefixedConcat
    ([utf8Encode presenceDomain, utf8Encode binding.kind] ++ fields ++ [nonce])

def signCountOf (authenticatorData : Bytes) : Nat :=
  (authenticatorData.getD 33 0).toNat * 0x1000000 + (authenticatorData.getD 34 0).toNat * 0x10000 +
    (authenticatorData.getD 35 0).toNat * 0x100 + (authenticatorData.getD 36 0).toNat

namespace WebCryptoLike

variable {Key : Type} (crypto : WebCryptoLike Key)

def presenceChallenge (binding : PresenceBinding) (relayNonce : JsString) : Option JsString := do
  let preimage ← presencePreimage binding relayNonce
  return toBase64Url (← crypto.digest preimage)

def hashPasskeyPublicKey (passkeyPublicKey : JsString) : Option JsString := do
  let key ← fromBase64Url passkeyPublicKey
  return toBase64Url (← crypto.digest key)

/-- The guarded step at the end of `verifyAssertion`; `none` is what its `catch` catches. -/
def verifySignature (assertion : PasskeyAssertion) (publicKey : Key)
    (authenticatorData clientDataHash : Bytes) : Option Bool := do
  let signature ← (fromBase64Url assertion.signature).bind ecdsaDerToRaw
  crypto.verify publicKey signature (authenticatorData ++ clientDataHash)

end WebCryptoLike

namespace WebRuntime

variable {Key : Type} (runtime : WebRuntime Key)

/-- The client data an assertion carries: its bytes and the object they parse to. -/
def readClientData (assertion : PasskeyAssertion) : Option (Bytes × Json) := do
  let clientDataBytes ← fromBase64Url assertion.clientDataJSON
  let parsed ← runtime.parseJson clientDataBytes
  if parsed.isObject then some (clientDataBytes, parsed) else none

/-- The first failure is the answer; a digest that rejects throws. -/
def verifyAssertion (assertion : PasskeyAssertion) (passkeyPublicKey challenge : JsString)
    (policy : PresencePolicy) (crypto : WebCryptoLike Key) :
    Option (Except PasskeyAssertionFailure VerifiedAssertion) :=
  match runtime.readClientData assertion with
  | none => some (.error .clientDataMalformed)
  | some (clientDataBytes, clientData) =>
  if clientData.stringField (js "type") ≠ some (js "webauthn.get") then
    some (.error .clientDataType)
  else if !((clientData.stringField (js "challenge")).any (base64UrlValuesEqual · challenge)) then
    some (.error .challengeMismatch)
  else if !((clientData.stringField (js "origin")).any policy.origin.origins.contains) then
    some (.error .originMismatch)
  else
  match fromBase64Url assertion.authenticatorData with
  | none => some (.error .authenticatorDataMalformed)
  | some authenticatorData =>
  if authenticatorData.length < authenticatorDataMinLength then
    some (.error .authenticatorDataMalformed)
  else
  match crypto.digest (utf8Encode policy.rpId) with
  | none => none
  | some expectedRpIdHash =>
  if !constantTimeEqual (authenticatorData.take 32) expectedRpIdHash then
    some (.error .rpIdMismatch)
  else
  let flags := authenticatorData.getD 32 0
  if flags &&& flagUserPresent = 0 then some (.error .userPresenceMissing)
  else
  let userVerified := decide (flags &&& flagUserVerified ≠ 0)
  if policy.requireUserVerification && !userVerified then
    some (.error .userVerificationMissing)
  else
  match (fromBase64Url passkeyPublicKey).bind crypto.importKey with
  | none => some (.error .publicKeyInvalid)
  | some publicKey =>
  match crypto.digest clientDataBytes with
  | none => none
  | some clientDataHash =>
  match crypto.verifySignature assertion publicKey authenticatorData clientDataHash with
  | some true => some (.ok ⟨userVerified, signCountOf authenticatorData⟩)
  | some false => some (.error .signatureInvalid)
  | none => some (.error .signatureInvalid)

/-- `verifyAssertion` with its runtime failures caught. -/
def verifyPasskeyAssertion (assertion : PasskeyAssertion) (passkeyPublicKey challenge : JsString)
    (policy : PresencePolicy) (crypto : Option (WebCryptoLike Key)) :
    Except PasskeyAssertionFailure VerifiedAssertion :=
  match crypto.or runtime.getWebCrypto with
  | none => .error .signatureInvalid
  | some crypto =>
    (runtime.verifyAssertion assertion passkeyPublicKey challenge policy crypto).getD
      (.error .signatureInvalid)

/-- **The one presence verifier both ceremonies run**, on any value a peer may send. -/
def verifyPresenceProof (proof : Json) (expected : PresenceBinding) (policy : PresencePolicy)
    (crypto : Option (WebCryptoLike Key)) : Option (Except PresenceProofRejection JsString) :=
  match PresenceProofV1.ofJson proof with
  | none => some (.error .malformed)
  | some proof =>
  if proof.binding ≠ expected then some (.error (.failed .bindingMismatch))
  else if proof.assertion.credentialId ≠ proof.binding.passkeyCredentialId then
    some (.error (.failed .credentialMismatch))
  else if proof.passkeyCredentialId ≠ proof.binding.passkeyCredentialId then
    some (.error (.failed .credentialMismatch))
  else
  -- The challenge is derived inside a `try`, with the crypto it is derived with.
  match (crypto.or runtime.getWebCrypto).bind fun crypto =>
      (crypto.presenceChallenge proof.binding proof.relayNonce).map fun challenge =>
        (crypto, challenge) with
  | none => some (.error (.failed .challengeUnderivable))
  | some (crypto, challenge) =>
  match runtime.verifyPasskeyAssertion proof.assertion proof.passkeyPublicKey challenge policy
      (some crypto) with
  | .error _ => some (.error (.failed .assertionInvalid))
  | .ok _ =>
  match crypto.hashPasskeyPublicKey proof.passkeyPublicKey with
  | none => some (.error (.failed .assertionInvalid))
  | some passkeyPublicKeyHash => some (.ok passkeyPublicKeyHash)

end WebRuntime

end Dormouse.Security
