import Dormouse.Lib.Json
import Dormouse.Noise.Handshake

/-!
# Dormouse.Security.Passkey

**Passkey assertions** (`remote-lib-common/src/security/passkey.ts`, and the DER
signatures of `ecdsa.ts`): what a verified WebAuthn assertion has been checked for.
-/

namespace Dormouse.Security

open Noise (Bytes Suite JsonText)

/-- The runtime under the ceremonies: the suite's primitives, ECDSA verification by an
imported SPKI key (`none` when the import rejects), and JSON. -/
structure Platform (Key : Type) where
  suite : Suite Key
  importSpki : Bytes → Option (Bytes → Bytes → Bool)
  importPkcs8 : Bytes → Option Key
  json : JsonText Json
  parseJson : JsString → Option Json

/-! ### DER signatures -/

/-- Parse one `INTEGER` at `offset`, right-aligned into `width` bytes, with the offset
after it. -/
def readDerInteger (der : Bytes) (offset width : Nat) : Option (Bytes × Nat) :=
  if der.length < offset + 2 ∨ der.getD offset 0 ≠ 0x02 then none
  else
    let length := (der.getD (offset + 1) 0).toNat
    let start := offset + 2
    if length = 0 ∨ 0x80 < length ∨ der.length < start + length then none
    else
      let content := Noise.subarray der start (start + length)
      -- Leading zeros go, though never the last byte.
      let value := content.dropLast.dropWhile (· == 0) ++ content.getLast?.toList
      if width < value.length then none
      else some (List.replicate (width - value.length) 0 ++ value, start + length)

def coordinateLength : Nat := 32

/-- An ASN.1 DER ECDSA signature as raw `r || s`. -/
def ecdsaDerToRaw (der : Bytes) : Option Bytes := do
  if der.length < 2 ∨ der.getD 0 0 ≠ 0x30 then none
  let short := (der.getD 1 0).toNat
  let (sequenceLength, offset) ←
    if short = 0x81 then (der[2]?).map fun long => (long.toNat, 3)
    else if 0x80 < short then none
    else some (short, 2)
  if offset + sequenceLength ≠ der.length then none
  let (r, offset) ← readDerInteger der offset coordinateLength
  let (s, offset) ← readDerInteger der offset coordinateLength
  if offset ≠ der.length then none
  return r ++ s

/-! ### Assertions -/

structure PasskeyAssertion where
  credentialId : JsString
  clientDataJSON : JsString
  authenticatorData : JsString
  signature : JsString
  deriving DecidableEq

/-- The standing half of what a verifier demands. -/
structure ConnectionPolicy where
  rpId : JsString
  origin : JsString
  requireUserVerification : Bool

inductive PasskeyAssertionFailure
  | clientDataMalformed
  | clientDataType
  | challengeMismatch
  | originMismatch
  | authenticatorDataMalformed
  | rpIdMismatch
  | userPresenceMissing
  | userVerificationMissing
  | publicKeyInvalid
  | signatureInvalid
  deriving DecidableEq

def flagUserPresent : UInt8 := 0x01

def flagUserVerified : UInt8 := 0x04

/-- `rpIdHash (32) + flags (1) + signCount (4)`. -/
def authenticatorDataMinLength : Nat := 37

/-- Compare two base64url strings by decoded value. -/
def base64UrlValuesEqual (a b : JsString) : Bool :=
  match fromBase64Url a, fromBase64Url b with
  | some a, some b => constantTimeEqual a b
  | _, _ => false

section Verify

variable {Key : Type} (platform : Platform Key)

/-- The client data an assertion carries: its bytes and what they parse to. -/
def parseClientData (assertion : PasskeyAssertion) : Option (Bytes × Json) := do
  let bytes ← fromBase64Url assertion.clientDataJSON
  let parsed ← platform.json.parse bytes
  if platform.json.isObject parsed then some (bytes, parsed) else none

/-- Verify an assertion against a passkey public key (base64url SPKI); the first failure
is the answer, success tells whether the user was verified. -/
def verifyPasskeyAssertion (assertion : PasskeyAssertion) (passkeyPublicKey challenge : JsString)
    (policy : ConnectionPolicy) : Except PasskeyAssertionFailure Bool := do
  let some (clientDataBytes, clientData) := parseClientData platform assertion
    | throw .clientDataMalformed
  if clientData.stringField (js "type") ≠ some (js "webauthn.get") then throw .clientDataType
  if !((clientData.stringField (js "challenge")).any (base64UrlValuesEqual · challenge)) then
    throw .challengeMismatch
  if clientData.stringField (js "origin") ≠ some policy.origin then throw .originMismatch
  let some authenticatorData := fromBase64Url assertion.authenticatorData
    | throw .authenticatorDataMalformed
  if authenticatorData.length < authenticatorDataMinLength then
    throw .authenticatorDataMalformed
  if !constantTimeEqual (authenticatorData.take 32)
      (platform.suite.sha256 (utf8Encode policy.rpId)) then
    throw .rpIdMismatch
  let flags := authenticatorData.getD 32 0
  if flags &&& flagUserPresent = 0 then throw .userPresenceMissing
  let userVerified := decide (flags &&& flagUserVerified ≠ 0)
  if policy.requireUserVerification && !userVerified then throw .userVerificationMissing
  let some verify := (fromBase64Url passkeyPublicKey).bind platform.importSpki
    | throw .publicKeyInvalid
  let some signature := (fromBase64Url assertion.signature).bind ecdsaDerToRaw
    | throw .signatureInvalid
  -- The authenticator signs `authenticatorData || SHA-256(clientDataJSON)`.
  if !verify signature (authenticatorData ++ platform.suite.sha256 clientDataBytes) then
    throw .signatureInvalid
  return userVerified

/-- What the ACL stores of a passkey; a key that does not decode throws. -/
def hashPasskeyPublicKey (passkeyPublicKey : JsString) : Option JsString :=
  (fromBase64Url passkeyPublicKey).map fun key => toBase64Url (platform.suite.sha256 key)

end Verify

end Dormouse.Security
