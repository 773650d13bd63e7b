import Dormouse.Noise.Agreement
import Dormouse.Security.Decoding

/-!
# Dormouse.Security.PushSeal

**Sealed push payloads** (`remote-lib-common/src/security/push-seal.ts`): one plaintext to one
Client, under a key that X25519 and HKDF derive for the one message.

The agreement is the handshake's own. What opens is what was sealed, between the two key pairs it
was sealed for; the text of an envelope can be spelled in one way only, so that every other
envelope is another salt or another ciphertext.
-/

namespace Dormouse.Security

open Noise (Bytes Exn IdealDh noiseKeyLength noiseTagLength sharedSecret x25519Agree)

/-- The handshake's primitives, and WebCrypto's HKDF of key material, salt and info; `none` where
it rejects. -/
structure SealSuite (Key : Type) extends Noise.Suite Key where
  hkdf : Bytes → Bytes → Bytes → Option Bytes

def pushSealDomain : JsString := js "dormouse/push/v1"

def pushSealSaltLength : Nat := 32

def maxSealedPushPlaintextLength : Nat := 1536

def maxSealedPushLength : Nat := base64UrlLength (maxSealedPushPlaintextLength + noiseTagLength)

def minSealedPushLength : Nat := base64UrlLength noiseTagLength

def sealedPushSaltChars : Nat := base64UrlLength pushSealSaltLength

def pushSealInfo : Bytes := utf8Encode pushSealDomain

/-- The nonce, spent once because the key is minted per message. -/
def zeroNonce : Bytes := List.replicate 12 0

/-- The sealed envelope, as it travels through the Relay. -/
structure SealedPushV1 where
  salt : JsString
  ct : JsString

def SealedPushV1.toJson (sealed : SealedPushV1) : Json :=
  .object [(js "v", .number 1), (js "salt", .string sealed.salt), (js "ct", .string sealed.ct)]

/-- Shape and bounds only. -/
def isSealedPushV1 (value : Json) : Bool :=
  value.isObject && value.numberField (js "v") == some 1 &&
    (value.stringField (js "salt")).any (isExactBase64Url · sealedPushSaltChars) &&
    (value.stringField (js "ct")).any fun ct =>
      isBoundedBase64Url ct maxSealedPushLength && decide (minSealedPushLength ≤ ct.length)

section Seal

variable {Key : Type} (suite : SealSuite Key)

/-- The per-message key both sides derive. -/
def sealKey (privateKey : Key) (peerPublicKey salt : Bytes) : Except Exn Bytes :=
  match x25519Agree suite.toSuite privateKey peerPublicKey with
  | .error e => .error e
  | .ok shared =>
    match suite.hkdf shared salt pushSealInfo with
    | none => .error (.other "deriveBits failed")
    | some key => .ok key

/-- Seal one notification to one Client; `random` is the fresh salt. -/
def sealPush (random : Bytes) (burrowStaticPrivateKey : Key)
    (clientStaticPublicKey plaintext : Bytes) : Except Exn SealedPushV1 :=
  if maxSealedPushPlaintextLength < plaintext.length then
    .error (.other "sealed push plaintext is too long")
  else
    (sealKey suite burrowStaticPrivateKey clientStaticPublicKey random).map fun key =>
      ⟨toBase64Url random, toBase64Url (suite.aead.encrypt key zeroNonce [] plaintext)⟩

/-- The text of a field that the guard has let through. -/
def sealedText (sealed : Json) (key : JsString) : JsString := (sealed.stringField key).getD []

/-- The `try` of `openPush`. -/
def openPushTry (clientStaticPrivateKey : Key) (burrowStaticPublicKey : Bytes) (sealed : Json) :
    Except Exn (Option Bytes) :=
  if isSealedPushV1 sealed = false then .ok none
  else
    match fromBase64Url (sealedText sealed (js "salt")) with
    | none => .error (.other "invalid base64url")
    | some salt =>
      match sealKey suite clientStaticPrivateKey burrowStaticPublicKey salt with
      | .error e => .error e
      | .ok key =>
        match fromBase64Url (sealedText sealed (js "ct")) with
        | none => .error (.other "invalid base64url")
        | some ct =>
          match suite.aead.decrypt key zeroNonce [] ct with
          | none => .error (.other "invalid tag")
          | some plaintext => .ok (some plaintext)

/-- Open one sealed notification, or `null`: every failure is the same one. -/
def openPush (clientStaticPrivateKey : Key) (burrowStaticPublicKey : Bytes) (sealed : Json) :
    Except Exn (Option Bytes) :=
  match openPushTry suite clientStaticPrivateKey burrowStaticPublicKey sealed with
  | .ok answer => .ok answer
  | .error _ => .ok none

end Seal

/-! ### What opens -/

variable {Key : Type} {suite : SealSuite Key} {pub : Key → Bytes}

theorem openPush_ok (client : Key) (burrow : Bytes) (sealed : Json) :
    ∃ answer, openPush suite client burrow sealed = .ok answer := by
  unfold openPush
  split
  · exact ⟨_, rfl⟩
  · exact ⟨none, rfl⟩

theorem openPush_malformed (client : Key) (burrow : Bytes) {sealed : Json}
    (h : isSealedPushV1 sealed = false) : openPush suite client burrow sealed = .ok none := by
  rw [openPush, openPushTry, if_pos h]

/-- The texts of an envelope that the guard lets through. -/
theorem isSealedPushV1_texts {sealed : Json} (h : isSealedPushV1 sealed = true) :
    sealed.stringField (js "salt") = some (sealedText sealed (js "salt")) ∧
      sealed.stringField (js "ct") = some (sealedText sealed (js "ct")) ∧
      (sealedText sealed (js "salt")).all isBase64UrlChar = true ∧
      (sealedText sealed (js "ct")).all isBase64UrlChar = true := by
  simp only [isSealedPushV1, Bool.and_eq_true, Option.any_eq_true] at h
  obtain ⟨⟨-, salt, hsalt, hexact⟩, ct, hct, hbounded, -⟩ := h
  simp only [isExactBase64Url, isBoundedBase64Url, Bool.and_eq_true] at hexact hbounded
  rw [sealedText, sealedText, hsalt, hct]
  exact ⟨rfl, rfl, hexact.1.2, hbounded.2⟩

/-- What was opened: the ciphertext of the envelope, under the key its salt derives. -/
theorem openPush_some {client : Key} {burrow : Bytes} {sealed : Json} {plaintext : Bytes}
    (h : openPush suite client burrow sealed = .ok (some plaintext)) :
    isSealedPushV1 sealed = true ∧ ∃ salt ct key,
      fromBase64Url (sealedText sealed (js "salt")) = some salt ∧
      fromBase64Url (sealedText sealed (js "ct")) = some ct ∧
      sealKey suite client burrow salt = .ok key ∧
      suite.aead.decrypt key zeroNonce [] ct = some plaintext := by
  have htry : openPushTry suite client burrow sealed = .ok (some plaintext) := by
    unfold openPush at h
    split at h
    · rename_i hok
      rw [hok, h]
    · cases h
  unfold openPushTry at htry
  split at htry
  · cases htry
  rename_i hshape
  refine ⟨by simpa using hshape, ?_⟩
  split at htry
  · cases htry
  rename_i salt hsalt
  split at htry
  · cases htry
  rename_i key hkey
  split at htry
  · cases htry
  rename_i ct hct
  split at htry
  · cases htry
  · rename_i p hdecrypt
    cases htry
    exact ⟨salt, ct, key, hsalt, hct, hkey, hdecrypt⟩

/-- An envelope as a JSON value, whatever else the value holds. -/
structure SealedPushV1.IsIn (sealed : SealedPushV1) (value : Json) : Prop where
  isObject : value.isObject = true
  version : value.numberField (js "v") = some 1
  salt : value.stringField (js "salt") = some sealed.salt
  ct : value.stringField (js "ct") = some sealed.ct

theorem SealedPushV1.isIn_toJson (sealed : SealedPushV1) : sealed.IsIn sealed.toJson :=
  ⟨rfl, rfl, rfl, rfl⟩

/-! ### Ideal primitives -/

/-- Two key pairs agree on a secret that is theirs alone, HKDF does not fail, and the AEAD opens
what it sealed, 16 bytes longer. -/
structure IdealSeal (suite : SealSuite Key) (pub : Key → Bytes) : Prop where
  dh : IdealDh suite.toSuite pub
  only : ∀ a b c other, suite.deriveBits c other = some (sharedSecret suite.toSuite pub a b) →
    (pub c = pub a ∧ other = pub b) ∨ (pub c = pub b ∧ other = pub a)
  hkdf : ∀ shared salt info, ∃ key, suite.hkdf shared salt info = some key
  opens : ∀ key nonce ad plaintext,
    suite.aead.decrypt key nonce ad (suite.aead.encrypt key nonce ad plaintext) = some plaintext
  tag : ∀ key nonce ad plaintext,
    (suite.aead.encrypt key nonce ad plaintext).length = plaintext.length + noiseTagLength

/-- One sealing: from whom, to whom, under which salt, and what. -/
structure PushSealing (Key : Type) where
  burrow : Key
  client : Key
  salt : Bytes
  plaintext : Bytes

namespace PushSealing

variable (suite pub)

def secret (s : PushSealing Key) : Bytes := sharedSecret suite.toSuite pub s.burrow s.client

def key (s : PushSealing Key) : Bytes :=
  (suite.hkdf (s.secret suite pub) s.salt pushSealInfo).getD []

def ct (s : PushSealing Key) : Bytes :=
  suite.aead.encrypt (s.key suite pub) zeroNonce [] s.plaintext

/-- The envelope of a sealing. -/
def envelope (s : PushSealing Key) : SealedPushV1 :=
  ⟨toBase64Url s.salt, toBase64Url (s.ct suite pub)⟩

/-- The keys of a reader are the two the sealing is between. -/
def Between (s : PushSealing Key) (client : Key) (burrow : Bytes) : Prop :=
  (pub client = pub s.burrow ∧ burrow = pub s.client) ∨
    (pub client = pub s.client ∧ burrow = pub s.burrow)

end PushSealing

/-- **Ideal AEAD and HKDF**, of the envelope a reader is given: its ciphertext opens only as one of
the sealings made, and its key is derived for another secret or salt by none of them. -/
structure Unforged (suite : SealSuite Key) (pub : Key → Bytes) (sealings : List (PushSealing Key))
    (client : Key) (burrow : Bytes) (sealed : Json) : Prop where
  opensOnly : ∀ ct key plaintext, fromBase64Url (sealedText sealed (js "ct")) = some ct →
    suite.aead.decrypt key zeroNonce [] ct = some plaintext →
      ∃ s ∈ sealings, s.key suite pub = key ∧ s.plaintext = plaintext ∧ s.ct suite pub = ct
  derivesOnly : ∀ salt shared, fromBase64Url (sealedText sealed (js "salt")) = some salt →
    suite.deriveBits client burrow = some shared →
      ∀ s ∈ sealings, suite.hkdf (s.secret suite pub) s.salt pushSealInfo =
        suite.hkdf shared salt pushSealInfo → s.secret suite pub = shared ∧ s.salt = salt

/-! ### Sealing and opening -/

theorem sealKey_of_pair (ideal : IdealSeal suite pub) (s : PushSealing Key) :
    sealKey suite s.burrow (pub s.client) s.salt = .ok (s.key suite pub) ∧
      sealKey suite s.client (pub s.burrow) s.salt = .ok (s.key suite pub) := by
  obtain ⟨hburrow, hclient⟩ := ideal.dh.x25519Agree s.burrow s.client
  obtain ⟨key, hkey⟩ := ideal.hkdf (s.secret suite pub) s.salt pushSealInfo
  have hsecret : sharedSecret suite.toSuite pub s.burrow s.client = s.secret suite pub := rfl
  have hgot : s.key suite pub = key := by rw [PushSealing.key, hkey, Option.getD_some]
  constructor
  · rw [sealKey, hburrow]
    dsimp only
    rw [hsecret, hkey, hgot]
  · rw [sealKey, hclient]
    dsimp only
    rw [hsecret, hkey, hgot]

/-- The secret a key was derived from. -/
theorem sealKey_ok {client : Key} {burrow salt key : Bytes}
    (h : sealKey suite client burrow salt = .ok key) :
    ∃ shared, suite.deriveBits client burrow = some shared ∧
      suite.hkdf shared salt pushSealInfo = some key := by
  unfold sealKey at h
  split at h
  · cases h
  rename_i shared hshared
  split at h
  · cases h
  rename_i key' hkey
  cases h
  refine ⟨shared, ?_, hkey⟩
  unfold x25519Agree at hshared
  split at hshared
  · cases hshared
  split at hshared
  · cases hshared
  · rename_i bits hbits
    split at hshared
    · cases hshared
    · cases hshared
      exact hbits

theorem sealPush_ok (ideal : IdealSeal suite pub) (s : PushSealing Key)
    (h : s.plaintext.length ≤ maxSealedPushPlaintextLength) :
    sealPush suite s.salt s.burrow (pub s.client) s.plaintext = .ok (s.envelope suite pub) := by
  rw [sealPush, if_neg (Nat.not_lt_of_le h), (sealKey_of_pair ideal s).1]
  rfl

/-- An envelope of a bounded plaintext passes its own guard. -/
theorem isSealedPushV1_envelope (ideal : IdealSeal suite pub) (s : PushSealing Key)
    (hsalt : s.salt.length = pushSealSaltLength)
    (hlength : s.plaintext.length ≤ maxSealedPushPlaintextLength) {value : Json}
    (h : (s.envelope suite pub).IsIn value) : isSealedPushV1 value = true := by
  have hct : (toBase64Url (s.ct suite pub)).length =
      base64UrlLength (s.plaintext.length + noiseTagLength) := by
    rw [length_toBase64Url, PushSealing.ct, ideal.tag]
  have hmax : base64UrlLength (s.plaintext.length + noiseTagLength) ≤ maxSealedPushLength :=
    base64UrlLength_mono (Nat.add_le_add_right hlength _)
  have hmin : minSealedPushLength ≤ base64UrlLength (s.plaintext.length + noiseTagLength) :=
    base64UrlLength_mono (Nat.le_add_left _ _)
  have hpos : 0 < minSealedPushLength := by decide
  have hsaltLength : (toBase64Url s.salt).length = sealedPushSaltChars := by
    rw [length_toBase64Url, hsalt]
    rfl
  rw [isSealedPushV1, h.isObject, h.version, h.salt, h.ct]
  simp only [PushSealing.envelope, Option.any_some, isExactBase64Url, isBoundedBase64Url,
    toBase64Url_chars, hsaltLength, hct, Bool.and_true, Bool.true_and, Bool.and_eq_true,
    decide_eq_true_eq, beq_self_eq_true]
  exact ⟨⟨by decide, Nat.le_refl _⟩, ⟨Nat.lt_of_lt_of_le hpos hmin, hmax⟩, hmin⟩

/-- **The matching keys open** what was sealed. -/
theorem openPush_envelope (ideal : IdealSeal suite pub) (s : PushSealing Key)
    (hsalt : s.salt.length = pushSealSaltLength)
    (hlength : s.plaintext.length ≤ maxSealedPushPlaintextLength) {value : Json}
    (h : (s.envelope suite pub).IsIn value) :
    openPush suite s.client (pub s.burrow) value = .ok (some s.plaintext) := by
  have hshape := isSealedPushV1_envelope ideal s hsalt hlength h
  have hsaltText : sealedText value (js "salt") = toBase64Url s.salt := by
    rw [sealedText, h.salt, Option.getD_some, PushSealing.envelope]
  have hctText : sealedText value (js "ct") = toBase64Url (s.ct suite pub) := by
    rw [sealedText, h.ct, Option.getD_some, PushSealing.envelope]
  have hopen : suite.aead.decrypt (s.key suite pub) zeroNonce [] (s.ct suite pub) =
      some s.plaintext := ideal.opens _ _ _ _
  rw [openPush, openPushTry, if_neg (by rw [hshape]; decide), hsaltText, hctText,
    fromBase64Url_toBase64Url, fromBase64Url_toBase64Url]
  dsimp only
  rw [(sealKey_of_pair ideal s).2]
  dsimp only
  rw [hopen]

/-- **Nothing else opens**: what a reader opens is the envelope of a sealing between its two keys,
and the plaintext of that sealing. -/
theorem openPush_only (ideal : IdealSeal suite pub) {sealings : List (PushSealing Key)}
    {client : Key} {burrow : Bytes} {sealed : Json}
    (unforged : Unforged suite pub sealings client burrow sealed) {plaintext : Bytes}
    (h : openPush suite client burrow sealed = .ok (some plaintext)) :
    ∃ s ∈ sealings, (s.envelope suite pub).IsIn sealed ∧ s.Between pub client burrow ∧
      s.plaintext = plaintext := by
  obtain ⟨hshape, salt, ct, key, hsalt, hct, hkey, hdecrypt⟩ := openPush_some h
  obtain ⟨s, hs, hskey, hsplaintext, hsct⟩ := unforged.opensOnly ct key plaintext hct hdecrypt
  obtain ⟨shared, hshared, hderived⟩ := sealKey_ok hkey
  obtain ⟨key', hkey'⟩ := ideal.hkdf (s.secret suite pub) s.salt pushSealInfo
  have hsame : suite.hkdf (s.secret suite pub) s.salt pushSealInfo =
      suite.hkdf shared salt pushSealInfo := by
    rw [hderived, ← hskey, PushSealing.key, hkey', Option.getD_some]
  obtain ⟨hsecret, hsaltEq⟩ := unforged.derivesOnly salt shared hsalt hshared s hs hsame
  obtain ⟨hsaltField, hctField, hsaltChars, hctChars⟩ := isSealedPushV1_texts hshape
  refine ⟨s, hs, ⟨?_, ?_, ?_, ?_⟩, ?_, hsplaintext⟩
  · simp only [isSealedPushV1, Bool.and_eq_true] at hshape
    exact hshape.1.1.1
  · simp only [isSealedPushV1, Bool.and_eq_true, beq_iff_eq] at hshape
    exact hshape.1.1.2
  · rw [hsaltField, PushSealing.envelope, hsaltEq, toBase64Url_of_fromBase64Url hsaltChars hsalt]
  · rw [hctField, PushSealing.envelope, hsct, toBase64Url_of_fromBase64Url hctChars hct]
  · exact ideal.only s.burrow s.client client burrow (by rw [hshared, ← hsecret]; rfl)

end Dormouse.Security
