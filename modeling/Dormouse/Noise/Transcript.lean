import Dormouse.Noise.Handshake

/-!
# Dormouse.Noise.Transcript

**What a handshake message amounts to**: the chaining key and the transcript hash that
each side has come to, and for each of the four messages of
`remote-lib-common/src/security/noise.ts` the equations under which it succeeds.

`Succeeds` is the relation of a call that returned; its rules take the messages apart.
-/

namespace Dormouse.Noise

open Security (utf8Encode)
open NoiseHandshake (lift onSymmetric present)

variable {Key : Type}

/-! ### Transcripts -/

/-- What a symmetric state carries from one message to the next. -/
structure Transcript where
  chainingKey : Bytes
  hash : Bytes

def SymmetricState.transcript (s : SymmetricState) : Transcript := ⟨s.chainingKey, s.hash⟩

/-- The nonce of a cipher state's first message. -/
def firstNonce : Bytes := List.replicate 12 0

theorem noiseNonceBytes_zero : noiseNonceBytes 0 = .ok firstNonce := rfl

section Suite

variable (suite : Suite Key)

namespace Transcript

/-- The transcript both sides start from. -/
def start (prologue responderStatic : Bytes) : Transcript where
  chainingKey := utf8Encode noiseProtocolName
  hash := suite.sha256
    (suite.sha256 (utf8Encode noiseProtocolName ++ prologue) ++ responderStatic)

def mixHash (t : Transcript) (data : Bytes) : Transcript :=
  { t with hash := suite.sha256 (t.hash ++ data) }

def mixKey (t : Transcript) (shared : Bytes) : Transcript :=
  { t with chainingKey := (noiseHkdf suite t.chainingKey shared).1 }

/-- The key a shared secret yields here. -/
def keyFrom (t : Transcript) (shared : Bytes) : Bytes :=
  (noiseHkdf suite t.chainingKey shared).2

/-- A shared secret is mixed, and a ciphertext under its key goes by. -/
def absorb (t : Transcript) (shared ciphertext : Bytes) : Transcript :=
  (t.mixKey suite shared).mixHash suite ciphertext

end Transcript

/-! ### Calls that return -/

/-- `x` returns `a`, from `h` to `h'`. -/
def Succeeds {α : Type} (x : HandshakeM Key α) (h : NoiseHandshake Key) (a : α)
    (h' : NoiseHandshake Key) : Prop :=
  x.run.run h = (.ok a, h')

variable {suite} {α β : Type} {h h' h'' : NoiseHandshake Key}

theorem succeeds_bind {x : HandshakeM Key α} {f : α → HandshakeM Key β} {b : β} :
    Succeeds (x >>= f) h b h'' ↔ ∃ a h', Succeeds x h a h' ∧ Succeeds (f a) h' b h'' := by
  unfold Succeeds
  rw [ExceptT.run_bind, StateT.run_bind]
  constructor
  · intro hrun
    rcases hx : x.run.run h with ⟨e | a, h'⟩
    · rw [hx] at hrun
      cases hrun
    · rw [hx] at hrun
      exact ⟨a, h', rfl, hrun⟩
  · rintro ⟨a, h', hx, hf⟩
    rw [hx]
    exact hf

theorem succeeds_pure {a b : α} :
    Succeeds (pure a : HandshakeM Key α) h b h' ↔ b = a ∧ h' = h := by
  constructor
  · intro hrun
    cases hrun
    exact ⟨rfl, rfl⟩
  · rintro ⟨rfl, rfl⟩
    rfl

theorem succeeds_get {b : NoiseHandshake Key} :
    Succeeds (get : HandshakeM Key _) h b h' ↔ b = h ∧ h' = h := by
  constructor
  · intro hrun
    cases hrun
    exact ⟨rfl, rfl⟩
  · rintro ⟨rfl, rfl⟩
    rfl

theorem succeeds_modify {f : NoiseHandshake Key → NoiseHandshake Key} {u : PUnit} :
    Succeeds (modify f : HandshakeM Key PUnit) h u h' ↔ h' = f h := by
  constructor
  · intro hrun
    cases hrun
    rfl
  · rintro rfl
    rfl

theorem succeeds_lift {r : Except Exn α} {b : α} :
    Succeeds (lift r : HandshakeM Key α) h b h' ↔ r = .ok b ∧ h' = h := by
  constructor
  · intro hrun
    cases r with
    | error e => cases hrun
    | ok a =>
      cases hrun
      exact ⟨rfl, rfl⟩
  · rintro ⟨rfl, rfl⟩
    rfl

theorem succeeds_present {o : Option α} {b : α} :
    Succeeds (present o : HandshakeM Key α) h b h' ↔ o = some b ∧ h' = h := by
  constructor
  · intro hrun
    cases o with
    | none => cases hrun
    | some a =>
      cases hrun
      exact ⟨rfl, rfl⟩
  · rintro ⟨rfl, rfl⟩
    rfl

theorem succeeds_onSymmetric {run : SymmetricState → Except Exn (α × SymmetricState)} {b : α} :
    Succeeds (onSymmetric run : HandshakeM Key α) h b h' ↔
      ∃ s, run h.symmetric = .ok (b, s) ∧ h' = { h with symmetric := s } := by
  constructor
  · intro hrun
    obtain ⟨_, _, hget, hrest⟩ := succeeds_bind.1 hrun
    obtain ⟨rfl, rfl⟩ := succeeds_get.1 hget
    obtain ⟨r, _, hlift, hwrite⟩ := succeeds_bind.1 hrest
    obtain ⟨hr, rfl⟩ := succeeds_lift.1 hlift
    obtain ⟨_, _, hmodify, hpure⟩ := succeeds_bind.1 hwrite
    obtain ⟨rfl, rfl⟩ := succeeds_pure.1 hpure
    exact ⟨r.2, hr, succeeds_modify.1 hmodify⟩
  · rintro ⟨s, hs, rfl⟩
    exact succeeds_bind.2 ⟨h, h, succeeds_get.2 ⟨rfl, rfl⟩, succeeds_bind.2
      ⟨_, h, succeeds_lift.2 ⟨hs, rfl⟩, succeeds_bind.2
        ⟨(), _, succeeds_modify.2 rfl, succeeds_pure.2 ⟨rfl, rfl⟩⟩⟩⟩

/-! ### One token at a time -/

theorem succeeds_mixHash {data : Bytes} {u : Unit} :
    Succeeds (NoiseHandshake.mixHash suite data) h u h' ↔
      h' = { h with symmetric := h.symmetric.mixHash suite data } := by
  rw [NoiseHandshake.mixHash, succeeds_onSymmetric]
  constructor
  · rintro ⟨s, hs, rfl⟩
    cases hs
    rfl
  · rintro rfl
    exact ⟨_, rfl, rfl⟩

/-- The state a cipher has just been keyed in. -/
def SymmetricState.keyed (t : Transcript) (key : Bytes) : SymmetricState :=
  ⟨t.chainingKey, t.hash, ⟨some key, 0, []⟩⟩

theorem mixKey_keyed (s : SymmetricState) (shared : Bytes) :
    s.mixKey suite shared =
      if (s.transcript.keyFrom suite shared).length = noiseKeyLength then
        .ok (.keyed (s.transcript.mixKey suite shared) (s.transcript.keyFrom suite shared))
      else .error (.noise "ChaChaPoly key must be 32 bytes") := by
  show (CipherState.initializeKey (s.transcript.keyFrom suite shared)).map _ = _
  rw [CipherState.initializeKey, ite_not]
  split <;> rfl

theorem succeeds_mixDh {privateKey : Key} {publicKey : Bytes} {u : Unit} :
    Succeeds (NoiseHandshake.mixDh suite privateKey publicKey) h u h' ↔
      ∃ shared, x25519Agree suite privateKey publicKey = .ok shared ∧
        (h.symmetric.transcript.keyFrom suite shared).length = noiseKeyLength ∧
        h' = { h with symmetric := .keyed (h.symmetric.transcript.mixKey suite shared)
                        (h.symmetric.transcript.keyFrom suite shared) } := by
  rw [NoiseHandshake.mixDh, succeeds_bind]
  constructor
  · rintro ⟨shared, h₁, hlift, hmix⟩
    obtain ⟨hshared, rfl⟩ := succeeds_lift.1 hlift
    obtain ⟨s, hs, rfl⟩ := succeeds_onSymmetric.1 hmix
    rw [mixKey_keyed] at hs
    split at hs
    · next hlength =>
        cases hs
        exact ⟨shared, hshared, hlength, rfl⟩
    · cases hs
  · rintro ⟨shared, hshared, hlength, rfl⟩
    refine ⟨shared, h, succeeds_lift.2 ⟨hshared, rfl⟩, succeeds_onSymmetric.2 ⟨_, ?_, rfl⟩⟩
    rw [mixKey_keyed, if_pos hlength]
    rfl

/-- A keyed state that has encrypted, or decrypted, its first message. -/
def SymmetricState.once (suite : Suite Key) (t : Transcript) (key ciphertext : Bytes) (used : List Sealed) :
    SymmetricState :=
  ⟨t.chainingKey, suite.sha256 (t.hash ++ ciphertext), ⟨some key, 1, used⟩⟩

section Keyed

variable {role : Role} {staticKeyPair : NoiseKeyPair Key} {ephemeral : Option (NoiseKeyPair Key)}
  {remoteStatic remoteEphemeral : Option Bytes} {firstMessageDone failed inFlight : Bool}
  {session : Option NoiseSession} {t : Transcript} {key : Bytes}

theorem succeeds_encrypt {plaintext out : Bytes} :
    Succeeds (onSymmetric (·.encryptAndHash suite plaintext))
      ⟨role, .keyed t key, staticKeyPair, ephemeral, remoteStatic, remoteEphemeral,
        firstMessageDone, failed, inFlight, session⟩ out h' ↔
      plaintext.length + noiseTagLength ≤ noiseMaxMessageLength ∧
        out = suite.aead.encrypt key firstNonce t.hash plaintext ∧
        h' = ⟨role, .once suite t key out [⟨firstNonce, plaintext, out⟩], staticKeyPair, ephemeral, remoteStatic, remoteEphemeral,
        firstMessageDone, failed, inFlight, session⟩ := by
  rw [succeeds_onSymmetric]
  simp only [SymmetricState.encryptAndHash, SymmetricState.keyed, CipherState.encryptWithAd,
    requireMaxMessageLength, Option.isNone_some, Bool.false_eq_true, if_false]
  by_cases hlength : noiseMaxMessageLength < plaintext.length + noiseTagLength
  · rw [if_pos hlength]
    constructor
    · rintro ⟨s, hs, -⟩
      cases hs
    · rintro ⟨hle, -⟩
      exact absurd hle (Nat.not_le.2 hlength)
  rw [if_neg hlength]
  rw [noiseNonceBytes_zero]
  constructor
  · rintro ⟨s, hs, rfl⟩
    cases hs
    exact ⟨Nat.le_of_not_lt hlength, rfl, rfl⟩
  · rintro ⟨-, rfl, rfl⟩
    exact ⟨_, rfl, rfl⟩

theorem succeeds_decrypt {ciphertext out : Bytes} :
    Succeeds (onSymmetric (·.decryptAndHash suite ciphertext))
      ⟨role, .keyed t key, staticKeyPair, ephemeral, remoteStatic, remoteEphemeral,
        firstMessageDone, failed, inFlight, session⟩ out h' ↔
      ciphertext.length ≤ noiseMaxMessageLength ∧
        suite.aead.decrypt key firstNonce t.hash ciphertext = some out ∧
        h' = ⟨role, .once suite t key ciphertext [], staticKeyPair, ephemeral, remoteStatic, remoteEphemeral,
        firstMessageDone, failed, inFlight, session⟩ := by
  rw [succeeds_onSymmetric]
  simp only [SymmetricState.decryptAndHash, SymmetricState.keyed, CipherState.decryptWithAd,
    requireMaxMessageLength]
  by_cases hlength : noiseMaxMessageLength < ciphertext.length
  · rw [if_pos hlength]
    constructor
    · rintro ⟨s, hs, -⟩
      cases hs
    · rintro ⟨hle, -⟩
      exact absurd hle (Nat.not_le.2 hlength)
  rw [if_neg hlength]
  rw [noiseNonceBytes_zero]
  dsimp only
  cases suite.aead.decrypt key firstNonce t.hash ciphertext with
  | none =>
    constructor
    · rintro ⟨s, hs, -⟩
      cases hs
    · rintro ⟨-, hs, -⟩
      cases hs
  | some plaintext =>
    constructor
    · rintro ⟨s, hs, rfl⟩
      cases hs
      exact ⟨Nat.le_of_not_lt hlength, rfl, rfl⟩
    · rintro ⟨-, hs, rfl⟩
      cases hs
      exact ⟨_, rfl, rfl⟩

end Keyed

theorem succeeds_useEphemeral {generated : Option (NoiseKeyPair Key)} {e : NoiseKeyPair Key} :
    Succeeds (NoiseHandshake.useEphemeral generated) h e h' ↔
      h.ephemeral.or generated = some e ∧ h' = { h with ephemeral := some e } := by
  rw [NoiseHandshake.useEphemeral, succeeds_bind]
  constructor
  · rintro ⟨_, h₁, hget, hrest⟩
    obtain ⟨rfl, rfl⟩ := succeeds_get.1 hget
    cases he : h₁.ephemeral.or generated with
    | none =>
      rw [he] at hrest
      cases hrest
    | some e' =>
      rw [he] at hrest
      obtain ⟨_, _, hmodify, hpure⟩ := succeeds_bind.1 hrest
      obtain ⟨rfl, rfl⟩ := succeeds_pure.1 hpure
      exact ⟨rfl, succeeds_modify.1 hmodify⟩
  · rintro ⟨he, rfl⟩
    refine ⟨h, h, succeeds_get.2 ⟨rfl, rfl⟩, ?_⟩
    rw [he]
    exact succeeds_bind.2 ⟨(), _, succeeds_modify.2 rfl, succeeds_pure.2 ⟨rfl, rfl⟩⟩

/-! ### The messages -/

theorem requireMessageLength_ok {length message overhead : Nat} {u : Unit} :
    requireMessageLength length message overhead = .ok u ↔
      overhead ≤ length ∧ length ≤ noiseMaxMessageLength := by
  unfold requireMessageLength requireMaxMessageLength
  split
  · next h =>
      constructor
      · intro hok
        cases hok
      · intro hle
        omega
  split
  · next h =>
      constructor
      · intro hok
        cases hok
      · intro hle
        omega
  · constructor
    · intro
      omega
    · intro
      rfl

theorem requireKey_ok {key : Bytes} {what : String} {u : Unit} :
    requireKey key what = .ok u ↔ key.length = noiseKeyLength := by
  unfold requireKey
  split
  · next h =>
      constructor
      · intro hok
        cases hok
      · intro hlength
        exact absurd hlength h
  next h =>
    constructor
    · intro
      exact of_not_not h
    · intro
      rfl

namespace Transcript

variable (suite)

/-- After message 1: `e`, `es`, `s`, `ss` and the payload. -/
def first (t : Transcript) (e es encryptedStatic ss encryptedPayload : Bytes) : Transcript :=
  ((t.mixHash suite e).absorb suite es encryptedStatic).absorb suite ss encryptedPayload

/-- The key and the associated data of the static in message 1. -/
def staticSeal (t : Transcript) (e es : Bytes) : Bytes × Bytes :=
  ((t.mixHash suite e).keyFrom suite es, (t.mixHash suite e).hash)

/-- Those of its payload. -/
def payloadSeal (t : Transcript) (e es encryptedStatic ss : Bytes) : Bytes × Bytes :=
  (((t.mixHash suite e).absorb suite es encryptedStatic).keyFrom suite ss,
    ((t.mixHash suite e).absorb suite es encryptedStatic).hash)

/-- After message 2: `e`, `ee`, `se` and the payload. -/
def second (t : Transcript) (e ee se encryptedPayload : Bytes) : Transcript :=
  ((t.mixHash suite e).mixKey suite ee).absorb suite se encryptedPayload

/-- The key and the associated data of the payload in message 2. -/
def replySeal (t : Transcript) (e ee se : Bytes) : Bytes × Bytes :=
  (((t.mixHash suite e).mixKey suite ee).keyFrom suite se, (t.mixHash suite e).hash)

end Transcript

/-- HMAC-SHA-256 answers 32 bytes. -/
def HmacLength (suite : Suite Key) : Prop := ∀ key data, (suite.hmacSha256 key data).length = noiseKeyLength

theorem HmacLength.keyFrom (hmac : HmacLength suite) (t : Transcript) (shared : Bytes) :
    (t.keyFrom suite shared).length = noiseKeyLength := hmac _ _

/-- The sealing of a key and a context. -/
def sealUnder (suite : Suite Key) (context : Bytes × Bytes) (plaintext : Bytes) : Bytes :=
  suite.aead.encrypt context.1 firstNonce context.2 plaintext

def openUnder (suite : Suite Key) (context : Bytes × Bytes) (ciphertext : Bytes) : Option Bytes :=
  suite.aead.decrypt context.1 firstNonce context.2 ciphertext

theorem succeeds_bind_mixDh (hmac : HmacLength suite) {privateKey : Key} {publicKey : Bytes}
    {f : Unit → HandshakeM Key β} {b : β} :
    Succeeds (NoiseHandshake.mixDh suite privateKey publicKey >>= f) h b h'' ↔
      ∃ shared, x25519Agree suite privateKey publicKey = .ok shared ∧
        Succeeds (f ()) { h with symmetric := .keyed (h.symmetric.transcript.mixKey suite shared)
                                    (h.symmetric.transcript.keyFrom suite shared) } b h'' := by
  rw [succeeds_bind]
  constructor
  · rintro ⟨_, _, hmix, hrest⟩
    obtain ⟨shared, hshared, -, rfl⟩ := succeeds_mixDh.1 hmix
    exact ⟨shared, hshared, hrest⟩
  · rintro ⟨shared, hshared, hrest⟩
    exact ⟨(), _, succeeds_mixDh.2 ⟨shared, hshared, hmac.keyFrom _ _, rfl⟩, hrest⟩

/-- Message 1 as it is written, and what it leaves. -/
theorem succeeds_writeMessage1 (hmac : HmacLength suite)
    (hstatic : h.staticKeyPair.publicKey.length = noiseKeyLength)
    {generated : Option (NoiseKeyPair Key)} {payload out : Bytes} :
    Succeeds (NoiseHandshake.writeMessage1 suite generated payload) h out h' ↔
      message1Overhead + payload.length ≤ noiseMaxMessageLength ∧
      ∃ e rs es ss c₁ c₂,
        h.ephemeral.or generated = some e ∧ h.remoteStatic = some rs ∧
        x25519Agree suite e.privateKey rs = .ok es ∧
        x25519Agree suite h.staticKeyPair.privateKey rs = .ok ss ∧
        c₁ = sealUnder suite (h.symmetric.transcript.staticSeal suite e.publicKey es)
          h.staticKeyPair.publicKey ∧
        c₂ = sealUnder suite (h.symmetric.transcript.payloadSeal suite e.publicKey es c₁ ss) payload ∧
        out = e.publicKey ++ c₁ ++ c₂ ∧
        h' = { h with
          symmetric := .once suite
            (((h.symmetric.transcript.mixHash suite e.publicKey).absorb suite es c₁).mixKey suite ss)
            (h.symmetric.transcript.payloadSeal suite e.publicKey es c₁ ss).1 c₂
            [⟨firstNonce, payload, c₂⟩]
          ephemeral := some e
          firstMessageDone := true } := by
  simp only [NoiseHandshake.writeMessage1, succeeds_bind_mixDh hmac, succeeds_bind, succeeds_lift, succeeds_useEphemeral,
    succeeds_mixHash, succeeds_get, succeeds_present, succeeds_encrypt,
    succeeds_modify, succeeds_pure, and_assoc, exists_and_left, exists_eq_left]
  constructor
  · rintro ⟨_, hlength, e, he, _, rs, hrs, es, hes, -, ss, hss, -, rfl, -, rfl⟩
    exact ⟨(requireMessageLength_ok.1 hlength).2, e, he, rs, hrs, es, hes, ss, hss, rfl, rfl⟩
  · rintro ⟨hlength, e, he, rs, hrs, es, hes, ss, hss, rfl, rfl⟩
    have hpayload : payload.length + noiseTagLength ≤ noiseMaxMessageLength := by
      unfold message1Overhead at hlength
      omega
    exact ⟨(), requireMessageLength_ok.2 ⟨Nat.le_add_right _ _, hlength⟩, e, he, (), rs, hrs, es, hes,
      by rw [hstatic]; decide, ss, hss, hpayload, rfl, (), rfl⟩

/-- Message 1 as it is read, and what it leaves. -/
theorem succeeds_readMessage1 (hmac : HmacLength suite) {message out : Bytes} :
    Succeeds (NoiseHandshake.readMessage1 suite message) h out h' ↔
      message1Overhead ≤ message.length ∧ message.length ≤ noiseMaxMessageLength ∧
      ∃ es rs ss,
        x25519Agree suite h.staticKeyPair.privateKey (copyKey message 0) = .ok es ∧
        openUnder suite (h.symmetric.transcript.staticSeal suite (copyKey message 0) es)
          (subarray message noiseKeyLength (message1Overhead - noiseTagLength)) = some rs ∧
        rs.length = noiseKeyLength ∧
        x25519Agree suite h.staticKeyPair.privateKey rs = .ok ss ∧
        openUnder suite (h.symmetric.transcript.payloadSeal suite (copyKey message 0) es
            (subarray message noiseKeyLength (message1Overhead - noiseTagLength)) ss)
          (message.drop (message1Overhead - noiseTagLength)) = some out ∧
        h' = { h with
          symmetric := .once suite
            (((h.symmetric.transcript.mixHash suite (copyKey message 0)).absorb suite es
              (subarray message noiseKeyLength (message1Overhead - noiseTagLength))).mixKey suite ss)
            (h.symmetric.transcript.payloadSeal suite (copyKey message 0) es
              (subarray message noiseKeyLength (message1Overhead - noiseTagLength)) ss).1
            (message.drop (message1Overhead - noiseTagLength)) []
          remoteEphemeral := some (copyKey message 0)
          remoteStatic := some rs
          firstMessageDone := true } := by
  simp only [NoiseHandshake.readMessage1, succeeds_bind_mixDh hmac, succeeds_bind, succeeds_lift,
    succeeds_mixHash, succeeds_get, succeeds_decrypt, succeeds_modify, succeeds_pure, requireKey_ok,
    and_assoc, exists_and_left, exists_eq_left]
  constructor
  · rintro ⟨_, hlength, -, -, es, hes, -, rs, hrs, hkey, _, -, ss, hss, -, _, hout, rfl, -, rfl⟩
    obtain ⟨hmin, hmax⟩ := requireMessageLength_ok.1 hlength
    exact ⟨hmin, hmax, es, hes, rs, hrs, hkey, ss, hss, hout, rfl⟩
  · rintro ⟨hmin, hmax, es, hes, rs, hrs, hkey, ss, hss, hout, rfl⟩
    have hstatic : (subarray message noiseKeyLength (message1Overhead - noiseTagLength)).length ≤
        noiseMaxMessageLength := Nat.le_trans (List.length_take_le _ _) (by decide)
    have hpayload : (message.drop (message1Overhead - noiseTagLength)).length ≤
        noiseMaxMessageLength := by
      rw [List.length_drop]
      omega
    exact ⟨(), requireMessageLength_ok.2 ⟨hmin, hmax⟩, (), (), es, hes, hstatic, rs, hrs, hkey, (), (),
      ss, hss, hpayload, out, hout, rfl, (), rfl⟩

theorem split_eq (hmac : HmacLength suite) (s : SymmetricState) (initiator : Bool) :
    s.split suite initiator = .ok
      ⟨⟨some (if initiator then (noiseHkdf suite s.chainingKey []).1
          else (noiseHkdf suite s.chainingKey []).2), 0, []⟩,
        ⟨some (if initiator then (noiseHkdf suite s.chainingKey []).2
          else (noiseHkdf suite s.chainingKey []).1), 0, []⟩, s.hash⟩ := by
  have hkey : ∀ key : Bytes, key.length = noiseKeyLength →
      CipherState.initializeKey key = .ok ⟨some key, 0, []⟩ := fun key h => if_neg (not_not.2 h)
  have h₁ : (noiseHkdf suite s.chainingKey []).1.length = noiseKeyLength := hmac _ _
  have h₂ : (noiseHkdf suite s.chainingKey []).2.length = noiseKeyLength := hmac _ _
  unfold SymmetricState.split
  cases initiator
  · simp only [Bool.false_eq_true, if_false, hkey _ h₁, hkey _ h₂]
  · simp only [if_true, hkey _ h₁, hkey _ h₂]

/-- The session a transcript splits into. -/
def Transcript.session (suite : Suite Key) (t : Transcript) (role : Role) : NoiseSession :=
  let keys := noiseHkdf suite t.chainingKey []
  match role with
  | .initiator => ⟨⟨some keys.1, 0, []⟩, ⟨some keys.2, 0, []⟩, t.hash⟩
  | .responder => ⟨⟨some keys.2, 0, []⟩, ⟨some keys.1, 0, []⟩, t.hash⟩

theorem split_session (hmac : HmacLength suite) (s : SymmetricState) (role : Role) :
    s.split suite (decide (role = .initiator)) = .ok (s.transcript.session suite role) := by
  rw [split_eq hmac]
  cases role <;> rfl

/-- Message 2 as it is written, and what it leaves. -/
theorem succeeds_writeMessage2 (hmac : HmacLength suite)
    {generated : Option (NoiseKeyPair Key)} {payload out : Bytes} :
    Succeeds (NoiseHandshake.writeMessage2 suite generated payload) h out h' ↔
      message2Overhead + payload.length ≤ noiseMaxMessageLength ∧
      ∃ e re rs ee se c,
        h.ephemeral.or generated = some e ∧ h.remoteEphemeral = some re ∧
        h.remoteStatic = some rs ∧
        x25519Agree suite e.privateKey re = .ok ee ∧
        x25519Agree suite e.privateKey rs = .ok se ∧
        c = sealUnder suite (h.symmetric.transcript.replySeal suite e.publicKey ee se) payload ∧
        out = e.publicKey ++ c ∧
        h' = { h with
          symmetric := .once suite
            (((h.symmetric.transcript.mixHash suite e.publicKey).mixKey suite ee).mixKey suite se)
            (h.symmetric.transcript.replySeal suite e.publicKey ee se).1 c
            [⟨firstNonce, payload, c⟩]
          ephemeral := some e
          session := some
            ((h.symmetric.transcript.second suite e.publicKey ee se c).session suite h.role) } := by
  simp only [NoiseHandshake.writeMessage2, succeeds_bind_mixDh hmac, succeeds_bind, succeeds_lift,
    succeeds_useEphemeral, succeeds_mixHash, succeeds_get, succeeds_present, succeeds_encrypt,
    succeeds_modify, succeeds_pure, split_session hmac, and_assoc, exists_and_left, exists_eq_left]
  constructor
  · rintro ⟨_, hlength, e, he, -, re, hre, ee, hee, rs, hrs, se, hse, -, session, hsession, rfl, -, rfl⟩
    obtain rfl := Except.ok.inj hsession
    exact ⟨(requireMessageLength_ok.1 hlength).2, e, he, re, hre, rs, hrs, ee, hee, se, hse, rfl, rfl⟩
  · rintro ⟨hlength, e, he, re, hre, rs, hrs, ee, hee, se, hse, rfl, rfl⟩
    have hpayload : payload.length + noiseTagLength ≤ noiseMaxMessageLength := by
      unfold message2Overhead at hlength
      omega
    exact ⟨(), requireMessageLength_ok.2 ⟨Nat.le_add_right _ _, hlength⟩, e, he, (), re, hre, ee, hee,
      rs, hrs, se, hse, hpayload, _, rfl, rfl, (), rfl⟩

/-- Message 2 as it is read, and what it leaves. -/
theorem succeeds_readMessage2 (hmac : HmacLength suite) {message out : Bytes} :
    Succeeds (NoiseHandshake.readMessage2 suite message) h out h' ↔
      message2Overhead ≤ message.length ∧ message.length ≤ noiseMaxMessageLength ∧
      ∃ e ee se,
        h.ephemeral = some e ∧
        x25519Agree suite e.privateKey (copyKey message 0) = .ok ee ∧
        x25519Agree suite h.staticKeyPair.privateKey (copyKey message 0) = .ok se ∧
        openUnder suite (h.symmetric.transcript.replySeal suite (copyKey message 0) ee se)
          (message.drop noiseKeyLength) = some out ∧
        h' = { h with
          symmetric := .once suite
            (((h.symmetric.transcript.mixHash suite (copyKey message 0)).mixKey suite ee).mixKey
              suite se)
            (h.symmetric.transcript.replySeal suite (copyKey message 0) ee se).1
            (message.drop noiseKeyLength) []
          session := some ((h.symmetric.transcript.second suite (copyKey message 0) ee se
            (message.drop noiseKeyLength)).session suite h.role) } := by
  simp only [NoiseHandshake.readMessage2, succeeds_bind_mixDh hmac, succeeds_bind, succeeds_lift,
    succeeds_mixHash, succeeds_get, succeeds_present, succeeds_decrypt, succeeds_modify,
    succeeds_pure, split_session hmac, and_assoc, exists_and_left, exists_eq_left]
  constructor
  · rintro ⟨_, hlength, -, e, he, ee, hee, se, hse, -, _, hout, session, hsession, rfl, -, rfl⟩
    obtain rfl := Except.ok.inj hsession
    obtain ⟨hmin, hmax⟩ := requireMessageLength_ok.1 hlength
    exact ⟨hmin, hmax, e, he, ee, hee, se, hse, hout, rfl⟩
  · rintro ⟨hmin, hmax, e, he, ee, hee, se, hse, hout, rfl⟩
    have hciphertext : (message.drop noiseKeyLength).length ≤ noiseMaxMessageLength := by
      rw [List.length_drop]
      omega
    exact ⟨(), requireMessageLength_ok.2 ⟨hmin, hmax⟩, (), e, he, ee, hee, se, hse, hciphertext, out,
      hout, _, rfl, rfl, (), rfl⟩

end Suite

end Dormouse.Noise
