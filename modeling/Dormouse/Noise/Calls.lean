import Dormouse.Lib.Async
import Dormouse.Lib.Transition
import Dormouse.Noise.Handshake

/-!
# Dormouse.Noise.Calls

**Concurrent calls** on one handshake object (`remote-lib-common/src/security/noise.ts`):
`writeMessage` and `readMessage` with their awaits in place, and the system of every
way in which calls on one object may interleave.

Run with nobody in between, a call is the one of `Dormouse.Noise.Handshake`.
-/

namespace Dormouse.Noise

/-- A call in progress on a handshake object. -/
abbrev HandshakeA (Key : Type) := Async (NoiseHandshake Key) Exn

namespace Awaited

open NoiseHandshake (lift onSymmetric)

variable {Key : Type} (suite : Suite Key)

/-! ### The messages -/

/-- `this.#hash = await sha256(…)`: the operands are read before the await. -/
def mixHash (data : Bytes) : HandshakeA Key Unit := do
  let h ← Async.read
  let hash ← Async.settle (.ok (suite.sha256 (h.symmetric.hash ++ data)))
  Async.write fun h => { h with symmetric := { h.symmetric with hash := hash } }

def mixKey (inputKeyMaterial : Bytes) : HandshakeA Key Unit := do
  let h ← Async.read
  let keys ← Async.settle (.ok (noiseHkdf suite h.symmetric.chainingKey inputKeyMaterial))
  let cipher ← Async.ofExcept (CipherState.initializeKey keys.2)
  Async.write fun h =>
    { h with symmetric := { h.symmetric with chainingKey := keys.1, cipher := cipher } }

/-- `mixKey(await dh(privateKey, publicKey))`. -/
def mixDh (privateKey : Key) (publicKey : Bytes) : HandshakeA Key Unit := do
  let shared ← Async.settle (x25519Agree suite privateKey publicKey)
  mixKey suite shared

/-- The cipher runs before the await, the transcript moves on after it. -/
def encryptAndHash (plaintext : Bytes) : HandshakeA Key Bytes := do
  let h ← Async.read
  let r := h.symmetric.cipher.encryptWithAd suite.aead h.symmetric.hash plaintext
  Async.write fun h => { h with symmetric := { h.symmetric with cipher := r.1 } }
  let ciphertext ← Async.ofExcept r.2
  mixHash suite ciphertext
  return ciphertext

def decryptAndHash (ciphertext : Bytes) : HandshakeA Key Bytes := do
  let h ← Async.read
  let r := h.symmetric.cipher.decryptWithAd suite.aead h.symmetric.hash ciphertext
  Async.write fun h => { h with symmetric := { h.symmetric with cipher := r.1 } }
  let plaintext ← Async.ofExcept r.2
  mixHash suite ciphertext
  return plaintext

/-- `this.#session = await this.#split()`. -/
def split : HandshakeA Key Unit := do
  let h ← Async.read
  let session ← Async.settle (h.symmetric.split suite (decide (h.role = .initiator)))
  Async.write fun h => { h with session := some session }

/-- `x!`. -/
def present {α : Type} : Option α → HandshakeA Key α
  | some a => pure a
  | none => Async.throw (.other "undefined")

/-- `this.#ephemeral ??= await generateNoiseKeyPair(…)`. -/
def useEphemeral (generated : Option (NoiseKeyPair Key)) : HandshakeA Key (NoiseKeyPair Key) := do
  let h ← Async.read
  match h.ephemeral with
  | some ephemeral => Async.settle (.ok ephemeral)
  | none =>
    let ephemeral ← Async.settle
      (match generated with
        | some ephemeral => .ok ephemeral
        | none => .error (.noise "X25519 key generation failed"))
    Async.write fun h => { h with ephemeral := some ephemeral }
    return ephemeral

/-- `-> e, es, s, ss` -/
def writeMessage1 (generated : Option (NoiseKeyPair Key)) (payload : Bytes) :
    HandshakeA Key Bytes := do
  Async.ofExcept (requireMessageLength (message1Overhead + payload.length) 1 message1Overhead)
  let ephemeral ← useEphemeral generated
  mixHash suite ephemeral.publicKey
  let h ← Async.read
  let remoteStatic ← present h.remoteStatic
  mixDh suite ephemeral.privateKey remoteStatic
  let encryptedStatic ← encryptAndHash suite h.staticKeyPair.publicKey
  mixDh suite h.staticKeyPair.privateKey remoteStatic
  let encryptedPayload ← encryptAndHash suite payload
  Async.write fun h => { h with firstMessageDone := true }
  return ephemeral.publicKey ++ encryptedStatic ++ encryptedPayload

/-- `-> e, es, s, ss` -/
def readMessage1 (message : Bytes) : HandshakeA Key Bytes := do
  Async.ofExcept (requireMessageLength message.length 1 message1Overhead)
  let staticEnd := message1Overhead - noiseTagLength
  let remoteEphemeral := copyKey message 0
  Async.write fun h => { h with remoteEphemeral := some remoteEphemeral }
  mixHash suite remoteEphemeral
  let h ← Async.read
  mixDh suite h.staticKeyPair.privateKey remoteEphemeral
  let remoteStatic ← decryptAndHash suite (subarray message noiseKeyLength staticEnd)
  Async.ofExcept (requireKey remoteStatic "remote static public key")
  Async.write fun h => { h with remoteStatic := some remoteStatic }
  mixDh suite h.staticKeyPair.privateKey remoteStatic
  let payload ← decryptAndHash suite (message.drop staticEnd)
  Async.write fun h => { h with firstMessageDone := true }
  return payload

/-- `<- e, ee, se` -/
def writeMessage2 (generated : Option (NoiseKeyPair Key)) (payload : Bytes) :
    HandshakeA Key Bytes := do
  Async.ofExcept (requireMessageLength (message2Overhead + payload.length) 2 message2Overhead)
  let ephemeral ← useEphemeral generated
  mixHash suite ephemeral.publicKey
  let h ← Async.read
  let remoteEphemeral ← present h.remoteEphemeral
  mixDh suite ephemeral.privateKey remoteEphemeral
  let remoteStatic ← present h.remoteStatic
  mixDh suite ephemeral.privateKey remoteStatic
  let encryptedPayload ← encryptAndHash suite payload
  split suite
  return ephemeral.publicKey ++ encryptedPayload

/-- `<- e, ee, se` -/
def readMessage2 (message : Bytes) : HandshakeA Key Bytes := do
  Async.ofExcept (requireMessageLength message.length 2 message2Overhead)
  let remoteEphemeral := copyKey message 0
  mixHash suite remoteEphemeral
  let h ← Async.read
  let ephemeral ← present h.ephemeral
  mixDh suite ephemeral.privateKey remoteEphemeral
  mixDh suite h.staticKeyPair.privateKey remoteEphemeral
  let payload ← decryptAndHash suite (message.drop noiseKeyLength)
  split suite
  return payload

/-- What `writeMessage` runs under `#step`. -/
def writeMessage (generated : Option (NoiseKeyPair Key)) (payload : Bytes) :
    HandshakeA Key Bytes := do
  let h ← Async.read
  match h.role, h.firstMessageDone with
  | .initiator, true => Async.throw (.noise "the initiator writes only message 1")
  | .initiator, false => writeMessage1 suite generated payload
  | .responder, false => Async.throw (.noise "the responder writes only message 2")
  | .responder, true => writeMessage2 suite generated payload

/-- What `readMessage` runs under `#step`. -/
def readMessage (message : Bytes) : HandshakeA Key Bytes := do
  let h ← Async.read
  match h.role, h.firstMessageDone with
  | .responder, true => Async.throw (.noise "the responder reads only message 1")
  | .responder, false => readMessage1 suite message
  | .initiator, false => Async.throw (.noise "the initiator reads only message 2")
  | .initiator, true => readMessage2 suite message

/-! ### Uninterrupted calls -/

/-- Run to the end at once, `x` does to the object what `y` does. -/
def Agrees {α : Type} (x : HandshakeA Key α) (y : HandshakeM Key α) : Prop :=
  ∀ h, x.finish h = y.run.run h

section Agrees

variable {suite} {α β : Type}

theorem Agrees.bind {x : HandshakeA Key α} {y : HandshakeM Key α} {f : α → HandshakeA Key β}
    {g : α → HandshakeM Key β} (hxy : Agrees x y) (hfg : ∀ a, Agrees (f a) (g a)) :
    Agrees (x >>= f) (y >>= g) := by
  intro h
  rw [Async.finish_bind, hxy h, ExceptT.run_bind, StateT.run_bind]
  rcases y.run.run h with ⟨_ | a, h'⟩
  · rfl
  · exact hfg a h'

theorem Agrees.pure (a : α) : Agrees (Pure.pure a : HandshakeA Key α) (Pure.pure a) := fun _ => rfl

theorem agrees_throw (e : Exn) :
    Agrees (Async.throw e : HandshakeA Key α) (MonadExcept.throw e) := fun _ => rfl

theorem agrees_read : Agrees (Async.read : HandshakeA Key _) get := fun _ => rfl

theorem agrees_write (f : NoiseHandshake Key → NoiseHandshake Key) :
    Agrees (Async.write f) (modify f) := fun _ => rfl

theorem agrees_ofExcept (r : Except Exn α) :
    Agrees (Async.ofExcept r : HandshakeA Key α) (lift r) := by
  intro h
  cases r <;> rfl

theorem agrees_settle (r : Except Exn α) :
    Agrees (Async.settle r : HandshakeA Key α) (lift r) := by
  intro h
  cases r <;> rfl

theorem agrees_present (o : Option α) :
    Agrees (present o : HandshakeA Key α) (NoiseHandshake.present o) := by
  intro h
  cases o <;> rfl

end Agrees

theorem onSymmetric_run {α : Type} (run : SymmetricState → Except Exn (α × SymmetricState))
    (h : NoiseHandshake Key) :
    (onSymmetric run).run.run h =
      match run h.symmetric with
      | .ok r => (.ok r.1, { h with symmetric := r.2 })
      | .error e => (.error e, h) := by
  show (lift (run h.symmetric) >>= _ : HandshakeM Key α).run.run h = _
  cases run h.symmetric <;> rfl

theorem agrees_mixHash (data : Bytes) :
    Agrees (mixHash suite data : HandshakeA Key Unit) (NoiseHandshake.mixHash suite data) :=
  fun _ => rfl

theorem agrees_mixDh (privateKey : Key) (publicKey : Bytes) :
    Agrees (mixDh suite privateKey publicKey)
      (NoiseHandshake.mixDh suite privateKey publicKey) := by
  refine .bind (agrees_settle _) fun shared h => ?_
  rw [onSymmetric_run]
  simp only [mixKey, Async.finish_bind, Async.finish_read, Async.finish_settle,
    Async.finish_ofExcept, Async.finish_write, SymmetricState.mixKey]
  cases CipherState.initializeKey (noiseHkdf suite h.symmetric.chainingKey shared).2 <;> rfl

theorem encryptWithAd_error {K : Type} {aead : Aead K} {cs cs' : CipherState K} {ad plaintext : Bytes}
    {e : Exn} (h : cs.encryptWithAd aead ad plaintext = (cs', .error e)) : cs' = cs := by
  unfold CipherState.encryptWithAd at h
  split at h
  · cases h
    rfl
  split at h
  · cases h
  · split at h
    · cases h
      rfl
    · cases h

theorem decryptWithAd_error {K : Type} {aead : Aead K} {cs cs' : CipherState K}
    {ad ciphertext : Bytes} {e : Exn}
    (h : cs.decryptWithAd aead ad ciphertext = (cs', .error e)) : cs' = cs := by
  unfold CipherState.decryptWithAd at h
  split at h
  · cases h
    rfl
  split at h
  · cases h
  split at h
  · cases h
    rfl
  · split at h
    · cases h
      rfl
    · cases h

theorem agrees_encryptAndHash (plaintext : Bytes) :
    Agrees (encryptAndHash suite plaintext : HandshakeA Key Bytes)
      (onSymmetric (·.encryptAndHash suite plaintext)) := by
  intro h
  rw [onSymmetric_run]
  simp only [encryptAndHash, mixHash, Async.finish_bind, Async.finish_read, Async.finish_settle,
    Async.finish_ofExcept, Async.finish_write, SymmetricState.encryptAndHash]
  rcases hr : h.symmetric.cipher.encryptWithAd suite.aead h.symmetric.hash plaintext with
    ⟨cipher, _ | ciphertext⟩
  · cases encryptWithAd_error hr
    rfl
  · rfl

theorem agrees_decryptAndHash (ciphertext : Bytes) :
    Agrees (decryptAndHash suite ciphertext : HandshakeA Key Bytes)
      (onSymmetric (·.decryptAndHash suite ciphertext)) := by
  intro h
  rw [onSymmetric_run]
  simp only [decryptAndHash, mixHash, Async.finish_bind, Async.finish_read, Async.finish_settle,
    Async.finish_ofExcept, Async.finish_write, SymmetricState.decryptAndHash]
  rcases hr : h.symmetric.cipher.decryptWithAd suite.aead h.symmetric.hash ciphertext with
    ⟨cipher, _ | plaintext⟩
  · cases decryptWithAd_error hr
    rfl
  · rfl

theorem agrees_useEphemeral (generated : Option (NoiseKeyPair Key)) :
    Agrees (useEphemeral generated) (NoiseHandshake.useEphemeral generated) := by
  rintro ⟨role, symmetric, staticKeyPair, ephemeral, remoteStatic, remoteEphemeral, _, _, _, _⟩
  cases ephemeral <;> cases generated <;> rfl

theorem agrees_split :
    Agrees (split suite : HandshakeA Key Unit) (do
      let h ← get
      let session ← lift (h.symmetric.split suite (decide (h.role = .initiator)))
      modify fun h => { h with session := some session }) :=
  .bind agrees_read fun _ => .bind (agrees_settle _) fun _ => agrees_write _

theorem agrees_writeMessage1 (generated : Option (NoiseKeyPair Key)) (payload : Bytes) :
    Agrees (writeMessage1 suite generated payload)
      (NoiseHandshake.writeMessage1 suite generated payload) :=
  .bind (agrees_ofExcept _) fun _ => .bind (agrees_useEphemeral _) fun _ =>
    .bind (agrees_mixHash suite _) fun _ => .bind agrees_read fun _ =>
      .bind (agrees_present _) fun _ => .bind (agrees_mixDh suite _ _) fun _ =>
        .bind (agrees_encryptAndHash suite _) fun _ => .bind (agrees_mixDh suite _ _) fun _ =>
          .bind (agrees_encryptAndHash suite _) fun _ => .bind (agrees_write _) fun _ => .pure _

theorem agrees_readMessage1 (message : Bytes) :
    Agrees (readMessage1 suite message : HandshakeA Key Bytes)
      (NoiseHandshake.readMessage1 suite message) :=
  .bind (agrees_ofExcept _) fun _ => .bind (agrees_write _) fun _ =>
    .bind (agrees_mixHash suite _) fun _ => .bind agrees_read fun _ =>
      .bind (agrees_mixDh suite _ _) fun _ => .bind (agrees_decryptAndHash suite _) fun _ =>
        .bind (agrees_ofExcept _) fun _ => .bind (agrees_write _) fun _ =>
          .bind (agrees_mixDh suite _ _) fun _ => .bind (agrees_decryptAndHash suite _) fun _ =>
            .bind (agrees_write _) fun _ => .pure _

theorem agrees_writeMessage2 (generated : Option (NoiseKeyPair Key)) (payload : Bytes) :
    Agrees (writeMessage2 suite generated payload)
      (NoiseHandshake.writeMessage2 suite generated payload) := by
  have hsplit := fun out : Bytes => (@agrees_split Key suite).bind fun _ => .pure out
  simp only [bind_assoc] at hsplit
  exact .bind (agrees_ofExcept _) fun _ => .bind (agrees_useEphemeral _) fun _ =>
    .bind (agrees_mixHash suite _) fun _ => .bind agrees_read fun _ =>
      .bind (agrees_present _) fun _ => .bind (agrees_mixDh suite _ _) fun _ =>
        .bind (agrees_present _) fun _ => .bind (agrees_mixDh suite _ _) fun _ =>
          .bind (agrees_encryptAndHash suite _) fun _ => hsplit _

theorem agrees_readMessage2 (message : Bytes) :
    Agrees (readMessage2 suite message : HandshakeA Key Bytes)
      (NoiseHandshake.readMessage2 suite message) := by
  have hsplit := fun out : Bytes => (@agrees_split Key suite).bind fun _ => .pure out
  simp only [bind_assoc] at hsplit
  exact .bind (agrees_ofExcept _) fun _ => .bind (agrees_mixHash suite _) fun _ =>
    .bind agrees_read fun _ => .bind (agrees_present _) fun _ =>
      .bind (agrees_mixDh suite _ _) fun _ => .bind (agrees_mixDh suite _ _) fun _ =>
        .bind (agrees_decryptAndHash suite _) fun _ => hsplit _

/-- **Alone on its object, a call is `NoiseHandshake.writeMessage`.** -/
theorem writeMessage_alone (h : NoiseHandshake Key) (generated : Option (NoiseKeyPair Key))
    (payload : Bytes) :
    h.writeMessage suite generated payload =
      match h.beginStep with
      | (h, .error e) => (h, .error e)
      | (h, .ok ()) => NoiseHandshake.endStep ((writeMessage suite generated payload).finish h) := by
  unfold NoiseHandshake.writeMessage NoiseHandshake.step
  rcases h.beginStep with ⟨h', _ | _⟩
  · rfl
  refine congrArg NoiseHandshake.endStep (Agrees.bind agrees_read (fun h => ?_) h').symm
  cases h.role <;> cases h.firstMessageDone
  · exact agrees_writeMessage1 suite generated payload
  · exact agrees_throw _
  · exact agrees_throw _
  · exact agrees_writeMessage2 suite generated payload

theorem readMessage_alone (h : NoiseHandshake Key) (message : Bytes) :
    h.readMessage suite message =
      match h.beginStep with
      | (h, .error e) => (h, .error e)
      | (h, .ok ()) => NoiseHandshake.endStep ((readMessage suite message).finish h) := by
  unfold NoiseHandshake.readMessage NoiseHandshake.step
  rcases h.beginStep with ⟨h', _ | _⟩
  · rfl
  refine congrArg NoiseHandshake.endStep (Agrees.bind agrees_read (fun h => ?_) h').symm
  cases h.role <;> cases h.firstMessageDone
  · exact agrees_throw _
  · exact agrees_readMessage2 suite message
  · exact agrees_readMessage1 suite message
  · exact agrees_throw _

end Awaited

/-! ### Calls on one object -/

inductive Method
  | write
  | read
  deriving DecidableEq

/-- A call inside its message. One whose message is through has its own `await` left. -/
structure Call (Key : Type) where
  method : Method
  rest : HandshakeA Key Bytes

/-- A handshake object, the calls that are inside `#step`, and what became of the others,
oldest first: whether each resolved. -/
structure Calls (Key : Type) where
  handshake : NoiseHandshake Key
  inside : List (Call Key)
  settled : List (Method × Bool)

/-- What callers and the event loop do. -/
inductive Move (Key : Type)
  | write (generated : Option (NoiseKeyPair Key)) (payload : Bytes)
  | read (message : Bytes)
  | resume (index : Nat)

namespace Calls

variable {Key : Type}

/-- A call is made: it is refused, or runs up to its first await. -/
def call (s : Calls Key) (method : Method) (message : HandshakeA Key Bytes) : Calls Key :=
  match s.handshake.beginStep with
  | (h, .error _) => { s with handshake := h, settled := s.settled ++ [(method, false)] }
  | (h, .ok ()) =>
    let r := message.advance h
    { s with handshake := r.2, inside := s.inside ++ [⟨method, r.1⟩] }

/-- A suspended call goes on, up to its next await; one whose message is through leaves
`#step`. -/
def resume (s : Calls Key) (index : Nat) : Calls Key :=
  match s.inside[index]? with
  | none => s
  | some c =>
    match c.rest with
    | .done result =>
      let r := NoiseHandshake.endStep (result, s.handshake)
      { handshake := r.1
        inside := s.inside.eraseIdx index
        settled := s.settled ++ [(c.method, r.2.toBool)] }
    | rest =>
      let r := rest.advance s.handshake
      { s with handshake := r.2, inside := s.inside.set index ⟨c.method, r.1⟩ }

variable (suite : Suite Key)

def next (s : Calls Key) : Move Key → Calls Key
  | .write generated payload => s.call .write (Awaited.writeMessage suite generated payload)
  | .read message => s.call .read (Awaited.readMessage suite message)
  | .resume index => s.resume index

end Calls

/-- Every way in which calls on one object may interleave, from its construction on. -/
def interleavings {Key : Type} (suite : Suite Key) : System (Calls Key) (Move Key) where
  init s := ∃ prologue staticKeyPair ephemeral remoteStatic h,
    NoiseHandshake.start suite prologue staticKeyPair ephemeral remoteStatic = .ok h ∧
      s = ⟨h, [], []⟩
  step s move s' := s' = s.next suite move

end Dormouse.Noise
