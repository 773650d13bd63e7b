import Dormouse.Noise.CallsSound
import Dormouse.Noise.Transcript

/-!
# Dormouse.Noise.Agreement

**Agreement of the IK handshake** under ideal primitives: two honest parties come to one
transcript and mirrored keys, and a reader under another prologue or static, or of other
bytes than were written, rejects.

The transcript hash is the associated data of every sealing, so what a reader opens tells
which transcript it was sealed under; without collisions that transcript is the reader's.
-/

namespace Dormouse.Noise

open Security (utf8Encode)
open NoiseHandshake (beginStep endStep)

variable {Key : Type} {suite : Suite Key}

/-! ### Ideal primitives -/

def keyPairOf (pub : Key → Bytes) (key : Key) : NoiseKeyPair Key := ⟨key, pub key⟩

/-- **Ideal DH**: two honest keys derive one secret on both sides, and it is not zero. -/
structure IdealDh (suite : Suite Key) (pub : Key → Bytes) : Prop where
  length : ∀ key, (pub key).length = noiseKeyLength
  agree : ∀ a b, ∃ shared, suite.deriveBits a (pub b) = some shared ∧
    suite.deriveBits b (pub a) = some shared ∧ shared.length = noiseKeyLength ∧
    shared ≠ List.replicate noiseKeyLength 0

/-- The secret two honest keys share. -/
def sharedSecret (suite : Suite Key) (pub : Key → Bytes) (a b : Key) : Bytes :=
  (suite.deriveBits a (pub b)).getD []

theorem IdealDh.x25519Agree {pub : Key → Bytes} (dh : IdealDh suite pub) (a b : Key) :
    Noise.x25519Agree suite a (pub b) = .ok (sharedSecret suite pub a b) ∧
      Noise.x25519Agree suite b (pub a) = .ok (sharedSecret suite pub a b) := by
  obtain ⟨shared, hab, hba, hlength, hzero⟩ := dh.agree a b
  have hok : ∀ {key other}, suite.deriveBits key (pub other) = some shared →
      Noise.x25519Agree suite key (pub other) = .ok shared := by
    intro key other h
    unfold Noise.x25519Agree
    rw [requireKey_ok (u := ()).2 (dh.length other)]
    rw [h]
    dsimp only
    rw [if_neg fun hbad => hbad.elim (fun h => h hlength) hzero]
  have hsecret : sharedSecret suite pub a b = shared := by
    rw [sharedSecret, hab, Option.getD_some]
  rw [hsecret]
  exact ⟨hok hab, hok hba⟩

/-- Digests of 32 bytes, and an AEAD that opens what it sealed, 16 bytes longer. -/
structure IdealSuite (suite : Suite Key) : Prop where
  sha256 : ∀ data, (suite.sha256 data).length = noiseKeyLength
  hmac : HmacLength suite
  opens : ∀ key nonce ad plaintext,
    suite.aead.decrypt key nonce ad (suite.aead.encrypt key nonce ad plaintext) = some plaintext
  tag : ∀ key nonce ad plaintext,
    (suite.aead.encrypt key nonce ad plaintext).length = plaintext.length + noiseTagLength

theorem IdealSuite.opens_sealed (ideal : IdealSuite suite) (context : Bytes × Bytes)
    (plaintext : Bytes) :
    openUnder suite context (sealUnder suite context plaintext) = some plaintext :=
  ideal.opens _ _ _ _

/-- One sealing: its key and associated data, its plaintext, its ciphertext. -/
abbrev Sealing := (Bytes × Bytes) × Bytes × Bytes

/-- **Ideal AEAD**: a ciphertext opens only as one of these sealings. -/
def OpensOnly (suite : Suite Key) (sealed : List Sealing) (ciphertext : Bytes) : Prop :=
  ∀ context plaintext, openUnder suite context ciphertext = some plaintext →
    (context, plaintext, ciphertext) ∈ sealed

/-- **Collision-free hash**: no input of one side collides with another of the other, and
none hashes to the name that a transcript starts from. -/
structure CollisionFree (suite : Suite Key) (xs ys : List Bytes) : Prop where
  inj : ∀ x ∈ xs, ∀ y ∈ ys, suite.sha256 x = suite.sha256 y → x = y
  fresh : ∀ x ∈ xs, suite.sha256 x ≠ utf8Encode noiseProtocolName

instance {xs ys : List Bytes} : Decidable (CollisionFree suite xs ys) :=
  decidable_of_iff ((∀ x ∈ xs, ∀ y ∈ ys, suite.sha256 x = suite.sha256 y → x = y) ∧
      ∀ x ∈ xs, suite.sha256 x ≠ utf8Encode noiseProtocolName)
    ⟨fun h => ⟨h.1, h.2⟩, fun h => ⟨h.inj, h.fresh⟩⟩

/-! ### The hashes of a handshake -/

section Hashes

variable (suite)

/-- The static and the payload of a message 1. -/
def staticPart (message : Bytes) : Bytes :=
  subarray message noiseKeyLength (message1Overhead - noiseTagLength)

def payloadPart (message : Bytes) : Bytes := message.drop (message1Overhead - noiseTagLength)

/-- The transcript hash before message 1, and as its parts go by. -/
def hash0 (prologue rs : Bytes) : Bytes := (Transcript.start suite prologue rs).hash

def hash1 (prologue rs message : Bytes) : Bytes :=
  suite.sha256 (hash0 suite prologue rs ++ copyKey message 0)

def hash2 (prologue rs message : Bytes) : Bytes :=
  suite.sha256 (hash1 suite prologue rs message ++ staticPart message)

def hash3 (prologue rs message : Bytes) : Bytes :=
  suite.sha256 (hash2 suite prologue rs message ++ payloadPart message)

/-- Everything a party hashes for message 1. -/
def hashed1 (prologue rs message : Bytes) : List Bytes :=
  [utf8Encode noiseProtocolName ++ prologue,
    suite.sha256 (utf8Encode noiseProtocolName ++ prologue) ++ rs,
    hash0 suite prologue rs ++ copyKey message 0,
    hash1 suite prologue rs message ++ staticPart message,
    hash2 suite prologue rs message ++ payloadPart message]

/-- What it hashes of message 2 before the payload is opened. -/
def hashed2 (prologue rs message1 message2 : Bytes) : Bytes :=
  hash3 suite prologue rs message1 ++ copyKey message2 0

end Hashes

section Parts

variable {e c₁ c₂ message : Bytes}

theorem copyKey_append (he : e.length = noiseKeyLength) : copyKey (e ++ c₁) 0 = e := by
  unfold copyKey subarray
  rw [List.drop_zero, Nat.zero_add, Nat.sub_zero, ← he]
  exact List.take_left

theorem drop_append (he : e.length = noiseKeyLength) : (e ++ c₁).drop noiseKeyLength = c₁ := by
  rw [← he]
  exact List.drop_left

theorem staticPart_append (he : e.length = noiseKeyLength)
    (hc₁ : c₁.length = noiseKeyLength + noiseTagLength) : staticPart (e ++ c₁ ++ c₂) = c₁ := by
  unfold staticPart subarray
  have hwidth : message1Overhead - noiseTagLength - noiseKeyLength = c₁.length := by
    rw [hc₁]
    decide
  rw [List.append_assoc, drop_append he, hwidth]
  exact List.take_left

theorem payloadPart_append (he : e.length = noiseKeyLength)
    (hc₁ : c₁.length = noiseKeyLength + noiseTagLength) : payloadPart (e ++ c₁ ++ c₂) = c₂ := by
  unfold payloadPart
  have hstart : message1Overhead - noiseTagLength = (e ++ c₁).length := by
    rw [List.length_append, he, hc₁]
    decide
  rw [hstart]
  exact List.drop_left

/-- A message 1 is its three parts. -/
theorem parts_eq (message : Bytes) :
    copyKey message 0 ++ staticPart message ++ payloadPart message = message := by
  unfold copyKey staticPart payloadPart subarray
  have hsplit : message.drop (message1Overhead - noiseTagLength) =
      (message.drop noiseKeyLength).drop
        (message1Overhead - noiseTagLength - noiseKeyLength) := by
    rw [List.drop_drop]
    rfl
  rw [hsplit, List.append_assoc, List.take_append_drop, List.drop_zero]
  exact List.take_append_drop _ _

theorem length_copyKey (h : noiseKeyLength ≤ message.length) :
    (copyKey message 0).length = noiseKeyLength := by
  unfold copyKey subarray
  rw [List.drop_zero, List.length_take]
  omega

theorem length_staticPart (h : message1Overhead ≤ message.length) :
    (staticPart message).length = noiseKeyLength + noiseTagLength := by
  unfold staticPart subarray message1Overhead noiseKeyLength noiseTagLength at *
  rw [List.length_take, List.length_drop]
  omega

end Parts

/-! ### Telling transcripts apart -/

section Apart

variable {prologue prologue' rs rs' m m' : Bytes} {sealed : List Sealing}

/-- Two inputs of one digest are one input, part by part. -/
theorem CollisionFree.append_inj {xs ys : List Bytes} (free : CollisionFree suite xs ys)
    {a b c d : Bytes} (hx : a ++ b ∈ xs) (hy : c ++ d ∈ ys)
    (h : suite.sha256 (a ++ b) = suite.sha256 (c ++ d)) (hlength : a.length = c.length) :
    a = c ∧ b = d :=
  List.append_inj (free.inj _ hx _ hy h) hlength

theorem CollisionFree.mono {xs ys xs' ys' : List Bytes} (free : CollisionFree suite xs ys)
    (hxs : xs' ⊆ xs) (hys : ys' ⊆ ys) : CollisionFree suite xs' ys' where
  inj := fun x hx y hy => free.inj x (hxs hx) y (hys hy)
  fresh := fun x hx => free.fresh x (hxs hx)

variable (ideal : IdealSuite suite)
include ideal

theorem hash0_inj (free : CollisionFree suite (hashed1 suite prologue rs m)
      (hashed1 suite prologue' rs' m'))
    (h : hash0 suite prologue rs = hash0 suite prologue' rs') : prologue = prologue' ∧ rs = rs' := by
  have houter := free.append_inj (by simp [hashed1]) (by simp [hashed1]) h
    (by rw [ideal.sha256, ideal.sha256])
  have hinner := free.append_inj (by simp [hashed1]) (by simp [hashed1]) houter.1 rfl
  exact ⟨hinner.2, houter.2⟩

theorem hash1_inj (free : CollisionFree suite (hashed1 suite prologue rs m)
      (hashed1 suite prologue' rs' m'))
    (h : hash1 suite prologue rs m = hash1 suite prologue' rs' m') :
    prologue = prologue' ∧ rs = rs' ∧ copyKey m 0 = copyKey m' 0 := by
  have hlast := free.append_inj (by simp [hashed1]) (by simp [hashed1]) h (by
    show (suite.sha256 _).length = (suite.sha256 _).length
    rw [ideal.sha256, ideal.sha256])
  obtain ⟨hprologue, hrs⟩ := hash0_inj ideal free hlast.1
  exact ⟨hprologue, hrs, hlast.2⟩

/-- The hash after the static is none of an `e`: its input is longer. -/
theorem hash2_ne_hash1 (free : CollisionFree suite (hashed1 suite prologue rs m)
      (hashed1 suite prologue' rs' m'))
    (hm : message1Overhead ≤ m.length) (hm' : noiseKeyLength ≤ m'.length) :
    hash2 suite prologue rs m ≠ hash1 suite prologue' rs' m' := by
  intro h
  have hinput := congrArg List.length (free.inj _ (by simp [hashed1]) _ (by simp [hashed1]) h)
  have hleft : (hash1 suite prologue rs m).length = noiseKeyLength := ideal.sha256 _
  have hright : (hash0 suite prologue' rs').length = noiseKeyLength := ideal.sha256 _
  rw [List.length_append, List.length_append, hleft, hright, length_staticPart hm,
    length_copyKey hm'] at hinput
  unfold noiseTagLength at hinput
  omega

/-- The hash after message 1 is not the one before: its chain would reach the name. -/
theorem hash3_ne_hash0 (free : CollisionFree suite (hashed1 suite prologue rs m)
      (hashed1 suite prologue rs m)) :
    hash3 suite prologue rs m ≠ hash0 suite prologue rs := by
  intro h
  have houter := free.append_inj (by simp [hashed1]) (by simp [hashed1]) h (by
    show (suite.sha256 _).length = (suite.sha256 _).length
    rw [ideal.sha256, ideal.sha256])
  have hinner := free.append_inj (by simp [hashed1]) (by simp [hashed1]) houter.1 (by
    show (suite.sha256 _).length = (utf8Encode noiseProtocolName).length
    rw [ideal.sha256]
    decide)
  exact free.fresh (hash0 suite prologue rs ++ copyKey m 0) (by simp [hashed1]) hinner.1

end Apart

/-! ### Handshake objects -/

/-- A handshake object just constructed. -/
def freshHandshake (suite : Suite Key) (prologue : Bytes) (staticKeyPair : NoiseKeyPair Key)
    (ephemeral : Option (NoiseKeyPair Key)) (remoteStatic : Option Bytes) :
    NoiseHandshake Key where
  role := if remoteStatic.isNone then .responder else .initiator
  symmetric :=
    ⟨utf8Encode noiseProtocolName,
      hash0 suite prologue (remoteStatic.getD staticKeyPair.publicKey), ⟨none, 0, []⟩⟩
  staticKeyPair := staticKeyPair
  ephemeral := ephemeral
  remoteStatic := remoteStatic
  remoteEphemeral := none
  firstMessageDone := false
  failed := false
  inFlight := false
  session := none

theorem initializeSymmetric_eq :
    SymmetricState.initializeSymmetric =
      .ok ⟨utf8Encode noiseProtocolName, utf8Encode noiseProtocolName, ⟨none, 0, []⟩⟩ := by
  have hlength : (utf8Encode noiseProtocolName).length = noiseKeyLength := by decide
  unfold SymmetricState.initializeSymmetric
  rw [if_neg (by rw [hlength]; decide), hlength, Nat.sub_self, List.replicate_zero,
    List.append_nil]

theorem start_eq {prologue : Bytes} {staticKeyPair : NoiseKeyPair Key}
    {ephemeral : Option (NoiseKeyPair Key)} {remoteStatic : Option Bytes}
    (hstatic : staticKeyPair.publicKey.length = noiseKeyLength)
    (hephemeral : ∀ e, ephemeral = some e → e.publicKey.length = noiseKeyLength)
    (hremote : ∀ rs, remoteStatic = some rs → rs.length = noiseKeyLength) :
    NoiseHandshake.start suite prologue staticKeyPair ephemeral remoteStatic =
      .ok (freshHandshake suite prologue staticKeyPair ephemeral remoteStatic) := by
  have hok : ∀ (key : Bytes) (what : String), key.length = noiseKeyLength →
      requireKey key what = .ok () := fun _ _ h => requireKey_ok.2 h
  cases ephemeral with
  | none =>
    cases remoteStatic with
    | none =>
      simp only [NoiseHandshake.start, hok _ _ hstatic, initializeSymmetric_eq, bind,
        Except.bind, pure, Except.pure]
      rfl
    | some rs =>
      simp only [NoiseHandshake.start, hok _ _ hstatic, hok _ _ (hremote rs rfl),
        initializeSymmetric_eq, bind, Except.bind, pure, Except.pure]
      rfl
  | some e =>
    cases remoteStatic with
    | none =>
      simp only [NoiseHandshake.start, hok _ _ hstatic, hok _ _ (hephemeral e rfl),
        initializeSymmetric_eq, bind, Except.bind, pure, Except.pure]
      rfl
    | some rs =>
      simp only [NoiseHandshake.start, hok _ _ hstatic, hok _ _ (hephemeral e rfl),
        hok _ _ (hremote rs rfl), initializeSymmetric_eq, bind, Except.bind, pure, Except.pure]
      rfl

/-- An object that takes its next message. -/
def NoiseHandshake.Ready (h : NoiseHandshake Key) : Prop :=
  h.failed = false ∧ h.session = none ∧ h.inFlight = false

theorem step_ok {h h' : NoiseHandshake Key} (ready : h.Ready) {run : HandshakeM Key Bytes}
    {out : Bytes} :
    h.step run = (h', .ok out) ↔
      ∃ h₁, Succeeds run { h with inFlight := true } out h₁ ∧ h' = { h₁ with inFlight := false } := by
  obtain ⟨hfailed, hsession, hflight⟩ := ready
  have hbegin : h.beginStep = ({ h with inFlight := true }, .ok ()) := by
    rw [beginStep, hfailed, hsession, hflight]
    rfl
  unfold NoiseHandshake.step
  rw [hbegin]
  dsimp only
  unfold Succeeds
  rcases run.run.run { h with inFlight := true } with ⟨e | a, h₁⟩
  · constructor
    · intro h
      cases h
    · rintro ⟨_, h, -⟩
      cases h
  constructor
  · intro h
    cases h
    exact ⟨h₁, rfl, rfl⟩
  · rintro ⟨_, h, rfl⟩
    cases h
    rfl

section Calls

variable {h h' : NoiseHandshake Key} {message payload out : Bytes}
  {generated : Option (NoiseKeyPair Key)}

/-- The four calls that run a message. -/
theorem readMessage_responder (ready : h.Ready) (hrole : h.role = .responder)
    (hdone : h.firstMessageDone = false) :
    h.readMessage suite message = (h', .ok out) ↔
      ∃ h₁, Succeeds (NoiseHandshake.readMessage1 suite message) { h with inFlight := true } out h₁ ∧
        h' = { h₁ with inFlight := false } := by
  obtain ⟨role, symmetric, staticKeyPair, ephemeral, remoteStatic, remoteEphemeral, done, _, _, _⟩ := h
  cases hrole
  cases hdone
  exact step_ok ready

theorem readMessage_initiator (ready : h.Ready) (hrole : h.role = .initiator)
    (hdone : h.firstMessageDone = true) :
    h.readMessage suite message = (h', .ok out) ↔
      ∃ h₁, Succeeds (NoiseHandshake.readMessage2 suite message) { h with inFlight := true } out h₁ ∧
        h' = { h₁ with inFlight := false } := by
  obtain ⟨role, symmetric, staticKeyPair, ephemeral, remoteStatic, remoteEphemeral, done, _, _, _⟩ := h
  cases hrole
  cases hdone
  exact step_ok ready

theorem writeMessage_initiator (ready : h.Ready) (hrole : h.role = .initiator)
    (hdone : h.firstMessageDone = false) :
    h.writeMessage suite generated payload = (h', .ok out) ↔
      ∃ h₁, Succeeds (NoiseHandshake.writeMessage1 suite generated payload)
          { h with inFlight := true } out h₁ ∧ h' = { h₁ with inFlight := false } := by
  obtain ⟨role, symmetric, staticKeyPair, ephemeral, remoteStatic, remoteEphemeral, done, _, _, _⟩ := h
  cases hrole
  cases hdone
  exact step_ok ready

theorem writeMessage_responder (ready : h.Ready) (hrole : h.role = .responder)
    (hdone : h.firstMessageDone = true) :
    h.writeMessage suite generated payload = (h', .ok out) ↔
      ∃ h₁, Succeeds (NoiseHandshake.writeMessage2 suite generated payload)
          { h with inFlight := true } out h₁ ∧ h' = { h₁ with inFlight := false } := by
  obtain ⟨role, symmetric, staticKeyPair, ephemeral, remoteStatic, remoteEphemeral, done, _, _, _⟩ := h
  cases hrole
  cases hdone
  exact step_ok ready

/-- A read that fails exposes no session. -/
theorem session_of_rejected (ready : h.Ready) {e : Exn}
    (hread : h.readMessage suite message = (h', .error e)) : h'.session = none := by
  obtain ⟨hfailed, hsession, hflight⟩ := ready
  have hbegin : h.beginStep = ({ h with inFlight := true }, .ok ()) := by
    rw [beginStep, hfailed, hsession, hflight]
    rfl
  rw [Awaited.readMessage_alone, hbegin] at hread
  dsimp only at hread
  have hunder : ∃ n < 2, ({ h with inFlight := true } : NoiseHandshake Key).Under h.role n := by
    cases hdone : h.firstMessageDone with
    | false => exact ⟨0, by decide, rfl, rfl, hsession⟩
    | true => exact ⟨1, by decide, rfl, rfl, hsession⟩
  obtain ⟨n, hn, hunder⟩ := hunder
  have hends := (Awaited.runs_readMessage suite hn message _ hunder).finish
  rcases hrun : (Awaited.readMessage suite message).finish { h with inFlight := true } with
    ⟨e' | a, h₁⟩
  · rw [hrun] at hread hends
    cases hread
    have hprogress : h₁.Progress n := NoiseHandshake.Under.progress hends
    match n with
    | 0 | 1 => exact hprogress.2
  · rw [hrun] at hread
    cases hread

end Calls

/-! ### The honest handshake -/

/-- Who takes part in a handshake, under which prologue, and what they say. -/
structure Experiment (Key : Type) where
  prologue : Bytes
  initiator : Key
  responder : Key
  initiatorEphemeral : Key
  responderEphemeral : Key
  payload1 : Bytes
  payload2 : Bytes

namespace Experiment

section Messages

variable (suite : Suite Key) (pub : Key → Bytes) (x : Experiment Key)

def transcript0 : Transcript := .start suite x.prologue (pub x.responder)

def staticContext : Bytes × Bytes :=
  (x.transcript0 suite pub).staticSeal suite (pub x.initiatorEphemeral)
    (sharedSecret suite pub x.initiatorEphemeral x.responder)

def encryptedStatic : Bytes := sealUnder suite (x.staticContext suite pub) (pub x.initiator)

def payloadContext : Bytes × Bytes :=
  (x.transcript0 suite pub).payloadSeal suite (pub x.initiatorEphemeral)
    (sharedSecret suite pub x.initiatorEphemeral x.responder) (x.encryptedStatic suite pub)
    (sharedSecret suite pub x.initiator x.responder)

def encryptedPayload1 : Bytes := sealUnder suite (x.payloadContext suite pub) x.payload1

def message1 : Bytes :=
  pub x.initiatorEphemeral ++ x.encryptedStatic suite pub ++ x.encryptedPayload1 suite pub

def transcript1 : Transcript :=
  (x.transcript0 suite pub).first suite (pub x.initiatorEphemeral)
    (sharedSecret suite pub x.initiatorEphemeral x.responder) (x.encryptedStatic suite pub)
    (sharedSecret suite pub x.initiator x.responder) (x.encryptedPayload1 suite pub)

def replyContext : Bytes × Bytes :=
  (x.transcript1 suite pub).replySeal suite (pub x.responderEphemeral)
    (sharedSecret suite pub x.responderEphemeral x.initiatorEphemeral)
    (sharedSecret suite pub x.responderEphemeral x.initiator)

def encryptedPayload2 : Bytes := sealUnder suite (x.replyContext suite pub) x.payload2

def message2 : Bytes := pub x.responderEphemeral ++ x.encryptedPayload2 suite pub

def transcript2 : Transcript :=
  (x.transcript1 suite pub).second suite (pub x.responderEphemeral)
    (sharedSecret suite pub x.responderEphemeral x.initiatorEphemeral)
    (sharedSecret suite pub x.responderEphemeral x.initiator) (x.encryptedPayload2 suite pub)

/-- What the initiator has sealed in message 1. -/
def sealed1 : List Sealing :=
  [(x.staticContext suite pub, pub x.initiator, x.encryptedStatic suite pub),
    (x.payloadContext suite pub, x.payload1, x.encryptedPayload1 suite pub)]

/-- What both have sealed by the end. -/
def sealed2 : List Sealing :=
  x.sealed1 suite pub ++ [(x.replyContext suite pub, x.payload2, x.encryptedPayload2 suite pub)]

/-- What is hashed of the two messages, with this one read for the second. -/
def hashed (second : Bytes) : List Bytes :=
  hashed1 suite x.prologue (pub x.responder) (x.message1 suite pub) ++
    [hashed2 suite x.prologue (pub x.responder) (x.message1 suite pub) second]

end Messages

/-- Both payloads leave room for their message's framing. -/
structure Fits (x : Experiment Key) : Prop where
  payload1 : message1Overhead + x.payload1.length ≤ noiseMaxMessageLength
  payload2 : message2Overhead + x.payload2.length ≤ noiseMaxMessageLength

section Agreement

variable {pub : Key → Bytes} (ideal : IdealSuite suite) (dh : IdealDh suite pub)
  (x : Experiment Key)
include ideal dh

theorem length_encryptedStatic :
    (x.encryptedStatic suite pub).length = noiseKeyLength + noiseTagLength := by
  rw [encryptedStatic, sealUnder, ideal.tag, dh.length]

omit ideal in
theorem copyKey_message1 : copyKey (x.message1 suite pub) 0 = pub x.initiatorEphemeral := by
  rw [message1, List.append_assoc]
  exact copyKey_append (dh.length _)

theorem staticPart_message1 :
    staticPart (x.message1 suite pub) = x.encryptedStatic suite pub :=
  staticPart_append (dh.length _) (x.length_encryptedStatic ideal dh)

theorem payloadPart_message1 :
    payloadPart (x.message1 suite pub) = x.encryptedPayload1 suite pub :=
  payloadPart_append (dh.length _) (x.length_encryptedStatic ideal dh)

theorem length_message1 :
    (x.message1 suite pub).length = message1Overhead + x.payload1.length := by
  rw [message1, List.length_append, List.length_append, dh.length,
    x.length_encryptedStatic ideal dh, encryptedPayload1, sealUnder, ideal.tag]
  unfold message1Overhead
  omega

theorem length_message2 :
    (x.message2 suite pub).length = message2Overhead + x.payload2.length := by
  rw [message2, List.length_append, dh.length, encryptedPayload2, sealUnder, ideal.tag]
  unfold message2Overhead
  omega

/-! ### Both sides, message by message -/

def initiator₀ (suite : Suite Key) (pub : Key → Bytes) (x : Experiment Key) : NoiseHandshake Key :=
  freshHandshake suite x.prologue (keyPairOf pub x.initiator) none (some (pub x.responder))

def responder₀ (suite : Suite Key) (pub : Key → Bytes) (x : Experiment Key) : NoiseHandshake Key :=
  freshHandshake suite x.prologue (keyPairOf pub x.responder) none none

/-- The initiator's object once message 1 is written. -/
structure Waiting (suite : Suite Key) (pub : Key → Bytes) (x : Experiment Key)
    (i : NoiseHandshake Key) : Prop where
  ready : i.Ready
  role : i.role = .initiator
  done : i.firstMessageDone = true
  transcript : i.symmetric.transcript = x.transcript1 suite pub
  staticKeyPair : i.staticKeyPair = keyPairOf pub x.initiator
  ephemeral : i.ephemeral = some (keyPairOf pub x.initiatorEphemeral)

/-- The responder's object once it is read. -/
structure Informed (suite : Suite Key) (pub : Key → Bytes) (x : Experiment Key)
    (r : NoiseHandshake Key) : Prop where
  ready : r.Ready
  role : r.role = .responder
  done : r.firstMessageDone = true
  transcript : r.symmetric.transcript = x.transcript1 suite pub
  ephemeral : r.ephemeral = none
  remoteStatic : r.remoteStatic = some (pub x.initiator)
  remoteEphemeral : r.remoteEphemeral = some (pub x.initiatorEphemeral)

omit ideal in
theorem creates_initiator :
    createNoiseInitiator suite x.prologue (keyPairOf pub x.initiator) none (pub x.responder) =
      .ok (initiator₀ suite pub x) := by
  have hcopy : copyKey (pub x.responder) 0 = pub x.responder := by
    have h : copyKey (pub x.responder ++ []) 0 = pub x.responder := copyKey_append (dh.length _)
    rwa [List.append_nil] at h
  unfold createNoiseInitiator
  rw [requireKey_ok (u := ()).2 (dh.length x.responder), hcopy]
  dsimp only [bind, Except.bind]
  refine start_eq (dh.length x.initiator) ?_ ?_
  · intro e he
    cases he
  · intro rs hrs
    cases hrs
    exact dh.length _

omit ideal in
theorem creates_responder (prologue : Bytes) (responder : Key) :
    createNoiseResponder suite prologue (keyPairOf pub responder) none =
      .ok (freshHandshake suite prologue (keyPairOf pub responder) none none) := by
  refine start_eq (dh.length responder) ?_ ?_
  · intro e he
    cases he
  · intro rs hrs
    cases hrs

theorem writes_message1 (fits : x.Fits) :
    ∃ i, (initiator₀ suite pub x).writeMessage suite
          (some (keyPairOf pub x.initiatorEphemeral)) x.payload1 =
        (i, .ok (x.message1 suite pub)) ∧ Waiting suite pub x i := by
  refine ⟨_, (writeMessage_initiator ⟨rfl, rfl, rfl⟩ rfl rfl).2 ⟨_,
    (succeeds_writeMessage1 ideal.hmac (dh.length x.initiator)).2 ⟨fits.payload1,
      keyPairOf pub x.initiatorEphemeral, pub x.responder,
      sharedSecret suite pub x.initiatorEphemeral x.responder,
      sharedSecret suite pub x.initiator x.responder,
      x.encryptedStatic suite pub, x.encryptedPayload1 suite pub,
      rfl, rfl, (dh.x25519Agree _ _).1, (dh.x25519Agree _ _).1, rfl, rfl, rfl, rfl⟩, rfl⟩, ?_⟩
  exact ⟨⟨rfl, rfl, rfl⟩, rfl, rfl, rfl, rfl, rfl⟩

theorem reads_message1 (fits : x.Fits) :
    ∃ r, (responder₀ suite pub x).readMessage suite (x.message1 suite pub) =
        (r, .ok x.payload1) ∧ Informed suite pub x r := by
  have hstatic := x.staticPart_message1 ideal dh
  have hpayload := x.payloadPart_message1 ideal dh
  have hlength := x.length_message1 ideal dh
  unfold staticPart at hstatic
  unfold payloadPart at hpayload
  refine ⟨_, (readMessage_responder ⟨rfl, rfl, rfl⟩ rfl rfl).2 ⟨_,
    (succeeds_readMessage1 ideal.hmac).2 ⟨?_, ?_,
      sharedSecret suite pub x.initiatorEphemeral x.responder, pub x.initiator,
      sharedSecret suite pub x.initiator x.responder, ?_, ?_, dh.length _,
      (dh.x25519Agree _ _).2, ?_, rfl⟩, rfl⟩, ?_⟩
  · rw [hlength]
    exact Nat.le_add_right _ _
  · rw [hlength]
    exact fits.payload1
  · rw [x.copyKey_message1 dh]
    exact (dh.x25519Agree _ _).2
  · rw [x.copyKey_message1 dh, hstatic]
    exact ideal.opens_sealed _ _
  · rw [x.copyKey_message1 dh, hstatic, hpayload]
    exact ideal.opens_sealed _ _
  · rw [x.copyKey_message1 dh, hstatic, hpayload]
    exact ⟨⟨rfl, rfl, rfl⟩, rfl, rfl, rfl, rfl, rfl, rfl⟩

variable {x} {i r : NoiseHandshake Key}

theorem Informed.writes_message2 (fits : x.Fits) (informed : Informed suite pub x r) :
    ∃ r', r.writeMessage suite (some (keyPairOf pub x.responderEphemeral)) x.payload2 =
        (r', .ok (x.message2 suite pub)) ∧ r'.remoteStatic = some (pub x.initiator) ∧
      r'.session = some ((x.transcript2 suite pub).session suite .responder) := by
  have htranscript := informed.transcript
  refine ⟨_, (writeMessage_responder informed.ready informed.role informed.done).2 ⟨_,
    (succeeds_writeMessage2 ideal.hmac).2 ⟨fits.payload2,
      keyPairOf pub x.responderEphemeral, pub x.initiatorEphemeral, pub x.initiator,
      sharedSecret suite pub x.responderEphemeral x.initiatorEphemeral,
      sharedSecret suite pub x.responderEphemeral x.initiator,
      x.encryptedPayload2 suite pub, ?_, informed.remoteEphemeral, informed.remoteStatic,
      (dh.x25519Agree _ _).1, (dh.x25519Agree _ _).1, ?_, rfl, rfl⟩, rfl⟩,
    informed.remoteStatic, ?_⟩
  · show r.ephemeral.or _ = _
    rw [informed.ephemeral]
    rfl
  · show _ = sealUnder suite (r.symmetric.transcript.replySeal suite _ _ _) x.payload2
    rw [htranscript]
    rfl
  · show some ((r.symmetric.transcript.second suite _ _ _ _).session suite r.role) = _
    rw [htranscript, informed.role]
    rfl

theorem Waiting.reads_message2 (fits : x.Fits) (waiting : Waiting suite pub x i) :
    ∃ i', i.readMessage suite (x.message2 suite pub) = (i', .ok x.payload2) ∧
      i'.session = some ((x.transcript2 suite pub).session suite .initiator) := by
  have htranscript := waiting.transcript
  have hlength := x.length_message2 ideal dh
  have hcopy : copyKey (x.message2 suite pub) 0 = pub x.responderEphemeral :=
    copyKey_append (dh.length _)
  have hdrop : (x.message2 suite pub).drop noiseKeyLength = x.encryptedPayload2 suite pub :=
    drop_append (dh.length _)
  refine ⟨_, (readMessage_initiator waiting.ready waiting.role waiting.done).2 ⟨_,
    (succeeds_readMessage2 ideal.hmac).2 ⟨?_, ?_, keyPairOf pub x.initiatorEphemeral,
      sharedSecret suite pub x.responderEphemeral x.initiatorEphemeral,
      sharedSecret suite pub x.responderEphemeral x.initiator, waiting.ephemeral, ?_, ?_, ?_,
      rfl⟩, rfl⟩, ?_⟩
  · rw [hlength]
    exact Nat.le_add_right _ _
  · rw [hlength]
    exact fits.payload2
  · rw [hcopy]
    exact (dh.x25519Agree _ _).2
  · show Noise.x25519Agree suite i.staticKeyPair.privateKey _ = _
    rw [waiting.staticKeyPair, hcopy]
    exact (dh.x25519Agree _ _).2
  · show openUnder suite (i.symmetric.transcript.replySeal suite _ _ _) _ = _
    rw [htranscript, hcopy, hdrop]
    exact ideal.opens_sealed _ _
  · show some ((i.symmetric.transcript.second suite _ _ _ _).session suite i.role) = _
    rw [htranscript, waiting.role, hcopy, hdrop]
    rfl

/-! ### What a reader opens -/

omit ideal in
theorem hash_staticContext :
    (x.staticContext suite pub).2 =
      hash1 suite x.prologue (pub x.responder) (x.message1 suite pub) := by
  unfold hash1
  rw [x.copyKey_message1 dh]
  rfl

theorem hash_payloadContext :
    (x.payloadContext suite pub).2 =
      hash2 suite x.prologue (pub x.responder) (x.message1 suite pub) := by
  unfold hash2
  rw [← hash_staticContext dh, x.staticPart_message1 ideal dh]
  rfl

theorem hash_transcript1 :
    (x.transcript1 suite pub).hash =
      hash3 suite x.prologue (pub x.responder) (x.message1 suite pub) := by
  unfold hash3
  rw [← hash_payloadContext ideal dh, x.payloadPart_message1 ideal dh]
  rfl

/-- Only the message that was written, under its prologue and to its responder, is read. -/
theorem reads_only_message1 {prologue : Bytes} {responder : Key} {message out : Bytes}
    (free : CollisionFree suite
      (hashed1 suite x.prologue (pub x.responder) (x.message1 suite pub))
      (hashed1 suite prologue (pub responder) message))
    (hstatic : OpensOnly suite (x.sealed1 suite pub) (staticPart message))
    (hpayload : OpensOnly suite (x.sealed1 suite pub) (payloadPart message))
    (hread : (freshHandshake suite prologue (keyPairOf pub responder) none none).readMessage suite
      message = (r, .ok out)) :
    prologue = x.prologue ∧ pub responder = pub x.responder ∧ message = x.message1 suite pub := by
  obtain ⟨_, hsucceeds, -⟩ := (readMessage_responder ⟨rfl, rfl, rfl⟩ rfl rfl).1 hread
  obtain ⟨hmin, -, es, rs, ss, -, hrs, -, -, hout, -⟩ :=
    (succeeds_readMessage1 ideal.hmac).1 hsucceeds
  have hkey : noiseKeyLength ≤ message.length := Nat.le_trans (by decide) hmin
  have hmin' : message1Overhead ≤ (x.message1 suite pub).length := by
    rw [x.length_message1 ideal dh]
    exact Nat.le_add_right _ _
  -- The static is the sealed static: the payload was sealed under a longer transcript.
  have hfirst : hash1 suite prologue (pub responder) message = (x.staticContext suite pub).2 ∧
      staticPart message = x.encryptedStatic suite pub := by
    rcases List.mem_cons.1 (hstatic _ _ hrs) with heq | hmem
    · exact ⟨congrArg (·.1.2) heq, congrArg (·.2.2) heq⟩
    · have heq := List.mem_singleton.1 hmem
      have hhash : hash1 suite prologue (pub responder) message = (x.payloadContext suite pub).2 :=
        congrArg (·.1.2) heq
      rw [hash_payloadContext ideal dh] at hhash
      exact absurd hhash.symm (hash2_ne_hash1 ideal free hmin' hkey)
  have hhash := hfirst.1.symm
  rw [hash_staticContext dh] at hhash
  obtain ⟨hprologue, hresponder, hephemeral⟩ := hash1_inj ideal free hhash
  have hstaticPart : staticPart message = staticPart (x.message1 suite pub) := by
    rw [hfirst.2, x.staticPart_message1 ideal dh]
  have hsecond : hash2 suite prologue (pub responder) message =
      hash2 suite x.prologue (pub x.responder) (x.message1 suite pub) := by
    unfold hash2
    rw [hhash, hstaticPart]
  have hpayloadPart : payloadPart message = payloadPart (x.message1 suite pub) := by
    rw [x.payloadPart_message1 ideal dh]
    rcases List.mem_cons.1 (hpayload _ _ hout) with heq | hmem
    · have hcontext : hash2 suite prologue (pub responder) message =
          (x.staticContext suite pub).2 := congrArg (·.1.2) heq
      rw [← hfirst.1, hsecond] at hcontext
      exact absurd hcontext (hash2_ne_hash1 ideal free hmin' hkey)
    · exact congrArg (·.2.2) (List.mem_singleton.1 hmem)
  refine ⟨hprologue.symm, hresponder.symm, ?_⟩
  rw [← parts_eq message, ← parts_eq (x.message1 suite pub), hstaticPart, hpayloadPart, hephemeral]

/-- Only the reply that was written is read. -/
theorem Waiting.reads_only_message2 {i' : NoiseHandshake Key} {message out : Bytes}
    (waiting : Waiting suite pub x i)
    (free : CollisionFree suite (x.hashed suite pub (x.message2 suite pub))
      (x.hashed suite pub message))
    (hsealed : OpensOnly suite (x.sealed2 suite pub) (message.drop noiseKeyLength))
    (hread : i.readMessage suite message = (i', .ok out)) : message = x.message2 suite pub := by
  obtain ⟨_, hsucceeds, -⟩ :=
    (readMessage_initiator waiting.ready waiting.role waiting.done).1 hread
  obtain ⟨hmin, -, e, ee, se, -, -, -, hout, -⟩ := (succeeds_readMessage2 ideal.hmac).1 hsucceeds
  have hkey : (copyKey message 0).length = noiseKeyLength :=
    length_copyKey (Nat.le_trans (by decide) hmin)
  have hlength1 : message1Overhead ≤ (x.message1 suite pub).length := by
    rw [x.length_message1 ideal dh]
    exact Nat.le_add_right _ _
  have hhash : (i.symmetric.transcript.replySeal suite (copyKey message 0) ee se).2 =
      suite.sha256 (hashed2 suite x.prologue (pub x.responder) (x.message1 suite pub) message) := by
    unfold hashed2
    rw [waiting.transcript, ← hash_transcript1 ideal dh]
    rfl
  have hmem2 : ∀ second, hashed2 suite x.prologue (pub x.responder) (x.message1 suite pub) second ∈
      x.hashed suite pub second := fun _ => List.mem_append_right _ (List.mem_singleton.2 rfl)
  have hmem1 : ∀ second input,
      input ∈ hashed1 suite x.prologue (pub x.responder) (x.message1 suite pub) →
        input ∈ x.hashed suite pub second := fun _ _ h => List.mem_append_left _ h
  rcases List.mem_append.1 (hsealed _ _ hout) with hmem | hmem
  · rcases List.mem_cons.1 hmem with heq | hmem'
    · have hcontext : suite.sha256 (hashed2 suite x.prologue (pub x.responder)
          (x.message1 suite pub) message) = (x.staticContext suite pub).2 :=
        hhash.symm.trans (congrArg (·.1.2) heq)
      rw [hash_staticContext dh] at hcontext
      have hinput := free.append_inj (hmem1 _ _ (by simp [hashed1])) (hmem2 message)
        hcontext.symm (by
          show (suite.sha256 _).length = (suite.sha256 _).length
          rw [ideal.sha256, ideal.sha256])
      exact absurd hinput.1.symm (hash3_ne_hash0 ideal (free.mono (hmem1 _) (hmem1 _)))
    · have hcontext : suite.sha256 (hashed2 suite x.prologue (pub x.responder)
          (x.message1 suite pub) message) = (x.payloadContext suite pub).2 :=
        hhash.symm.trans (congrArg (·.1.2) (List.mem_singleton.1 hmem'))
      rw [hash_payloadContext ideal dh] at hcontext
      have hinput := free.append_inj (hmem1 _ _ (by simp [hashed1])) (hmem2 message)
        hcontext.symm (by
          show (suite.sha256 _).length = (suite.sha256 _).length
          rw [ideal.sha256, ideal.sha256])
      have hwidth := congrArg List.length hinput.2
      rw [length_staticPart hlength1, hkey] at hwidth
      exact absurd hwidth (by decide)
  · have heq := List.mem_singleton.1 hmem
    have hcopy : copyKey (x.message2 suite pub) 0 = pub x.responderEphemeral :=
      copyKey_append (dh.length _)
    have hcontext : suite.sha256 (hashed2 suite x.prologue (pub x.responder)
        (x.message1 suite pub) message) = suite.sha256 (hashed2 suite x.prologue
          (pub x.responder) (x.message1 suite pub) (x.message2 suite pub)) := by
      rw [← hhash, congrArg (·.1.2) heq]
      unfold hashed2
      rw [hcopy, ← hash_transcript1 ideal dh]
      rfl
    have hinput := free.append_inj (hmem2 _) (hmem2 message) hcontext.symm rfl
    rw [hcopy] at hinput
    have hcipher : message.drop noiseKeyLength = x.encryptedPayload2 suite pub :=
      congrArg (·.2.2) heq
    rw [message2, hinput.2, ← hcipher]
    exact (List.take_append_drop noiseKeyLength message).symm

end Agreement

end Experiment

/-! ### Agreement -/

/-- A read that throws and exposes no session. -/
def NoiseHandshake.Rejects (suite : Suite Key) (h : NoiseHandshake Key) (message : Bytes) : Prop :=
  ∃ h' e, h.readMessage suite message = (h', .error e) ∧ h'.session = none

theorem NoiseHandshake.Ready.rejects {h : NoiseHandshake Key} {message : Bytes} (ready : h.Ready)
    (hread : ∀ h' out, h.readMessage suite message ≠ (h', .ok out)) : h.Rejects suite message := by
  rcases hresult : h.readMessage suite message with ⟨h', e | out⟩
  · exact ⟨h', e, hresult, session_of_rejected ready hresult⟩
  · exact absurd hresult (hread h' out)

/-- The handshake of an experiment completes: one hash, mirrored keys, the initiator's static
learned, both payloads delivered; and each message, as altered in any way or read under another
prologue or static, is rejected. -/
theorem ik_agreement {pub : Key → Bytes} (ideal : IdealSuite suite) (dh : IdealDh suite pub)
    (x : Experiment Key) (fits : x.Fits) :
    ∃ i₀ i₁ i₂ r₀ r₁ r₂ sent received,
      createNoiseInitiator suite x.prologue (keyPairOf pub x.initiator) none (pub x.responder) =
        .ok i₀ ∧
      createNoiseResponder suite x.prologue (keyPairOf pub x.responder) none = .ok r₀ ∧
      i₀.writeMessage suite (some (keyPairOf pub x.initiatorEphemeral)) x.payload1 =
        (i₁, .ok (x.message1 suite pub)) ∧
      r₀.readMessage suite (x.message1 suite pub) = (r₁, .ok x.payload1) ∧
      r₁.remoteStatic = some (pub x.initiator) ∧
      r₁.writeMessage suite (some (keyPairOf pub x.responderEphemeral)) x.payload2 =
        (r₂, .ok (x.message2 suite pub)) ∧
      i₁.readMessage suite (x.message2 suite pub) = (i₂, .ok x.payload2) ∧
      i₂.session = some sent ∧ r₂.session = some received ∧
      sent.handshakeHash = received.handshakeHash ∧
      sent.send = received.receive ∧ sent.receive = received.send ∧
      r₂.remoteStatic = some (pub x.initiator) ∧
      (∀ prologue responder message,
        ¬ (prologue = x.prologue ∧ pub responder = pub x.responder ∧
          message = x.message1 suite pub) →
        CollisionFree suite (hashed1 suite x.prologue (pub x.responder) (x.message1 suite pub))
          (hashed1 suite prologue (pub responder) message) →
        OpensOnly suite (x.sealed1 suite pub) (staticPart message) →
        OpensOnly suite (x.sealed1 suite pub) (payloadPart message) →
        ∃ r, createNoiseResponder suite prologue (keyPairOf pub responder) none = .ok r ∧
          r.Rejects suite message) ∧
      (∀ message, message ≠ x.message2 suite pub →
        CollisionFree suite (x.hashed suite pub (x.message2 suite pub))
          (x.hashed suite pub message) →
        OpensOnly suite (x.sealed2 suite pub) (message.drop noiseKeyLength) →
        i₁.Rejects suite message) := by
  obtain ⟨i₁, hwrite₁, waiting⟩ := x.writes_message1 ideal dh fits
  obtain ⟨r₁, hread₁, informed⟩ := x.reads_message1 ideal dh fits
  obtain ⟨r₂, hwrite₂, hremote, hsession₂⟩ := informed.writes_message2 ideal dh fits
  obtain ⟨i₂, hread₂, hsession₁⟩ := waiting.reads_message2 ideal dh fits
  refine ⟨_, i₁, i₂, _, r₁, r₂, _, _, x.creates_initiator dh,
    Experiment.creates_responder dh _ _, hwrite₁, hread₁, informed.remoteStatic, hwrite₂, hread₂, hsession₁, hsession₂, rfl, rfl, rfl, hremote,
    ?_, ?_⟩
  · intro prologue responder message hother free hstatic hpayload
    refine ⟨_, Experiment.creates_responder dh prologue responder,
      NoiseHandshake.Ready.rejects ⟨rfl, rfl, rfl⟩ ?_⟩
    intro r out hread
    exact hother (Experiment.reads_only_message1 ideal dh free hstatic hpayload hread)
  · intro message hother free hsealed
    refine waiting.ready.rejects ?_
    intro i out hread
    exact hother (waiting.reads_only_message2 ideal dh free hsealed hread)

/-! ### A toy suite -/

namespace Toy

/-- 32 bytes of a polynomial in the data. -/
def digest (data : Bytes) : Bytes :=
  let sum := data.foldl (fun sum byte => (sum * 257 + byte.toNat + 1) % 256 ^ 32) 1
  (List.range 32).map fun i => UInt8.ofNat (sum / 256 ^ i)

def publicKey (key : UInt8) : Bytes := key :: List.replicate 31 1

def deriveBits (key : UInt8) (other : Bytes) : Option Bytes :=
  some ((key + other.headD 0) :: List.replicate 31 1)

def tagOf (honest : Bool) : Bytes := List.replicate noiseTagLength (if honest then 1 else 0)

/-- The toy suite whose AEAD marks what `honest` seals. -/
def suiteOf (honest : Bytes → Bytes → Bytes → Bool) : Suite UInt8 where
  sha256 := digest
  hmacSha256 := fun key data => digest (key ++ data)
  deriveBits := deriveBits
  aead := {
    encrypt := fun key _ ad plaintext => plaintext ++ tagOf (honest key ad plaintext)
    decrypt := fun key _ ad ciphertext =>
      let plaintext := ciphertext.take (ciphertext.length - noiseTagLength)
      if plaintext ++ tagOf (honest key ad plaintext) = ciphertext then some plaintext else none }

def experiment : Experiment UInt8 where
  prologue := [1, 2]
  initiator := 3
  responder := 4
  initiatorEphemeral := 5
  responderEphemeral := 6
  payload1 := [7]
  payload2 := [8]

/-- The contexts and plaintexts of the experiment. -/
def honest (key ad plaintext : Bytes) : Bool :=
  ((experiment.sealed2 (suiteOf fun _ _ _ => true) publicKey).map fun s => (s.1, s.2.1)).contains
    ((key, ad), plaintext)

def toySuite : Suite UInt8 := suiteOf honest

theorem length_digest (data : Bytes) : (digest data).length = noiseKeyLength := by
  rw [digest, List.length_map, List.length_range]
  rfl

theorem take_tagged (plaintext : Bytes) (b : Bool) :
    (plaintext ++ tagOf b).take ((plaintext ++ tagOf b).length - noiseTagLength) = plaintext := by
  rw [List.length_append, tagOf, List.length_replicate, Nat.add_sub_cancel]
  exact List.take_left

theorem ideal : IdealSuite toySuite where
  sha256 := length_digest
  hmac := fun _ _ => length_digest _
  opens := by
    intro key nonce ad plaintext
    show (if _ then _ else _) = _
    simp only [toySuite, suiteOf, take_tagged, if_true]
  tag := by
    intro key nonce ad plaintext
    show (plaintext ++ tagOf _).length = _
    rw [List.length_append, tagOf, List.length_replicate]

theorem dh : IdealDh toySuite publicKey where
  length := fun _ => rfl
  agree := by
    intro a b
    refine ⟨(a + b) :: List.replicate 31 1, rfl, ?_, rfl, ?_⟩
    · show some ((b + a) :: _) = _
      rw [UInt8.add_comm]
    · intro hzero
      exact absurd (List.cons.inj hzero).2 (by decide)

/-- What opens, and is not marked otherwise, is one of the honest sealings. -/
theorem opensOnly {sealed : List Sealing} {ciphertext : Bytes}
    (htag : ciphertext.drop (ciphertext.length - noiseTagLength) ≠ tagOf false)
    (hsealed : ∀ s ∈ experiment.sealed2 (suiteOf fun _ _ _ => true) publicKey,
      s.2.1 = ciphertext.take (ciphertext.length - noiseTagLength) →
        (s.1, s.2.1, ciphertext) ∈ sealed) :
    OpensOnly toySuite sealed ciphertext := by
  intro context plaintext hopen
  simp only [openUnder, toySuite, suiteOf, Option.ite_none_right_eq_some, Option.some.injEq] at hopen
  obtain ⟨hcipher, hplaintext⟩ := hopen
  rw [hplaintext] at hcipher
  cases hhonest : honest context.1 context.2 plaintext with
  | true =>
    obtain ⟨s, hs, heq⟩ := List.mem_map.1 (List.contains_iff_mem.1 hhonest)
    obtain ⟨hcontext, rfl⟩ := Prod.mk.inj heq
    have hfound := hsealed s hs hplaintext.symm
    rw [hcontext] at hfound
    exact hfound
  | false =>
    rw [hhonest] at hcipher
    refine absurd ?_ htag
    rw [← hcipher, List.length_append, tagOf, List.length_replicate, Nat.add_sub_cancel]
    exact List.drop_left

/-- Changing the first byte of a message. -/
def altered (message : Bytes) : Bytes := (message.headD 0 + 1) :: message.tail

def message1 : Bytes := experiment.message1 toySuite publicKey

def message2 : Bytes := experiment.message2 toySuite publicKey

/-- Another prologue, another static, or another first byte: nothing is read. -/
theorem ik_agreement_altered :
    (∃ r, createNoiseResponder toySuite [2, 1] (keyPairOf publicKey 4) none = .ok r ∧
        r.Rejects toySuite message1) ∧
      (∃ r, createNoiseResponder toySuite [1, 2] (keyPairOf publicKey 9) none = .ok r ∧
        r.Rejects toySuite message1) ∧
      (∃ r, createNoiseResponder toySuite [1, 2] (keyPairOf publicKey 4) none = .ok r ∧
        r.Rejects toySuite (altered message1)) ∧
      ∃ i₀ i₁, createNoiseInitiator toySuite [1, 2] (keyPairOf publicKey 3) none (publicKey 4) =
          .ok i₀ ∧
        i₀.writeMessage toySuite (some (keyPairOf publicKey 5)) [7] = (i₁, .ok message1) ∧
        i₁.Rejects toySuite (altered message2) := by
  obtain ⟨i₀, i₁, _, _, _, _, _, _, hcreate, -, hwrite, -, -, -, -, -, -, -, -, -, -, hother,
    hreply⟩ := ik_agreement ideal dh experiment ⟨by decide, by decide⟩
  refine ⟨?_, ?_, ?_, i₀, i₁, hcreate, hwrite, ?_⟩
  · exact hother [2, 1] 4 message1 (by decide +kernel) (by decide +kernel)
      (opensOnly (by decide +kernel) (by decide +kernel))
      (opensOnly (by decide +kernel) (by decide +kernel))
  · exact hother [1, 2] 9 message1 (by decide +kernel) (by decide +kernel)
      (opensOnly (by decide +kernel) (by decide +kernel))
      (opensOnly (by decide +kernel) (by decide +kernel))
  · exact hother [1, 2] 4 (altered message1) (by decide +kernel) (by decide +kernel)
      (opensOnly (by decide +kernel) (by decide +kernel))
      (opensOnly (by decide +kernel) (by decide +kernel))
  · exact hreply (altered message2) (by decide +kernel) (by decide +kernel)
      (opensOnly (by decide +kernel) (by decide +kernel))

/-- A payload over the cap is refused, whatever the keys. -/
theorem message1_too_long :
    IdealSuite toySuite ∧ IdealDh toySuite publicKey ∧
      ∃ i₀, createNoiseInitiator toySuite [1, 2] (keyPairOf publicKey 3) none (publicKey 4) =
          .ok i₀ ∧
        ∀ i message, i₀.writeMessage toySuite (some (keyPairOf publicKey 5))
          (List.replicate 65440 7) ≠ (i, .ok message) := by
  refine ⟨ideal, dh, _, experiment.creates_initiator dh, ?_⟩
  intro i message hwrite
  obtain ⟨_, hsucceeds, -⟩ := (writeMessage_initiator ⟨rfl, rfl, rfl⟩ rfl rfl).1 hwrite
  have hlength := ((succeeds_writeMessage1 ideal.hmac (dh.length _)).1 hsucceeds).1
  rw [List.length_replicate] at hlength
  exact absurd hlength (by decide)

end Toy

end Dormouse.Noise
