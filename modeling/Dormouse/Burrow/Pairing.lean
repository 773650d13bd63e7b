import Dormouse.Burrow.Model

/-!
# Dormouse.Burrow.Pairing

The **pairing ceremony** (`burrow-runtime.ts`): minting an invitation, Noise message 1
against its key, the presence proof, the person's answer, and the queue of saves that
writes the ACL.

Whatever is random (key pairs, ids, challenges) is an argument of the stretch that
draws it.
-/

namespace Dormouse.Burrow.BurrowRuntime

open Noise (Bytes Session NoiseKeyPair NoiseHandshake createNoiseResponder)
open Security
open Terminal (Ms)

variable {Key : Type} (opts : BurrowOptions Key)

/-! ### Invitations -/

/-- `mintInvitation`, up to the generation of its keypair. -/
def mintInvitation (s : BurrowRuntime Key) (setupToken : JsString) (relayExpiresAtMs : Ms) :
    BurrowRuntime Key :=
  { s with mints := s.mints ++ [⟨s.epoch, setupToken, relayExpiresAtMs⟩] }

/-- Retire the oldest invitations while the cap leaves no room. -/
def evictInvitations : Nat → BurrowRuntime Key → BurrowRuntime Key
  | 0, s => s
  | rounds + 1, s =>
    if s.invitations.size < maxTokensPerBurrow then s
    else
      match s.invitations.entries.head? with
      | none => s
      | some (inviteId, _) => evictInvitations rounds (s.retireInvitation inviteId none none)

/-- The invitation a mint inserts. -/
def invitationOf (mint : Mint) (keyPair : NoiseKeyPair Key) (inviteId : JsString)
    (expiresAt : Ms) : PairingInvitation where
  burrowId := opts.burrowId
  inviteId := inviteId
  expiry := ⌊expiresAt / 1000⌋
  setupToken := mint.setupToken
  ephPub := keyPair.publicKey
  ephPubBase64Url := toBase64Url keyPair.publicKey

/-- What a mint does once its keypair is there; an expiry no code can spell throws before
anything is stored. -/
def insertInvitation (s : BurrowRuntime Key) (mint : Mint) (keyPair : NoiseKeyPair Key)
    (inviteId : JsString) (now : Ms) : BurrowRuntime Key :=
  let s := s.reap opts now
  let s := evictInvitations s.invitations.size s
  let expiresAt := min (now + defaultPairingTtlMs) mint.relayExpiresAtMs
  let invitation := invitationOf opts mint keyPair inviteId expiresAt
  match formatInvitationExpiry invitation.expiry with
  | none => s
  | some _ =>
    let held : HeldInvitation Key := ⟨s.nextUid, invitation, keyPair, expiresAt, .live⟩
    { s with
      invitations := s.invitations.set inviteId held
      nextUid := s.nextUid + 1
      history := s.history ++ [Event.minted held] }.armReaper

/-- A mint resumes: key generation may have failed, and a teardown may have come
between. -/
def mintResumes (s : BurrowRuntime Key) (index : Nat) (keyPair : Option (NoiseKeyPair Key))
    (inviteId : JsString) (now : Ms) : BurrowRuntime Key :=
  match s.mints[index]?, keyPair with
  | none, _ => s
  | some _, none => { s with mints := s.mints.eraseIdx index }
  | some mint, some keyPair =>
    let s := { s with mints := s.mints.eraseIdx index }
    if s.epoch ≠ mint.epoch then s else s.insertInvitation opts mint keyPair inviteId now

/-- What one invitation is doing, as the panel asks. -/
def invitationState (s : BurrowRuntime Key) (inviteId : JsString) (now : Ms) : InvitationState :=
  match s.invitations.get inviteId with
  | none => .consumed
  | some held =>
    if held.expiresAt ≤ now then .expired
    else
      match held.state with
      | .live => .live
      | .reserved => .reserved

/-! ### Message 1 -/

/-- `#spendInitToken()`. -/
def spendInitToken (s : BurrowRuntime Key) (now : Ms) : BurrowRuntime Key × Bool :=
  let r := s.initTokens.take now
  ({ s with initTokens := r.1 }, r.2.isNone)

/-- What a completed responder handshake leaves. -/
structure Handshaken where
  session : Session Bytes
  handshakeHash : JsString
  clientStaticPublicKey : JsString
  message2 : Bytes

/-- What both ceremonies take from a finished handshake. -/
def handshaken (handshake : NoiseHandshake Key) (message2 : Bytes) : Option Handshaken := do
  let remoteStatic ← handshake.remoteStatic
  let session ← handshake.session
  return ⟨session.toTransport, toBase64Url session.handshakeHash, toBase64Url remoteStatic, message2⟩

/-- Read message 1 of `ct`, which must carry no payload. -/
def readMessage1 (prologue : Bytes) (staticKeyPair : NoiseKeyPair Key) (ct : JsString) :
    Option (NoiseHandshake Key) :=
  match createNoiseResponder opts.platform.suite prologue staticKeyPair none, fromBase64Url ct with
  | .ok handshake, some message =>
    match handshake.readMessage opts.platform.suite message with
    | (handshake, .ok []) => some handshake
    | _ => none
  | _, _ => none

/-- Write message 2 with this payload. -/
def writeMessage2 (handshake : NoiseHandshake Key) (ephemeral : Option (NoiseKeyPair Key))
    (payload : Bytes) : Option Handshaken :=
  match handshake.writeMessage opts.platform.suite ephemeral payload with
  | (handshake, .ok message2) => handshaken handshake message2
  | _ => none

/-- The responder's side of IK against one invitation's key; whatever it throws is
caught, and leaves nothing. -/
def pairingHandshake (held : HeldInvitation Key) (ct : JsString)
    (ephemeral : Option (NoiseKeyPair Key)) : Option Handshaken := do
  let prologue ← pairingInvitationPrologue held.invitation
  let handshake ← readMessage1 opts prologue held.keyPair ct
  writeMessage2 opts handshake ephemeral []

/-- `#onPairingInit`, up to the handshake. -/
def onPairingInit (s : BurrowRuntime Key) (frame : E2eRelayToBurrowFrame) (epoch : Nat)
    (now : Ms) : BurrowRuntime Key :=
  match s.invitations.get frame.id with
  | none => s
  | some held =>
    if held.state ≠ .live then s
    else
      let (s, spent) := s.spendInitToken now
      if spent then { s with task := some (.pairingHandshake frame epoch held) } else s

/-- `this.#invitations.get(id) === held`. -/
def holdsInvitation (s : BurrowRuntime Key) (inviteId : JsString) (uid : Nat) : Bool :=
  (s.invitations.get inviteId).any (·.uid == uid)

/-- `held.state = 'reserved'`, on the object: a detached one is written to no effect. -/
def reserve (s : BurrowRuntime Key) (inviteId : JsString) (held : HeldInvitation Key) :
    BurrowRuntime Key :=
  if s.holdsInvitation inviteId held.uid then
    { s with invitations := s.invitations.set inviteId { held with state := .reserved } }
  else s

/-- The pending pairing a reservation allocates. -/
def pairingFor (s : BurrowRuntime Key) (held : HeldInvitation Key) (h : Handshaken)
    (pairingId : JsString) (now : Ms) : PendingPairingSession where
  uid := s.nextUid
  inviteUid := held.uid
  inviteId := held.invitation.inviteId
  pairingId := pairingId
  handshakeHash := h.handshakeHash
  clientStaticPublicKey := h.clientStaticPublicKey
  requestedAt := now
  expiresAt := held.expiresAt
  committing := false
  approval := none
  attempted := false

/-- Install a pending pairing, its session with it. -/
def installPairing (s : BurrowRuntime Key) (frame : E2eRelayToBurrowFrame)
    (held : HeldInvitation Key) (h : Handshaken) (ephemeral : Option (NoiseKeyPair Key))
    (pending : PendingPairingSession) : BurrowRuntime Key :=
  let s := s.clientState frame.clientId
  let s := s.editClient frame.clientId fun state => { state with pairing := some pending }
  { s with
    sessions := s.sessions.set pending.uid h.session
    nextUid := s.nextUid + 1
    history := s.history ++ [.reserved frame held ephemeral pending] }

/-- What a new pairing displaces: its own client's, and the oldest at the cap. -/
def displacePairings (s : BurrowRuntime Key) (clientId : ClientId) : BurrowRuntime Key :=
  (s.finishPairing opts clientId .superseded).evictOldestPairingIfFull opts

/-- `#onPairingInit`, once the handshake is through: `held` must still be the entry its
id names. -/
def pairingHandshakeResumes (s : BurrowRuntime Key) (frame : E2eRelayToBurrowFrame)
    (epoch : Nat) (held : HeldInvitation Key) (ephemeral : Option (NoiseKeyPair Key))
    (pairingId : JsString) (now : Ms) : BurrowRuntime Key :=
  match pairingHandshake opts held frame.ct ephemeral with
  | none => s
  | some h =>
    if s.epoch ≠ epoch ∨ ¬ s.holdsInvitation frame.id held.uid then s
    else
      let s := s.displacePairings opts frame.clientId
      let s := s.reserve frame.id held
      let s := s.emit (.invitationChanged held.invitation.inviteId .reserved none)
      let s := s.installPairing frame held h ephemeral (s.pairingFor held h pairingId now)
      s.armReaper.sendE2e frame.clientId .pairing frame.id .response h.message2

/-! ### The request -/

/-- The binding a pairing's presence proof must carry. -/
def pairingBinding (pending : PendingPairingSession) (request : PairingRequestV1) :
    PresenceBinding :=
  .pairing opts.burrowId pending.handshakeHash request.presence.binding.passkeyCredentialId

/-- `session.receive(fromBase64Url(ct))`, on the session of this identity. -/
def receive (s : BurrowRuntime Key) (session : Nat) (ct : JsString) :
    BurrowRuntime Key × Option (Noise.TransportReceipt Json) :=
  match s.sessions.get session, fromBase64Url ct with
  | some cipher, some ciphertext =>
    let r := cipher.receiveMessage opts.platform.suite.aead opts.platform.json ciphertext
    ({ s with sessions := s.sessions.set session r.1 }, r.2.toOption)
  | _, _ => (s, none)

/-- `#onPairingTransport`, up to the verification of the proof. -/
def onPairingTransport (s : BurrowRuntime Key) (frame : E2eRelayToBurrowFrame) (now : Ms) :
    BurrowRuntime Key :=
  match s.pairingOf frame.clientId with
  | none => s
  | some pending =>
    if pending.inviteId ≠ frame.id then s
    else if pending.expiresAt ≤ now then
      s.finishPairing opts frame.clientId .invitationExpired
    else
      let (s, receipt) := s.receive opts pending.uid frame.ct
      match receipt with
      | none => s.disposePairing frame.clientId (some .burrowError)
      | some .keepalive => s
      | some receipt =>
        -- Already surfaced: further traffic is noise until the person answers.
        if pending.approval.isSome then s
        else
          match receipt with
          | .control value =>
            match PairingRequestV1.ofJson value with
            | some request => { s with task := some (.pairingPresence frame pending request) }
            | none => s.finishPairing opts frame.clientId .burrowError
          | _ => s.finishPairing opts frame.clientId .burrowError

/-- What a believed request leaves on the pairing. -/
def approvalOf (request : PairingRequestV1) (passkeyPublicKeyHash : JsString) : Approval where
  code := request.code
  accountId := request.presence.accountId
  passkeyCredentialId := request.presence.binding.passkeyCredentialId
  passkeyPublicKeyHash := passkeyPublicKeyHash
  label := boundedPairingLabel request.label

/-- `pending.approval = { … }`. -/
def setApproval (s : BurrowRuntime Key) (clientId : ClientId) (pending : PendingPairingSession)
    (request : PairingRequestV1) (approval : Approval) : BurrowRuntime Key :=
  let s := s.editClient clientId fun state =>
    { state with pairing := state.pairing.map ({ · with approval := some approval }) }
  { s with history := s.history ++ [.presented pending request approval] }

/-- `#onPairingTransport`, once the proof has been verified. -/
def pairingPresenceResumes (s : BurrowRuntime Key) (frame : E2eRelayToBurrowFrame)
    (pending : PendingPairingSession) (request : PairingRequestV1) : BurrowRuntime Key :=
  if !s.holdsPairing frame.clientId pending.uid then s
  else
    match verifyPresenceProof opts.platform request.presence (pairingBinding opts pending request)
        opts.policy with
    | .error _ => s.finishPairing opts frame.clientId .presenceRejected
    | .ok passkeyPublicKeyHash =>
      let approval := approvalOf request passkeyPublicKeyHash
      (s.setApproval frame.clientId pending request approval).emit
        (.requestApproval frame.clientId pending.pairingId approval.label pending.requestedAt)

/-! ### The answer -/

/-- `pending.attempted = true`, whatever the attempt is worth. -/
def attempt (s : BurrowRuntime Key) (clientId : ClientId) (pending : PendingPairingSession)
    (code : JsString) : BurrowRuntime Key :=
  let s := s.editClient clientId fun state =>
    { state with pairing := state.pairing.map ({ · with attempted := true }) }
  { s with history := s.history ++ [.attempted pending.uid code] }

/-- The local confirmation: exactly one attempt, spent before the comparison. -/
def approvePairing (s : BurrowRuntime Key) (clientId : ClientId) (pairingId code : JsString)
    (now : Ms) : BurrowRuntime Key :=
  match s.pairingOf clientId with
  | none => s
  | some pending =>
    match pending.approval with
    | none => s
    | some approval =>
      if pending.pairingId ≠ pairingId then s
      else
        let attempted := s.attempt clientId pending code
        if pending.attempted then attempted
        else if pending.expiresAt ≤ now then
          attempted.finishPairing opts clientId .invitationExpired
        else
          match opts.noiseStaticPublicKey with
          | none => attempted.finishPairing opts clientId .burrowError
          | some burrowStaticPublicKey =>
            if !constantTimeEqual (utf8Encode code) (utf8Encode approval.code) then
              attempted.finishPairing opts clientId .confirmationMismatch
            else
              { attempted with
                saves := attempted.saves ++
                  [⟨clientId, pending, approval, burrowStaticPublicKey⟩] }

def denyPairing (s : BurrowRuntime Key) (clientId : ClientId) (pairingId : JsString) (now : Ms) :
    BurrowRuntime Key :=
  match s.pairingOf clientId with
  | none => s
  | some pending =>
    if pending.pairingId ≠ pairingId || pending.attempted then s
    else (s.finishPairing opts clientId .userDenied).reap opts now

/-! ### The saves -/

/-- What an approval hands to the ACL. -/
def approvedClient (job : SaveJob) (deliveryId : JsString) : ApprovedClient where
  accountId := job.approval.accountId
  passkeyCredentialId := job.approval.passkeyCredentialId
  passkeyPublicKeyHash := job.approval.passkeyPublicKeyHash
  clientStaticPublicKey := job.pending.clientStaticPublicKey
  deliveryId := deliveryId
  approvedBy := js "burrow-user"
  label := job.approval.label

/-- `pending.committing = committing`. -/
def setCommitting (s : BurrowRuntime Key) (clientId : ClientId) (committing : Bool) :
    BurrowRuntime Key :=
  s.editClient clientId fun state =>
    { state with pairing := state.pairing.map ({ · with committing := committing }) }

/-- Hand the next snapshot to the store. -/
def write (s : BurrowRuntime Key) (job : SaveJob) (next : BurrowAcl) (client : ApprovedClient)
    (now : Ms) : BurrowRuntime Key :=
  let s := s.setCommitting job.clientId true
  { s with
    saving := some ⟨job, client, now, next.approve client now⟩
    history := s.history ++ [.wrote job.pending job.approval client now] }

/-- The head of the save queue runs, when nothing before it is still running. -/
def saveStarts (s : BurrowRuntime Key) (deliveryId : JsString) (now : Ms) : BurrowRuntime Key :=
  match s.saving, s.saves with
  | none, job :: rest =>
    let s := { s with saves := rest }
    if !s.holdsPairing job.clientId job.pending.uid then s
    else if job.pending.expiresAt ≤ now then
      s.finishPairing opts job.clientId .invitationExpired
    else
      match BurrowAcl.fromRecords s.acl.burrowId s.acl.records with
      -- Rebuilding throws on a foreign record: there is none.
      | none => (s.finishPairing opts job.clientId .burrowError).reap opts now
      | some next => s.write job next (approvedClient job deliveryId) now
  | _, _ => s

/-- The outcome of a pairing whose record is saved. -/
def pairedOutcome (saving : Saving) : PairingOutcomeV1 :=
  .ok saving.job.burrowStaticPublicKey (boundedBurrowLabel opts.label) saving.client.accountId
    saving.client.passkeyCredentialId saving.client.passkeyPublicKeyHash saving.client.deliveryId

/-- A successful save publishes the snapshot, and answers on the pairing's own pipe if
there still is one. -/
def saveSucceeds (s : BurrowRuntime Key) (saving : Saving) (now : Ms) : BurrowRuntime Key :=
  let s := { s with
    saving := none
    acl := saving.next
    history := s.history ++ [Event.saved saving.client saving.approvedAt] }
  let clientId := saving.job.clientId
  match s.pairingOf clientId with
  | none => s
  | some pending =>
    if pending.uid ≠ saving.job.pending.uid then s
    else
      ((s.sendPairingOutcome opts clientId pending (pairedOutcome opts saving)).disposePairing
        clientId (some .paired)).reap opts now

/-- A failed save leaves the live ACL as it was. -/
def saveFails (s : BurrowRuntime Key) (saving : Saving) (now : Ms) : BurrowRuntime Key :=
  let s := { s with
    saving := none
    history := s.history ++ [Event.saveFailed saving.client saving.approvedAt] }
  let clientId := saving.job.clientId
  if !s.holdsPairing clientId saving.job.pending.uid then s
  else ((s.setCommitting clientId false).finishPairing opts clientId .burrowError).reap opts now

/-- The save in flight settles. -/
def saveSettles (s : BurrowRuntime Key) (succeeded : Bool) (now : Ms) : BurrowRuntime Key :=
  match s.saving with
  | none => s
  | some saving =>
    if succeeded then s.saveSucceeds opts saving now else s.saveFails opts saving now

end Dormouse.Burrow.BurrowRuntime
