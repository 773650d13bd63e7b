import Dormouse.Burrow.Sheds
import Dormouse.Lib.History

/-!
# Dormouse.Burrow.PairingInvariant

What **justifies** each event of a pairing ceremony, down to the record that is written,
and the invariant that carries it: what the state holds (invitations, pending pairings,
queued saves, the step in flight) is backed by the ceremonies' history.
-/

namespace Dormouse.Burrow

open Noise (Bytes NoiseKeyPair NoiseHandshake createNoiseResponder)
open Security
open Terminal (Ms)

variable {Key : Type} (opts : BurrowOptions Key)

/-! ### What justifies an event -/

/-- The ceremony behind a pending pairing, whatever has been set on it since. -/
def PendingPairingSession.base (p : PendingPairingSession) : PendingPairingSession :=
  { p with committing := false, approval := none, attempted := false }

/-- Message 1 of `ct` authenticates under an invitation's own one-use key and prologue, and
the handshake it starts ends with this hash and this Client static. -/
def Authenticates (held : HeldInvitation Key) (ct handshakeHash clientStatic : JsString) :
    Prop :=
  ∃ prologue message responder reader ephemeral writer message2 remoteStatic session,
    pairingInvitationPrologue held.invitation = some prologue ∧
      fromBase64Url ct = some message ∧
      createNoiseResponder opts.platform.suite prologue held.keyPair none = .ok responder ∧
      responder.readMessage opts.platform.suite message = (reader, .ok []) ∧
      reader.writeMessage opts.platform.suite ephemeral [] = (writer, .ok message2) ∧
      writer.remoteStatic = some remoteStatic ∧ clientStatic = toBase64Url remoteStatic ∧
      writer.session = some session ∧ handshakeHash = toBase64Url session.handshakeHash

/-- The code a pairing's `attempted` events open with. -/
def attemptOn (pairing : Nat) : Event Key → Option JsString
  | .attempted uid code => if uid = pairing then some code else none
  | _ => none

def firstAttempt (h : List (Event Key)) (pairing : Nat) : Option JsString :=
  h.findSome? (attemptOn pairing)

/-- What a reservation says of a pending pairing. -/
def Reserved (h : List (Event Key)) (clientId : ClientId) (p : PendingPairingSession) : Prop :=
  ∃ frame held ephemeral, .reserved frame held ephemeral p.base ∈ h ∧ frame.clientId = clientId

/-- A request believed for a pairing, and the approval it left. -/
def Presented (p : PendingPairingSession) (approval : Approval) : Prop :=
  ∃ request hash, isPairingCode request.code = true ∧
    verifyPresenceProof opts.platform request.presence
      (.pairing opts.burrowId p.handshakeHash request.presence.binding.passkeyCredentialId)
      opts.policy = .ok hash ∧
    approval = BurrowRuntime.approvalOf request hash

/-- Only the hash of the pairing matters to its presence. -/
theorem Presented.of_hash {opts : BurrowOptions Key} {p p' : PendingPairingSession}
    {approval : Approval} (hp : Presented opts p approval)
    (hhash : p'.handshakeHash = p.handshakeHash) : Presented opts p' approval := by
  unfold Presented at hp ⊢
  rwa [hhash]

/-- The writes of a history, and those that have settled. -/
def writtenOf : Event Key → Option (ApprovedClient × Ms)
  | .wrote _ _ client at_ => some (client, at_)
  | _ => none

def settledOf : Event Key → Option (ApprovedClient × Ms)
  | .saved client at_ | .saveFailed client at_ => some (client, at_)
  | _ => none

def savedOf : Event Key → Option (ApprovedClient × Ms)
  | .saved client at_ => some (client, at_)
  | _ => none

/-- What a record may be written on: an invitation this Burrow minted and that has not
expired, message 1 authenticated under its key, the presence proof verified against that
handshake's hash, the right code at the first attempt, the Client static of that very
handshake, and no record written on the invitation before. -/
structure RecordJustified (h : List (Event Key)) (p : PendingPairingSession)
    (approval : Approval) (client : ApprovedClient) (at_ : Ms) : Prop where
  invitation : ∃ frame held ephemeral, .minted held ∈ h ∧
    .reserved frame held ephemeral p.base ∈ h ∧ p.inviteUid = held.uid ∧
    at_ < held.expiresAt ∧
    Authenticates opts held frame.ct p.handshakeHash p.clientStaticPublicKey
  presence : Presented opts p approval
  code : firstAttempt h p.uid = some approval.code
  clientStatic : client.clientStaticPublicKey = p.clientStaticPublicKey
  identity : client.accountId = approval.accountId ∧
    client.passkeyCredentialId = approval.passkeyCredentialId ∧
    client.passkeyPublicKeyHash = approval.passkeyPublicKeyHash
  once : ∀ p' approval' client' at_', .wrote p' approval' client' at_' ∈ h →
    p'.inviteUid ≠ p.inviteUid

/-- What each event of a ceremony rests on. -/
def Justified (h : List (Event Key)) : Event Key → Prop
  | .minted held => held.state = .live ∧ ∀ held', .minted held' ∈ h → held'.uid ≠ held.uid
  | .reserved frame held _ p =>
    .minted held ∈ h ∧ p = p.base ∧ p.inviteUid = held.uid ∧ p.expiresAt = held.expiresAt ∧
      Authenticates opts held frame.ct p.handshakeHash p.clientStaticPublicKey ∧
      ∀ frame' held' ephemeral' p', .reserved frame' held' ephemeral' p' ∈ h →
        held'.uid ≠ held.uid ∧ p'.uid ≠ p.uid
  | .presented p _ approval => (∃ clientId, Reserved h clientId p) ∧ Presented opts p approval
  | .attempted _ _ => True
  | .wrote p approval client at_ => RecordJustified opts h p approval client at_
  | .saved client at_ | .saveFailed client at_ =>
    h.filterMap writtenOf = h.filterMap settledOf ++ [(client, at_)]

/-! ### The invariant -/

/-- No message 1 has reserved this invitation yet. -/
def Unreserved (h : List (Event Key)) (invitation : Nat) : Prop :=
  ∀ frame held ephemeral p, .reserved frame held ephemeral p ∈ h → held.uid ≠ invitation

/-- The identity an event is about. -/
def subject : Event Key → Option Nat
  | .minted held => some held.uid
  | .reserved _ _ _ p => some p.uid
  | .attempted pairing _ => some pairing
  | _ => none

/-- What the step in flight knows. -/
def TaskKnows (s : BurrowRuntime Key) : FrameTask Key → Prop
  | .pairingHandshake frame _ held =>
    held.state = .live ∧ .minted held ∈ s.history ∧
      ∀ held', s.invitations.get frame.id = some held' → held'.uid = held.uid → held' = held
  | .pairingPresence frame p request =>
    Reserved s.history frame.clientId p ∧ isPairingCode request.code = true
  | _ => True

/-- What a queued save knows. -/
structure JobKnows (h : List (Event Key)) (job : SaveJob) : Prop where
  reserved : Reserved h job.clientId job.pending
  presented : Presented opts job.pending job.approval
  code : firstAttempt h job.pending.uid = some job.approval.code
  unwritten : ∀ p approval client at_, .wrote p approval client at_ ∈ h → p.uid ≠ job.pending.uid

/-- What a pending pairing knows. -/
structure PairingKnows (h : List (Event Key)) (clientId : ClientId) (p : PendingPairingSession) :
    Prop where
  reserved : Reserved h clientId p
  presented : ∀ approval, p.approval = some approval → Presented opts p approval
  unattempted : p.attempted = false → firstAttempt h p.uid = none

/-- What a held invitation knows. -/
structure HeldKnows (h : List (Event Key)) (inviteId : JsString) (held : HeldInvitation Key) :
    Prop where
  inviteId : held.invitation.inviteId = inviteId
  minted : .minted { held with state := .live } ∈ h
  live : held.state = .live → Unreserved h held.uid

structure PairingInv (acl₀ : BurrowAcl) (s : BurrowRuntime Key) : Prop where
  history : Preceded (Justified opts) s.history
  fresh : ∀ e ∈ s.history, ∀ uid, subject e = some uid → uid < s.nextUid
  held : ∀ id held, s.invitations.get id = some held → HeldKnows s.history id held
  pairing : ∀ clientId p, s.pairingOf clientId = some p → PairingKnows opts s.history clientId p
  task : ∀ task, s.task = some task → TaskKnows s task
  jobs : ∀ job ∈ s.saves, JobKnows opts s.history job
  jobsOnce : (s.saves.map (·.pending.uid)).Nodup
  next : ∀ v, s.saving = some v → v.next = s.acl.approve v.client v.approvedAt
  serial : s.history.filterMap writtenOf =
    s.history.filterMap settledOf ++ (s.saving.map fun v => (v.client, v.approvedAt)).toList
  acl : s.acl =
    (s.history.filterMap savedOf).foldl (fun acl c => acl.approve c.1 c.2) acl₀

variable {opts}

/-! ### What a growing history keeps -/

theorem Reserved.append {h : List (Event Key)} {clientId : ClientId} {p : PendingPairingSession}
    (hr : Reserved h clientId p) (l : List (Event Key)) : Reserved (h ++ l) clientId p := by
  obtain ⟨frame, held, ephemeral, hmem, hclient⟩ := hr
  exact ⟨frame, held, ephemeral, List.mem_append_left _ hmem, hclient⟩

theorem firstAttempt_append {h : List (Event Key)} {pairing : Nat} {code : JsString}
    (hf : firstAttempt h pairing = some code) (l : List (Event Key)) :
    firstAttempt (h ++ l) pairing = some code := by
  unfold firstAttempt at hf ⊢
  rw [List.findSome?_append, hf]
  rfl

theorem firstAttempt_concat_of_none {h : List (Event Key)} {pairing : Nat} {e : Event Key}
    (he : attemptOn pairing e = none) : firstAttempt (h ++ [e]) pairing = firstAttempt h pairing := by
  unfold firstAttempt
  rw [List.findSome?_append, List.findSome?_singleton, he, Option.or_none]

theorem filterMap_concat_none {α β : Type} {f : α → Option β} {h : List α} {e : α}
    (he : f e = none) : (h ++ [e]).filterMap f = h.filterMap f := by
  rw [List.filterMap_append, List.filterMap_cons_none he, List.filterMap_nil, List.append_nil]

theorem filterMap_concat_some {α β : Type} {f : α → Option β} {h : List α} {e : α} {b : β}
    (he : f e = some b) : (h ++ [e]).filterMap f = h.filterMap f ++ [b] := by
  rw [List.filterMap_append, List.filterMap_cons_some he, List.filterMap_nil]

theorem mem_concat_of_ne {α : Type} {h : List α} {e e' : α} (hmem : e ∈ h ++ [e'])
    (hne : e ≠ e') : e ∈ h := by
  rcases List.mem_append.1 hmem with hm | hm
  · exact hm
  · exact absurd (List.mem_singleton.1 hm) hne

/-- Minted invitations of one identity are one. -/
theorem minted_inj {h : List (Event Key)} (hh : Preceded (Justified opts) h)
    {held held' : HeldInvitation Key} (hm : .minted held ∈ h) (hm' : .minted held' ∈ h)
    (huid : held.uid = held'.uid) : held = held' := by
  refine Event.minted.inj (hh.inj
    (fun e => match e with | .minted held => some held.uid | _ => none)
    (k := held'.uid) ?_ hm hm' (congrArg some huid) rfl)
  intro before e hJ hkey e' he' hkey'
  cases e with
  | minted held =>
    cases e' with
    | minted held' =>
      rw [Option.some.injEq] at hkey hkey'
      exact hJ.2 held' he' (hkey'.trans hkey.symm)
    | _ => cases hkey'
  | _ => cases hkey

section Reservations

variable {h : List (Event Key)} {frame frame' : E2eRelayToBurrowFrame}
  {held held' : HeldInvitation Key} {ephemeral ephemeral' : Option (NoiseKeyPair Key)}
  {p p' : PendingPairingSession}

/-- Reservations for one pairing are one. -/
theorem reserved_inj_pairing (hh : Preceded (Justified opts) h)
    (hm : .reserved frame held ephemeral p ∈ h) (hm' : .reserved frame' held' ephemeral' p' ∈ h)
    (huid : p.uid = p'.uid) : frame = frame' ∧ held = held' ∧ p = p' := by
  have heq := hh.inj
    (fun e : Event Key => match e with | .reserved _ _ _ p => some p.uid | _ => none)
    (k := p'.uid) ?_ hm hm' (congrArg some huid) rfl
  · rw [Event.reserved.injEq] at heq
    exact ⟨heq.1, heq.2.1, heq.2.2.2⟩
  · intro before e hJ hkey e' he' hkey'
    cases e with
    | reserved frame held ephemeral p =>
      cases e' with
      | reserved frame' held' ephemeral' p' =>
        rw [Option.some.injEq] at hkey hkey'
        exact (hJ.2.2.2.2.2 _ _ _ _ he').2 (hkey'.trans hkey.symm)
      | _ => cases hkey'
    | _ => cases hkey

/-- Reservations of one invitation are one. -/
theorem reserved_inj_invitation (hh : Preceded (Justified opts) h)
    (hm : .reserved frame held ephemeral p ∈ h) (hm' : .reserved frame' held' ephemeral' p' ∈ h)
    (huid : held.uid = held'.uid) : p = p' := by
  have heq := hh.inj
    (fun e : Event Key => match e with | .reserved _ held _ _ => some held.uid | _ => none)
    (k := held'.uid) ?_ hm hm' (congrArg some huid) rfl
  · rw [Event.reserved.injEq] at heq
    exact heq.2.2.2
  · intro before e hJ hkey e' he' hkey'
    cases e with
    | reserved frame held ephemeral p =>
      cases e' with
      | reserved frame' held' ephemeral' p' =>
        rw [Option.some.injEq] at hkey hkey'
        exact (hJ.2.2.2.2.2 _ _ _ _ he').1 (hkey'.trans hkey.symm)
      | _ => cases hkey'
    | _ => cases hkey

/-- What a reservation in the history still says. -/
theorem reserved_facts (hh : Preceded (Justified opts) h)
    (hm : .reserved frame held ephemeral p ∈ h) :
    .minted held ∈ h ∧ p.inviteUid = held.uid ∧ p.expiresAt = held.expiresAt ∧
      Authenticates opts held frame.ct p.handshakeHash p.clientStaticPublicKey :=
  hh.mono (P := fun h => .minted held ∈ h ∧ p.inviteUid = held.uid ∧
      p.expiresAt = held.expiresAt ∧
      Authenticates opts held frame.ct p.handshakeHash p.clientStaticPublicKey) hm
    (fun _ hJ => ⟨hJ.1, hJ.2.2.1, hJ.2.2.2.1, hJ.2.2.2.2.1⟩)
    (fun _ _ hP => ⟨List.mem_append_left _ hP.1, hP.2⟩)

end Reservations

/-- Two pending pairings of one identity belong to one ceremony, at one client. -/
theorem Reserved.inj {h : List (Event Key)} (hh : Preceded (Justified opts) h)
    {clientId clientId' : ClientId} {p p' : PendingPairingSession} (hr : Reserved h clientId p)
    (hr' : Reserved h clientId' p') (huid : p.uid = p'.uid) :
    clientId = clientId' ∧ p.base = p'.base := by
  obtain ⟨frame, held, ephemeral, hm, rfl⟩ := hr
  obtain ⟨frame', held', ephemeral', hm', rfl⟩ := hr'
  obtain ⟨rfl, -, hbase⟩ := reserved_inj_pairing hh hm hm' huid
  exact ⟨rfl, hbase⟩

/-! ### One more event -/

theorem PairingKnows.concat {h : List (Event Key)} {clientId : ClientId}
    {p : PendingPairingSession} {e : Event Key} (hp : PairingKnows opts h clientId p)
    (he : attemptOn p.uid e = none) : PairingKnows opts (h ++ [e]) clientId p where
  reserved := hp.reserved.append _
  presented := hp.presented
  unattempted := fun hfalse => by rw [firstAttempt_concat_of_none he, hp.unattempted hfalse]

theorem HeldKnows.concat {h : List (Event Key)} {inviteId : JsString}
    {held : HeldInvitation Key} {e : Event Key} (hk : HeldKnows h inviteId held)
    (he : ∀ frame held' ephemeral p, e = .reserved frame held' ephemeral p →
      held'.uid ≠ held.uid) : HeldKnows (h ++ [e]) inviteId held where
  inviteId := hk.inviteId
  minted := List.mem_append_left _ hk.minted
  live := by
    intro hlive frame held' ephemeral p hm
    rcases List.mem_append.1 hm with hm | hm
    · exact hk.live hlive frame held' ephemeral p hm
    · exact he frame held' ephemeral p (List.mem_singleton.1 hm).symm

theorem JobKnows.concat {h : List (Event Key)} {job : SaveJob} {e : Event Key}
    (hj : JobKnows opts h job)
    (he : ∀ p approval client at_, e = .wrote p approval client at_ → p.uid ≠ job.pending.uid) :
    JobKnows opts (h ++ [e]) job where
  reserved := hj.reserved.append _
  presented := hj.presented
  code := firstAttempt_append hj.code _
  unwritten := by
    intro p approval client at_ hm
    rcases List.mem_append.1 hm with hm | hm
    · exact hj.unwritten p approval client at_ hm
    · exact he p approval client at_ (List.mem_singleton.1 hm).symm

theorem TaskKnows.concat {s t : BurrowRuntime Key} {e : Event Key} {task : FrameTask Key}
    (hk : TaskKnows s task) (hhist : t.history = s.history ++ [e])
    (hinv : ∀ {id held}, t.invitations.get id = some held → s.invitations.get id = some held) :
    TaskKnows t task := by
  cases task with
  | pairingHandshake frame epoch held =>
    exact ⟨hk.1, hhist ▸ List.mem_append_left _ hk.2.1, fun held' hget => hk.2.2 held' (hinv hget)⟩
  | pairingPresence frame p request => exact ⟨hhist ▸ hk.1.append _, hk.2⟩
  | connectionRead frame epoch => exact trivial
  | connectionWrite frame epoch handshake challenge expiresAt => exact trivial
  | connectionPresence frame pending proof challengeValid => exact trivial

/-! ### Stretches that shed -/

variable {acl₀ : BurrowAcl} {s t : BurrowRuntime Key}

theorem TaskKnows.sheds {task : FrameTask Key} (hk : TaskKnows s task) (hst : Sheds s t) :
    TaskKnows t task := by
  cases task with
  | pairingHandshake frame epoch held =>
    exact ⟨hk.1, hst.history ▸ hk.2.1, fun held' hget => hk.2.2 held' (hst.invitations hget)⟩
  | pairingPresence frame p request => exact ⟨hst.history ▸ hk.1, hk.2⟩
  | connectionRead frame epoch => exact trivial
  | connectionWrite frame epoch handshake challenge expiresAt => exact trivial
  | connectionPresence frame pending proof challengeValid => exact trivial

theorem PairingInv.sheds (hs : PairingInv opts acl₀ s) (hst : Sheds s t) :
    PairingInv opts acl₀ t where
  history := by rw [hst.history]; exact hs.history
  fresh := by
    intro e he uid huid
    rw [hst.history] at he
    exact Nat.lt_of_lt_of_le (hs.fresh e he uid huid) hst.nextUid
  held := fun id held hget => by rw [hst.history]; exact hs.held id held (hst.invitations hget)
  pairing := fun clientId p hp => by
    rw [hst.history]
    exact hs.pairing clientId p (hst.pairings hp)
  task := fun task htask => (hs.task task (hst.task ▸ htask)).sheds hst
  jobs := fun job hjob => by rw [hst.history]; exact hs.jobs job (hst.saves ▸ hjob)
  jobsOnce := by rw [hst.saves]; exact hs.jobsOnce
  next := fun v hv => by rw [hst.acl]; exact hs.next v (hst.saving ▸ hv)
  serial := by rw [hst.history, hst.saving]; exact hs.serial
  acl := by rw [hst.acl, hst.history]; exact hs.acl

/-- The drain's step in flight changes. -/
theorem PairingInv.setTask (hs : PairingInv opts acl₀ s) {task : Option (FrameTask Key)}
    (htask : ∀ t, task = some t → TaskKnows s t) :
    PairingInv opts acl₀ { s with task := task } :=
  { hs with
    task := fun t ht => by
      have hk := htask t ht
      cases t <;> exact hk }

end Dormouse.Burrow
