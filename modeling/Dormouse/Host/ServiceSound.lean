import Dormouse.Host.Service
import Dormouse.Lib.History

/-!
# Dormouse.Host.ServiceSound

The **lifecycle of the service**: at most one Burrow runs, over an enrollment that the
store has and the approvals that came before it, whatever fails and in whatever order.

What the lifecycle depends on is the `outline` of the service: the rest of it, the pairing
queue and the state of the socket, is written on the way without touching that. The
invariant is about the outline, and each stage of the work on the chain says what it knows.
-/

namespace Dormouse.Host

open Burrow (PairingInvitation formatPairingInvitationUrl)
open Security (BurrowAcl BurrowAclRecord)
open Terminal (Ms)

/-! ### The outline -/

/-- A runtime, as far as the lifecycle depends on it. -/
structure RunningBurrow where
  uid : Nat
  enrollment : BurrowEnrollment
  acl : BurrowAcl

def ServedRuntime.outline (b : ServedRuntime) : RunningBurrow := ⟨b.uid, b.enrollment, b.acl⟩

def Message.isQueue : Message → Bool
  | .queue _ => true
  | _ => false

structure Outline where
  store : Store
  disposed : Bool
  burrow : Option RunningBurrow
  enrollment : Option BurrowEnrollment
  active : Option Job
  calls : InsertionMap Nat Call
  /-- What is sent, but for the pairing queue. -/
  sent : List Sent
  history : List Event

namespace Outline

/-- The runtime is stopped, if there is one. -/
def stop (o : Outline) : Outline :=
  match o.burrow with
  | none => o
  | some b => { o with burrow := none, history := o.history ++ [.stopped b.uid] }

@[simp] theorem stop_store (o : Outline) : o.stop.store = o.store := by unfold stop; split <;> rfl

@[simp] theorem stop_disposed (o : Outline) : o.stop.disposed = o.disposed := by
  unfold stop; split <;> rfl

@[simp] theorem stop_burrow (o : Outline) : o.stop.burrow = none := by
  unfold stop
  split
  · assumption
  · rfl

@[simp] theorem stop_enrollment (o : Outline) : o.stop.enrollment = o.enrollment := by
  unfold stop; split <;> rfl

@[simp] theorem stop_active (o : Outline) : o.stop.active = o.active := by
  unfold stop; split <;> rfl

@[simp] theorem stop_calls (o : Outline) : o.stop.calls = o.calls := by
  unfold stop; split <;> rfl

@[simp] theorem stop_sent (o : Outline) : o.stop.sent = o.sent := by
  unfold stop; split <;> rfl

theorem subset_stop (o : Outline) : o.history ⊆ o.stop.history := by
  unfold stop
  split
  · exact List.Subset.refl _
  · exact List.subset_append_left _ _

theorem approved_of_stop (o : Outline) {r : BurrowAclRecord} (h : .approved r ∈ o.stop.history) :
    .approved r ∈ o.history := by
  unfold stop at h
  split at h
  · exact h
  · rcases List.mem_append.1 h with h | h
    · exact h
    · cases List.mem_singleton.1 h

end Outline

namespace BurrowService

def outline (s : BurrowService) : Outline where
  store := s.store
  disposed := s.disposed
  burrow := s.burrow.map ServedRuntime.outline
  enrollment := s.enrollment
  active := s.active
  calls := s.calls
  sent := s.sent.filter (!·.message.isQueue)
  history := s.history

@[simp] theorem outline_emitQueue (s : BurrowService) : s.emitQueue.outline = s.outline := by
  unfold emitQueue sendToUi
  split
  · rfl
  · simp [outline, Message.isQueue]

@[simp] theorem outline_resolvePairing (s : BurrowService) (clientId : JsString) :
    (s.resolvePairing clientId).outline = s.outline := by
  unfold resolvePairing
  split
  · rw [outline_emitQueue]
    rfl
  · rfl

/-- Writes to the runtime that leave its outline leave the service's. -/
theorem outline_editBurrow (s : BurrowService) {f : ServedRuntime → ServedRuntime}
    (h : ∀ b, (f b).outline = b.outline) : (s.editBurrow f).outline = s.outline := by
  cases hb : s.burrow <;> simp [outline, editBurrow, hb, h]

@[simp] theorem outline_setPairing (s : BurrowService) (clientId : JsString)
    (pairing : RuntimePairing) : (s.setPairing clientId pairing).outline = s.outline :=
  s.outline_editBurrow fun _ => rfl

@[simp] theorem outline_disposePairing (s : BurrowService) (clientId : JsString) :
    (s.disposePairing clientId).outline = s.outline := by
  unfold disposePairing
  split
  · rw [outline_resolvePairing, outline_editBurrow]
    exact fun _ => rfl
  · rfl

theorem outline_foldl_disposePairing (clientIds : List JsString) (s : BurrowService) :
    (clientIds.foldl disposePairing s).outline = s.outline := by
  induction clientIds generalizing s with
  | nil => rfl
  | cons clientId clientIds ih => rw [List.foldl_cons, ih, outline_disposePairing]

@[simp] theorem outline_dropTransientState (s : BurrowService) :
    s.dropTransientState.outline = s.outline := by
  unfold dropTransientState
  split
  · rfl
  · rw [outline_foldl_disposePairing, outline_editBurrow]
    exact fun _ => rfl

@[simp] theorem outline_enqueuePairing (s : BurrowService) (clientId : JsString)
    (pending : PendingPairing) : (s.enqueuePairing clientId pending).outline = s.outline := by
  rw [enqueuePairing, outline_emitQueue]
  rfl

@[simp] theorem outline_requestApproval (s : BurrowService) (clientId : JsString)
    (pairing : RuntimePairing) (label : JsString) (requestedAt : Ms) :
    (s.requestApproval clientId pairing label requestedAt).outline = s.outline := by
  unfold requestApproval
  split <;> simp

@[simp] theorem outline_socketChanges (s : BurrowService) (status : Burrow.BurrowStatus) :
    (s.socketChanges status).outline = s.outline := by
  have hedit : (s.editBurrow fun b => { b with status := status }).outline = s.outline :=
    s.outline_editBurrow fun _ => rfl
  unfold socketChanges
  split
  · rw [outline_dropTransientState, hedit]
  · exact hedit

@[simp] theorem outline_stopBurrow (s : BurrowService) : s.stopBurrow.outline = s.outline.stop := by
  have hstop : ∀ t : BurrowService, (if t.pairings.size > 0 then
      { t with pairings := .empty }.emitQueue else t).outline = t.outline := by
    intro t
    split
    · rw [outline_emitQueue]
      rfl
    · rfl
  unfold stopBurrow
  rw [hstop]
  cases hb : s.burrow with
  | none => simp [outline, hb, Outline.stop]
  | some b =>
    have hdrop := s.outline_dropTransientState
    simp only [outline, Outline.mk.injEq, hb, Option.map_some] at hdrop ⊢
    obtain ⟨hstore, hdisposed, -, henrollment, hactive, hcalls, hsent, -⟩ := hdrop
    simp [Outline.stop, hstore, hdisposed, henrollment, hactive, hcalls, hsent,
      ServedRuntime.outline]

end BurrowService

/-! ### What the history says -/

/-- The runtimes that are started and not stopped after these events. -/
def running (history : List Event) : List Nat :=
  history.foldl (fun uids event =>
    match event with
    | .started uid _ _ => uids ++ [uid]
    | .stopped uid => uids.filter (· ≠ uid)
    | _ => uids) []

theorem running_concat (history : List Event) (event : Event) :
    running (history ++ [event]) =
      match event with
      | .started uid _ _ => running history ++ [uid]
      | .stopped uid => (running history).filter (· ≠ uid)
      | _ => running history := by
  rw [running, List.foldl_append]
  rfl

/-- Records that have every approval of this Burrow so far. -/
def Covers (history : List Event) (burrowId : JsString) (records : List BurrowAclRecord) : Prop :=
  ∀ r, .approved r ∈ history → r.burrowId = burrowId → r ∈ records.map BurrowAclRecord.asWritten

/-- What there has to be before an event. -/
def Justified (before : List Event) : Event → Prop
  | .started _ enrollment records =>
    running before = [] ∧ .disposed ∉ before ∧ .saved enrollment ∈ before ∧
      Covers before enrollment.burrowId records
  | .minted uid _ => running before = [uid]
  | .disposed => running before = []
  | _ => True

/-- A QR that is made of an invitation which a runtime minted, for the origin that the same
runtime is enrolled at. -/
def QrMinted (history : List Event) (qr : SetupQrResult) : Prop :=
  ∃ uid enrollment records invitation,
    .started uid enrollment records ∈ history ∧ .minted uid invitation ∈ history ∧
      qr.inviteId = invitation.inviteId ∧
      formatPairingInvitationUrl enrollment.origin invitation = some qr.url

theorem QrMinted.mono {h h' : List Event} {qr : SetupQrResult} (hqr : QrMinted h qr)
    (hgrow : h ⊆ h') : QrMinted h' qr := by
  obtain ⟨uid, enrollment, records, invitation, hstarted, hminted, hrest⟩ := hqr
  exact ⟨uid, enrollment, records, invitation, hgrow hstarted, hgrow hminted, hrest⟩

theorem Covers.concat {history : List Event} {burrowId : JsString}
    {records : List BurrowAclRecord} (h : Covers history burrowId records) {event : Event}
    (hevent : ∀ r, event = .approved r → r.burrowId = burrowId →
      r ∈ records.map BurrowAclRecord.asWritten) :
    Covers (history ++ [event]) burrowId records := by
  intro r hr hid
  rcases List.mem_append.1 hr with hr | hr
  · exact h r hr hid
  · exact hevent r (List.mem_singleton.1 hr).symm hid

/-! ### The invariant -/

/-- The enrollment has a Noise static. -/
def BurrowEnrollment.complete (enrollment : BurrowEnrollment) : Prop :=
  enrollment.noiseStaticPrivateKey.isSome ∧ enrollment.noiseStaticPublicKey.isSome

/-- An ACL that is being saved: it has the record, and every approval before it, and is that
of the runtime, if that is still there. -/
structure Saves (o : Outline) (uid : Nat) (next : BurrowAcl) (record : BurrowAclRecord) :
    Prop where
  added : record ∈ next.records.map BurrowAclRecord.asWritten
  owner : record.burrowId = next.burrowId
  covers : Covers o.history next.burrowId next.records
  runtime : ∀ b, o.burrow = some b → b.uid = uid ∧ b.acl.burrowId = next.burrowId

/-- What a stage of the work on the chain knows. -/
def JobStage.Knows (o : Outline) : JobStage → Prop
  | .waits (.saveEnrollment enrollment) => enrollment.complete
  | .waits (.deriveNoiseStatic enrollment) => .saved enrollment ∈ o.history
  | .waits (.loadAcl enrollment) => .saved enrollment ∈ o.history ∧ o.burrow = none
  | .waits (.saveAcl uid _ _ next record) => Saves o uid next record
  | .waits _ => True
  | .goesOn (.loadedEnrollment (.ok (some enrollment))) => .saved enrollment ∈ o.history
  | .goesOn (.savedEnrollment enrollment (.ok _)) =>
    enrollment.complete ∧ .saved enrollment ∈ o.history
  | .goesOn (.derived enrollment _) => .saved enrollment ∈ o.history
  | .goesOn (.savedBackfilled enrollment (.ok _)) => .saved enrollment ∈ o.history
  | .goesOn (.verified (some enrollment)) => .saved enrollment ∈ o.history
  | .goesOn (.loadedAcl enrollment (.ok records)) =>
    .saved enrollment ∈ o.history ∧ o.burrow = none ∧
      Covers o.history enrollment.burrowId records ∧ ∀ r ∈ records, r.burrowId = enrollment.burrowId
  | .goesOn (.savedAcl uid _ _ next record (.ok _)) =>
    Saves o uid next record ∧ o.store.loadAcl next.burrowId = next.records
  | .goesOn _ => True

/-- Nothing has been stopped or forgotten yet. -/
def JobStage.early : JobStage → Bool
  | .waits .loadEnrollment | .waits (.readOffer _) | .waits (.performEnrollment ..)
  | .waits (.saveEnrollment _) | .waits (.mintNoiseStatic _) | .waits (.saveBackfilled _)
  | .waits .clearEnrollment => true
  | .goesOn (.begin _) | .goesOn (.loadedEnrollment _) | .goesOn (.offerRead ..)
  | .goesOn (.exchanged ..) | .goesOn (.savedEnrollment ..) | .goesOn (.minted ..)
  | .goesOn (.savedBackfilled ..) | .goesOn (.clearedEnrollment _) => true
  | _ => false

/-- The runtime and the enrollment that there are. -/
def Outline.present (o : Outline) : Option Nat × Option BurrowEnrollment :=
  (o.burrow.map (·.uid), o.enrollment)

structure JobOk (o : Outline) (job : Job) : Prop where
  reply : ∀ qr, job.reply ≠ .setupQr qr
  knows : job.stage.Knows o
  found : job.stage.early = true → o.disposed = false → o.present = job.found

/-- What a call that makes a QR knows of its runtime. -/
def CallStage.Knows (history : List Event) : CallStage → Prop
  | .fetchesSetupToken uid enrollment | .fetchedSetupToken uid enrollment _
  | .generatesKeyPair uid _ enrollment _ _ | .generatedKeyPair uid _ enrollment _ _ _ =>
    ∃ records, .started uid enrollment records ∈ history
  | .answers (.ok (.setupQr qr)) => QrMinted history qr
  | _ => True

/-- The invariant but for the work on the chain. -/
structure Base (o : Outline) : Prop where
  preceded : Preceded Justified o.history
  running : running o.history = (o.burrow.map (·.uid)).toList
  disposed : .disposed ∈ o.history → o.disposed = true
  stopped : o.disposed = true → o.burrow = none
  durable : ∀ enrollment, o.store.enrollment = some enrollment → .saved enrollment ∈ o.history
  stored : ∀ burrowId, Covers o.history burrowId (o.store.loadAcl burrowId)
  serves : ∀ b, o.burrow = some b → o.enrollment = some b.enrollment ∧
    b.acl.burrowId = b.enrollment.burrowId ∧ Covers o.history b.acl.burrowId b.acl.records ∧
      ∃ records, .started b.uid b.enrollment records ∈ o.history
  calls : ∀ uid call, o.calls.get uid = some call → call.stage.Knows o.history
  sent : ∀ x ∈ o.sent, ∀ request qr,
    x.message = .result request (.ok (.setupQr qr)) → QrMinted o.history qr

structure Kept (o : Outline) : Prop extends Base o where
  job : ∀ job, o.active = some job → JobOk o job

/-- `o'` has what `o` has, but that a service that is disposed may have lost its runtime. -/
structure Outline.Extends (o o' : Outline) : Prop where
  store : o'.store = o.store
  enrollment : o'.enrollment = o.enrollment
  grows : o.history ⊆ o'.history
  approvals : ∀ r, .approved r ∈ o'.history → .approved r ∈ o.history
  disposed : o'.disposed = false → o.disposed = false
  burrow : o'.burrow = o.burrow ∨ o'.burrow = none ∧ o'.disposed = true

theorem Outline.extends_setActive (o : Outline) (active : Option Job) :
    o.Extends { o with active := active } :=
  ⟨rfl, rfl, fun _ h => h, fun _ h => h, id, .inl rfl⟩

theorem CallStage.Knows.mono {stage : CallStage} {h h' : List Event} (hknows : stage.Knows h)
    (hgrow : h ⊆ h') : stage.Knows h' := by
  unfold CallStage.Knows at hknows ⊢
  split at hknows
  · obtain ⟨records, hstarted⟩ := hknows
    exact ⟨records, hgrow hstarted⟩
  · obtain ⟨records, hstarted⟩ := hknows
    exact ⟨records, hgrow hstarted⟩
  · obtain ⟨records, hstarted⟩ := hknows
    exact ⟨records, hgrow hstarted⟩
  · obtain ⟨records, hstarted⟩ := hknows
    exact ⟨records, hgrow hstarted⟩
  · exact hknows.mono hgrow
  · trivial

section Extends

variable {o o' : Outline}

theorem Outline.Extends.covers (h : o.Extends o') {burrowId : JsString}
    {records : List BurrowAclRecord} (hcovers : Covers o.history burrowId records) :
    Covers o'.history burrowId records :=
  fun r hr hid => hcovers r (h.approvals r hr) hid

theorem Outline.Extends.burrow_none (h : o.Extends o') (hnone : o.burrow = none) :
    o'.burrow = none := by
  rcases h.burrow with hsame | ⟨hgone, -⟩
  · rw [hsame, hnone]
  · exact hgone

theorem Outline.Extends.saves (h : o.Extends o') {uid : Nat} {next : BurrowAcl}
    {record : BurrowAclRecord} (hsaves : Saves o uid next record) : Saves o' uid next record where
  added := hsaves.added
  owner := hsaves.owner
  covers := h.covers hsaves.covers
  runtime b hb := by
    rcases h.burrow with hsame | ⟨hgone, -⟩
    · exact hsaves.runtime b (hsame ▸ hb)
    · rw [hgone] at hb
      cases hb

theorem JobStage.Knows.extends {stage : JobStage} (hknows : stage.Knows o) (h : o.Extends o') :
    stage.Knows o' := by
  unfold JobStage.Knows at hknows ⊢
  split at hknows
  · exact hknows
  · exact h.grows hknows
  · exact ⟨h.grows hknows.1, h.burrow_none hknows.2⟩
  · exact h.saves hknows
  · trivial
  · exact h.grows hknows
  · exact ⟨hknows.1, h.grows hknows.2⟩
  · exact h.grows hknows
  · exact h.grows hknows
  · exact h.grows hknows
  · exact ⟨h.grows hknows.1, h.burrow_none hknows.2.1, h.covers hknows.2.2.1, hknows.2.2.2⟩
  · rw [h.store]
    exact ⟨h.saves hknows.1, hknows.2⟩
  · trivial

theorem JobOk.extends {job : Job} (hjob : JobOk o job) (h : o.Extends o') : JobOk o' job where
  reply := hjob.reply
  knows := hjob.knows.extends h
  found hearly hdisposed := by
    rcases h.burrow with hsame | ⟨-, hdown⟩
    · rw [Outline.present, hsame, h.enrollment]
      exact hjob.found hearly (h.disposed hdisposed)
    · rw [hdown] at hdisposed
      cases hdisposed

/-- A step that leaves the work on the chain alone. -/
theorem Kept.of_extends (h : Kept o) (hbase : Base o') (hextends : o.Extends o')
    (hactive : o'.active = o.active) : Kept o' where
  toBase := hbase
  job job hjob := (h.job job (hactive ▸ hjob)).extends hextends

end Extends

/-- An answer that is no QR. -/
theorem CallStage.knows_answers (history : List Event) {result : Except JsString Reply}
    (hresult : ∀ qr, result ≠ .ok (.setupQr qr)) : CallStage.Knows history (.answers result) := by
  cases result with
  | error => trivial
  | ok reply =>
    cases reply with
    | setupQr qr => exact absurd rfl (hresult qr)
    | done | enrolled | status | queue => trivial

/-! ### The store -/

theorem Store.loadAcl_saveAcl (store : Store) (next : BurrowAcl) :
    (store.saveAcl next.burrowId next.records).loadAcl next.burrowId = next.records := by
  rw [loadAcl, saveAcl, InsertionMap.get_set_self, Option.getD_some, List.filter_eq_self]
  intro r hr
  simp [next.owned r hr]

theorem Store.loadAcl_saveAcl_ne (store : Store) (records : List BurrowAclRecord)
    {burrowId other : JsString} (h : burrowId ≠ other) :
    (store.saveAcl burrowId records).loadAcl other = store.loadAcl other := by
  rw [loadAcl, saveAcl, InsertionMap.get_set_ne _ _ h, loadAcl]

theorem Store.owned_loadAcl (store : Store) (burrowId : JsString) :
    ∀ r ∈ store.loadAcl burrowId, r.burrowId = burrowId := by
  intro r hr
  simpa using (List.mem_filter.1 hr).2

/-! ### What keeps the invariant -/

namespace Base

variable {o : Outline}

/-- An event that changes neither what runs nor what is approved. -/
theorem append (h : Base o) {event : Event} (hjust : Justified o.history event)
    (hrunning : Host.running (o.history ++ [event]) = Host.running o.history)
    (hdisposed : event ≠ .disposed) (happroved : ∀ r, event ≠ .approved r) :
    Base { o with history := o.history ++ [event] } where
  preceded := h.preceded.concat hjust
  running := hrunning.trans h.running
  disposed hmem := by
    rcases List.mem_append.1 hmem with hmem | hmem
    · exact h.disposed hmem
    · exact absurd (List.mem_singleton.1 hmem).symm hdisposed
  stopped := h.stopped
  durable enrollment hstore := List.mem_append_left _ (h.durable enrollment hstore)
  stored burrowId := (h.stored burrowId).concat fun r heq => absurd heq (happroved r)
  serves b hb := by
    obtain ⟨henrollment, hid, hcovers, records, hstarted⟩ := h.serves b hb
    exact ⟨henrollment, hid, hcovers.concat fun r heq => absurd heq (happroved r), records,
      List.mem_append_left _ hstarted⟩
  calls uid call hcall := (h.calls uid call hcall).mono (List.subset_append_left _ _)
  sent x hx request qr heq := (h.sent x hx request qr heq).mono (List.subset_append_left _ _)

theorem stop (h : Base o) : Base o.stop := by
  unfold Outline.stop
  split
  · exact h
  rename_i b hb
  have hgrow : o.history ⊆ o.history ++ [.stopped b.uid] := List.subset_append_left _ _
  refine ⟨h.preceded.concat trivial, ?_, ?_, fun _ => rfl, ?_, ?_, nofun, ?_, ?_⟩
  · rw [running_concat, h.running, hb]
    simp
  · intro hmem
    rcases List.mem_append.1 hmem with hmem | hmem
    · exact h.disposed hmem
    · cases List.mem_singleton.1 hmem
  · exact fun enrollment hstore => hgrow (h.durable enrollment hstore)
  · exact fun burrowId => (h.stored burrowId).concat fun r heq => by cases heq
  · exact fun uid call hcall => (h.calls uid call hcall).mono hgrow
  · exact fun x hx request qr heq => (h.sent x hx request qr heq).mono hgrow

/-- Without a runtime, what is enrolled may be forgotten. -/
theorem forget (h : Base o) (hnone : o.burrow = none) : Base { o with enrollment := none } :=
  { h with
    serves := fun b hb => by
      rw [show o.burrow = some b from hb] at hnone
      cases hnone }

theorem send (h : Base o) {message : Message}
    (hmessage : ∀ request qr, message = .result request (.ok (.setupQr qr)) →
      QrMinted o.history qr) (enrolled : Bool) :
    Base { o with sent := o.sent ++ [⟨message, enrolled⟩] } :=
  { h with
    sent := fun x hx request qr heq => by
      rcases List.mem_append.1 hx with hx | hx
      · exact h.sent x hx request qr heq
      · rw [List.mem_singleton.1 hx] at heq
        exact hmessage request qr heq }

theorem setCall (h : Base o) (uid : Nat) (request : JsString) {stage : CallStage}
    (hstage : stage.Knows o.history) :
    Base { o with calls := o.calls.set uid ⟨request, stage⟩ } :=
  { h with
    calls := fun uid' call' hget => by
      rw [InsertionMap.get_set] at hget
      split at hget
      · exact Option.some.inj hget ▸ hstage
      · exact h.calls uid' call' hget }

theorem deleteCall (h : Base o) (uid : Nat) : Base { o with calls := o.calls.delete uid } :=
  { h with
    calls := fun uid' call' hget => by
      exact h.calls uid' call' (InsertionMap.get_of_delete hget).2 }

theorem setActive (h : Base o) (active : Option Job) : Base { o with active := active } :=
  { h with }

theorem setStoreEnrollment (h : Base o) {enrollment : Option BurrowEnrollment}
    (hsaved : ∀ e, enrollment = some e → .saved e ∈ o.history) :
    Base { o with store := { o.store with enrollment := enrollment } } :=
  { h with durable := hsaved, stored := h.stored }

theorem setStoreAcl (h : Base o) {next : BurrowAcl}
    (hcovers : Covers o.history next.burrowId next.records) :
    Base { o with store := o.store.saveAcl next.burrowId next.records } :=
  { h with
    durable := h.durable
    stored := fun burrowId => by
      by_cases hid : next.burrowId = burrowId
      · subst hid
        show Covers _ _ ((o.store.saveAcl _ _).loadAcl _)
        rw [Store.loadAcl_saveAcl]
        exact hcovers
      · show Covers _ _ ((o.store.saveAcl _ _).loadAcl _)
        rw [Store.loadAcl_saveAcl_ne _ _ hid]
        exact h.stored burrowId }

theorem dispose (h : Base o) (hnone : o.burrow = none) :
    Base { o with disposed := true, history := o.history ++ [.disposed] } where
  preceded := h.preceded.concat (by rw [Justified, h.running, hnone]; rfl)
  running := by
    rw [running_concat]
    exact h.running
  disposed _ := rfl
  stopped _ := hnone
  durable enrollment hstore := List.mem_append_left _ (h.durable enrollment hstore)
  stored burrowId := (h.stored burrowId).concat fun r heq => by cases heq
  serves b hb := by
    rw [show o.burrow = some b from hb] at hnone
    cases hnone
  calls uid call hcall := (h.calls uid call hcall).mono (List.subset_append_left _ _)
  sent x hx request qr heq := (h.sent x hx request qr heq).mono (List.subset_append_left _ _)

/-- A runtime is started over the records that were loaded for it. -/
theorem started (h : Base o) (hnone : o.burrow = none) (hlive : o.disposed = false)
    {enrollment : BurrowEnrollment} {records : List BurrowAclRecord}
    (hsaved : .saved enrollment ∈ o.history)
    (hcovers : Covers o.history enrollment.burrowId records)
    (howned : ∀ r ∈ records, r.burrowId = enrollment.burrowId) (uid : Nat) :
    Base { o with
      enrollment := some enrollment
      burrow := some ⟨uid, enrollment, .load enrollment.burrowId records⟩
      history := o.history ++ [.started uid enrollment records] } where
  preceded := by
    have hnot : .disposed ∉ o.history := by
      intro hmem
      rw [h.disposed hmem] at hlive
      cases hlive
    exact h.preceded.concat ⟨by rw [h.running, hnone]; rfl, hnot, hsaved, hcovers⟩
  running := by
    rw [running_concat, h.running, hnone]
    rfl
  disposed hmem := by
    rcases List.mem_append.1 hmem with hmem | hmem
    · exact h.disposed hmem
    · cases List.mem_singleton.1 hmem
  stopped hdisposed := by
    rw [show o.disposed = true from hdisposed] at hlive
    cases hlive
  durable e hstore := List.mem_append_left _ (h.durable e hstore)
  stored burrowId := (h.stored burrowId).concat fun r heq => by cases heq
  serves b hb := by
    cases hb
    have hrecords : (BurrowAcl.load enrollment.burrowId records).records = records := by
      rw [BurrowAcl.load, BurrowAcl.fromRecords, dif_pos howned, Option.getD_some]
    have hid : (BurrowAcl.load enrollment.burrowId records).burrowId = enrollment.burrowId := by
      rw [BurrowAcl.load, BurrowAcl.fromRecords, dif_pos howned, Option.getD_some]
    refine ⟨rfl, hid, ?_, records, List.mem_append_right _ List.mem_cons_self⟩
    rw [hid, hrecords]
    exact hcovers.concat fun r heq => by cases heq
  calls uid call hcall := (h.calls uid call hcall).mono (List.subset_append_left _ _)
  sent x hx request qr heq := (h.sent x hx request qr heq).mono (List.subset_append_left _ _)

/-- An approval is through: the store has its records, and the runtime now has them too. -/
theorem approved (h : Base o) {uid : Nat} {next : BurrowAcl} {record : BurrowAclRecord}
    (hsaves : Saves o uid next record) (hstored : o.store.loadAcl next.burrowId = next.records) :
    Base { o with
      burrow := o.burrow.map fun b => if b.uid = uid then { b with acl := next } else b
      history := o.history ++ [.approved record] } where
  preceded := h.preceded.concat trivial
  running := by
    rw [running_concat]
    cases hb : o.burrow with
    | none => simp [h.running, hb]
    | some b =>
      rw [h.running, hb]
      by_cases huid : b.uid = uid <;> simp [huid]
  disposed hmem := by
    rcases List.mem_append.1 hmem with hmem | hmem
    · exact h.disposed hmem
    · cases List.mem_singleton.1 hmem
  stopped hdisposed := by simp [h.stopped hdisposed]
  durable e hstore := List.mem_append_left _ (h.durable e hstore)
  stored burrowId := by
    refine (h.stored burrowId).concat fun r heq hid => ?_
    cases heq
    rw [← hid, hsaves.owner, hstored]
    exact hsaves.added
  serves b hb := by
    obtain ⟨b', hb', hset⟩ := Option.map_eq_some_iff.1 hb
    obtain ⟨huid, hid⟩ := hsaves.runtime b' hb'
    obtain ⟨henrollment, howner, -, records, hstarted⟩ := h.serves b' hb'
    rw [if_pos huid] at hset
    subst hset
    refine ⟨henrollment, hid.symm.trans howner, ?_, records, List.mem_append_left _ hstarted⟩
    refine hsaves.covers.concat fun r heq _ => ?_
    cases heq
    exact hsaves.added
  calls uid call hcall := (h.calls uid call hcall).mono (List.subset_append_left _ _)
  sent x hx request qr heq := (h.sent x hx request qr heq).mono (List.subset_append_left _ _)

end Base

/-! ### The work on the chain -/

namespace BurrowService

variable (opts : BurrowServiceOptions) {s : BurrowService} {job : Job}

theorem outline_sendToUi (s : BurrowService) {message : Message} (h : message.isQueue = false) :
    (s.sendToUi message).outline =
      if s.disposed then s.outline
      else { s.outline with sent := s.outline.sent ++ [⟨message, s.enrollment.isSome⟩] } := by
  unfold sendToUi
  split
  · rfl
  · simp [outline, h]

/-- A message that is no QR, or a QR that is minted, may be sent. -/
theorem base_sendToUi (h : Base s.outline) {message : Message}
    (hmessage : ∀ request qr, message = .result request (.ok (.setupQr qr)) →
      QrMinted s.history qr) (hqueue : message.isQueue = false) :
    Base (s.sendToUi message).outline := by
  rw [outline_sendToUi s hqueue]
  split
  · exact h
  · exact h.send hmessage _

theorem base_emitStatus (h : Base s.outline) : Base s.emitStatus.outline :=
  base_sendToUi h (fun _ _ heq => by cases heq) rfl

theorem kept_conclude (h : Base s.outline) {result : Except JsString Reply}
    (hresult : ∀ qr, result ≠ .ok (.setupQr qr)) : Kept (s.conclude job result).outline := by
  have hidle : Base { s.outline with active := none } := h.setActive none
  unfold conclude
  split
  · exact ⟨hidle, fun job hjob => by cases hjob⟩
  · exact ⟨hidle.setCall s.nextUid _ (CallStage.knows_answers _ hresult), fun job hjob => by cases hjob⟩
  · exact ⟨hidle.setCall s.nextUid _ (show CallStage.Knows s.history .reconnected from trivial),
      fun job hjob => by cases hjob⟩
  · exact ⟨hidle.setCall s.nextUid _ (CallStage.knows_answers _ fun qr heq => by cases heq),
      fun job hjob => by cases hjob⟩

theorem kept_awaits (h : Base s.outline) {awaited : Awaited}
    (hjob : JobOk s.outline { job with stage := .waits awaited }) :
    Kept (s.awaits job awaited).outline :=
  { h.setActive _ with
    job := fun _ heq => Option.some.inj heq ▸ hjob.extends (s.outline.extends_setActive _) }

theorem kept_goesOn (h : Base s.outline) {resumption : Resumption}
    (hjob : JobOk s.outline { job with stage := .goesOn resumption }) :
    Kept (s.goesOn job resumption).outline :=
  { h.setActive _ with
    job := fun _ heq => Option.some.inj heq ▸ hjob.extends (s.outline.extends_setActive _) }

/-- An enrollment that the store has. -/
theorem kept_startBurrow (h : Base s.outline) (hreply : ∀ qr, job.reply ≠ .setupQr qr)
    {incoming : BurrowEnrollment} (hsaved : .saved incoming ∈ s.history)
    (hfound : incoming.complete ∨ (s.disposed = false → s.outline.present = job.found)) :
    Kept (s.startBurrow job incoming).outline := by
  unfold startBurrow
  split
  · exact kept_conclude h fun qr heq => hreply qr (Except.ok.inj heq)
  · split
    · exact kept_awaits h ⟨hreply, hsaved, nofun⟩
    · rename_i hcomplete
      exact kept_awaits h ⟨hreply, trivial, fun _ => hfound.resolve_left hcomplete⟩

theorem kept_enrollWith (h : Base s.outline) (hjob : JobOk s.outline job)
    (hearly : job.stage.early = true) (relayUrl : JsString) (credential : BurrowEnrollCredential)
    (label : JsString) : Kept (s.enrollWith opts job relayUrl credential label).outline := by
  unfold enrollWith
  split
  · exact kept_awaits h ⟨hjob.reply, trivial, fun _ => hjob.found hearly⟩
  · exact kept_conclude h nofun

theorem kept_approve (h : Base s.outline) (hreply : ∀ qr, job.reply ≠ .setupQr qr)
    (params : ApproveParams) (now : Ms) : Kept (s.approve job params now).outline := by
  have hset : ∀ clientId pairing, Base (s.setPairing clientId pairing).outline := by
    intro clientId pairing
    rw [outline_setPairing]
    exact h
  unfold approve
  split
  · exact kept_conclude h nofun
  split
  · split
    · exact kept_conclude h nofun
    · dsimp only
      split
      · refine kept_conclude ?_ nofun
        rw [outline_disposePairing]
        exact hset _ _
      · exact kept_goesOn (hset _ _) ⟨hreply, trivial, nofun⟩
  · exact kept_conclude h nofun

theorem kept_begin (h : Base s.outline) (hjob : JobOk s.outline job)
    (hearly : job.stage.early = true) (now : Ms) (work : Work) :
    Kept (s.begin opts job now work).outline := by
  have hawaits : ∀ awaited : Awaited, JobStage.Knows s.outline (.waits awaited) →
      Kept (s.awaits job awaited).outline := fun awaited hknows =>
    kept_awaits h ⟨hjob.reply, hknows, fun _ => hjob.found hearly⟩
  cases work with
  | start => exact hawaits _ trivial
  | enroll params => exact kept_enrollWith opts h hjob hearly _ _ _
  | enrollOffer params => exact hawaits _ trivial
  | reconnect =>
    unfold begin
    dsimp only
    split
    · have hstart : Base (s.editBurrow ServedRuntime.start).outline := by
        rw [outline_editBurrow]
        · exact h
        · intro b
          unfold ServedRuntime.start
          split <;> rfl
      split
      · exact kept_conclude hstart nofun
      · exact kept_conclude hstart nofun
    · exact hawaits _ trivial
  | clearEnrollment => exact hawaits _ trivial
  | approve params => exact kept_approve h hjob.reply params now

/-- The runtime is stopped, and what is enrolled is forgotten and said to be. -/
theorem base_forgetBurrow (h : Base s.outline) :
    Base ({ s.stopBurrow with enrollment := none }.emitStatus).outline := by
  refine base_emitStatus ?_
  have hforget := h.stop.forget s.outline.stop_burrow
  rw [← outline_stopBurrow] at hforget
  exact hforget

theorem kept_savedEnrollment (h : Base s.outline) (hjob : JobOk s.outline job)
    {enrollment : BurrowEnrollment} (hcomplete : enrollment.complete)
    (hsaved : .saved enrollment ∈ s.history) (now : Ms) :
    Kept (s.resumeJob opts job now (.savedEnrollment enrollment (.ok ()))).outline := by
  unfold resumeJob
  by_cases hburrow : s.burrow.isSome
  · rw [if_pos hburrow]
    refine kept_startBurrow (base_forgetBurrow h) (fun qr heq => by cases heq) ?_ (.inl hcomplete)
    have hgrow : s.history ⊆ s.stopBurrow.history := by
      show _ ⊆ s.stopBurrow.outline.history
      rw [outline_stopBurrow]
      exact s.outline.subset_stop
    unfold emitStatus sendToUi
    split <;> exact hgrow hsaved
  · rw [if_neg hburrow]
    exact kept_startBurrow h (fun qr heq => by cases heq) hsaved (.inl hcomplete)

theorem kept_buildBurrow (h : Base s.outline) (hjob : JobOk s.outline job)
    {enrollment : BurrowEnrollment} {records : List BurrowAclRecord}
    (hsaved : .saved enrollment ∈ s.history) (hnone : s.outline.burrow = none)
    (hcovers : Covers s.history enrollment.burrowId records)
    (howned : ∀ r ∈ records, r.burrowId = enrollment.burrowId) :
    Kept (s.buildBurrow job enrollment records).outline := by
  have hreply : ∀ qr, Except.ok job.reply ≠ (.ok (.setupQr qr) : Except JsString Reply) :=
    fun qr heq => hjob.reply qr (Except.ok.inj heq)
  have houtline : ((ServedRuntime.construct s.nextUid enrollment records).start).outline =
      ⟨s.nextUid, enrollment, .load enrollment.burrowId records⟩ := by
    unfold ServedRuntime.start
    split <;> rfl
  unfold buildBurrow
  split
  · exact kept_conclude h hreply
  rename_i hlive
  have hstarted := h.started hnone (Bool.eq_false_of_not_eq_true hlive) hsaved hcovers howned
    s.nextUid
  rw [← houtline] at hstarted
  split
  · exact kept_conclude (base_emitStatus hstarted) hreply
  · exact kept_conclude hstarted nofun

theorem kept_approving (h : Base s.outline) (hjob : JobOk s.outline job)
    (clientId pairingId : JsString) (now : Ms) :
    Kept (s.resumeJob opts job now (.approving clientId pairingId)).outline := by
  unfold resumeJob
  dsimp only
  split
  · rename_i b pending hb hpending
    split
    · refine kept_conclude ?_ nofun
      rw [outline_disposePairing]
      exact h
    have hset : (s.setPairing clientId { pending with committing := true }).outline =
        s.outline := outline_setPairing ..
    obtain ⟨-, -, hcovers, -⟩ := h.serves b.outline (by rw [outline, hb]; rfl)
    refine kept_awaits (hset ▸ h) ⟨hjob.reply, ?_, nofun⟩
    rw [hset]
    -- The record is added at the end of what the runtime has.
    have hadded := b.acl.approve_asWritten pending.client now
    refine ⟨?_, rfl, fun r hr hid => ?_, fun b' hb' => ?_⟩
    · rw [hadded]
      exact List.mem_append_right _ List.mem_cons_self
    · rw [hadded]
      exact List.mem_append_left _ (hcovers r hr hid)
    · rw [outline, hb] at hb'
      cases hb'
      exact ⟨rfl, rfl⟩
  · exact kept_conclude h nofun

theorem outline_commitAcl (s : BurrowService) (uid : Nat) (next : BurrowAcl) :
    (s.commitAcl uid next).outline =
      { s.outline with
        burrow := s.outline.burrow.map fun b => if b.uid = uid then { b with acl := next } else b } := by
  cases hb : s.burrow with
  | none => simp [commitAcl, editBurrow, outline, hb]
  | some b =>
    by_cases huid : b.uid = uid <;>
      simp [commitAcl, editBurrow, outline, ServedRuntime.outline, hb, huid]

theorem kept_savedAcl (h : Base s.outline) (hjob : JobOk s.outline job) {uid : Nat}
    {clientId pairingId : JsString} {next : BurrowAcl} {record : BurrowAclRecord}
    {result : Except JsString Unit}
    (hstage : job.stage = .goesOn (.savedAcl uid clientId pairingId next record result))
    (now : Ms) :
    Kept (s.resumeJob opts job now
      (.savedAcl uid clientId pairingId next record result)).outline := by
  have hrest : ∀ (t : BurrowService) (error : JsString), Base t.outline →
      Kept (t.resumeJob opts job now
        (.savedAcl uid clientId pairingId next record (.error error))).outline := by
    intro t error ht
    unfold resumeJob
    dsimp only
    split
    · refine kept_conclude ?_ (fun _ h => by cases h)
      rw [outline_disposePairing]
      exact ht
    · exact kept_conclude ht (fun _ h => by cases h)
  cases result with
  | error error => exact hrest s error h
  | ok value =>
    have hknows := hjob.knows
    rw [hstage] at hknows
    have happroved := h.approved hknows.1 hknows.2
    refine hrest { s.commitAcl uid next with history := s.history ++ [.approved record] } [] ?_
    have hcommit := s.outline_commitAcl uid next
    simp only [outline, Outline.mk.injEq] at hcommit happroved ⊢
    obtain ⟨hstore, hdisposed, hburrow, henrollment, hactive, hcalls, hsent, -⟩ := hcommit
    rw [hstore, hdisposed, hburrow, henrollment, hactive, hcalls, hsent]
    exact happroved

theorem kept_resumeJob (h : Base s.outline) (hjob : JobOk s.outline job)
    {resumption : Resumption} (hstage : job.stage = .goesOn resumption) (now : Ms) :
    Kept (s.resumeJob opts job now resumption).outline := by
  have hknows := hjob.knows
  have hfound := hjob.found
  rw [hstage] at hknows hfound
  have hreply : ∀ qr, Except.ok job.reply ≠ (.ok (.setupQr qr) : Except JsString Reply) :=
    fun qr heq => hjob.reply qr (Except.ok.inj heq)
  cases resumption with
  | begin work =>
    refine kept_begin opts h hjob ?_ now work
    rw [hstage]
    rfl
  | loadedEnrollment result =>
    rcases result with error | (_ | enrollment)
    · exact kept_conclude h nofun
    · exact kept_conclude h hreply
    · unfold resumeJob
      dsimp only
      split
      · exact kept_startBurrow h hjob.reply hknows (.inr (hfound rfl))
      · exact kept_conclude h hreply
  | offerRead params offer =>
    rcases offer with _ | offer
    · exact kept_conclude h nofun
    unfold resumeJob
    dsimp only
    split
    · exact kept_conclude h nofun
    · refine kept_enrollWith opts h hjob ?_ _ _ _
      rw [hstage]
      rfl
  | exchanged relayUrl label result =>
    cases result with
    | error error => exact kept_conclude h nofun
    | ok answer => exact kept_awaits h ⟨hjob.reply, ⟨rfl, rfl⟩, fun _ => hfound rfl⟩
  | savedEnrollment enrollment result =>
    cases result with
    | error error => exact kept_conclude h nofun
    | ok value => exact kept_savedEnrollment opts h hjob hknows.1 hknows.2 now
  | derived enrollment publicKey =>
    cases publicKey with
    | error error => exact kept_goesOn h ⟨hjob.reply, trivial, nofun⟩
    | ok publicKey =>
      unfold resumeJob
      dsimp only
      split
      · exact kept_goesOn h ⟨hjob.reply, hknows, nofun⟩
      · exact kept_goesOn h ⟨hjob.reply, trivial, nofun⟩
  | minted enrollment material =>
    cases material with
    | error error => exact kept_goesOn h ⟨hjob.reply, trivial, nofun⟩
    | ok material => exact kept_awaits h ⟨hjob.reply, trivial, fun _ => hfound rfl⟩
  | savedBackfilled enrollment result =>
    cases result with
    | error error => exact kept_conclude h nofun
    | ok value => exact kept_goesOn h ⟨hjob.reply, hknows, nofun⟩
  | verified enrollment =>
    rcases enrollment with _ | enrollment
    · exact kept_conclude h hreply
    unfold resumeJob
    dsimp only
    split
    · exact kept_conclude h hreply
    · have hstop := h.stop
      rw [← outline_stopBurrow] at hstop
      refine kept_awaits hstop ⟨hjob.reply, ?_, nofun⟩
      rw [outline_stopBurrow]
      exact ⟨s.outline.subset_stop hknows, s.outline.stop_burrow⟩
  | loadedAcl enrollment records =>
    cases records with
    | error error => exact kept_conclude h nofun
    | ok records => exact kept_buildBurrow h hjob hknows.1 hknows.2.1 hknows.2.2.1 hknows.2.2.2
  | clearedEnrollment result =>
    cases result with
    | error error => exact kept_conclude h nofun
    | ok value => exact kept_conclude (base_forgetBurrow h) nofun
  | approving clientId pairingId => exact kept_approving opts h hjob clientId pairingId now
  | savedAcl uid clientId pairingId next record result =>
    exact kept_savedAcl opts h hjob hstage now

/-! ### Outside promises that settle -/

theorem base_land (h : Base s.outline) {awaited : Awaited}
    (hknows : JobStage.Knows s.outline (.waits awaited)) : Base (s.land awaited).outline := by
  have hsave : ∀ enrollment, Base { s.outline with
      store := { s.outline.store with enrollment := some enrollment }
      history := s.outline.history ++ [.saved enrollment] } := by
    intro enrollment
    have happend := h.append (show Justified _ (.saved enrollment) from trivial)
      (running_concat _ _) (fun heq => by cases heq) (fun r heq => by cases heq)
    refine happend.setStoreEnrollment fun e heq => ?_
    cases heq
    exact List.mem_append_right _ List.mem_cons_self
  cases awaited with
  | saveEnrollment enrollment => exact hsave enrollment
  | saveBackfilled enrollment => exact hsave enrollment
  | clearEnrollment => exact h.setStoreEnrollment fun e heq => by cases heq
  | saveAcl uid clientId pairingId next record => exact h.setStoreAcl hknows.covers
  | _ => exact h

/-- The work goes on with what its promise settled with. -/
theorem jobOk_goesOn {o : Outline} (hjob : JobOk o job) {awaited : Awaited}
    (hstage : job.stage = .waits awaited) {o' : Outline} (hpresent : o'.present = o.present)
    (hdisposed : o'.disposed = o.disposed) {resumption : Resumption}
    (hknows : JobStage.Knows o' (.goesOn resumption))
    (hearly : JobStage.early (.goesOn resumption) = JobStage.early (.waits awaited)) :
    JobOk o' { job with stage := .goesOn resumption } where
  reply := hjob.reply
  knows := hknows
  found h hlive := by
    rw [hpresent]
    refine hjob.found ?_ (hdisposed ▸ hlive)
    rw [hstage, ← hearly]
    exact h

/-- What a promise settles with is what its stage needs. -/
theorem knows_resumptionOf (h : Base s.outline) {awaited : Awaited}
    (hknows : JobStage.Knows s.outline (.waits awaited)) {outcome : Outcome}
    {resumption : Resumption} (hresumption : s.resumptionOf awaited outcome = some resumption) :
    JobStage.Knows (s.landedBy awaited outcome).outline (.goesOn resumption) := by
  have hsaved : ∀ (t : BurrowService) (enrollment : BurrowEnrollment),
      t.history = s.history ++ [.saved enrollment] → .saved enrollment ∈ t.outline.history := by
    intro t enrollment ht
    rw [outline, ht]
    exact List.mem_append_right _ List.mem_cons_self
  cases awaited with
  | loadEnrollment =>
    cases outcome with
    | rejects error landed => cases hresumption; trivial
    | resolves =>
      cases hresumption
      cases hstore : s.store.enrollment with
      | none => trivial
      | some enrollment => exact h.durable enrollment hstore
    | _ => cases hresumption
  | readOffer params => cases outcome <;> cases hresumption; trivial
  | performEnrollment relayUrl credential label =>
    cases outcome <;> cases hresumption <;> trivial
  | saveEnrollment enrollment =>
    cases outcome with
    | rejects error landed => cases hresumption; trivial
    | resolves => cases hresumption; exact ⟨hknows, hsaved _ _ rfl⟩
    | _ => cases hresumption
  | deriveNoiseStatic enrollment =>
    cases outcome with
    | rejects error landed => cases hresumption; cases landed <;> exact hknows
    | publicKey publicKey => cases hresumption; exact hknows
    | _ => cases hresumption
  | mintNoiseStatic enrollment => cases outcome <;> cases hresumption <;> trivial
  | saveBackfilled enrollment =>
    cases outcome with
    | rejects error landed => cases hresumption; trivial
    | resolves => cases hresumption; exact hsaved _ _ rfl
    | _ => cases hresumption
  | loadAcl enrollment =>
    cases outcome with
    | rejects error landed => cases hresumption; trivial
    | resolves =>
      cases hresumption
      exact ⟨hknows.1, hknows.2, h.stored _, s.store.owned_loadAcl _⟩
    | _ => cases hresumption
  | clearEnrollment => cases outcome <;> cases hresumption <;> trivial
  | saveAcl uid clientId pairingId next record =>
    cases outcome with
    | rejects error landed => cases hresumption; trivial
    | resolves =>
      cases hresumption
      exact ⟨{ hknows with }, s.store.loadAcl_saveAcl next⟩
    | _ => cases hresumption

/-- A stage that has touched nothing goes on to one that has not either. -/
theorem early_resumptionOf {awaited : Awaited} {outcome : Outcome} {resumption : Resumption}
    (hresumption : s.resumptionOf awaited outcome = some resumption) :
    JobStage.early (.goesOn resumption) = JobStage.early (.waits awaited) := by
  cases awaited <;> cases outcome <;> cases hresumption <;> rfl

theorem kept_settleJob (h : Kept s.outline) (outcome : Outcome) :
    Kept (s.settleJob outcome).outline := by
  unfold settleJob
  split
  · exact h
  rename_i job hactive
  have hjob := h.job job hactive
  split
  · exact h
  rename_i awaited hstage
  have hknows := hjob.knows
  rw [hstage] at hknows
  split
  · exact h
  rename_i resumption hresumption
  have hbase : Base (s.landedBy awaited outcome).outline := by
    unfold landedBy
    split
    · exact base_land h.toBase hknows
    · exact base_land h.toBase hknows
    · exact h.toBase
  refine kept_goesOn hbase ?_
  have hsame : (s.landedBy awaited outcome).outline.present = s.outline.present ∧
      (s.landedBy awaited outcome).outline.disposed = s.outline.disposed := by
    unfold landedBy land
    repeat' split
    all_goals exact ⟨rfl, rfl⟩
  exact jobOk_goesOn hjob hstage hsame.1 hsame.2
    (knows_resumptionOf h.toBase hknows hresumption)
    (early_resumptionOf hresumption)

/-! ### Steps -/

theorem kept_runChain (h : Kept s.outline) (now : Ms) : Kept (s.runChain opts now).outline := by
  unfold runChain
  split
  · exact h
  · refine ⟨h.setActive _, fun job hjob => ?_⟩
    cases hjob
    refine ⟨fun qr heq => ?_, trivial, fun _ _ => ?_⟩
    · cases heq
    show (Option.map _ (Option.map _ s.burrow), s.enrollment) = _
    rw [Option.map_map]
    rfl
  · rename_i job hactive
    split
    · exact h
    · rename_i resumption hstage
      exact kept_resumeJob opts h.toBase (h.job job hactive) hstage now

theorem kept_setStage (h : Kept s.outline) (uid : Nat) (request : JsString) {stage : CallStage}
    (hstage : stage.Knows s.history) : Kept (s.setStage uid request stage).outline :=
  h.of_extends (h.setCall uid request hstage)
    ⟨rfl, rfl, fun _ h => h, fun _ h => h, id, .inl rfl⟩ rfl

theorem knows_statusStage (s : BurrowService) (history : List Event) :
    (s.statusStage opts).Knows history := by
  unfold statusStage
  split <;> trivial

/-- What a mint leaves: an invitation of the runtime that is current, and a QR made of it. -/
theorem kept_mintQr (h : Kept s.outline) {uid : Nat} {enrollment : BurrowEnrollment}
    (hstarted : ∃ records, .started uid enrollment records ∈ s.history) (epoch : Nat)
    (setupToken : JsString) (relayExpiresAtMs : Ms) (publicKey : Noise.Bytes) (inviteId : JsString)
    (now : Ms) {t : BurrowService} {result : Except JsString Reply}
    (hmint : s.mintQr uid epoch enrollment setupToken relayExpiresAtMs publicKey inviteId now =
      (t, result)) :
    Kept t.outline ∧ CallStage.Knows t.history (.answers result) := by
  unfold mintQr at hmint
  split at hmint
  · cases hmint
    exact ⟨h, trivial⟩
  rename_i b hb
  split at hmint
  · cases hmint
    exact ⟨h, trivial⟩
  rename_i hcurrent
  obtain rfl : b.uid = uid := by
    by_contra hne
    exact hcurrent (.inl hne)
  dsimp only at hmint
  split at hmint
  · cases hmint
    exact ⟨h, trivial⟩
  have hminted : ∀ invitation : PairingInvitation,
      Kept { s.outline with history := s.history ++ [.minted b.uid invitation] } := by
    intro invitation
    refine h.of_extends (h.append ?_ (running_concat _ _) (fun heq => by cases heq)
      (fun r heq => by cases heq)) ⟨rfl, rfl, List.subset_append_left _ _, ?_, id, .inl rfl⟩ rfl
    · show running s.outline.history = _
      rw [h.running, outline, hb]
      rfl
    · intro r hr
      rcases List.mem_append.1 hr with hr | hr
      · exact hr
      · cases List.mem_singleton.1 hr
  cases hmint
  refine ⟨hminted _, ?_⟩
  split
  · trivial
  · rename_i url hurl
    obtain ⟨records, hstarted⟩ := hstarted
    exact ⟨b.uid, enrollment, records, _, List.mem_append_left _ hstarted,
      List.mem_append_right _ List.mem_cons_self, rfl, hurl⟩

theorem kept_runCall (h : Kept s.outline) (uid : Nat) (now : Ms) :
    Kept (s.runCall opts uid now).outline := by
  unfold runCall
  split
  · exact h
  rename_i request stage hcall
  have hknows := h.calls uid _ hcall
  split
  · exact h
  · exact h
  · exact h
  · exact kept_setStage h uid request (knows_statusStage opts s _)
  · exact kept_setStage h uid request trivial
  · exact kept_setStage h uid request trivial
  · exact kept_setStage h uid request trivial
  · split
    · split
      · exact kept_setStage h uid request hknows
      · exact kept_setStage h uid request trivial
    · exact kept_setStage h uid request trivial
  · exact kept_setStage h uid request trivial
  · rename_i burrow epoch enrollment setupToken expiresAt publicKey inviteId
    obtain ⟨hkept, hresult⟩ := kept_mintQr h hknows epoch setupToken expiresAt publicKey inviteId
      now (Prod.eta _).symm
    exact kept_setStage hkept uid request hresult
  · rename_i result
    have hdelete : Kept { s with calls := s.calls.delete uid }.outline :=
      h.of_extends (h.deleteCall uid) ⟨rfl, rfl, fun _ h => h, fun _ h => h, id, .inl rfl⟩ rfl
    have hsend : Base ({ s with calls := s.calls.delete uid }.sendToUi
        (.result request result)).outline := by
      refine base_sendToUi hdelete.toBase (fun request' qr heq => ?_) rfl
      cases heq
      exact hknows
    refine hdelete.of_extends hsend ?_ ?_
    · rw [outline_sendToUi _ rfl]
      split
      · exact ⟨rfl, rfl, fun _ h => h, fun _ h => h, id, .inl rfl⟩
      · exact ⟨rfl, rfl, fun _ h => h, fun _ h => h, id, .inl rfl⟩
    · rw [outline_sendToUi _ rfl]
      split <;> rfl

theorem kept_settleCall (h : Kept s.outline) (uid : Nat) (outcome : Outcome) :
    Kept (s.settleCall uid outcome).outline := by
  unfold settleCall
  split
  · exact h
  rename_i request stage hcall
  have hknows := h.calls uid _ hcall
  split
  · exact kept_setStage h uid request trivial
  · exact kept_setStage h uid request hknows
  · exact kept_setStage h uid request hknows
  · exact kept_setStage h uid request hknows
  · exact kept_setStage h uid request hknows
  · exact h

theorem kept_call (h : Kept s.outline) (request : JsString) {stage : CallStage}
    (hstage : stage.Knows s.history) : Kept (s.call request stage).outline :=
  h.of_extends (h.setCall s.nextUid request hstage)
    ⟨rfl, rfl, fun _ h => h, fun _ h => h, id, .inl rfl⟩ rfl

theorem outline_deny (s : BurrowService) (params : DenyParams) :
    (s.deny params).1.outline = s.outline := by
  unfold deny
  repeat' split
  all_goals first | rfl | exact outline_disposePairing ..

theorem deny_result (s : BurrowService) (params : DenyParams) (qr : SetupQrResult) :
    (s.deny params).2 ≠ .ok (.setupQr qr) := by
  unfold deny
  repeat' split
  all_goals exact fun heq => by cases heq

theorem kept_handleCommand (h : Kept s.outline) (request : JsString) (command : Command) :
    Kept (s.handleCommand opts request command).outline := by
  unfold handleCommand
  split
  · exact h
  cases command with
  | enroll | enrollOffer | reconnect | clearEnrollment | approve => exact h
  | status => exact kept_call h request (knows_statusStage opts s _)
  | setupQr =>
    refine kept_call h request ?_
    unfold setupQrStage
    split
    · rename_i enrollment b henrollment hb
      obtain ⟨hsame, -, -, hstarted⟩ := h.serves b.outline (by rw [outline, hb]; rfl)
      rw [show s.outline.enrollment = some enrollment from henrollment] at hsame
      cases hsame
      exact hstarted
    · trivial
  | deny params =>
    have hkept : Kept (s.deny params).1.outline := by
      rw [outline_deny]
      exact h
    exact kept_call hkept request (CallStage.knows_answers _ (deny_result s params))
  | pairingQueue => exact kept_call h request trivial
  | unknown cmd => exact kept_call h request trivial

theorem outline_dispose (s : BurrowService) :
    s.dispose.outline =
      if s.disposed then s.outline
      else
        { s.outline.stop with
          disposed := true
          history := s.outline.stop.history ++ [.disposed] } := by
  unfold dispose
  split
  · rfl
  have hstop : { s with disposed := true }.stopBurrow.outline =
      { s.outline.stop with disposed := true } := by
    rw [outline_stopBurrow]
    cases hb : s.burrow <;> simp [outline, Outline.stop, hb]
  show { ({ s with disposed := true }.stopBurrow.outline) with
    history := { s with disposed := true }.stopBurrow.outline.history ++ [Event.disposed] } = _
  rw [hstop]

theorem kept_dispose (h : Kept s.outline) : Kept s.dispose.outline := by
  rw [outline_dispose]
  split
  · exact h
  refine h.of_extends (h.stop.dispose s.outline.stop_burrow) ⟨s.outline.stop_store,
    s.outline.stop_enrollment, ?_, fun r hr => ?_, nofun, .inr ⟨s.outline.stop_burrow, rfl⟩⟩
    s.outline.stop_active
  · exact fun _ hmem => List.mem_append_left _ (s.outline.subset_stop hmem)
  · rcases List.mem_append.1 hr with hr | hr
    · exact s.outline.approved_of_stop hr
    · cases List.mem_singleton.1 hr

theorem kept_perform (h : Kept s.outline) (act : Act) : Kept (s.perform opts act).outline := by
  cases act with
  | start =>
    show Kept s.start.outline
    unfold start
    split <;> exact h
  | command request command => exact kept_handleCommand opts h request command
  | dispose => exact kept_dispose h
  | runChain now => exact kept_runChain opts h now
  | runCall uid now => exact kept_runCall opts h uid now
  | settleJob outcome => exact kept_settleJob h outcome
  | settleCall uid outcome => exact kept_settleCall h uid outcome
  | requestApproval clientId pairing label requestedAt =>
    show Kept (s.requestApproval clientId pairing label requestedAt).outline
    rw [outline_requestApproval]
    exact h
  | pairingEnds clientId =>
    show Kept (s.disposePairing clientId).outline
    rw [outline_disposePairing]
    exact h
  | socketChanges status =>
    show Kept (s.socketChanges status).outline
    rw [outline_socketChanges]
    exact h

/-- What the store has is on record from the start. -/
theorem mem_history_fresh {store : Store} {event : Event} (h : event ∈ (fresh store).history) :
    (∃ enrollment, event = .saved enrollment) ∨
      ∃ burrowId, ∃ r ∈ store.loadAcl burrowId, event = .approved r.asWritten := by
  rcases List.mem_append.1 h with h | h
  · obtain ⟨enrollment, -, rfl⟩ := List.mem_map.1 h
    exact .inl ⟨enrollment, rfl⟩
  · obtain ⟨r, hr, rfl⟩ := List.mem_map.1 h
    obtain ⟨burrowId, -, hr⟩ := List.mem_flatMap.1 hr
    exact .inr ⟨burrowId, r, hr, rfl⟩

theorem running_eq_nil {history : List Event}
    (h : ∀ event ∈ history, ∀ uid enrollment records, event ≠ .started uid enrollment records) :
    running history = [] := by
  induction history using List.reverseRecOn with
  | nil => rfl
  | append_singleton history event ih =>
    have hlast := h event (List.mem_append_right _ List.mem_cons_self)
    have hinit := ih fun e he => h e (List.mem_append_left _ he)
    rw [running_concat, hinit]
    cases event with
    | started uid enrollment records => exact absurd rfl (hlast uid enrollment records)
    | stopped uid => rfl
    | saved | approved | minted | disposed => rfl

theorem kept_fresh (store : Store) : Kept (fresh store).outline where
  preceded before event after heq := by
    have hmem : event ∈ (fresh store).history := by
      rw [show (fresh store).history = _ from heq]
      exact List.mem_append_right _ List.mem_cons_self
    rcases mem_history_fresh hmem with ⟨enrollment, rfl⟩ | ⟨burrowId, r, -, rfl⟩ <;> trivial
  running := by
    refine running_eq_nil fun event hmem uid enrollment records heq => ?_
    rcases mem_history_fresh hmem with ⟨e, rfl⟩ | ⟨burrowId, r, -, rfl⟩ <;> cases heq
  disposed hmem := by
    rcases mem_history_fresh hmem with ⟨e, heq⟩ | ⟨burrowId, r, -, heq⟩ <;> cases heq
  stopped _ := rfl
  durable enrollment hstore := by
    have hstore : store.enrollment = some enrollment := hstore
    show .saved enrollment ∈ (fresh store).history
    rw [fresh, hstore]
    exact List.mem_cons_self
  stored burrowId r hr hid := by
    rcases mem_history_fresh hr with ⟨e, heq⟩ | ⟨key, r', hr', heq⟩
    · cases heq
    · cases heq
      obtain rfl : key = burrowId := (store.owned_loadAcl key r' hr').symm.trans hid
      exact List.mem_map_of_mem hr'
  serves b hb := by cases hb
  calls uid call hcall := by cases hcall
  sent x hx := by cases hx
  job job hjob := by cases hjob

/-- Every run keeps the invariant. -/
theorem kept_inductive : (serviceRuns opts).Inductive fun s => Kept s.outline where
  init := by
    rintro _ ⟨store, rfl⟩
    exact kept_fresh store
  step hs hstep := by
    cases hstep
    exact kept_perform opts hs _

end BurrowService

/-! ### The lifecycle -/

/-- A write of the enrollment that has failed. -/
def JobStage.writeFailed : JobStage → Bool
  | .goesOn (.savedEnrollment _ (.error _)) | .goesOn (.savedBackfilled _ (.error _))
  | .goesOn (.clearedEnrollment (.error _)) => true
  | _ => false

/-- What the lifecycle of a service comes to. -/
structure Lifecycle (opts : BurrowServiceOptions) (s : BurrowService) : Prop where
  current : running s.history = (s.burrow.map (·.uid)).toList
  /-- At any moment at most one runtime is started and not stopped. -/
  single : ∀ before, before <+: s.history → (running before).length ≤ 1
  /-- When the service has been disposed none runs, and none is started any more. -/
  terminal : s.disposed = true → s.burrow = none
  never : ∀ before after, s.history = before ++ .disposed :: after →
    running before = [] ∧ ∀ uid enrollment records, .started uid enrollment records ∉ after
  /-- A runtime is started over an enrollment that the store has. -/
  durable : ∀ before uid enrollment records after,
    s.history = before ++ .started uid enrollment records :: after → .saved enrollment ∈ before
  /-- The records it is started over have every approval before it. -/
  approvals : ∀ before uid enrollment records after,
    s.history = before ++ .started uid enrollment records :: after →
      Covers before enrollment.burrowId records
  /-- Work that has not written the enrollment yet finds things as they were. -/
  untouched : ∀ job, s.active = some job → job.stage.early = true → s.disposed = false →
    (s.burrow.map (·.uid), s.enrollment) = job.found
  /-- When the write fails they are left so. -/
  failed : ∀ job now, s.active = some job → job.stage.writeFailed = true →
    (s.disposed = false → (s.burrow.map (·.uid), s.enrollment) = job.found) ∧
      (s.runChain opts now).burrow = s.burrow ∧
      (s.runChain opts now).enrollment = s.enrollment ∧
      (s.runChain opts now).history = s.history
  /-- A QR that is returned was minted by the runtime that was current then. -/
  minted : ∀ x ∈ s.sent, ∀ request qr, x.message = .result request (.ok (.setupQr qr)) →
    ∃ before uid invitation after enrollment records,
      s.history = before ++ .minted uid invitation :: after ∧ running before = [uid] ∧
        .started uid enrollment records ∈ s.history ∧ qr.inviteId = invitation.inviteId ∧
        formatPairingInvitationUrl enrollment.origin invitation = some qr.url

theorem early_of_writeFailed {stage : JobStage} (h : stage.writeFailed = true) :
    stage.early = true := by
  unfold JobStage.writeFailed at h
  split at h
  · rfl
  · rfl
  · rfl
  · cases h

/-- Along justified events at most one runtime runs at a time. -/
theorem running_length_le_one {history : List Event} (h : Preceded Justified history) :
    (running history).length ≤ 1 := by
  induction history using List.reverseRecOn with
  | nil => exact Nat.zero_le _
  | append_singleton history event ih =>
    have hinit := ih (Preceded.of_append h)
    rw [running_concat]
    cases event with
    | started uid enrollment records =>
      have hnone := (h history _ [] rfl).1
      rw [hnone]
      exact Nat.le_refl _
    | stopped uid => exact Nat.le_trans (List.length_filter_le _ _) hinit
    | saved | approved | minted | disposed => exact hinit

namespace BurrowService

variable (opts : BurrowServiceOptions) {s : BurrowService}

theorem conclude_unchanged (s : BurrowService) (job : Job) (result : Except JsString Reply) :
    (s.conclude job result).burrow = s.burrow ∧
      (s.conclude job result).enrollment = s.enrollment ∧
      (s.conclude job result).history = s.history := by
  unfold conclude
  split <;> exact ⟨rfl, rfl, rfl⟩

/-- A write that failed is only answered. -/
theorem runChain_of_writeFailed {job : Job} (hactive : s.active = some job)
    (hfailed : job.stage.writeFailed = true) (now : Ms) :
    ∃ error, s.runChain opts now = s.conclude job (.error error) := by
  unfold runChain
  rw [hactive]
  dsimp only
  cases hstage : job.stage with
  | waits awaited => rw [hstage] at hfailed; cases hfailed
  | goesOn resumption =>
    rw [hstage] at hfailed
    unfold JobStage.writeFailed at hfailed
    split at hfailed
    · rename_i error heq
      cases heq
      exact ⟨error, rfl⟩
    · rename_i error heq
      cases heq
      exact ⟨error, rfl⟩
    · rename_i error heq
      cases heq
      exact ⟨error, rfl⟩
    · cases hfailed

theorem service_lifecycle (hs : (serviceRuns opts).Reachable s) : Lifecycle opts s := by
  have h := (kept_inductive opts).reachable hs
  have hpresent : s.outline.present = (s.burrow.map (·.uid), s.enrollment) := by
    show (Option.map _ (Option.map _ s.burrow), s.enrollment) = _
    rw [Option.map_map]
    rfl
  have hcurrent : running s.history = (s.burrow.map (·.uid)).toList :=
    h.running.trans (congrArg (Option.toList ∘ Prod.fst) hpresent)
  have huntouched : ∀ job, s.active = some job → job.stage.early = true → s.disposed = false →
      (s.burrow.map (·.uid), s.enrollment) = job.found := by
    intro job hactive hearly hlive
    rw [← hpresent]
    exact (h.job job hactive).found hearly hlive
  refine ⟨hcurrent, ?_, ?_, ?_, ?_, ?_, huntouched, ?_, ?_⟩
  · rintro before ⟨after, heq⟩
    have hpreceded := h.preceded
    rw [show s.outline.history = before ++ after from heq.symm] at hpreceded
    exact running_length_le_one (Preceded.of_append hpreceded)
  · intro hdisposed
    exact Option.map_eq_none_iff.1 (h.stopped hdisposed)
  · intro before after heq
    refine ⟨h.preceded before _ after heq, fun uid enrollment records hmem => ?_⟩
    obtain ⟨mid, tail, rfl⟩ := List.append_of_mem hmem
    have hstarted := h.preceded (before ++ .disposed :: mid) (.started uid enrollment records) tail
      (heq.trans (by simp))
    exact hstarted.2.1 (List.mem_append_right _ List.mem_cons_self)
  · intro before uid enrollment records after heq
    exact (h.preceded before _ after heq).2.2.1
  · intro before uid enrollment records after heq
    exact (h.preceded before _ after heq).2.2.2
  · intro job now hactive hfailed
    refine ⟨huntouched job hactive (early_of_writeFailed hfailed), ?_⟩
    obtain ⟨error, hrun⟩ := runChain_of_writeFailed opts hactive hfailed now
    rw [hrun]
    exact s.conclude_unchanged job _
  · intro x hx request qr hmessage
    have hsent : x ∈ s.outline.sent := by
      refine List.mem_filter.2 ⟨hx, ?_⟩
      rw [hmessage]
      rfl
    obtain ⟨uid, enrollment, records, invitation, hstarted, hminted, hid, hurl⟩ :=
      h.sent x hsent request qr hmessage
    obtain ⟨before, after, heq⟩ := List.append_of_mem hminted
    exact ⟨before, uid, invitation, after, enrollment, records, heq, h.preceded before _ after heq,
      hstarted, hid, hurl⟩

/-! ### A run -/

/-- A build that may connect anywhere. -/
def anywhere : BurrowServiceOptions := ⟨fun _ => true, js "https:", js "laptop (Dormouse)"⟩

def homeEnrollment : BurrowEnrollment where
  relayUrl := js "https://home.example"
  burrowId := js "burrow"
  burrowToken := js "token"
  origin := js "https://home.example"
  rpId := js "home.example"
  label := none
  requireUserVerification := none
  noiseStaticPrivateKey := some (js "private")
  noiseStaticPublicKey := some (js "public")

/-- A start from what is stored. -/
def startActs : List Act :=
  [.start, .runChain 0, .runChain 0, .settleJob .resolves, .runChain 0,
    .settleJob (.publicKey (js "public")), .runChain 0, .runChain 0, .settleJob .resolves,
    .runChain 0]

/-- Then an un-enrollment, and the store refuses. -/
def refusedActs : List Act :=
  startActs ++ [.command (js "1") .clearEnrollment, .runChain 0, .runChain 0,
    .settleJob (.rejects (js "EACCES") false)]

def refused : BurrowService := (fresh ⟨some homeEnrollment, .empty⟩).after anywhere refusedActs

theorem service_lifecycle_refused :
    running refused.history = [0] ∧ refused.active.any (·.stage.writeFailed) ∧
      Lifecycle anywhere refused :=
  ⟨by decide +kernel, by decide +kernel,
    service_lifecycle anywhere (reachable_after anywhere refusedActs (.start ⟨_, rfl⟩))⟩

end BurrowService

end Dormouse.Host
