import Dormouse.Host.ServiceSound

/-!
# Dormouse.Host.ServiceStatus

What the webview is **told about the enrollment**: the status events, and the status that
answers a command.

An answer is built in one continuation and sent in a later one. It is stale if the
enrollment changes in between, which it can only do when a promise from outside settles
before the continuations that are queued have run. In the runs whose outside promises settle
in a turn of their own, every status is true when it is sent.
-/

namespace Dormouse.Host

open Terminal (Ms)

/-! ### What is told -/

/-- What a message says about the enrollment. -/
def Message.enrolled? : Message → Option Bool
  | .status enrolled => some enrolled
  | .result _ (.ok (.status console)) => some console.enrolled
  | _ => none

/-- What a webview that applies the messages in order ends with. -/
def shown (sent : List Sent) : Option Bool := (sent.filterMap (·.message.enrolled?)).getLast?

/-- Every status is true when it is sent, and the webview ends agreeing with the service. -/
structure StatusTrue (s : BurrowService) : Prop where
  answers : ∀ x ∈ s.sent, ∀ request status,
    x.message = .result request (.ok (.status status)) → status.enrolled = x.enrolled
  agrees : s.disposed = false → ∀ enrolled, shown s.sent = some enrolled →
    enrolled = s.enrollment.isSome

/-! ### Turns -/

def JobStage.isQueued : JobStage → Bool
  | .waits _ => false
  | .goesOn _ => true

/-- A call that awaits a promise from outside. -/
def CallStage.waits : CallStage → Bool
  | .readsOffer | .fetchesSetupToken .. | .generatesKeyPair .. => true
  | _ => false

/-- Continuations that write the enrollment. -/
def Resumption.writes : Resumption → Bool
  | .savedEnrollment _ (.ok _) | .loadedAcl _ (.ok _) | .clearedEnrollment (.ok _) => true
  | _ => false

namespace BurrowService

/-- No continuation of the work on the chain is queued. -/
def chainWaits (s : BurrowService) : Bool := s.active.all (!·.stage.isQueued)

/-- Every continuation that was queued has run. -/
def drained (s : BurrowService) : Bool :=
  s.chainWaits && (s.active.isSome || s.chain.isEmpty) && s.calls.values.all (·.stage.waits)

/-- The token of a runtime that is to be started can be spelled in a URL. -/
def startable (s : BurrowService) : Bool :=
  s.active.all fun job =>
    match job.stage with
    | .goesOn (.loadedAcl enrollment (.ok _)) => isWellFormed enrollment.burrowToken
    | _ => true

/-- What a promise from outside settles with is read before anything else comes: it settles
when the turn before it has run, and no command comes while the work it resumes is queued. -/
def orderly (s : BurrowService) : Act → Bool
  | .settleJob _ | .settleCall .. => s.drained
  | .command .. => s.chainWaits
  | .runChain _ => s.startable
  | _ => true

/-- The runs whose steps are all orderly. -/
def orderlyRuns (opts : BurrowServiceOptions) : System BurrowService Act where
  init := (serviceRuns opts).init
  step s act s' := s.orderly act = true ∧ s' = s.perform opts act

/-- Whether a whole run is. -/
def orderlyRun (opts : BurrowServiceOptions) (s : BurrowService) : List Act → Bool
  | [] => true
  | act :: acts => s.orderly act && orderlyRun opts (s.perform opts act) acts

theorem reachable_orderlyRun {opts : BurrowServiceOptions} (acts : List Act) {s : BurrowService}
    (hs : (orderlyRuns opts).Reachable s) (hacts : orderlyRun opts s acts = true) :
    (orderlyRuns opts).Reachable (s.after opts acts) := by
  induction acts generalizing s with
  | nil => exact hs
  | cons act acts ih =>
    rw [orderlyRun, Bool.and_eq_true] at hacts
    exact ih (.next hs ⟨hacts.1, rfl⟩) hacts.2

theorem isQueued_of_chainWaits {s : BurrowService} (h : s.chainWaits = true) {job : Job}
    (hjob : s.active = some job) : job.stage.isQueued = false := by
  rw [chainWaits, hjob, Option.all_some, Bool.not_eq_true'] at h
  exact h

theorem waits_of_drained {s : BurrowService} (h : s.drained = true) {uid : Nat} {call : Call}
    (hcall : s.calls.get uid = some call) : call.stage.waits = true := by
  rw [drained, Bool.and_eq_true] at h
  exact List.all_eq_true.1 h.2 call (InsertionMap.mem_values_of_get hcall)

theorem chainWaits_of_drained {s : BurrowService} (h : s.drained = true) : s.chainWaits = true := by
  rw [drained, Bool.and_eq_true, Bool.and_eq_true] at h
  exact h.1.1

end BurrowService

/-! ### The invariant -/

/-- The answers under way, and what has been told, are true. -/
structure Told (o : Outline) : Prop where
  underWay : ∀ uid call, o.calls.get uid = some call → ∀ status,
    call.stage = .answers (.ok (.status status)) → status.enrolled = o.enrollment.isSome
  answers : ∀ x ∈ o.sent, ∀ request status,
    x.message = .result request (.ok (.status status)) → status.enrolled = x.enrolled
  agrees : o.disposed = false → ∀ enrolled, shown o.sent = some enrolled →
    enrolled = o.enrollment.isSome

/-- Besides, nothing is under way while a write of the enrollment is. -/
structure Honest (o : Outline) : Prop extends Told o where
  reply : ∀ job, o.active = some job → ∀ status, job.reply ≠ .status status
  quiet : ∀ job resumption, o.active = some job → job.stage = .goesOn resumption →
    resumption.writes = true → ∀ uid call, o.calls.get uid = some call → call.stage.waits = true

/-- No status in an answer. -/
def noStatus (result : Except JsString Reply) : Prop := ∀ status, result ≠ .ok (.status status)

theorem noStatus_error {error : JsString} : noStatus (.error error) := fun _ h => by cases h

theorem shown_concat (sent : List Sent) (x : Sent) :
    shown (sent ++ [x]) = x.message.enrolled?.or (shown sent) := by
  unfold shown
  rw [List.filterMap_append]
  cases h : x.message.enrolled? <;> simp [h]

/-- The pairing queue says nothing about the enrollment. -/
theorem shown_filter (sent : List Sent) :
    shown (sent.filter (!·.message.isQueue)) = shown sent := by
  induction sent using List.reverseRecOn with
  | nil => rfl
  | append_singleton sent x ih =>
    rw [List.filter_append, shown_concat]
    cases hqueue : x.message.isQueue with
    | false => simp [hqueue, shown_concat, ih]
    | true =>
      have hnone : x.message.enrolled? = none := by
        unfold Message.isQueue at hqueue
        split at hqueue
        · rename_i items hmessage
          rw [hmessage]
          rfl
        · cases hqueue
      simp [hqueue, hnone, ih]

namespace Told

variable {o : Outline}

/-- What does not touch the enrollment, or what is told of it. -/
theorem of_eq (h : Told o) {o' : Outline} (hcalls : o'.calls = o.calls)
    (henrollment : o'.enrollment = o.enrollment) (hsent : o'.sent = o.sent)
    (hdisposed : o'.disposed = false → o.disposed = false) : Told o' where
  underWay uid call hcall := by
    rw [henrollment]
    exact h.underWay uid call (hcalls ▸ hcall)
  answers := hsent ▸ h.answers
  agrees hlive := by
    rw [henrollment, hsent]
    exact h.agrees (hdisposed hlive)

theorem setCall (h : Told o) (uid : Nat) (request : JsString) {stage : CallStage}
    (hstage : ∀ status, stage = .answers (.ok (.status status)) →
      status.enrolled = o.enrollment.isSome) :
    Told { o with calls := o.calls.set uid ⟨request, stage⟩ } :=
  { h with
    underWay := fun uid' call hcall => by
      rw [InsertionMap.get_set] at hcall
      split at hcall
      · cases hcall
        exact hstage
      · exact h.underWay uid' call hcall }

theorem deleteCall (h : Told o) (uid : Nat) : Told { o with calls := o.calls.delete uid } :=
  { h with
    underWay := fun uid' call hcall => by
      exact h.underWay uid' call (InsertionMap.get_of_delete hcall).2 }

end Told

theorem Honest.of_idle {o : Outline} (h : Told o) (hidle : o.active = none) : Honest o where
  toTold := h
  reply job hjob := by
    rw [hidle] at hjob
    cases hjob
  quiet job resumption hjob := by
    rw [hidle] at hjob
    cases hjob

namespace BurrowService

variable (opts : BurrowServiceOptions) {s : BurrowService} {job : Job}

/-! ### The work on the chain -/

theorem honest_conclude (h : Told s.outline) {result : Except JsString Reply}
    (hresult : noStatus result) : Honest (s.conclude job result).outline := by
  have hidle : Told { s.outline with active := none } := h.of_eq rfl rfl rfl id
  unfold conclude
  split
  · exact .of_idle hidle rfl
  · refine .of_idle (hidle.setCall s.nextUid _ fun status heq => ?_) rfl
    cases heq
    exact absurd rfl (hresult status)
  · exact .of_idle (hidle.setCall s.nextUid _ fun status heq => by cases heq) rfl
  · exact .of_idle (hidle.setCall s.nextUid _ fun status heq => by cases heq) rfl

theorem honest_awaits (h : Told s.outline) (hreply : ∀ status, job.reply ≠ .status status)
    (awaited : Awaited) : Honest (s.awaits job awaited).outline := by
  refine ⟨h.of_eq rfl rfl rfl id, fun job hjob => ?_, fun job r hjob hstage => ?_⟩
  · cases hjob
    exact hreply
  · cases hjob
    cases hstage

theorem honest_goesOn (h : Told s.outline) (hreply : ∀ status, job.reply ≠ .status status)
    {resumption : Resumption} (hwrites : resumption.writes = false) :
    Honest (s.goesOn job resumption).outline := by
  refine ⟨h.of_eq rfl rfl rfl id, fun job hjob => ?_, fun job r hjob hstage hwrites' => ?_⟩
  · cases hjob
    exact hreply
  · cases hjob
    cases hstage
    rw [hwrites] at hwrites'
    cases hwrites'

theorem noStatus_reply (hreply : ∀ status, job.reply ≠ .status status) : noStatus (.ok job.reply) :=
  fun status heq => hreply status (Except.ok.inj heq)

theorem honest_startBurrow (h : Told s.outline) (hreply : ∀ status, job.reply ≠ .status status)
    (incoming : BurrowEnrollment) : Honest (s.startBurrow job incoming).outline := by
  unfold startBurrow
  split
  · exact honest_conclude h (noStatus_reply hreply)
  · split <;> exact honest_awaits h hreply _

theorem honest_enrollWith (h : Told s.outline) (hreply : ∀ status, job.reply ≠ .status status)
    (relayUrl : JsString) (credential : BurrowEnrollCredential) (label : JsString) :
    Honest (s.enrollWith opts job relayUrl credential label).outline := by
  unfold enrollWith
  split
  · exact honest_awaits h hreply _
  · exact honest_conclude h noStatus_error

theorem honest_approve (h : Told s.outline) (hreply : ∀ status, job.reply ≠ .status status)
    (params : ApproveParams) (now : Ms) : Honest (s.approve job params now).outline := by
  have hset : ∀ clientId pairing, Told (s.setPairing clientId pairing).outline := by
    intro clientId pairing
    rw [outline_setPairing]
    exact h
  unfold approve
  split
  · exact honest_conclude h noStatus_error
  split
  · split
    · exact honest_conclude h (fun _ h => by cases h)
    · dsimp only
      split
      · refine honest_conclude ?_ (fun _ h => by cases h)
        rw [outline_disposePairing]
        exact hset _ _
      · exact honest_goesOn (hset _ _) hreply rfl
  · exact honest_conclude h (fun _ h => by cases h)

theorem honest_begin (h : Told s.outline) (hreply : ∀ status, job.reply ≠ .status status)
    (now : Ms) (work : Work) : Honest (s.begin opts job now work).outline := by
  cases work with
  | start => exact honest_awaits h hreply _
  | enroll params => exact honest_enrollWith opts h hreply _ _ _
  | enrollOffer params => exact honest_awaits h hreply _
  | reconnect =>
    unfold begin
    dsimp only
    split
    · have hstart : Told (s.editBurrow ServedRuntime.start).outline := by
        rw [outline_editBurrow]
        · exact h
        · intro b
          unfold ServedRuntime.start
          split <;> rfl
      split
      · exact honest_conclude hstart (fun _ h => by cases h)
      · exact honest_conclude hstart noStatus_error
    · exact honest_awaits h hreply _
  | clearEnrollment => exact honest_awaits h hreply _
  | approve params => exact honest_approve h hreply params now

/-- A change of the enrollment is told at once; with no status under way that is all. -/
theorem told_emitStatus (hwaits : ∀ uid call, s.calls.get uid = some call → call.stage.waits = true)
    (hanswers : ∀ x ∈ s.outline.sent, ∀ request status,
      x.message = .result request (.ok (.status status)) → status.enrolled = x.enrolled) :
    Told s.emitStatus.outline := by
  have hnone : ∀ uid call, s.calls.get uid = some call → ∀ status,
      call.stage = .answers (.ok (.status status)) → status.enrolled = s.enrollment.isSome := by
    intro uid call hcall status hstage
    have hcallWaits := hwaits uid call hcall
    rw [hstage] at hcallWaits
    cases hcallWaits
  rw [emitStatus, outline_sendToUi s rfl]
  split
  · rename_i hdisposed
    refine ⟨hnone, hanswers, fun hlive => ?_⟩
    rw [show s.outline.disposed = s.disposed from rfl, hdisposed] at hlive
    cases hlive
  refine ⟨hnone, fun x hx request status hmessage => ?_, fun _ enrolled hshown => ?_⟩
  · rcases List.mem_append.1 hx with hx | hx
    · exact hanswers x hx request status hmessage
    · rw [List.mem_singleton.1 hx] at hmessage
      cases hmessage
  · rw [shown_concat] at hshown
    exact (Option.some.inj hshown).symm

theorem calls_stopBurrow (s : BurrowService) : s.stopBurrow.calls = s.calls := by
  show s.stopBurrow.outline.calls = _
  rw [outline_stopBurrow, Outline.stop_calls]
  rfl

theorem sent_stopBurrow (s : BurrowService) : s.stopBurrow.outline.sent = s.outline.sent := by
  rw [outline_stopBurrow, Outline.stop_sent]

theorem told_forgetBurrow (h : Told s.outline)
    (hwaits : ∀ uid call, s.calls.get uid = some call → call.stage.waits = true) :
    Told ({ s.stopBurrow with enrollment := none }.emitStatus).outline := by
  refine told_emitStatus (fun uid call hcall => hwaits uid call ?_) ?_
  · rw [← calls_stopBurrow]
    exact hcall
  · show ∀ x ∈ s.stopBurrow.outline.sent, _
    rw [sent_stopBurrow]
    exact h.answers

theorem honest_buildBurrow (h : Told s.outline) (hreply : ∀ status, job.reply ≠ .status status)
    (hwaits : ∀ uid call, s.calls.get uid = some call → call.stage.waits = true)
    {enrollment : BurrowEnrollment} (htoken : isWellFormed enrollment.burrowToken = true)
    (records : List Security.BurrowAclRecord) :
    Honest (s.buildBurrow job enrollment records).outline := by
  unfold buildBurrow
  split
  · exact honest_conclude h (noStatus_reply hreply)
  · dsimp only
    refine honest_conclude (told_emitStatus ?_ ?_) (noStatus_reply hreply)
    · exact hwaits
    · exact h.answers

theorem honest_savedAcl (h : Told s.outline) (uid : Nat) (clientId pairingId : JsString)
    (next : Security.BurrowAcl) (record : Security.BurrowAclRecord)
    (result : Except JsString Unit) (now : Ms) :
    Honest (s.resumeJob opts job now
      (.savedAcl uid clientId pairingId next record result)).outline := by
  have hrest : ∀ (t : BurrowService) (error : JsString), Told t.outline →
      Honest (t.resumeJob opts job now
        (.savedAcl uid clientId pairingId next record (.error error))).outline := by
    intro t error ht
    unfold resumeJob
    dsimp only
    split
    · refine honest_conclude ?_ (fun _ h => by cases h)
      rw [outline_disposePairing]
      exact ht
    · exact honest_conclude ht (fun _ h => by cases h)
  cases result with
  | error error => exact hrest s error h
  | ok value => exact hrest _ [] (h.of_eq rfl rfl rfl id)

theorem honest_resumeJob (h : Honest s.outline) (hactive : s.active = some job)
    {resumption : Resumption} (hstage : job.stage = .goesOn resumption)
    (htoken : ∀ enrollment records, resumption = .loadedAcl enrollment (.ok records) →
      isWellFormed enrollment.burrowToken = true) (now : Ms) :
    Honest (s.resumeJob opts job now resumption).outline := by
  have hreply := h.reply job hactive
  have hdone := noStatus_reply hreply
  have hwaits := h.quiet job resumption hactive hstage
  have htold := h.toTold
  cases resumption with
  | begin work => exact honest_begin opts htold hreply now work
  | loadedEnrollment result =>
    rcases result with error | (_ | enrollment)
    · exact honest_conclude htold noStatus_error
    · exact honest_conclude htold hdone
    · unfold resumeJob
      dsimp only
      split
      · exact honest_startBurrow htold hreply _
      · exact honest_conclude htold hdone
  | offerRead params offer =>
    cases offer with
    | none => exact honest_conclude htold noStatus_error
    | some offer =>
      unfold resumeJob
      dsimp only
      split
      · exact honest_conclude htold noStatus_error
      · exact honest_enrollWith opts htold hreply _ _ _
  | exchanged relayUrl label result =>
    cases result with
    | error error => exact honest_conclude htold noStatus_error
    | ok answer => exact honest_awaits htold hreply _
  | savedEnrollment enrollment result =>
    cases result with
    | error error => exact honest_conclude htold noStatus_error
    | ok value =>
      unfold resumeJob
      by_cases hburrow : s.burrow.isSome
      · rw [if_pos hburrow]
        exact honest_startBurrow (told_forgetBurrow htold (hwaits rfl)) (fun _ heq => by cases heq) _
      · rw [if_neg hburrow]
        exact honest_startBurrow htold (fun _ heq => by cases heq) _
  | derived enrollment publicKey =>
    cases publicKey with
    | error error => exact honest_goesOn htold hreply rfl
    | ok publicKey =>
      unfold resumeJob
      dsimp only
      split <;> exact honest_goesOn htold hreply rfl
  | minted enrollment material =>
    cases material with
    | error error => exact honest_goesOn htold hreply rfl
    | ok material => exact honest_awaits htold hreply _
  | savedBackfilled enrollment result =>
    cases result with
    | error error => exact honest_conclude htold noStatus_error
    | ok value => exact honest_goesOn htold hreply rfl
  | verified enrollment =>
    rcases enrollment with _ | enrollment
    · exact honest_conclude htold hdone
    unfold resumeJob
    dsimp only
    split
    · exact honest_conclude htold hdone
    · refine honest_awaits ?_ hreply _
      rw [outline_stopBurrow]
      exact htold.of_eq (Outline.stop_calls _) (Outline.stop_enrollment _)
        (Outline.stop_sent _) fun hlive => (Outline.stop_disposed _).symm.trans hlive
  | loadedAcl enrollment records =>
    cases records with
    | error error => exact honest_conclude htold noStatus_error
    | ok records =>
      exact honest_buildBurrow htold hreply (hwaits rfl) (htoken _ _ rfl) records
  | clearedEnrollment result =>
    cases result with
    | error error => exact honest_conclude htold noStatus_error
    | ok value => exact honest_conclude (told_forgetBurrow htold (hwaits rfl)) (fun _ h => by cases h)
  | approving clientId pairingId =>
    unfold resumeJob
    dsimp only
    split
    · split
      · refine honest_conclude ?_ (fun _ h => by cases h)
        rw [outline_disposePairing]
        exact htold
      · refine honest_awaits ?_ hreply _
        rw [outline_setPairing]
        exact htold
    · exact honest_conclude htold (fun _ h => by cases h)
  | savedAcl uid clientId pairingId next record result =>
    exact honest_savedAcl opts htold uid clientId pairingId next record result now

/-! ### Steps -/

/-- While no continuation of the chain is queued, no write is under way. -/
theorem honest_of_waits {t : BurrowService} (h : Honest s.outline) (htold : Told t.outline)
    (hactive : t.active = s.active)
    (hwaits : s.chainWaits = true) : Honest t.outline where
  toTold := htold
  reply job hjob := h.reply job (hactive.symm.trans hjob)
  quiet job resumption hjob hstage := by
    have hqueued := isQueued_of_chainWaits hwaits (hactive.symm.trans hjob)
    rw [hstage] at hqueued
    cases hqueued

/-- Nor is one when a continuation of a call is queued. -/
theorem honest_of_runs {t : BurrowService} (h : Honest s.outline) {uid : Nat} {call : Call}
    (hcall : s.calls.get uid = some call) (hruns : call.stage.waits = false)
    (htold : Told t.outline) (hactive : t.active = s.active) : Honest t.outline where
  toTold := htold
  reply job hjob := h.reply job (hactive.symm.trans hjob)
  quiet job resumption hjob hstage hwrites := by
    have hwaits := h.quiet job resumption (hactive.symm.trans hjob) hstage hwrites uid call hcall
    rw [hruns] at hwaits
    cases hwaits

theorem honest_runChain (h : Honest s.outline) (now : Ms) (hstartable : s.startable = true) :
    Honest (s.runChain opts now).outline := by
  unfold runChain
  split
  · exact h
  · refine ⟨h.of_eq rfl rfl rfl id, fun job hjob => ?_, fun job resumption hjob hstage => ?_⟩
    · cases hjob
      exact fun status heq => by cases heq
    · cases hjob
      cases hstage
      exact fun hwrites => by cases hwrites
  rename_i job hactive
  split
  · exact h
  · rename_i resumption hstage
    refine honest_resumeJob opts h hactive hstage (fun enrollment records heq => ?_) now
    rw [startable, hactive, Option.all_some, hstage, heq] at hstartable
    exact hstartable

theorem enrolled_statusOf (s : BurrowService) (offer : Option EnrollmentOffer) :
    (s.statusOf opts offer).enrolled = s.enrollment.isSome := by
  unfold statusOf
  split
  · rename_i hnone
    rw [hnone]
    rfl
  · rename_i enrollment hsome
    rw [hsome]
    rfl

theorem enrolled_statusStage (s : BurrowService) (status : BurrowConsoleStatus)
    (h : s.statusStage opts = .answers (.ok (.status status))) :
    status.enrolled = s.enrollment.isSome := by
  unfold statusStage at h
  split at h
  · cases h
    exact enrolled_statusOf opts s none
  · cases h

theorem mintQr_spec (s : BurrowService) (uid epoch : Nat) (enrollment : BurrowEnrollment)
    (setupToken : JsString) (relayExpiresAtMs : Ms) (publicKey : Noise.Bytes) (inviteId : JsString)
    (now : Ms) (h : Told s.outline) :
    Told (s.mintQr uid epoch enrollment setupToken relayExpiresAtMs publicKey inviteId now).1.outline ∧
      (s.mintQr uid epoch enrollment setupToken relayExpiresAtMs publicKey inviteId now).1.active =
        s.active ∧
      noStatus (s.mintQr uid epoch enrollment setupToken relayExpiresAtMs publicKey inviteId now).2 := by
  unfold mintQr
  split
  · exact ⟨h, rfl, noStatus_error⟩
  split
  · exact ⟨h, rfl, noStatus_error⟩
  dsimp only
  split
  · exact ⟨h, rfl, noStatus_error⟩
  · refine ⟨h.of_eq rfl rfl rfl id, rfl, ?_⟩
    split <;> exact (fun _ h => by cases h)

/-- An answer is sent as it was built: true, for nothing has been written in between. -/
theorem told_answer (h : Told s.outline) {uid : Nat} {request : JsString}
    {result : Except JsString Reply} (hcall : s.calls.get uid = some ⟨request, .answers result⟩) :
    Told ({ s with calls := s.calls.delete uid }.sendToUi (.result request result)).outline := by
  have hdelete : Told { s with calls := s.calls.delete uid }.outline := h.deleteCall uid
  rw [outline_sendToUi _ rfl]
  split
  · exact hdelete
  refine { hdelete with answers := fun x hx request' status hmessage => ?_,
                        agrees := fun hlive enrolled hshown => ?_ }
  · rcases List.mem_append.1 hx with hx | hx
    · exact hdelete.answers x hx request' status hmessage
    · cases List.mem_singleton.1 hx
      cases hmessage
      exact h.underWay uid _ hcall status rfl
  · rw [shown_concat] at hshown
    rcases hmessage : Message.enrolled? (.result request result) with _ | told
    · rw [hmessage, Option.none_or] at hshown
      exact hdelete.agrees hlive enrolled hshown
    rw [hmessage, Option.some_or] at hshown
    cases hshown
    cases result with
    | error => cases hmessage
    | ok reply =>
      cases reply with
      | status status =>
        cases hmessage
        exact h.underWay uid _ hcall status rfl
      | done | enrolled | setupQr | queue => cases hmessage

theorem honest_runCall (h : Honest s.outline) (uid : Nat) (now : Ms) :
    Honest (s.runCall opts uid now).outline := by
  unfold runCall
  split
  · exact h
  rename_i request stage hcall
  have hset : stage.waits = false → ∀ stage', (∀ status,
      stage' = .answers (.ok (.status status)) → status.enrolled = s.enrollment.isSome) →
      Honest (s.setStage uid request stage').outline := fun hruns stage' hstage =>
    honest_of_runs h hcall hruns (h.setCall uid request hstage) rfl
  split
  · exact h
  · exact h
  · exact h
  · exact hset rfl _ (enrolled_statusStage opts s)
  · refine hset rfl _ fun status heq => ?_
    cases heq
    exact enrolled_statusOf opts s _
  · exact hset rfl _ (fun _ h => by cases h)
  · exact hset rfl _ (fun _ h => by cases h)
  · split
    · split
      · exact hset rfl _ (fun _ h => by cases h)
      · exact hset rfl _ (fun _ h => by cases h)
    · exact hset rfl _ (fun _ h => by cases h)
  · exact hset rfl _ (fun _ h => by cases h)
  · rename_i burrow epoch enrollment setupToken expiresAt publicKey inviteId
    obtain ⟨htold, hactive, hresult⟩ := s.mintQr_spec burrow epoch enrollment setupToken expiresAt
      publicKey inviteId now h.toTold
    refine honest_of_runs h hcall rfl (htold.setCall uid request fun status heq => ?_) hactive
    exact absurd (CallStage.answers.inj heq) (hresult status)
  · rename_i result
    refine honest_of_runs h hcall rfl (told_answer h.toTold hcall) ?_
    unfold sendToUi
    split <;> rfl

theorem landedBy_unchanged (s : BurrowService) (awaited : Awaited) (outcome : Outcome) :
    (s.landedBy awaited outcome).calls = s.calls ∧
      (s.landedBy awaited outcome).enrollment = s.enrollment ∧
      (s.landedBy awaited outcome).sent = s.sent ∧
      (s.landedBy awaited outcome).disposed = s.disposed := by
  unfold landedBy land
  repeat' split
  all_goals exact ⟨rfl, rfl, rfl, rfl⟩

theorem honest_settleJob (h : Honest s.outline) (hdrained : s.drained = true) (outcome : Outcome) :
    Honest (s.settleJob outcome).outline := by
  unfold settleJob
  split
  · exact h
  rename_i job hactive
  split
  · exact h
  rename_i awaited hstage
  split
  · exact h
  obtain ⟨hcalls, henrollment, hsent, hdisposed⟩ := s.landedBy_unchanged awaited outcome
  have htold : Told (s.landedBy awaited outcome).outline := by
    refine h.of_eq hcalls henrollment ?_ fun hlive => hdisposed.symm.trans hlive
    rw [outline, hsent]
    rfl
  refine ⟨htold.of_eq rfl rfl rfl id, fun job' hjob' => ?_,
    fun job' resumption' hjob' hstage' hwrites uid call hcall => ?_⟩
  · cases hjob'
    exact h.reply job hactive
  · have hold : s.calls.get uid = some call := by
      rw [← hcalls]
      exact hcall
    exact waits_of_drained hdrained hold

theorem honest_settleCall (h : Honest s.outline) (hdrained : s.drained = true) (uid : Nat)
    (outcome : Outcome) : Honest (s.settleCall uid outcome).outline := by
  unfold settleCall
  split
  · exact h
  rename_i request stage hcall
  have hset : ∀ stage', (∀ result, stage' ≠ .answers result) →
      Honest (s.setStage uid request stage').outline := fun stage' hstage =>
    honest_of_waits h (h.setCall uid request fun status heq => absurd heq (hstage _)) rfl
      (chainWaits_of_drained hdrained)
  split
  · exact hset _ (fun _ h => by cases h)
  · exact hset _ (fun _ h => by cases h)
  · exact hset _ (fun _ h => by cases h)
  · exact hset _ (fun _ h => by cases h)
  · exact hset _ (fun _ h => by cases h)
  · exact h

theorem honest_handleCommand (h : Honest s.outline)
    (hwaits : s.chainWaits = true) (request : JsString)
    (command : Command) : Honest (s.handleCommand opts request command).outline := by
  have hcall : ∀ t : BurrowService, Told t.outline → t.active = s.active →
      t.enrollment = s.enrollment → ∀ stage, (∀ status,
        stage = .answers (.ok (.status status)) → status.enrolled = s.enrollment.isSome) →
      Honest (t.call request stage).outline := by
    intro t ht hactive henrollment stage hstage
    refine honest_of_waits h (ht.setCall t.nextUid request ?_) hactive hwaits
    rw [show t.outline.enrollment = s.enrollment from henrollment]
    exact hstage
  unfold handleCommand
  split
  · exact h
  cases command with
  | enroll | enrollOffer | reconnect | clearEnrollment | approve => exact h
  | status => exact hcall s h.toTold rfl rfl _ (enrolled_statusStage opts s)
  | setupQr =>
    refine hcall s h.toTold rfl rfl _ fun status heq => ?_
    unfold setupQrStage at heq
    split at heq <;> cases heq
  | deny params =>
    have hsame := s.outline_deny params
    refine hcall _ (hsame.symm ▸ h.toTold) (congrArg Outline.active hsame)
      (congrArg Outline.enrollment hsame) _ fun status heq => ?_
    have hresult : ∀ status, (s.deny params).2 ≠ .ok (.status status) := by
      unfold deny
      repeat' split
      all_goals exact fun status heq => by cases heq
    exact absurd (CallStage.answers.inj heq) (hresult status)
  | pairingQueue => exact hcall s h.toTold rfl rfl _ (fun _ h => by cases h)
  | unknown cmd => exact hcall s h.toTold rfl rfl _ (fun _ h => by cases h)

theorem honest_dispose (h : Honest s.outline) : Honest s.dispose.outline := by
  rw [outline_dispose]
  split
  · exact h
  refine ⟨h.of_eq s.outline.stop_calls s.outline.stop_enrollment s.outline.stop_sent nofun,
    fun job hjob => ?_, fun job resumption hjob hstage hwrites uid call hcall => ?_⟩
  · exact h.reply job (s.outline.stop_active.symm.trans hjob)
  · refine h.quiet job resumption (s.outline.stop_active.symm.trans hjob) hstage hwrites uid call ?_
    rw [← s.outline.stop_calls]
    exact hcall

theorem honest_perform (h : Honest s.outline) {act : Act} (horderly : s.orderly act = true) :
    Honest (s.perform opts act).outline := by
  cases act with
  | start =>
    show Honest s.start.outline
    unfold start
    split <;> exact h
  | command request command => exact honest_handleCommand opts h horderly request command
  | dispose => exact honest_dispose h
  | runChain now => exact honest_runChain opts h now horderly
  | runCall uid now => exact honest_runCall opts h uid now
  | settleJob outcome => exact honest_settleJob h horderly outcome
  | settleCall uid outcome => exact honest_settleCall h horderly uid outcome
  | requestApproval clientId pairing label requestedAt =>
    show Honest (s.requestApproval clientId pairing label requestedAt).outline
    rw [outline_requestApproval]
    exact h
  | pairingEnds clientId =>
    show Honest (s.disposePairing clientId).outline
    rw [outline_disposePairing]
    exact h
  | socketChanges status =>
    show Honest (s.socketChanges status).outline
    rw [outline_socketChanges]
    exact h

theorem honest_fresh (store : Store) : Honest (fresh store).outline := by
  refine .of_idle ⟨fun uid call hcall => ?_, fun x hx => ?_, fun _ enrolled hshown => ?_⟩ rfl
  · cases hcall
  · cases hx
  · cases hshown

/-- A start, and a status that is asked for after it. -/
def askedActs : List Act := startActs ++ [.command (js "1") .status, .runCall 1 0]

def asked : BurrowService := (fresh ⟨some homeEnrollment, .empty⟩).after anywhere askedActs

/-- A reconnect with an un-enrollment right behind it, and a store that answers at once: the
status is built before the enrollment is cleared, and sent after it. -/
def staleActs : List Act :=
  startActs ++ [.command (js "1") .reconnect, .command (js "2") .clearEnrollment, .runChain 0,
    .runChain 0, .runCall 1 0, .runChain 0, .runChain 0, .settleJob .resolves, .runChain 0,
    .runCall 1 0]

def stale : BurrowService := (fresh ⟨some homeEnrollment, .empty⟩).after anywhere staleActs

end BurrowService

end Dormouse.Host
