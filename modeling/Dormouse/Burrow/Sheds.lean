import Dormouse.Burrow.Runtime

/-!
# Dormouse.Burrow.Sheds

What most of a Burrow does to its pairings: nothing, or it lets some of them go.

`Sheds s t` says so of one stretch: `t` holds no pairing and no invitation that `s` does
not hold just the same, and the ACL, the saves, the step in flight and the ceremonies'
history are as they were. Every disposal, the reaper, the sockets and the whole
connection ceremony shed; the stretches that do more are handled one by one in
`Dormouse.Burrow.PairingSound`.
-/

namespace Dormouse.Burrow

open Noise (Bytes NoiseHandshake NoiseKeyPair)
open Security
open Terminal (Ms)

variable {Key : Type}

structure Sheds (s t : BurrowRuntime Key) : Prop where
  acl : t.acl = s.acl
  saves : t.saves = s.saves
  saving : t.saving = s.saving
  history : t.history = s.history
  task : t.task = s.task
  nextUid : s.nextUid ≤ t.nextUid
  invitations : ∀ {id held}, t.invitations.get id = some held → s.invitations.get id = some held
  pairings : ∀ {id p}, t.pairingOf id = some p → s.pairingOf id = some p

namespace Sheds

theorem refl (s : BurrowRuntime Key) : Sheds s s :=
  ⟨rfl, rfl, rfl, rfl, rfl, Nat.le_refl _, id, id⟩

theorem trans {s t u : BurrowRuntime Key} (hst : Sheds s t) (htu : Sheds t u) : Sheds s u where
  acl := htu.acl.trans hst.acl
  saves := htu.saves.trans hst.saves
  saving := htu.saving.trans hst.saving
  history := htu.history.trans hst.history
  task := htu.task.trans hst.task
  nextUid := Nat.le_trans hst.nextUid htu.nextUid
  invitations := fun h => hst.invitations (htu.invitations h)
  pairings := fun h => hst.pairings (htu.pairings h)

/-- A stretch over a list sheds when every item of it does. -/
theorem foldl {α : Type} {f : BurrowRuntime Key → α → BurrowRuntime Key}
    (hf : ∀ s a, Sheds s (f s a)) (l : List α) (s : BurrowRuntime Key) :
    Sheds s (l.foldl f s) := by
  induction l generalizing s with
  | nil => exact refl s
  | cons a l ih => exact (hf s a).trans (ih (f s a))

end Sheds

namespace BurrowRuntime

/-! ### Client entries -/

theorem pairingOf_editClient (s : BurrowRuntime Key) (c c' : ClientId)
    (f : ClientState → ClientState) :
    (s.editClient c f).pairingOf c' =
      if c = c' then (s.clients.get c).bind fun state => (f state).pairing else s.pairingOf c' := by
  unfold editClient pairingOf
  cases h : s.clients.get c with
  | none =>
    by_cases hc : c = c'
    · subst hc
      rw [if_pos rfl, h]
      rfl
    · rw [if_neg hc]
  | some state =>
    simp only [InsertionMap.get_set]
    by_cases hc : c = c'
    · rw [if_pos hc, if_pos hc]
      rfl
    · rw [if_neg hc, if_neg hc]

/-- An edit writes to the client entries and to nothing else. -/
theorem editClient_eq (s : BurrowRuntime Key) (c : ClientId) (f : ClientState → ClientState) :
    s.editClient c f = { s with clients := (s.editClient c f).clients } := by
  unfold editClient
  split <;> rfl

theorem clientState_eq (s : BurrowRuntime Key) (c : ClientId) :
    s.clientState c = { s with clients := (s.clientState c).clients } := by
  unfold clientState
  split <;> rfl

/-- Writing to a client's pairing, where it has one. -/
theorem pairingOf_editPairing (s : BurrowRuntime Key) (c c' : ClientId)
    (g : PendingPairingSession → PendingPairingSession) :
    (s.editClient c fun state => { state with pairing := state.pairing.map g }).pairingOf c' =
      if c = c' then (s.pairingOf c).map g else s.pairingOf c' := by
  rw [pairingOf_editClient]
  split
  · rw [pairingOf, Option.map_bind]
    rfl
  · rfl

/-- An edit that leaves every pairing where it is, or drops it, sheds. -/
theorem editClient_sheds (s : BurrowRuntime Key) (c : ClientId) {f : ClientState → ClientState}
    (hf : ∀ state p, (f state).pairing = some p → state.pairing = some p) :
    Sheds s (s.editClient c f) := by
  have hpair : ∀ {id p}, (s.editClient c f).pairingOf id = some p → s.pairingOf id = some p := by
    intro id p h
    rw [pairingOf_editClient] at h
    by_cases hc : c = id
    · subst hc
      rw [if_pos rfl] at h
      obtain ⟨state, hstate, hp⟩ := Option.bind_eq_some_iff.1 h
      exact Option.bind_eq_some_iff.2 ⟨state, hstate, hf state p hp⟩
    · rwa [if_neg hc] at h
  rw [editClient_eq] at hpair ⊢
  exact ⟨rfl, rfl, rfl, rfl, rfl, Nat.le_refl _, id, hpair⟩

@[simp] theorem pairingOf_clientState (s : BurrowRuntime Key) (c c' : ClientId) :
    (s.clientState c).pairingOf c' = s.pairingOf c' := by
  unfold clientState pairingOf
  split
  · rfl
  next h =>
    simp only [InsertionMap.get_set]
    by_cases hc : c = c'
    · subst hc
      rw [if_pos rfl]
      rw [InsertionMap.has, Option.not_isSome_iff_eq_none] at h
      rw [h]
      rfl
    · rw [if_neg hc]

theorem clientState_sheds (s : BurrowRuntime Key) (c : ClientId) : Sheds s (s.clientState c) := by
  have hpair : ∀ {id p}, (s.clientState c).pairingOf id = some p → s.pairingOf id = some p := by
    intro id p h
    rwa [pairingOf_clientState] at h
  rw [clientState_eq] at hpair ⊢
  exact ⟨rfl, rfl, rfl, rfl, rfl, Nat.le_refl _, id, hpair⟩

/-- Dropping a client's whole entry. -/
theorem deleteClient_sheds (s : BurrowRuntime Key) (c : ClientId) :
    Sheds s { s with clients := s.clients.delete c } where
  acl := rfl
  saves := rfl
  saving := rfl
  history := rfl
  task := rfl
  nextUid := Nat.le_refl _
  invitations := id
  pairings := by
    intro id p h
    unfold pairingOf at h ⊢
    rw [InsertionMap.get_delete] at h
    by_cases hc : c = id
    · rw [if_pos hc] at h
      cases h
    · rwa [if_neg hc] at h

theorem pruneClient_sheds (s : BurrowRuntime Key) (c : ClientId) : Sheds s (s.pruneClient c) := by
  unfold pruneClient
  split
  · exact deleteClient_sheds s c
  · exact .refl s

/-! ### Sending and disposal -/

theorem emit_sheds (s : BurrowRuntime Key) (output : Output) : Sheds s (s.emit output) :=
  ⟨rfl, rfl, rfl, rfl, rfl, Nat.le_refl _, id, id⟩

theorem sendE2e_sheds (s : BurrowRuntime Key) (clientId : ClientId) (kind : E2eKind)
    (id : JsString) (step : E2eBurrowStep) (ciphertext : Bytes) :
    Sheds s (s.sendE2e clientId kind id step ciphertext) := by
  unfold sendE2e
  split
  · exact .refl s
  · exact emit_sheds s _

/-- The transport sessions are no part of what a stretch sheds. -/
theorem setSessions_sheds (s : BurrowRuntime Key)
    (sessions : InsertionMap Nat (Noise.Session Bytes)) :
    Sheds s { s with sessions := sessions } :=
  ⟨rfl, rfl, rfl, rfl, rfl, Nat.le_refl _, id, id⟩

theorem setChallenges_sheds (s : BurrowRuntime Key) (challenges : ChallengeIssuer) :
    Sheds s { s with challenges := challenges } :=
  ⟨rfl, rfl, rfl, rfl, rfl, Nat.le_refl _, id, id⟩

variable (opts : BurrowOptions Key)

theorem sendControl_sheds (s : BurrowRuntime Key) (clientId : ClientId) (kind : E2eKind)
    (id : JsString) (session : Nat) (value : Json) :
    Sheds s (s.sendControl opts clientId kind id session value) := by
  unfold sendControl
  split
  · exact .refl s
  · dsimp only
    split
    · exact setSessions_sheds s _
    · exact (setSessions_sheds s _).trans (sendE2e_sheds _ _ _ _ _ _)

theorem retireInvitation_sheds (s : BurrowRuntime Key) (inviteId : JsString)
    (state : Option InvitationState) (outcome : Option PairingOutcome) :
    Sheds s (s.retireInvitation inviteId state outcome) := by
  unfold retireInvitation
  split
  · exact .refl s
  refine .trans ?_ (emit_sheds _ _)
  refine ⟨rfl, rfl, rfl, rfl, rfl, Nat.le_refl _, ?_, id⟩
  intro id held h
  rw [InsertionMap.get_delete] at h
  by_cases hid : inviteId = id
  · rw [if_pos hid] at h
    cases h
  · rwa [if_neg hid] at h

theorem disposePairing_sheds (s : BurrowRuntime Key) (clientId : ClientId)
    (outcome : Option PairingOutcome) : Sheds s (s.disposePairing clientId outcome) := by
  unfold disposePairing
  split
  · exact .refl s
  · dsimp only
    refine .trans ?_ (pruneClient_sheds _ clientId)
    refine .trans ?_ (emit_sheds _ _)
    refine .trans ?_ (retireInvitation_sheds _ _ _ _)
    exact editClient_sheds s clientId fun _ _ h => by cases h

theorem finishPairing_sheds (s : BurrowRuntime Key) (clientId : ClientId)
    (code : PairingDenialCode) : Sheds s (s.finishPairing opts clientId code) := by
  unfold finishPairing
  split
  · exact .refl s
  · split
    · exact disposePairing_sheds s clientId none
    · exact (sendControl_sheds opts s _ _ _ _ _).trans (disposePairing_sheds _ clientId _)

theorem disposeConnection_sheds (s : BurrowRuntime Key) (clientId : ClientId) (now : Ms) :
    Sheds s (s.disposeConnection clientId now) := by
  unfold disposeConnection
  split
  · exact .refl s
  · dsimp only
    refine .trans ?_ (pruneClient_sheds _ clientId)
    refine .trans ?_ (editClient_sheds _ clientId ?_)
    · exact setChallenges_sheds s _
    · exact fun _ _ h => h

theorem denyConnection_sheds (s : BurrowRuntime Key) (clientId : ClientId)
    (pending : PendingConnectionSession) (code : ConnectionDenialCode) (now : Ms) :
    Sheds s (s.denyConnection opts clientId pending code now) :=
  (sendControl_sheds opts s _ _ _ _ _).trans (disposeConnection_sheds _ clientId now)

theorem disposeEstablished_sheds (s : BurrowRuntime Key) (clientId : ClientId) :
    Sheds s (s.disposeEstablished clientId) := by
  unfold disposeEstablished
  split
  · exact .refl s
  · dsimp only
    refine .trans ?_ (pruneClient_sheds _ clientId)
    refine .trans ?_ (editClient_sheds _ clientId ?_)
    · exact emit_sheds s _
    · exact fun _ _ h => h

theorem disposeClient_sheds (s : BurrowRuntime Key) (clientId : ClientId) (now : Ms) :
    Sheds s (s.disposeClient clientId now) := by
  unfold disposeClient
  split
  · exact (((disposePairing_sheds s clientId none).trans
      (disposeConnection_sheds _ clientId now)).trans
        (disposeEstablished_sheds _ clientId)).trans (deleteClient_sheds _ clientId)
  · exact .refl s

/-! ### The reaper and the caps -/

theorem expire_sheds (s : BurrowRuntime Key) (now : Ms) (deadline : Deadline) :
    Sheds s (s.expire opts now deadline) := by
  cases deadline with
  | pairing clientId => exact finishPairing_sheds opts s clientId _
  | connection clientId pending =>
    unfold expire
    dsimp only
    split
    · exact denyConnection_sheds opts s clientId pending _ now
    · exact .refl s
  | established clientId => exact disposeEstablished_sheds s clientId
  | invitation inviteId => exact retireInvitation_sheds s inviteId _ _

theorem setReaper_sheds (s : BurrowRuntime Key) (reaperAt : Option Ms) :
    Sheds s { s with reaperAt := reaperAt } :=
  ⟨rfl, rfl, rfl, rfl, rfl, Nat.le_refl _, id, id⟩

theorem armReaper_sheds (s : BurrowRuntime Key) : Sheds s s.armReaper := by
  unfold armReaper
  split
  · exact setReaper_sheds s none
  · split
    · split
      · exact .refl s
      · exact setReaper_sheds s _
    · exact setReaper_sheds s _

theorem reap_sheds (s : BurrowRuntime Key) (now : Ms) : Sheds s (s.reap opts now) := by
  rw [reap]
  refine .trans ?_ (armReaper_sheds _)
  exact Sheds.foldl (fun s (d : Ms × Deadline) => expire_sheds opts s now d.2) _ s

theorem evictOldestIfFull_sheds {age : ClientState → Option Ms} {cap : Nat}
    {evict : BurrowRuntime Key → ClientId → BurrowRuntime Key}
    (hevict : ∀ s clientId, Sheds s (evict s clientId)) (rounds : Nat) (s : BurrowRuntime Key) :
    Sheds s (evictOldestIfFull age cap evict rounds s) := by
  induction rounds generalizing s with
  | zero => exact .refl s
  | succ rounds ih =>
    unfold evictOldestIfFull
    dsimp only
    split
    · exact .refl s
    · split
      · exact .refl s
      · exact (hevict s _).trans (ih _)

theorem evictOldestConnectionIfFull_sheds (s : BurrowRuntime Key) (now : Ms) :
    Sheds s (s.evictOldestConnectionIfFull now) :=
  evictOldestIfFull_sheds (fun s clientId => disposeConnection_sheds s clientId now) _ _

theorem displacePairings_sheds (s : BurrowRuntime Key) (clientId : ClientId) :
    Sheds s (s.displacePairings opts clientId) := by
  refine .trans ?_ (evictOldestIfFull_sheds ?_ _ _)
  · exact finishPairing_sheds opts s clientId _
  · exact fun s clientId => finishPairing_sheds opts s clientId _

theorem evictInvitations_sheds (rounds : Nat) (s : BurrowRuntime Key) :
    Sheds s (evictInvitations rounds s) := by
  induction rounds generalizing s with
  | zero => exact .refl s
  | succ rounds ih =>
    unfold evictInvitations
    split
    · exact .refl s
    · split
      · exact .refl s
      · exact (retireInvitation_sheds s _ _ _).trans (ih _)

/-! ### Sockets -/

theorem dropSocket_sheds (s : BurrowRuntime Key) : Sheds s { s with ws := none } :=
  ⟨rfl, rfl, rfl, rfl, rfl, Nat.le_refl _, id, id⟩

theorem dropTransientState_sheds (s : BurrowRuntime Key) (now : Ms) :
    Sheds s (s.dropTransientState now) := by
  have hqueue : Sheds s { s with epoch := s.epoch + 1, frames := [], frameChars := 0 } :=
    ⟨rfl, rfl, rfl, rfl, rfl, Nat.le_refl _, id, id⟩
  refine .trans ?_ (armReaper_sheds _)
  refine .trans ?_ (Sheds.foldl (fun s i => retireInvitation_sheds s i none none) _ _)
  refine .trans ?_ (Sheds.foldl (fun s c => disposeClient_sheds s c now) _ _)
  exact hqueue

theorem connect_sheds (s : BurrowRuntime Key) : Sheds s s.connect := by
  unfold connect
  split
  · exact .refl s
  · exact ⟨rfl, rfl, rfl, rfl, rfl, Nat.le_succ _, id, id⟩

theorem start_sheds (s : BurrowRuntime Key) : Sheds s s.start := by
  refine .trans ?_ (connect_sheds _)
  exact ⟨rfl, rfl, rfl, rfl, rfl, Nat.le_refl _, id, id⟩

theorem stop_sheds (s : BurrowRuntime Key) (now : Ms) : Sheds s (s.stop now) := by
  refine .trans ?_ (dropSocket_sheds _)
  refine .trans ?_ (setReaper_sheds _ none)
  refine .trans ?_ (dropTransientState_sheds _ now)
  exact ⟨rfl, rfl, rfl, rfl, rfl, Nat.le_refl _, id, id⟩

theorem onClose_sheds (s : BurrowRuntime Key) (code : Option Nat) (now : Ms) :
    Sheds s (s.onClose opts code now) := by
  unfold onClose
  dsimp only
  have hdrop := dropTransientState_sheds s now
  generalize s.dropTransientState now = t at hdrop ⊢
  refine hdrop.trans ?_
  split_ifs <;> exact ⟨rfl, rfl, rfl, rfl, rfl, Nat.le_refl _, id, id⟩

theorem onOpen_sheds (s : BurrowRuntime Key) (socket : Nat) (now : Ms) :
    Sheds s (s.onOpen opts socket now) := by
  unfold onOpen
  split
  · refine .trans ?_ (reap_sheds opts _ now)
    exact ⟨rfl, rfl, rfl, rfl, rfl, Nat.le_refl _, id, id⟩
  · exact .refl s

theorem onSocketClose_sheds (s : BurrowRuntime Key) (socket : Nat) (code : Option Nat) (now : Ms) :
    Sheds s (s.onSocketClose opts socket code now) := by
  unfold onSocketClose
  split
  · refine .trans ?_ (onClose_sheds opts _ code now)
    exact dropSocket_sheds s
  · exact .refl s

theorem onReconnectTimer_sheds (s : BurrowRuntime Key) : Sheds s s.onReconnectTimer := by
  unfold onReconnectTimer
  split
  · refine .trans ?_ (connect_sheds _)
    exact ⟨rfl, rfl, rfl, rfl, rfl, Nat.le_refl _, id, id⟩
  · exact .refl s

theorem onReaperTimer_sheds (s : BurrowRuntime Key) (now : Ms) :
    Sheds s (s.onReaperTimer opts now) := by
  unfold onReaperTimer
  split
  · refine .trans ?_ (reap_sheds opts _ now)
    exact setReaper_sheds s none
  · exact .refl s

theorem enqueue_sheds (s : BurrowRuntime Key) (frame : RelayToBurrowFrame) (chars : Nat)
    (now : Ms) : Sheds s (s.enqueue opts frame chars now) := by
  unfold enqueue
  split
  · refine .trans ?_ (onClose_sheds opts _ none now)
    exact dropSocket_sheds s
  · exact ⟨rfl, rfl, rfl, rfl, rfl, Nat.le_refl _, id, id⟩

theorem onMessage_sheds (s : BurrowRuntime Key) (socket : Nat) (raw : Option JsString) (now : Ms) :
    Sheds s (s.onMessage opts socket raw now) := by
  unfold onMessage
  split
  · exact .refl s
  · split
    · exact .refl s
    · split
      · exact .refl s
      · exact enqueue_sheds opts s _ _ now

/-! ### Connections -/

theorem receive_sheds (s : BurrowRuntime Key) (session : Nat) (ct : JsString) :
    Sheds s (s.receive opts session ct).1 := by
  unfold receive
  split
  · exact setSessions_sheds s _
  · exact .refl s

theorem sendApp_sheds (s : BurrowRuntime Key) (sender : Sender) (payload : Json) :
    Sheds s (s.sendApp opts sender payload) := by
  unfold sendApp
  split
  · exact .refl s
  dsimp only
  split
  · refine .trans ?_ (Sheds.foldl (fun s _ => sendE2e_sheds s _ _ _ _ _) _ _)
    exact setSessions_sheds s _
  · split
    · refine .trans ?_ (disposeEstablished_sheds _ _)
      exact setSessions_sheds s _
    · exact setSessions_sheds s _

theorem handleMessages_sheds (sender : Sender) (replies : Nat → List Json) (n : Nat)
    (messages : List Bytes) (s : BurrowRuntime Key) :
    Sheds s (handleMessages opts sender replies n messages s) := by
  induction messages generalizing n s with
  | nil => exact .refl s
  | cons message messages ih =>
    unfold handleMessages
    split
    · exact ih _ s
    next payload hpayload =>
      have hhandled := (emit_sheds s (.apiHandled sender.session payload)).trans
        (Sheds.foldl (fun s reply => sendApp_sheds opts s sender reply) (replies n) _)
      dsimp only
      split
      · exact hhandled.trans (ih _ _)
      · exact hhandled

theorem onEstablishedFrame_sheds (s : BurrowRuntime Key) (clientId : ClientId)
    (established : EstablishedSession) (ct : JsString) (replies : Nat → List Json) (now : Ms) :
    Sheds s (s.onEstablishedFrame opts clientId established ct replies now) := by
  refine (receive_sheds opts s established.uid ct).trans ?_
  unfold onEstablishedFrame
  dsimp only
  split
  · exact disposeEstablished_sheds _ clientId
  have hactive := editClient_sheds (s.receive opts established.uid ct).1 clientId
    (f := fun state =>
      { state with established := state.established.map ({ · with lastClientActivityAt := now }) })
    fun _ _ h => h
  split
  · exact hactive.trans (handleMessages_sheds opts _ replies 0 _ _)
  · exact hactive

theorem replaceEstablished_sheds (s : BurrowRuntime Key) (clientId : ClientId) :
    Sheds s (s.replaceEstablished clientId) := by
  unfold replaceEstablished
  split
  · exact .refl s
  · exact (emit_sheds s _).trans (editClient_sheds _ clientId fun _ _ h => h)

theorem establish_sheds (s : BurrowRuntime Key) (clientId : ClientId)
    (pending : PendingConnectionSession) (now : Ms) :
    Sheds s (s.establish clientId pending now) := by
  refine .trans ?_ (editClient_sheds _ clientId ?_)
  · refine .trans ?_ (emit_sheds _ _)
    exact ⟨rfl, rfl, rfl, rfl, rfl, Nat.le_refl _, id, id⟩
  · exact fun _ _ h => h

theorem promoteConnection_sheds (s : BurrowRuntime Key) (clientId : ClientId)
    (pending : PendingConnectionSession) (now : Ms) :
    Sheds s (s.promoteConnection opts clientId pending now) := by
  unfold promoteConnection
  dsimp only
  split
  · exact denyConnection_sheds opts s clientId pending _ now
  have hcleared := (clientState_sheds s clientId).trans (editClient_sheds
    (f := fun state => { state with connection := none }) _ clientId fun _ _ h => h)
  have hincumbent : ∀ (t : BurrowRuntime Key) (incumbent : ClientId), Sheds t
      (if incumbent = clientId then t else t.disposeEstablished incumbent) := by
    intro t incumbent
    split
    · exact .refl t
    · exact disposeEstablished_sheds t incumbent
  have hanswered : ∀ t, Sheds s t → Sheds s ((t.replaceEstablished clientId).sendControl opts
      clientId .connection pending.connectionId pending.uid
      (ConnectionOutcomeV1.ok (boundedBurrowLabel opts.label)).toJson) := fun t ht =>
    (ht.trans (replaceEstablished_sheds t clientId)).trans (sendControl_sheds opts _ _ _ _ _ _)
  split
  · refine .trans ?_ (pruneClient_sheds _ clientId)
    refine hanswered _ (hcleared.trans ?_)
    split
    · exact hincumbent _ _
    · exact .refl _
  · refine .trans ?_ (armReaper_sheds _)
    refine .trans ?_ (establish_sheds _ clientId pending now)
    refine hanswered _ (hcleared.trans ?_)
    split
    · exact hincumbent _ _
    · exact .refl _

theorem installConnection_sheds (s : BurrowRuntime Key) (clientId : ClientId) (h : Handshaken)
    (pending : PendingConnectionSession) :
    Sheds s (s.installConnection clientId h pending) := by
  have hentry := (clientState_sheds s clientId).trans (editClient_sheds
    (f := fun state => { state with connection := some pending }) _ clientId fun _ _ h => h)
  exact hentry.trans ⟨rfl, rfl, rfl, rfl, rfl, Nat.le_succ _, id, id⟩

theorem connectionWriteResumes_sheds (s : BurrowRuntime Key) (frame : E2eRelayToBurrowFrame)
    (epoch : Nat) (handshake : NoiseHandshake Key) (challenge : JsString) (expiresAt : Ms)
    (ephemeral : Option (NoiseKeyPair Key)) (now : Ms) :
    Sheds s (s.connectionWriteResumes opts frame epoch handshake challenge expiresAt ephemeral
      now) := by
  unfold connectionWriteResumes
  split
  · exact .refl s
  split
  · exact .refl s
  have hevicted := (disposeConnection_sheds s frame.clientId now).trans
    (evictOldestConnectionIfFull_sheds _ now)
  refine .trans ?_ (sendE2e_sheds _ _ _ _ _ _)
  refine .trans ?_ (armReaper_sheds _)
  exact hevicted.trans (installConnection_sheds _ _ _ _)

theorem connectionPresenceResumes_sheds (s : BurrowRuntime Key) (frame : E2eRelayToBurrowFrame)
    (pending : PendingConnectionSession) (proof : PresenceProofV1) (challengeValid : Bool)
    (now : Ms) : Sheds s (s.connectionPresenceResumes opts frame pending proof challengeValid
      now) := by
  unfold connectionPresenceResumes
  split
  · exact .refl s
  · split
    · split
      · exact promoteConnection_sheds opts s _ pending now
      · exact denyConnection_sheds opts s _ pending _ now
    · exact denyConnection_sheds opts s _ pending _ now

theorem onClientGone_sheds (s : BurrowRuntime Key) (clientId : ClientId) (now : Ms) :
    Sheds s (s.onClientGone opts clientId now) :=
  (disposeClient_sheds s clientId now).trans (reap_sheds opts _ now)

theorem apiSends_sheds (s : BurrowRuntime Key) (index : Nat) (payload : Json) :
    Sheds s (s.apiSends opts index payload) := by
  unfold apiSends
  split
  · exact .refl s
  · exact sendApp_sheds opts s _ payload

theorem denyPairing_sheds (s : BurrowRuntime Key) (clientId : ClientId) (pairingId : JsString)
    (now : Ms) : Sheds s (s.denyPairing opts clientId pairingId now) := by
  unfold denyPairing
  split
  · exact .refl s
  · split
    · exact .refl s
    · exact (finishPairing_sheds opts s clientId _).trans (reap_sheds opts _ now)

end BurrowRuntime

end Dormouse.Burrow
