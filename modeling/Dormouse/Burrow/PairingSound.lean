import Dormouse.Burrow.PairingInvariant

/-!
# Dormouse.Burrow.PairingSound

**Pairing safety**, in every run of the Burrow runtime: each event of a pairing ceremony
is justified by the ones before it, records are written on nothing else, and the ACL is
what the successful saves have made of it.

Most stretches shed. Each of the others adds one event, and owes its justification.
-/

namespace Dormouse.Burrow

open Noise (Bytes NoiseKeyPair NoiseHandshake createNoiseResponder)
open Security
open Terminal (Ms)

variable {Key : Type} {opts : BurrowOptions Key} {acl₀ : BurrowAcl} {s : BurrowRuntime Key}

/-! ### Minting -/

theorem PairingInv.mint (hs : PairingInv opts acl₀ s) {inviteId : JsString}
    {held : HeldInvitation Key} (huid : held.uid = s.nextUid) (hlive : held.state = .live)
    (hid : held.invitation.inviteId = inviteId) :
    PairingInv opts acl₀ { s with
      invitations := s.invitations.set inviteId held
      nextUid := s.nextUid + 1
      history := s.history ++ [.minted held] } := by
  have hnew : ∀ held', .minted held' ∈ s.history → held'.uid ≠ held.uid := by
    intro held' hm
    have := hs.fresh _ hm held'.uid rfl
    omega
  have hself : { held with state := .live } = held := by rw [← hlive]
  constructor
  case history => exact hs.history.concat ⟨hlive, hnew⟩
  case fresh =>
    intro e he uid hintro
    rcases List.mem_append.1 he with he | he
    · exact Nat.lt_succ_of_lt (hs.fresh e he uid hintro)
    · rw [List.mem_singleton.1 he] at hintro
      cases hintro
      exact huid ▸ Nat.lt_succ_self _
  case held =>
    intro id held' hget
    rw [InsertionMap.get_set] at hget
    by_cases hid' : inviteId = id
    · rw [if_pos hid'] at hget
      cases hget
      refine ⟨hid.trans hid', ?_, ?_⟩
      · rw [hself]
        exact List.mem_append_right _ (List.mem_singleton.2 rfl)
      · intro _ frame held' ephemeral p hm
        -- A reservation is of an invitation minted before this one.
        have hm := mem_concat_of_ne hm (fun h => by cases h)
        exact hnew held' (reserved_facts hs.history hm).1
    · rw [if_neg hid'] at hget
      exact (hs.held id held' hget).concat fun _ _ _ _ h => by cases h
  case pairing => exact fun clientId p hp => (hs.pairing clientId p hp).concat rfl
  case task =>
    intro task htask
    have hk := hs.task task htask
    cases task with
    | pairingHandshake frame epoch held' =>
      refine ⟨hk.1, List.mem_append_left _ hk.2.1, fun held'' hget huid' => ?_⟩
      rw [InsertionMap.get_set] at hget
      split at hget
      · cases hget
        exact absurd huid'.symm (hnew held' hk.2.1)
      · exact hk.2.2 held'' hget huid'
    | pairingPresence frame p request => exact ⟨hk.1.append _, hk.2⟩
    | connectionRead frame epoch => exact trivial
    | connectionWrite frame epoch handshake challenge expiresAt => exact trivial
    | connectionPresence frame pending proof challengeValid => exact trivial
  case jobs => exact fun job hjob => (hs.jobs job hjob).concat fun _ _ _ _ h => by cases h
  case jobsOnce => exact hs.jobsOnce
  case next => exact hs.next
  case serial =>
    rw [filterMap_concat_none rfl, filterMap_concat_none rfl]
    exact hs.serial
  case acl =>
    rw [filterMap_concat_none rfl]
    exact hs.acl

theorem PairingInv.insertInvitation (hs : PairingInv opts acl₀ s) (mint : Mint)
    (keyPair : NoiseKeyPair Key) (inviteId : JsString) (now : Ms) :
    PairingInv opts acl₀ (s.insertInvitation opts mint keyPair inviteId now) := by
  have hroom := (hs.sheds (BurrowRuntime.reap_sheds opts s now)).sheds
    (BurrowRuntime.evictInvitations_sheds (s.reap opts now).invitations.size _)
  unfold BurrowRuntime.insertInvitation
  dsimp only
  split
  · exact hroom
  · refine PairingInv.sheds ?_ (BurrowRuntime.armReaper_sheds _)
    exact hroom.mint rfl rfl rfl

theorem PairingInv.mintResumes (hs : PairingInv opts acl₀ s) (index : Nat)
    (keyPair : Option (NoiseKeyPair Key)) (inviteId : JsString) (now : Ms) :
    PairingInv opts acl₀ (s.mintResumes opts index keyPair inviteId now) := by
  have herase : Sheds s { s with mints := s.mints.eraseIdx index } :=
    ⟨rfl, rfl, rfl, rfl, rfl, Nat.le_refl _, id, id⟩
  unfold BurrowRuntime.mintResumes
  split
  · exact hs
  · exact hs.sheds herase
  · dsimp only
    split
    · exact hs.sheds herase
    · exact (hs.sheds herase).insertInvitation _ _ _ now

/-! ### Reserving -/

/-- What a finished pairing handshake went through. -/
theorem pairingHandshake_authenticates {held : HeldInvitation Key} {ct : JsString}
    {ephemeral : Option (NoiseKeyPair Key)} {h : BurrowRuntime.Handshaken}
    (hh : BurrowRuntime.pairingHandshake opts held ct ephemeral = some h) :
    Authenticates opts held ct h.handshakeHash h.clientStaticPublicKey := by
  simp only [BurrowRuntime.pairingHandshake, Option.bind_eq_bind, Option.bind_eq_some_iff] at hh
  obtain ⟨prologue, hprologue, reader, hreader, hwriter⟩ := hh
  simp only [BurrowRuntime.readMessage1] at hreader
  split at hreader
  · next responder message hresponder hmessage =>
      split at hreader
      · next reader' hread =>
          cases hreader
          simp only [BurrowRuntime.writeMessage2] at hwriter
          split at hwriter
          · next writer message2 hwrite =>
              simp only [BurrowRuntime.handshaken, Option.bind_eq_bind, Option.bind_eq_some_iff]
                at hwriter
              obtain ⟨remoteStatic, hremote, session, hsession, hdone⟩ := hwriter
              cases hdone
              exact ⟨prologue, message, responder, reader, ephemeral, writer, message2,
                remoteStatic, session, hprologue, hmessage, hresponder, hread, hwrite, hremote,
                rfl, hsession, rfl⟩
          · cases hwriter
      · cases hreader
  · cases hreader

/-- What reserving an invitation does to the ones held. -/
theorem get_reserve (id id' : JsString) (held : HeldInvitation Key) :
    (s.reserve id held).invitations.get id' =
      if s.holdsInvitation id held.uid ∧ id = id' then some { held with state := .reserved }
      else s.invitations.get id' := by
  unfold BurrowRuntime.reserve
  by_cases hholds : s.holdsInvitation id held.uid = true
  · rw [if_pos hholds]
    rw [InsertionMap.get_set]
    by_cases hid : id = id'
    · rw [if_pos hid, if_pos ⟨hholds, hid⟩]
    · rw [if_neg hid, if_neg (fun h => hid h.2)]
  · rw [if_neg hholds, if_neg (fun h => hholds h.1)]

theorem reserve_eq (id : JsString) (held : HeldInvitation Key) :
    s.reserve id held = { s with invitations := (s.reserve id held).invitations } := by
  unfold BurrowRuntime.reserve
  split <;> rfl

theorem pairingOf_installPairing (frame : E2eRelayToBurrowFrame) (held : HeldInvitation Key)
    (h : BurrowRuntime.Handshaken) (ephemeral : Option (NoiseKeyPair Key))
    (p : PendingPairingSession) (c : ClientId) :
    (s.installPairing frame held h ephemeral p).pairingOf c =
      if frame.clientId = c then some p else s.pairingOf c := by
  have hentry : ((s.clientState frame.clientId).clients.get frame.clientId).isSome = true := by
    unfold BurrowRuntime.clientState
    split
    · next hhas => exact hhas
    · simp
  obtain ⟨state, hstate⟩ := Option.isSome_iff_exists.1 hentry
  have hedit := BurrowRuntime.pairingOf_editClient (s.clientState frame.clientId) frame.clientId c
    fun state => { state with pairing := some p }
  rw [hstate, BurrowRuntime.pairingOf_clientState] at hedit
  exact hedit

theorem installPairing_eq (frame : E2eRelayToBurrowFrame) (held : HeldInvitation Key)
    (h : BurrowRuntime.Handshaken) (ephemeral : Option (NoiseKeyPair Key))
    (p : PendingPairingSession) :
    s.installPairing frame held h ephemeral p =
      { s with
        clients := (s.installPairing frame held h ephemeral p).clients
        sessions := (s.installPairing frame held h ephemeral p).sessions
        nextUid := s.nextUid + 1
        history := s.history ++ [.reserved frame held ephemeral p] } := by
  unfold BurrowRuntime.installPairing
  dsimp only
  rw [BurrowRuntime.editClient_eq, BurrowRuntime.clientState_eq]

/-- Nothing has been typed for a pairing that is not there yet. -/
theorem PairingInv.firstAttempt_fresh (hs : PairingInv opts acl₀ s) :
    firstAttempt s.history s.nextUid = none := by
  unfold firstAttempt
  rw [List.findSome?_eq_none_iff]
  intro e he
  cases e with
  | attempted pairing code =>
    have := hs.fresh _ he pairing rfl
    exact if_neg (by omega)
  | _ => rfl

/-- **Reserving** an unreserved invitation for the pairing whose message 1 it
authenticated. -/
theorem PairingInv.reserved (hs : PairingInv opts acl₀ s) {frame : E2eRelayToBurrowFrame}
    {held : HeldInvitation Key} {h : BurrowRuntime.Handshaken}
    {ephemeral : Option (NoiseKeyPair Key)} {p : PendingPairingSession} {outputs : List Output}
    (htask : s.task = none)
    (hauth : Authenticates opts held frame.ct p.handshakeHash p.clientStaticPublicKey)
    (hminted : .minted held ∈ s.history) (hunreserved : Unreserved s.history held.uid)
    (hlive : held.state = .live) (hid : held.invitation.inviteId = frame.id)
    (huid : p.uid = s.nextUid) (hinvite : p.inviteUid = held.uid)
    (hexpires : p.expiresAt = held.expiresAt) (hbase : p = p.base) :
    PairingInv opts acl₀ (({ s with
      invitations := (s.reserve frame.id held).invitations
      outputs := outputs } : BurrowRuntime Key).installPairing frame held h ephemeral p) := by
  have hpairing := pairingOf_installPairing (s := { s with
    invitations := (s.reserve frame.id held).invitations
    outputs := outputs }) frame held h ephemeral p
  rw [installPairing_eq] at hpairing ⊢
  constructor
  case history =>
    refine hs.history.concat ⟨hminted, hbase, hinvite, hexpires, hauth, ?_⟩
    intro frame' held' ephemeral' p' hm
    refine ⟨hunreserved frame' held' ephemeral' p' hm, ?_⟩
    have := hs.fresh _ hm p'.uid rfl
    omega
  case fresh =>
    intro e he uid hsubject
    rcases List.mem_append.1 he with he | he
    · exact Nat.lt_succ_of_lt (hs.fresh e he uid hsubject)
    · rw [List.mem_singleton.1 he] at hsubject
      cases hsubject
      exact huid ▸ Nat.lt_succ_self _
  case held =>
    intro id' held' hheld
    rw [get_reserve] at hheld
    by_cases hreserved : s.holdsInvitation frame.id held.uid ∧ frame.id = id'
    · rw [if_pos hreserved] at hheld
      cases hheld
      refine ⟨hid.trans hreserved.2, ?_, fun hcon => by cases hcon⟩
      have hself : { held with state := HeldState.live } = held := by rw [← hlive]
      refine List.mem_append_left _ ?_
      rwa [hself]
    · rw [if_neg hreserved] at hheld
      refine (hs.held id' held' hheld).concat fun frame' held'' ephemeral' p' he => ?_
      cases he
      -- Another entry of this identity would be this very entry.
      intro huids
      have hk := hs.held id' held' hheld
      have hsame := minted_inj hs.history hminted hk.minted huids
      have hids : frame.id = id' := by
        rw [← hid, ← hk.inviteId, hsame]
      refine hreserved ⟨?_, hids⟩
      rw [BurrowRuntime.holdsInvitation, hids, hheld]
      exact beq_iff_eq.2 huids.symm
  case pairing =>
    intro clientId p' hp'
    rw [hpairing] at hp'
    by_cases hclient : frame.clientId = clientId
    · rw [if_pos hclient] at hp'
      cases hp'
      refine ⟨⟨frame, held, ephemeral, ?_, hclient⟩, ?_, ?_⟩
      · rw [← hbase]
        exact List.mem_append_right _ (List.mem_singleton.2 rfl)
      · intro approval happroval
        rw [hbase] at happroval
        cases happroval
      · intro _
        rw [firstAttempt_concat_of_none rfl, huid, hs.firstAttempt_fresh]
    · rw [if_neg hclient] at hp'
      exact (hs.pairing clientId p' hp').concat rfl
  case task =>
    intro task' htask'
    rw [htask] at htask'
    cases htask'
  case jobs => exact fun job hjob => (hs.jobs job hjob).concat fun _ _ _ _ h => by cases h
  case jobsOnce => exact hs.jobsOnce
  case next => exact hs.next
  case serial =>
    rw [filterMap_concat_none rfl, filterMap_concat_none rfl]
    exact hs.serial
  case acl =>
    rw [filterMap_concat_none rfl]
    exact hs.acl

/-- `#onPairingInit` resumes. -/
theorem PairingInv.pairingHandshakeResumes (hs : PairingInv opts acl₀ s) (htask : s.task = none)
    {frame : E2eRelayToBurrowFrame} {epoch : Nat} {held : HeldInvitation Key}
    (hknows : TaskKnows s (.pairingHandshake frame epoch held))
    (ephemeral : Option (NoiseKeyPair Key)) (pairingId : JsString) (now : Ms) :
    PairingInv opts acl₀
      (s.pairingHandshakeResumes opts frame epoch held ephemeral pairingId now) := by
  unfold BurrowRuntime.pairingHandshakeResumes
  split
  · exact hs
  next h hhandshake =>
    split
    · exact hs
    next hcheck =>
      rw [not_or, not_not, not_not] at hcheck
      obtain ⟨hlive, hminted, hsame⟩ := hknows
      have hsheds := BurrowRuntime.displacePairings_sheds opts s frame.clientId
      -- The entry its id names is still the invitation, live and unreserved.
      obtain ⟨held', hget, huid⟩ := (Option.any_eq_true _ _).1 hcheck.2
      have hk := hs.held frame.id held' hget
      rw [hsame held' hget (beq_iff_eq.1 huid)] at hk
      have hdisplaced := hs.sheds hsheds
      refine PairingInv.sheds ?_ (BurrowRuntime.sendE2e_sheds _ _ _ _ _ _)
      refine PairingInv.sheds ?_ (BurrowRuntime.armReaper_sheds _)
      rw [reserve_eq]
      refine hdisplaced.reserved (hsheds.task.trans htask)
        (pairingHandshake_authenticates hhandshake) ?_ ?_ hlive hk.inviteId rfl rfl rfl rfl
      · rw [hsheds.history]
        exact hminted
      · rw [hsheds.history]
        exact hk.live hlive

/-! ### Setting what a pairing holds -/

/-- Two pending pairings of one identity are the one at one client. -/
theorem PairingInv.pairing_inj (hs : PairingInv opts acl₀ s) {c c' : ClientId}
    {p p' : PendingPairingSession} (hp : s.pairingOf c = some p) (hp' : s.pairingOf c' = some p')
    (huid : p.uid = p'.uid) : c = c' :=
  ((hs.pairing c p hp).reserved.inj hs.history (hs.pairing c' p' hp').reserved huid).1

theorem TaskKnows.grows {task : FrameTask Key} {clients : InsertionMap ClientId ClientState}
    {e : Event Key} (hk : TaskKnows s task) :
    TaskKnows { s with clients := clients, history := s.history ++ [e] } task :=
  hk.concat rfl id

/-- `pending.approval = { … }`, once the request has been believed. -/
theorem PairingInv.setApproval (hs : PairingInv opts acl₀ s) {clientId : ClientId}
    {p pending : PendingPairingSession} (hp : s.pairingOf clientId = some p)
    (huid : p.uid = pending.uid) (hreserved : Reserved s.history clientId pending)
    {request : PairingRequestV1} {approval : Approval}
    (hpresented : Presented opts pending approval) :
    PairingInv opts acl₀ (s.setApproval clientId pending request approval) := by
  have hpairing := BurrowRuntime.pairingOf_editPairing s clientId
    (g := ({ · with approval := some approval }))
  unfold BurrowRuntime.setApproval
  rw [BurrowRuntime.editClient_eq] at hpairing ⊢
  constructor
  case history => exact hs.history.concat ⟨⟨clientId, hreserved⟩, hpresented⟩
  case fresh =>
    intro e he uid hsubject
    rcases List.mem_append.1 he with he | he
    · exact hs.fresh e he uid hsubject
    · rw [List.mem_singleton.1 he] at hsubject
      cases hsubject
  case held => exact fun id held hget => (hs.held id held hget).concat fun _ _ _ _ h => by cases h
  case pairing =>
    intro clientId' p' hp'
    have hp'' := (hpairing clientId').symm.trans hp'
    by_cases hclient : clientId = clientId'
    · rw [if_pos hclient, hp] at hp''
      cases hp''
      have hk := (hs.pairing clientId p hp).concat (e := .presented pending request approval) rfl
      have hbase := ((hs.pairing clientId p hp).reserved.inj hs.history hreserved huid).2
      refine ⟨hclient ▸ hk.reserved, ?_, hk.unattempted⟩
      intro approval' happroval
      cases happroval
      -- One ceremony has one handshake hash.
      have hhash : p.base.handshakeHash = pending.base.handshakeHash := by rw [hbase]
      exact hpresented.of_hash hhash
    · rw [if_neg hclient] at hp''
      exact (hs.pairing clientId' p' hp'').concat rfl
  case task => exact fun task htask => (hs.task task htask).grows
  case jobs => exact fun job hjob => (hs.jobs job hjob).concat fun _ _ _ _ h => by cases h
  case jobsOnce => exact hs.jobsOnce
  case next => exact hs.next
  case serial =>
    rw [filterMap_concat_none rfl, filterMap_concat_none rfl]
    exact hs.serial
  case acl =>
    rw [filterMap_concat_none rfl]
    exact hs.acl

/-- `pending.attempted = true`. -/
theorem PairingInv.attempt (hs : PairingInv opts acl₀ s) {clientId : ClientId}
    {p : PendingPairingSession} (hp : s.pairingOf clientId = some p) (code : JsString) :
    PairingInv opts acl₀ (s.attempt clientId p code) := by
  have hpairing := BurrowRuntime.pairingOf_editPairing s clientId
    (g := ({ · with attempted := true }))
  unfold BurrowRuntime.attempt
  rw [BurrowRuntime.editClient_eq] at hpairing ⊢
  constructor
  case history => exact hs.history.concat trivial
  case fresh =>
    intro e he uid hsubject
    rcases List.mem_append.1 he with he | he
    · exact hs.fresh e he uid hsubject
    · rw [List.mem_singleton.1 he] at hsubject
      cases hsubject
      obtain ⟨frame, held, ephemeral, hm, -⟩ := (hs.pairing clientId p hp).reserved
      exact hs.fresh _ hm p.uid rfl
  case held => exact fun id held hget => (hs.held id held hget).concat fun _ _ _ _ h => by cases h
  case pairing =>
    intro clientId' p' hp'
    have hp'' := (hpairing clientId').symm.trans hp'
    by_cases hclient : clientId = clientId'
    · rw [if_pos hclient, hp] at hp''
      cases hp''
      have hk := hs.pairing clientId p hp
      exact ⟨hclient ▸ hk.reserved.append _, hk.presented, fun hfalse => by cases hfalse⟩
    · rw [if_neg hclient] at hp''
      refine (hs.pairing clientId' p' hp'').concat (if_neg fun huid => ?_)
      exact hclient (hs.pairing_inj hp hp'' huid)
  case task => exact fun task htask => (hs.task task htask).grows
  case jobs => exact fun job hjob => (hs.jobs job hjob).concat fun _ _ _ _ h => by cases h
  case jobsOnce => exact hs.jobsOnce
  case next => exact hs.next
  case serial =>
    rw [filterMap_concat_none rfl, filterMap_concat_none rfl]
    exact hs.serial
  case acl =>
    rw [filterMap_concat_none rfl]
    exact hs.acl

/-! ### The person's answer -/

theorem Presented.isPairingCode {p : PendingPairingSession} {approval : Approval}
    (hp : Presented opts p approval) : isPairingCode approval.code = true := by
  obtain ⟨request, hash, hcode, -, rfl⟩ := hp
  exact hcode

/-- A save that only waits: its pairing's first attempt was the right code. -/
theorem PairingInv.enqueue (hs : PairingInv opts acl₀ s) {job : SaveJob}
    (hjob : JobKnows opts s.history job)
    (honce : ∀ job' ∈ s.saves, job'.pending.uid ≠ job.pending.uid) :
    PairingInv opts acl₀ { s with saves := s.saves ++ [job] } :=
  { hs with
    task := fun task htask => by
      have hk := hs.task task htask
      cases task <;> exact hk
    jobs := by
      intro job' hjob'
      rcases List.mem_append.1 hjob' with hjob' | hjob'
      · exact hs.jobs job' hjob'
      · rw [List.mem_singleton.1 hjob']
        exact hjob
    jobsOnce := by
      rw [List.map_append, List.map_singleton, List.nodup_append]
      refine ⟨hs.jobsOnce, List.nodup_singleton _, fun uid huid uid' huid' heq => ?_⟩
      obtain ⟨job', hjob', rfl⟩ := List.mem_map.1 huid
      rw [List.mem_singleton] at huid'
      exact honce job' hjob' (heq.trans huid') }

/-- A record in the history had its code typed. -/
theorem PairingInv.attempted_of_wrote (hs : PairingInv opts acl₀ s) {p : PendingPairingSession}
    {approval : Approval} {client : ApprovedClient} {at_ : Ms}
    (hm : .wrote p approval client at_ ∈ s.history) :
    firstAttempt s.history p.uid = some approval.code :=
  hs.history.mono (P := fun h => firstAttempt h p.uid = some approval.code) hm
    (fun _ hJ => hJ.code) (fun _ after hP => firstAttempt_append hP after)

theorem attempt_eq (clientId : ClientId) (p : PendingPairingSession) (code : JsString) :
    s.attempt clientId p code =
      { s with
        clients := (s.attempt clientId p code).clients
        history := s.history ++ [.attempted p.uid code] } := by
  unfold BurrowRuntime.attempt
  rw [BurrowRuntime.editClient_eq]

/-- The first code typed for a pairing is the right one: its save is queued. -/
theorem PairingInv.firstCodeRight (hs : PairingInv opts acl₀ s) {clientId : ClientId}
    {p : PendingPairingSession} (hp : s.pairingOf clientId = some p) {approval : Approval}
    (happroval : p.approval = some approval) (hfirst : p.attempted = false)
    (key : JsString) :
    PairingInv opts acl₀ { s.attempt clientId p approval.code with
      saves := (s.attempt clientId p approval.code).saves ++ [⟨clientId, p, approval, key⟩] } := by
  have hk := hs.pairing clientId p hp
  have hnone := hk.unattempted hfirst
  have hattempt := hs.attempt hp approval.code
  rw [attempt_eq] at hattempt ⊢
  refine hattempt.enqueue ⟨hk.reserved.append _, hk.presented approval happroval, ?_, ?_⟩ ?_
  · unfold firstAttempt at hnone ⊢
    rw [List.findSome?_append, hnone, List.findSome?_singleton, attemptOn, if_pos rfl]
    rfl
  · intro p' approval' client at_ hm huid
    have hwrote := hs.attempted_of_wrote (mem_concat_of_ne hm fun h => by cases h)
    rw [huid, hnone] at hwrote
    cases hwrote
  · intro job' hjob' huid
    have hcode := (hs.jobs job' hjob').code
    rw [huid, hnone] at hcode
    cases hcode

theorem PairingInv.approvePairing (hs : PairingInv opts acl₀ s) (clientId : ClientId)
    (pairingId code : JsString) (now : Ms) :
    PairingInv opts acl₀ (s.approvePairing opts clientId pairingId code now) := by
  unfold BurrowRuntime.approvePairing
  split
  · exact hs
  next p hp =>
    split
    · exact hs
    next approval happroval =>
      have hattempt := hs.attempt hp code
      have hended := fun denial => hattempt.sheds
        (BurrowRuntime.finishPairing_sheds opts _ clientId denial)
      split
      · exact hs
      split
      · exact hattempt
      next hfirst =>
        split
        · exact hended .invitationExpired
        split
        · exact hended .burrowError
        split
        · exact hended .confirmationMismatch
        next hequal =>
          rw [Bool.not_eq_true, Bool.not_eq_false'] at hequal
          have hpresented := (hs.pairing clientId p hp).presented approval happroval
          have hcode := eq_of_constantTimeEqual hpresented.isPairingCode hequal
          rw [hcode]
          exact hs.firstCodeRight hp happroval (Bool.eq_false_iff.2 hfirst) _

/-! ### The saves -/

theorem setCommitting_eq (clientId : ClientId) (committing : Bool) :
    s.setCommitting clientId committing =
      { s with clients := (s.setCommitting clientId committing).clients } :=
  BurrowRuntime.editClient_eq s clientId _

/-- `committing` is no part of what a pairing knows. -/
theorem PairingInv.setCommitting (hs : PairingInv opts acl₀ s) (clientId : ClientId)
    (committing : Bool) : PairingInv opts acl₀ (s.setCommitting clientId committing) := by
  have hpairing := BurrowRuntime.pairingOf_editPairing s clientId
    (g := ({ · with committing := committing }))
  have hpairing : ∀ c p', (s.setCommitting clientId committing).pairingOf c = some p' →
      PairingKnows opts s.history c p' := by
    intro c p' hp'
    have hp'' := (hpairing c).symm.trans hp'
    split at hp''
    · next hclient =>
        obtain ⟨p, hp, rfl⟩ := Option.map_eq_some_iff.1 hp''
        have hk := hs.pairing clientId p hp
        exact ⟨hclient ▸ hk.reserved, hk.presented, hk.unattempted⟩
    · exact hs.pairing c p' hp''
  rw [setCommitting_eq] at hpairing ⊢
  exact ⟨hs.history, hs.fresh, hs.held, hpairing, fun task htask => by
    have hk := hs.task task htask
    cases task <;> exact hk, hs.jobs, hs.jobsOnce, hs.next, hs.serial, hs.acl⟩

/-- The head of the queue leaves it. -/
theorem PairingInv.dequeue (hs : PairingInv opts acl₀ s) {job : SaveJob} {rest : List SaveJob}
    (hsaves : s.saves = job :: rest) : PairingInv opts acl₀ { s with saves := rest } :=
  { hs with
    task := fun task htask => by
      have hk := hs.task task htask
      cases task <;> exact hk
    jobs := fun job' hjob' => hs.jobs job' (hsaves ▸ List.mem_cons_of_mem _ hjob')
    jobsOnce := by
      have honce := hs.jobsOnce
      rw [hsaves, List.map_cons, List.nodup_cons] at honce
      exact honce.2 }

/-- What the head of the queue justifies, once it finds its pairing unexpired. -/
theorem PairingInv.recordJustified (hs : PairingInv opts acl₀ s) {job : SaveJob}
    (hjob : JobKnows opts s.history job) {now : Ms} (hlive : now < job.pending.expiresAt)
    (deliveryId : JsString) :
    RecordJustified opts s.history job.pending job.approval
      (BurrowRuntime.approvedClient job deliveryId) now := by
  obtain ⟨frame, held, ephemeral, hm, -⟩ := hjob.reserved
  obtain ⟨hminted, hinvite, hexpires, hauth⟩ := reserved_facts hs.history hm
  refine ⟨⟨frame, held, ephemeral, hminted, hm, hinvite, ?_, hauth⟩, hjob.presented, hjob.code,
    rfl, ⟨rfl, rfl, rfl⟩, ?_⟩
  · rw [← hexpires]
    exact hlive
  · -- An earlier record on the invitation would be this pairing's own.
    intro p' approval' client' at_' hm' hinvite'
    have hwrote := hs.history.mono (P := fun h => ∃ frame' held' ephemeral',
      .reserved frame' held' ephemeral' p'.base ∈ h ∧ p'.inviteUid = held'.uid) hm'
      (fun _ hJ => by
        obtain ⟨frame', held', ephemeral', -, hreserved, hinvite', -⟩ := hJ.invitation
        exact ⟨frame', held', ephemeral', hreserved, hinvite'⟩)
      (fun _ _ hP => by
        obtain ⟨frame', held', ephemeral', hreserved, hinvite'⟩ := hP
        exact ⟨frame', held', ephemeral', List.mem_append_left _ hreserved, hinvite'⟩)
    obtain ⟨frame', held', ephemeral', hreserved', huid'⟩ := hwrote
    have hbase := reserved_inj_invitation hs.history hreserved' hm
      (huid'.symm.trans (hinvite'.trans hinvite))
    have huid : p'.base.uid = job.pending.base.uid := by rw [hbase]
    exact hjob.unwritten p' approval' client' at_' hm' huid

/-- **Writing**: a queued save hands its snapshot to the store. -/
theorem PairingInv.wrote (hs : PairingInv opts acl₀ s) {job : SaveJob}
    (hjob : JobKnows opts s.history job) (hrest : ∀ job' ∈ s.saves,
      job'.pending.uid ≠ job.pending.uid) (hsaving : s.saving = none) {now : Ms}
    (hlive : now < job.pending.expiresAt) (deliveryId : JsString) :
    let client := BurrowRuntime.approvedClient job deliveryId
    PairingInv opts acl₀ { s with
      saving := some ⟨job, client, now, s.acl.approve client now⟩
      history := s.history ++ [.wrote job.pending job.approval client now] } := by
  intro client
  have hjustified := hs.recordJustified hjob hlive deliveryId
  constructor
  case history => exact hs.history.concat hjustified
  case fresh =>
    intro e he uid hsubject
    rcases List.mem_append.1 he with he | he
    · exact hs.fresh e he uid hsubject
    · rw [List.mem_singleton.1 he] at hsubject
      cases hsubject
  case held => exact fun id held hget => (hs.held id held hget).concat fun _ _ _ _ h => by cases h
  case pairing => exact fun clientId p hp => (hs.pairing clientId p hp).concat rfl
  case task => exact fun task htask => (hs.task task htask).concat rfl id
  case jobs =>
    intro job' hjob'
    refine (hs.jobs job' hjob').concat fun p approval client' at_ he => ?_
    cases he
    exact fun huid => hrest job' hjob' huid.symm
  case jobsOnce => exact hs.jobsOnce
  case next =>
    intro v hv
    cases hv
    rfl
  case serial =>
    have hserial := hs.serial
    rw [hsaving, Option.map_none, Option.toList_none, List.append_nil] at hserial
    rw [filterMap_concat_some (f := writtenOf) (b := (client, now)) rfl, filterMap_concat_none rfl,
      hserial]
    rfl
  case acl =>
    rw [filterMap_concat_none rfl]
    exact hs.acl

theorem PairingInv.saveStarts (hs : PairingInv opts acl₀ s) (deliveryId : JsString) (now : Ms) :
    PairingInv opts acl₀ (s.saveStarts opts deliveryId now) := by
  unfold BurrowRuntime.saveStarts
  split
  · next job rest hsaving hsaves =>
      have hrest := hs.dequeue hsaves
      have honce := hs.jobsOnce
      rw [hsaves, List.map_cons, List.nodup_cons] at honce
      dsimp only
      split
      · exact hrest
      split
      · exact hrest.sheds (BurrowRuntime.finishPairing_sheds opts _ _ _)
      next hlive =>
        rw [BurrowAcl.fromRecords_records]
        have hcommitting := hrest.setCommitting job.clientId true
        unfold BurrowRuntime.write
        rw [setCommitting_eq] at hcommitting ⊢
        refine hcommitting.wrote (hs.jobs job (hsaves ▸ List.mem_cons_self)) ?_ hsaving
          (not_le.1 hlive) deliveryId
        exact fun job' hjob' huid => honce.1 (List.mem_map.2 ⟨job', hjob', huid⟩)
  · exact hs

/-- **Settling** a save: its event takes the place of the write in flight. -/
theorem PairingInv.settled (hs : PairingInv opts acl₀ s) {v : Saving}
    (hsaving : s.saving = some v) {acl : BurrowAcl} {e : Event Key}
    (he : e = .saved v.client v.approvedAt ∧ acl = v.next ∨
      e = .saveFailed v.client v.approvedAt ∧ acl = s.acl) :
    PairingInv opts acl₀ { s with saving := none, acl := acl, history := s.history ++ [e] } := by
  have hserial := hs.serial
  rw [hsaving] at hserial
  have hsettled : settledOf e = some (v.client, v.approvedAt) ∧ writtenOf e = none ∧
      subject e = none ∧ ∀ pairing, attemptOn pairing e = none := by
    rcases he with ⟨rfl, -⟩ | ⟨rfl, -⟩ <;> exact ⟨rfl, rfl, rfl, fun _ => rfl⟩
  constructor
  case history =>
    refine hs.history.concat ?_
    rcases he with ⟨rfl, -⟩ | ⟨rfl, -⟩ <;> exact hserial
  case fresh =>
    intro e' he' uid hsubject
    rcases List.mem_append.1 he' with he' | he'
    · exact hs.fresh e' he' uid hsubject
    · rw [List.mem_singleton.1 he', hsettled.2.2.1] at hsubject
      cases hsubject
  case held =>
    refine fun id held hget => (hs.held id held hget).concat fun _ _ _ _ h => ?_
    rcases he with ⟨rfl, -⟩ | ⟨rfl, -⟩ <;> cases h
  case pairing =>
    exact fun clientId p hp => (hs.pairing clientId p hp).concat (hsettled.2.2.2 p.uid)
  case task => exact fun task htask => (hs.task task htask).concat rfl id
  case jobs =>
    refine fun job hjob => (hs.jobs job hjob).concat fun _ _ _ _ h => ?_
    rcases he with ⟨rfl, -⟩ | ⟨rfl, -⟩ <;> cases h
  case jobsOnce => exact hs.jobsOnce
  case next => exact fun v' hv' => by cases hv'
  case serial =>
    rw [filterMap_concat_none hsettled.2.1, filterMap_concat_some hsettled.1, hserial]
    exact (List.append_nil _).symm
  case acl =>
    rcases he with ⟨rfl, rfl⟩ | ⟨rfl, rfl⟩
    · rw [filterMap_concat_some (f := savedOf) (b := (v.client, v.approvedAt)) rfl,
        List.foldl_append, ← hs.acl]
      exact hs.next v hsaving
    · rw [filterMap_concat_none rfl]
      exact hs.acl

theorem PairingInv.saveSettles (hs : PairingInv opts acl₀ s) (succeeded : Bool) (now : Ms) :
    PairingInv opts acl₀ (s.saveSettles opts succeeded now) := by
  unfold BurrowRuntime.saveSettles
  split
  · exact hs
  next v hsaving =>
    split
    · have hsaved := hs.settled hsaving (.inl ⟨rfl, rfl⟩)
      unfold BurrowRuntime.saveSucceeds
      dsimp only
      split
      · exact hsaved
      split
      · exact hsaved
      · refine PairingInv.sheds ?_ (BurrowRuntime.reap_sheds opts _ now)
        refine PairingInv.sheds ?_ (BurrowRuntime.disposePairing_sheds _ _ _)
        refine PairingInv.sheds ?_ (BurrowRuntime.sendControl_sheds opts _ _ _ _ _ _)
        exact hsaved
    · have hfailed := hs.settled hsaving (.inr ⟨rfl, rfl⟩)
      unfold BurrowRuntime.saveFails
      dsimp only
      split
      · exact hfailed
      · refine PairingInv.sheds ?_ (BurrowRuntime.reap_sheds opts _ now)
        refine PairingInv.sheds ?_ (BurrowRuntime.finishPairing_sheds opts _ _ _)
        exact hfailed.setCommitting v.job.clientId false

/-! ### The drain -/

/-- A stretch that sheds, then takes up a step. -/
theorem PairingInv.shedsThenTask {t : BurrowRuntime Key} (hs : PairingInv opts acl₀ s)
    (hst : Sheds s t) {task : FrameTask Key} (htask : TaskKnows t task) :
    PairingInv opts acl₀ { t with task := some task } :=
  (hs.sheds hst).setTask fun _ h => by
    cases h
    exact htask

theorem PairingInv.challengesThenTask (hs : PairingInv opts acl₀ s)
    (challenges : ChallengeIssuer) {task : FrameTask Key} (htask : TaskKnows s task) :
    PairingInv opts acl₀ { s with challenges := challenges, task := some task } := by
  have hknows : TaskKnows { s with challenges := challenges } task := by
    cases task <;> exact htask
  exact hs.shedsThenTask (BurrowRuntime.setChallenges_sheds s challenges) hknows

theorem spendInitToken_sheds (now : Ms) : Sheds s (s.spendInitToken now).1 :=
  ⟨rfl, rfl, rfl, rfl, rfl, Nat.le_refl _, id, id⟩

theorem PairingInv.onPairingInit (hs : PairingInv opts acl₀ s) (frame : E2eRelayToBurrowFrame)
    (epoch : Nat) (now : Ms) : PairingInv opts acl₀ (s.onPairingInit frame epoch now) := by
  unfold BurrowRuntime.onPairingInit
  split
  · exact hs
  next held hget =>
    split
    · exact hs
    next hlive =>
      rw [not_not] at hlive
      dsimp only
      split
      · refine hs.shedsThenTask (spendInitToken_sheds now) ⟨hlive, ?_, ?_⟩
        · have hminted := (hs.held frame.id held hget).minted
          have hself : { held with state := HeldState.live } = held := by rw [← hlive]
          rwa [hself] at hminted
        · intro held' hget' _
          exact Option.some.inj (hget'.symm.trans hget)
      · exact hs.sheds (spendInitToken_sheds now)

theorem PairingInv.onPairingTransport (hs : PairingInv opts acl₀ s)
    (frame : E2eRelayToBurrowFrame) (now : Ms) :
    PairingInv opts acl₀ (s.onPairingTransport opts frame now) := by
  unfold BurrowRuntime.onPairingTransport
  split
  · exact hs
  next p hp =>
    have hreceive := BurrowRuntime.receive_sheds opts s p.uid frame.ct
    have hended := fun denial => (hs.sheds hreceive).sheds
      (BurrowRuntime.finishPairing_sheds opts _ frame.clientId denial)
    split
    · exact hs
    split
    · exact hs.sheds (BurrowRuntime.finishPairing_sheds opts s _ _)
    dsimp only
    split
    · exact (hs.sheds hreceive).sheds (BurrowRuntime.disposePairing_sheds _ _ _)
    · exact hs.sheds hreceive
    split
    · exact hs.sheds hreceive
    split
    · split
      · next request hrequest =>
          refine hs.shedsThenTask hreceive ⟨?_, ?_⟩
          · rw [hreceive.history]
            exact (hs.pairing frame.clientId p hp).reserved
          · exact PairingRequestV1.isPairingCode_of_ofJson hrequest
      · exact hended .burrowError
    · exact hended .burrowError

theorem PairingInv.pairingPresenceResumes (hs : PairingInv opts acl₀ s)
    {frame : E2eRelayToBurrowFrame} {pending : PendingPairingSession} {request : PairingRequestV1}
    (hknows : TaskKnows s (.pairingPresence frame pending request)) :
    PairingInv opts acl₀ (s.pairingPresenceResumes opts frame pending request) := by
  unfold BurrowRuntime.pairingPresenceResumes
  split
  · exact hs
  next hholds =>
    rw [Bool.not_eq_true, Bool.not_eq_false'] at hholds
    obtain ⟨p, hp, huid⟩ := (Option.any_eq_true _ _).1 hholds
    split
    · exact hs.sheds (BurrowRuntime.finishPairing_sheds opts s _ _)
    · next hash hverify =>
        refine PairingInv.sheds ?_ (BurrowRuntime.emit_sheds _ _)
        exact hs.setApproval hp (beq_iff_eq.1 huid) hknows.1
          ⟨request, hash, hknows.2, hverify, rfl⟩

theorem PairingInv.onConnectionInit (hs : PairingInv opts acl₀ s)
    (frame : E2eRelayToBurrowFrame) (epoch : Nat) (now : Ms) :
    PairingInv opts acl₀ (s.onConnectionInit frame epoch now) := by
  unfold BurrowRuntime.onConnectionInit
  dsimp only
  split
  · exact hs.shedsThenTask (spendInitToken_sheds now) trivial
  · exact hs.sheds (spendInitToken_sheds now)

theorem PairingInv.connectionReadResumes (hs : PairingInv opts acl₀ s)
    (frame : E2eRelayToBurrowFrame) (epoch : Nat) (challenge : Bytes) (now : Ms) :
    PairingInv opts acl₀ (s.connectionReadResumes opts frame epoch challenge now) := by
  unfold BurrowRuntime.connectionReadResumes
  split
  · exact hs
  · split
    · exact hs
    · exact hs.challengesThenTask _ trivial

theorem PairingInv.onPendingConnectionFrame (hs : PairingInv opts acl₀ s)
    (frame : E2eRelayToBurrowFrame) (pending : PendingConnectionSession) (now : Ms) :
    PairingInv opts acl₀ (s.onPendingConnectionFrame opts frame pending now) := by
  have hreceive := hs.sheds (BurrowRuntime.receive_sheds opts s pending.uid frame.ct)
  unfold BurrowRuntime.onPendingConnectionFrame
  dsimp only
  split
  · exact hreceive.sheds (BurrowRuntime.disposeConnection_sheds _ _ now)
  · exact hreceive
  · split
    · exact hreceive.sheds (BurrowRuntime.denyConnection_sheds opts _ _ _ _ now)
    · exact hreceive.challengesThenTask _ trivial
  · exact hreceive.sheds (BurrowRuntime.denyConnection_sheds opts _ _ _ _ now)

theorem PairingInv.onConnectionTransport (hs : PairingInv opts acl₀ s)
    (frame : E2eRelayToBurrowFrame) (replies : Nat → List Json) (now : Ms) :
    PairingInv opts acl₀ (s.onConnectionTransport opts frame replies now) := by
  unfold BurrowRuntime.onConnectionTransport
  split
  · exact hs
  · split
    · exact hs.sheds (BurrowRuntime.onEstablishedFrame_sheds opts s _ _ _ replies now)
    · split
      · exact hs
      · exact hs.onPendingConnectionFrame frame _ now

theorem PairingInv.drainFrames (hs : PairingInv opts acl₀ s) (replies : Nat → List Json)
    (now : Ms) : PairingInv opts acl₀ (s.drainFrames opts replies now) := by
  unfold BurrowRuntime.drainFrames
  split
  · exact hs
  split
  · exact hs.sheds ⟨rfl, rfl, rfl, rfl, rfl, Nat.le_refl _, id, id⟩
  next frame chars rest hframes =>
    have hshift : PairingInv opts acl₀
        { s with frames := rest, frameChars := s.frameChars - chars } :=
      hs.sheds ⟨rfl, rfl, rfl, rfl, rfl, Nat.le_refl _, id, id⟩
    split
    · exact hshift.sheds (BurrowRuntime.onClientGone_sheds opts _ _ now)
    unfold BurrowRuntime.onE2e
    split
    · exact (hshift.sheds (BurrowRuntime.reap_sheds opts _ now)).onPairingInit _ _ now
    · exact hshift.onPairingTransport _ now
    · exact (hshift.sheds (BurrowRuntime.reap_sheds opts _ now)).onConnectionInit _ _ now
    · exact hshift.onConnectionTransport _ replies now

theorem PairingInv.taskResumes (hs : PairingInv opts acl₀ s) (draws : BurrowRuntime.Draws Key)
    (now : Ms) : PairingInv opts acl₀ (s.taskResumes opts draws now) := by
  unfold BurrowRuntime.taskResumes
  split
  · exact hs
  next task htask =>
    have hknows := hs.task task htask
    have hdone : PairingInv opts acl₀ { s with task := none } := hs.setTask fun _ h => by cases h
    cases task with
    | pairingHandshake frame epoch held =>
      exact hdone.pairingHandshakeResumes rfl hknows _ _ now
    | pairingPresence frame pending request => exact hdone.pairingPresenceResumes hknows
    | connectionRead frame epoch => exact hdone.connectionReadResumes frame epoch _ now
    | connectionWrite frame epoch handshake challenge expiresAt =>
      exact hdone.sheds (BurrowRuntime.connectionWriteResumes_sheds opts _ _ _ _ _ _ _ now)
    | connectionPresence frame pending proof challengeValid =>
      exact hdone.sheds (BurrowRuntime.connectionPresenceResumes_sheds opts _ _ _ _ _ now)

/-! ### Every run -/

theorem PairingInv.step (hs : PairingInv opts acl₀ s) (act : Act Key) :
    PairingInv opts acl₀ (s.next opts act) := by
  cases act with
  | start => exact hs.sheds (BurrowRuntime.start_sheds s)
  | stop now => exact hs.sheds (BurrowRuntime.stop_sheds s now)
  | socketOpens socket now => exact hs.sheds (BurrowRuntime.onOpen_sheds opts s socket now)
  | socketReceives socket raw now =>
    exact hs.sheds (BurrowRuntime.onMessage_sheds opts s socket raw now)
  | socketCloses socket code now =>
    exact hs.sheds (BurrowRuntime.onSocketClose_sheds opts s socket code now)
  | reconnectFires => exact hs.sheds (BurrowRuntime.onReconnectTimer_sheds s)
  | reaperFires now => exact hs.sheds (BurrowRuntime.onReaperTimer_sheds opts s now)
  | drain replies now => exact hs.drainFrames replies now
  | resume draws now => exact hs.taskResumes draws now
  | mint setupToken relayExpiresAtMs =>
    exact hs.sheds ⟨rfl, rfl, rfl, rfl, rfl, Nat.le_refl _, id, id⟩
  | mintResumes index keyPair inviteId now => exact hs.mintResumes index keyPair inviteId now
  | approve clientId pairingId code now => exact hs.approvePairing clientId pairingId code now
  | deny clientId pairingId now =>
    exact hs.sheds (BurrowRuntime.denyPairing_sheds opts s clientId pairingId now)
  | saveStarts deliveryId now => exact hs.saveStarts deliveryId now
  | saveSettles succeeded now => exact hs.saveSettles succeeded now
  | apiSends index payload => exact hs.sheds (BurrowRuntime.apiSends_sheds opts s index payload)

theorem PairingInv.construct (opts : BurrowOptions Key) (records : List BurrowAclRecord)
    (now : Ms) :
    PairingInv opts (.load opts.burrowId records) (.construct opts records now) where
  history := .nil
  fresh := fun _ he => by cases he
  held := fun _ _ hget => by cases hget
  pairing := fun _ _ hp => by cases hp
  task := fun _ htask => by cases htask
  jobs := fun _ hjob => by cases hjob
  jobsOnce := List.nodup_nil
  next := fun _ hv => by cases hv
  serial := rfl
  acl := rfl

/-- **The invariant is inductive.** -/
theorem pairing_inductive (opts : BurrowOptions Key) (records : List BurrowAclRecord) :
    (runtime opts records).Inductive (PairingInv opts (.load opts.burrowId records)) where
  init := by
    rintro s ⟨now, rfl⟩
    exact .construct opts records now
  step := by
    intro s t act hs ht
    exact ht ▸ hs.step act

/-! ### The ACL -/

namespace BurrowRuntime

theorem acl_mintResumes (index : Nat) (keyPair : Option (NoiseKeyPair Key)) (inviteId : JsString)
    (now : Ms) : (s.mintResumes opts index keyPair inviteId now).acl = s.acl := by
  have hroom : ∀ t : BurrowRuntime Key,
      Sheds t (evictInvitations (t.reap opts now).invitations.size (t.reap opts now)) := fun t =>
    (reap_sheds opts t now).trans (evictInvitations_sheds _ _)
  unfold mintResumes
  split
  · rfl
  · rfl
  dsimp only
  split
  · rfl
  · unfold insertInvitation
    dsimp only
    split
    · exact (hroom _).acl
    · exact (armReaper_sheds _).acl.trans (hroom _).acl

theorem acl_onE2e (frame : E2eRelayToBurrowFrame) (epoch : Nat) (replies : Nat → List Json)
    (now : Ms) : (s.onE2e opts frame epoch replies now).acl = s.acl := by
  unfold onE2e
  split
  · refine Eq.trans ?_ (reap_sheds opts s now).acl
    unfold onPairingInit
    split
    · rfl
    · split
      · rfl
      · dsimp only
        split <;> rfl
  · unfold onPairingTransport
    split
    · rfl
    next p hp =>
      have hreceive := receive_sheds opts s p.uid frame.ct
      have hended := fun denial =>
        (hreceive.trans (finishPairing_sheds opts _ frame.clientId denial)).acl
      split
      · rfl
      split
      · exact (finishPairing_sheds opts s _ _).acl
      dsimp only
      split
      · exact (hreceive.trans (disposePairing_sheds _ _ _)).acl
      · exact hreceive.acl
      split
      · exact hreceive.acl
      · split
        · split
          · exact hreceive.acl
          · exact hended .burrowError
        · exact hended .burrowError
  · refine Eq.trans ?_ (reap_sheds opts s now).acl
    unfold onConnectionInit
    dsimp only
    split <;> rfl
  · unfold onConnectionTransport
    split
    · rfl
    split
    · exact (onEstablishedFrame_sheds opts s _ _ _ replies now).acl
    split
    · rfl
    next pending _ =>
      have hreceive := receive_sheds opts s pending.uid frame.ct
      unfold onPendingConnectionFrame
      dsimp only
      split
      · exact (hreceive.trans (disposeConnection_sheds _ _ now)).acl
      · exact hreceive.acl
      · split
        · exact (hreceive.trans (denyConnection_sheds opts _ _ _ _ now)).acl
        · exact hreceive.acl
      · exact (hreceive.trans (denyConnection_sheds opts _ _ _ _ now)).acl

theorem acl_drainFrames (replies : Nat → List Json) (now : Ms) :
    (s.drainFrames opts replies now).acl = s.acl := by
  unfold drainFrames
  split
  · rfl
  split
  · rfl
  · dsimp only
    split
    · exact (onClientGone_sheds opts _ _ now).acl
    · exact acl_onE2e ..

theorem acl_taskResumes (draws : Draws Key) (now : Ms) :
    (s.taskResumes opts draws now).acl = s.acl := by
  unfold taskResumes
  split
  · rfl
  next task _ =>
    cases task with
    | pairingHandshake frame epoch held =>
      dsimp only
      unfold pairingHandshakeResumes
      split
      · rfl
      split
      · rfl
      · dsimp only
        refine (sendE2e_sheds _ _ _ _ _ _).acl.trans ((armReaper_sheds _).acl.trans ?_)
        rw [installPairing_eq, reserve_eq]
        exact (displacePairings_sheds opts _ _).acl
    | pairingPresence frame pending request =>
      dsimp only
      unfold pairingPresenceResumes
      split
      · rfl
      split
      · exact (finishPairing_sheds opts _ _ _).acl
      · unfold setApproval
        dsimp only
        rw [editClient_eq]
        rfl
    | connectionRead frame epoch =>
      dsimp only
      unfold connectionReadResumes
      split
      · rfl
      · split <;> rfl
    | connectionWrite frame epoch handshake challenge expiresAt =>
      exact (connectionWriteResumes_sheds opts _ _ _ _ _ _ _ now).acl
    | connectionPresence frame pending proof challengeValid =>
      exact (connectionPresenceResumes_sheds opts _ _ _ _ _ now).acl

theorem acl_approvePairing (clientId : ClientId) (pairingId code : JsString) (now : Ms) :
    (s.approvePairing opts clientId pairingId code now).acl = s.acl := by
  unfold approvePairing
  split
  · rfl
  next p _ =>
    have hattempt : (s.attempt clientId p code).acl = s.acl := by rw [attempt_eq]
    have hended := fun denial =>
      ((finishPairing_sheds opts (s.attempt clientId p code) clientId denial).acl).trans hattempt
    split
    · rfl
    split
    · rfl
    split
    · exact hattempt
    split
    · exact hended .invitationExpired
    · split
      · exact hended .burrowError
      · split
        · exact hended .confirmationMismatch
        · exact hattempt

theorem acl_saveStarts (deliveryId : JsString) (now : Ms) :
    (s.saveStarts opts deliveryId now).acl = s.acl := by
  unfold saveStarts
  split
  · dsimp only
    split
    · rfl
    split
    · exact (finishPairing_sheds opts _ _ _).acl
    · rw [BurrowAcl.fromRecords_records]
      unfold write
      rw [setCommitting_eq]
  · rfl

/-- A failed save leaves the live ACL as it was. -/
theorem acl_saveFails (v : Saving) (now : Ms) : (s.saveFails opts v now).acl = s.acl := by
  unfold saveFails
  dsimp only
  split
  · rfl
  · refine (reap_sheds opts _ now).acl.trans ((finishPairing_sheds opts _ _ _).acl.trans ?_)
    rw [setCommitting_eq]

/-- **Only a save that succeeds changes the ACL.** -/
theorem acl_next {act : Act Key} (hact : ∀ now, act ≠ .saveSettles true now) :
    (s.next opts act).acl = s.acl := by
  cases act with
  | start => exact (start_sheds s).acl
  | stop now => exact (stop_sheds s now).acl
  | socketOpens socket now => exact (onOpen_sheds opts s socket now).acl
  | socketReceives socket raw now => exact (onMessage_sheds opts s socket raw now).acl
  | socketCloses socket code now => exact (onSocketClose_sheds opts s socket code now).acl
  | reconnectFires => exact (onReconnectTimer_sheds s).acl
  | reaperFires now => exact (onReaperTimer_sheds opts s now).acl
  | drain replies now => exact acl_drainFrames replies now
  | resume draws now => exact acl_taskResumes draws now
  | mint setupToken relayExpiresAtMs => rfl
  | mintResumes index keyPair inviteId now => exact acl_mintResumes index keyPair inviteId now
  | approve clientId pairingId code now => exact acl_approvePairing clientId pairingId code now
  | deny clientId pairingId now => exact (denyPairing_sheds opts s clientId pairingId now).acl
  | saveStarts deliveryId now => exact acl_saveStarts deliveryId now
  | saveSettles succeeded now =>
    cases succeeded with
    | true => exact absurd rfl (hact now)
    | false =>
      show (s.saveSettles opts false now).acl = s.acl
      unfold saveSettles
      split
      · rfl
      · exact acl_saveFails _ now
  | apiSends index payload => exact (apiSends_sheds opts s index payload).acl

end BurrowRuntime

/-! ### Safety -/

/-- The invitation a record was written on. -/
def wroteOn : Event Key → Option Nat
  | .wrote p _ _ _ => some p.inviteUid
  | _ => none

/-- What a run has made of the ACL `acl₀` it began with. -/
structure PairingSafe (opts : BurrowOptions Key) (acl₀ : BurrowAcl) (s : BurrowRuntime Key) :
    Prop where
  /-- Every event, the writing of a record included, rests on what came before it. -/
  ceremonies : Preceded (Justified opts) s.history
  /-- One invitation, one record. -/
  once : (s.history.filterMap wroteOn).Nodup
  /-- The store is handed the writes one at a time, each snapshot extending the live ACL. -/
  serial : s.history.filterMap writtenOf =
    s.history.filterMap settledOf ++ (s.saving.map fun v => (v.client, v.approvedAt)).toList
  snapshot : ∀ v, s.saving = some v → v.next = s.acl.approve v.client v.approvedAt
  /-- The live ACL is the first one with every saved record approved, failed ones not. -/
  acl : s.acl = (s.history.filterMap savedOf).foldl (fun acl c => acl.approve c.1 c.2) acl₀
  /-- No record is lost: a later approval may revoke one, never drop it. -/
  kept : s.acl.records.map BurrowAclRecord.asWritten =
    acl₀.records.map BurrowAclRecord.asWritten ++
      (s.history.filterMap savedOf).map fun c => BurrowAcl.recordOf acl₀.burrowId c.1 c.2

theorem foldl_approve_asWritten (clients : List (ApprovedClient × Ms)) (acl : BurrowAcl) :
    ((clients.foldl (fun acl c => acl.approve c.1 c.2) acl).records.map
        BurrowAclRecord.asWritten) =
      acl.records.map BurrowAclRecord.asWritten ++
        clients.map fun c => BurrowAcl.recordOf acl.burrowId c.1 c.2 := by
  induction clients generalizing acl with
  | nil => simp
  | cons c clients ih =>
    rw [List.foldl_cons, ih, BurrowAcl.approve_asWritten, BurrowAcl.approve_burrowId,
      List.append_assoc, List.map_cons, List.singleton_append]

theorem PairingInv.safe (hs : PairingInv opts acl₀ s) : PairingSafe opts acl₀ s where
  ceremonies := hs.history
  once := hs.history.nodup wroteOn (by
    intro before e k hJ hk e' he' hk'
    cases e with
    | wrote p approval client at_ =>
      cases e' with
      | wrote p' approval' client' at_' =>
        exact hJ.once p' approval' client' at_' he' (Option.some.inj (hk'.trans hk.symm))
      | _ => cases hk'
    | _ => cases hk)
  serial := hs.serial
  snapshot := hs.next
  acl := hs.acl
  kept := by rw [hs.acl, foldl_approve_asWritten]

/-- What a suite whose every hash is the same makes of anything. -/
def plainHash : Bytes := List.replicate 32 7

/-- A platform that authenticates nothing, and reads any control message as the one
request below. -/
def plainPlatform (request clientData : Json) (frame : JsString → Json) : Platform Unit where
  suite := {
    sha256 := fun _ => plainHash
    hmacSha256 := fun _ _ => plainHash
    deriveBits := fun _ _ => some plainHash
    aead := {
      encrypt := fun _ _ _ plaintext => plaintext ++ List.replicate 16 0
      decrypt := fun _ _ _ ciphertext =>
        if ciphertext.length = 17 then some (2 :: 1 :: List.replicate 4095 0)
        else some (ciphertext.take (ciphertext.length - 16)) } }
  importSpki := fun _ => some fun _ _ => true
  importPkcs8 := fun _ => some ()
  json := {
    stringify := fun _ => []
    parse := fun text => some (if text = [1] then request else clientData)
    isObject := fun _ => true }
  parseJson := fun raw => some (frame raw)

def plainBurrowId : JsString := js "AAAAAAAAAAAAAAAAAAAAAA"

def plainInviteId : JsString := js "BBBBBBBBBBBBBBBBBBBBBB"

def plainPresence (binding : List (JsString × Json)) : Json :=
  .object [(js "binding", .object binding), (js "relayNonce", .string (js "AAAA")),
    (js "accountId", .string (js "account")), (js "passkeyCredentialId", .string (js "cred")),
    (js "passkeyPublicKey", .string (js "AAAA")),
    (js "assertion", .object [(js "credentialId", .string (js "cred")),
      (js "clientDataJSON", .string (js "AA")),
      (js "authenticatorData", .string (toBase64Url (plainHash ++ [1, 0, 0, 0, 0]))),
      (js "signature", .string (toBase64Url [0x30, 6, 2, 1, 1, 2, 1, 1]))])]

def plainClientData : Json :=
  .object [(js "type", .string (js "webauthn.get")),
    (js "challenge", .string (toBase64Url plainHash)), (js "origin", .string (js "origin"))]

def plainPairingRequest : Json :=
  .object [(js "code", .string (js "42")), (js "label", .string (js "phone")),
    (js "presence", plainPresence [(js "kind", .string (js "pairing")),
      (js "burrowId", .string plainBurrowId),
      (js "handshakeHash", .string (toBase64Url plainHash)),
      (js "passkeyCredentialId", .string (js "cred"))])]

/-- The frames of one ceremony: an empty message stands for its `init`. -/
def plainFrame (kind id raw : JsString) : Json :=
  .object [(js "t", .string (js "e2e")), (js "clientId", .string (js "client")),
    (js "burrowId", .string plainBurrowId), (js "kind", .string kind), (js "id", .string id),
    (js "step", .string (if raw = [] then js "init" else js "transport")),
    (js "ct", .string (toBase64Url (List.replicate (if raw = [] then 96 else 17) 0)))]

def plainOptions (platform : Platform Unit) : BurrowOptions Unit where
  platform := platform
  burrowId := plainBurrowId
  policy := ⟨js "relay", js "origin", false⟩
  label := none
  noiseStaticPrivateKey := some (js "AAAA")
  noiseStaticPublicKey := some (toBase64Url plainHash)
  reconnect := true
  createSession := true

def plainPairing : BurrowOptions Unit :=
  plainOptions (plainPlatform plainPairingRequest plainClientData
    (plainFrame (js "pairing") plainInviteId))

/-- A pairing from the minted invitation to the saved record. -/
def plainPairingRun : List (Act Unit) :=
  [.start, .mint (js "token") 100000, .mintResumes 0 (some ⟨(), plainHash⟩) plainInviteId 0,
    .socketReceives 0 (some []) 0, .drain (fun _ => []) 0,
    .resume ⟨some ⟨(), plainHash⟩, js "pairing", []⟩ 0,
    .socketReceives 0 (some [1]) 0, .drain (fun _ => []) 0, .resume ⟨none, [], []⟩ 0,
    .approve (js "client") (js "pairing") (js "42") 0, .saveStarts (js "delivery") 1,
    .saveSettles true 2]

end Dormouse.Burrow
