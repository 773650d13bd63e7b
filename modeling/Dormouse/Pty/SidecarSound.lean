import Dormouse.Pty.WindowSound

/-!
# Dormouse.Pty.SidecarSound

The **invariant of the sidecar**, and what is said of both hosts: in every run in which nothing
of an earlier process comes while a later one is current, the two stay apart. Otherwise the
later one is recorded as dead while it runs.
-/

namespace Dormouse.Pty

namespace Sidecar

variable {s : Sidecar} {id id' : JsString} {n p : Nat} {exitCode : Int}

/-! ### The invariant -/

/-- What is kept for replay ends what the process that holds the id has printed. -/
def Kept (core : PtyCore) (l : Ledger) : Prop :=
  ∀ id p, core.ptys.get id = some p → (∃ stage, l.processes.get p = some ⟨id, stage⟩) ∧
    ∃ session, core.sessions.get id = some session ∧ session.joined <:+ l.outputOf p

/-- The exit of process `p` that has not been sent yet, if there is one. -/
def due (pending : Option (Nat × Int)) (p : Nat) : List Int :=
  (pending.filter fun e => e.1 = p).toList.map (·.2)

/-- All but what is kept for replay, while one exit is still to be sent. -/
structure Known (bridge : SurfaceBridge) (core : PtyCore) (l : Ledger)
    (pending : Option (Nat × Int)) : Prop where
  ledger : l.Sound
  sinks : ∀ id, l.Listening id (bridge.sinksOf id)
  parser : ∀ id n, l.current.get id = some n → (bridge.ownerStream id).fed.flatten <:+ l.outputOf n
  ptys : ∀ id n, l.current.get id = some n → due pending n = [] → core.ptys.get id = some n
  reports : ∀ n process, l.processes.get n = some process →
    l.reportsOf n ++ due pending n = process.stage.exitCode?.toList
  unknown : ∀ n, l.processes.get n = none → l.outputOf n = [] ∧ l.reportsOf n = []

structure Sound (s : Sidecar) : Prop where
  known : Known s.bridge s.core s.ledger none
  kept : Kept s.core s.ledger
  replay : s.core.replay = true

@[simp] theorem due_none : due none n = [] := rfl

theorem due_some : due (some (p, exitCode)) n = if p = n then [exitCode] else [] := by
  by_cases h : p = n <;> simp [due, Option.filter, h]

variable {bridge : SurfaceBridge} {core : PtyCore} {l : Ledger} {pending : Option (Nat × Int)}

/-! ### The bridge -/

theorem sinks_ownerStream : (bridge.ownerStream id).sinks = bridge.sinksOf id := by
  unfold SurfaceBridge.ownerStream SurfaceBridge.sinksOf
  cases bridge.streams.get id <;> rfl

theorem ownerStream_set {streams : InsertionMap JsString OwnerStream} {stream : OwnerStream}
    {exits : InsertionMap JsString Int} :
    (SurfaceBridge.mk (streams.set id stream) exits).ownerStream id' =
      if id = id' then stream else (SurfaceBridge.mk streams exits).ownerStream id' := by
  unfold SurfaceBridge.ownerStream
  rw [InsertionMap.get_set]
  split <;> rfl

theorem ownerStream_delete {streams : InsertionMap JsString OwnerStream}
    {exits : InsertionMap JsString Int} :
    (SurfaceBridge.mk (streams.delete id) exits).ownerStream id' =
      if id = id' then .create else (SurfaceBridge.mk streams exits).ownerStream id' := by
  unfold SurfaceBridge.ownerStream
  rw [InsertionMap.get_delete]
  split <;> rfl

/-! ### What is sent -/

theorem Known.delivered (h : Known bridge core l none) {data : JsString} {stage : Stage}
    (hp : l.processes.get p = some ⟨id, stage⟩) (htimely : l.timely p id) :
    Known (bridge.onData id data).1 core (l.delivered p data (bridge.onData id data).2) none := by
  have hother : ∀ id' n, l.current.get id' = some n → id ≠ id' → p ≠ n := fun id' n hn hne heq =>
    hne (h.ledger.id_eq hp (heq ▸ hn))
  have hsinks : ∀ id', l.Listening id' ((bridge.onData id data).1.sinksOf id') := fun id' => by
    rw [← sinks_ownerStream, SurfaceBridge.onData, ownerStream_set]
    split
    · rename_i hid
      subst hid
      rw [OwnerStream.write, sinks_ownerStream]
      exact h.sinks id
    · exact sinks_ownerStream ▸ h.sinks id'
  exact {
    ledger := by
      have hattached : l.AttachedTo id (bridge.onData id data).2 := by
        rw [SurfaceBridge.onData, sinks_ownerStream]
        exact (h.sinks id).2.1
      exact h.ledger.delivered hattached htimely
    sinks := fun id' => (hsinks id').of_append rfl fun _ _ => Ledger.toldTo_delivered
    parser := fun id' n hn => by
      have hn : l.current.get id' = some n := hn
      obtain ⟨front, hfront⟩ := h.parser id' n hn
      rw [Ledger.outputOf_delivered, SurfaceBridge.onData, ownerStream_set, ← hfront]
      by_cases hid : id = id'
      · subst hid
        rw [if_pos rfl, if_pos (Ledger.timely_iff.1 htimely n hn).symm]
        exact ⟨front, by simp [OwnerStream.write]⟩
      · rw [if_neg hid, if_neg (hother id' n hn hid), List.append_nil]
        exact ⟨front, rfl⟩
    ptys := h.ptys
    reports := fun n process hn => by
      rw [Ledger.reportsOf_delivered]
      exact h.reports n process hn
    unknown := fun n hn => by
      have hne : p ≠ n := fun heq => by
        have hn : l.processes.get n = none := hn
        rw [← heq, hp] at hn
        cases hn
      rw [Ledger.outputOf_delivered, Ledger.reportsOf_delivered, if_neg hne, List.append_nil]
      exact h.unknown n hn }

/-- The exit that was still to be sent. -/
theorem Known.reported (h : Known bridge core l (some (p, exitCode))) {stage : Stage}
    (hp : l.processes.get p = some ⟨id, stage⟩) (htimely : l.timely p id) :
    Known (bridge.onExit id exitCode).1 core
      (l.reported p id exitCode (bridge.onExit id exitCode).2) none := by
  have hsinks : l.Listening id (bridge.onExit id exitCode).2 := h.sinks id
  exact {
    ledger := h.ledger.reported hsinks htimely
    sinks := fun id' => by
      rw [← sinks_ownerStream, SurfaceBridge.onExit, ownerStream_delete]
      split
      · exact Ledger.listening_nil
      · next hid =>
        rw [sinks_ownerStream]
        show Ledger.Listening (l.reported p id exitCode _) id' (bridge.sinksOf id')
        exact h.ledger.listening_reported hsinks hid (h.sinks id')
    parser := fun id' n hn => by
      obtain ⟨hid, hn⟩ := Ledger.current_of_reported htimely hn
      rw [Ledger.outputOf_reported, SurfaceBridge.onExit, ownerStream_delete, if_neg hid]
      exact h.parser id' n hn
    ptys := fun id' n hn _ => by
      obtain ⟨hid, hn⟩ := Ledger.current_of_reported htimely hn
      refine h.ptys id' n hn ?_
      rw [due_some]
      exact if_neg fun heq : p = n => hid (h.ledger.id_eq hp (heq ▸ hn))
    reports := fun n process hn => by
      rw [Ledger.reportsOf_reported, ← due_some, due_none, List.append_nil]
      exact h.reports n process hn
    unknown := fun n hn => by
      have hne : p ≠ n := fun heq => by
        have hn : l.processes.get n = none := hn
        rw [← heq, hp] at hn
        cases hn
      rw [Ledger.outputOf_reported, Ledger.reportsOf_reported, if_neg hne, List.append_nil]
      exact h.unknown n hn }

/-! ### What a step keeps -/

/-- The ledger may go on without printing anything. -/
theorem Kept.of_ledger {l' : Ledger} (h : Kept core l) (hout : ∀ n, l'.outputOf n = l.outputOf n)
    (hprocesses : ∀ p id, (∃ stage, l.processes.get p = some ⟨id, stage⟩) →
      ∃ stage, l'.processes.get p = some ⟨id, stage⟩) : Kept core l' := fun id p hp => by
  obtain ⟨hprocess, session, hsession, hsuffix⟩ := h id p hp
  exact ⟨hprocesses p id hprocess, session, hsession, hout p ▸ hsuffix⟩

theorem Kept.onData (h : Kept core l) (hreplay : core.replay = true) {data : JsString}
    {stage : Stage} {sinks : List Nat} (hp : l.processes.get p = some ⟨id, stage⟩) :
    Kept (core.onData id p data) (l.delivered p data sinks) := fun id' q hq => by
  have hptys : (core.onData id p data).ptys = core.ptys := by
    unfold PtyCore.onData
    split
    · split <;> rfl
    · rfl
  rw [hptys] at hq
  obtain ⟨hprocess, session, hsession, hsuffix⟩ := h id' q hq
  refine ⟨hprocess, ?_⟩
  rw [Ledger.outputOf_delivered]
  by_cases hpq : p = q
  · -- The process holds the id, so the chunk is kept.
    subst hpq
    obtain ⟨stage', hprocess⟩ := hprocess
    rw [hp, Option.some.injEq, Process.mk.injEq] at hprocess
    obtain ⟨rfl, -⟩ := hprocess
    have hguard : (core.replay && core.ptys.get id == some p) = true := by
      rw [hreplay, hq]
      simp
    obtain ⟨front, hfront⟩ := hsuffix
    refine ⟨PtyCore.trimSession (session.push data), ?_, (PtyCore.trimSession_suffix _).trans
      ⟨front, ?_⟩⟩
    · rw [PtyCore.onData, if_pos hguard, hsession]
      exact InsertionMap.get_set_self _ _ _
    · rw [ChunkBuffer.joined_push, if_pos rfl, ← hfront, List.append_assoc]
  · rw [if_neg hpq, List.append_nil]
    refine ⟨session, ?_, hsuffix⟩
    unfold PtyCore.onData
    split
    · rename_i hguard
      have hholds : core.ptys.get id = some p := by
        rw [Bool.and_eq_true, beq_iff_eq] at hguard
        exact hguard.2
      have hid : id ≠ id' := fun heq => by
        subst heq
        rw [hholds, Option.some.injEq] at hq
        exact hpq hq
      split
      · exact (InsertionMap.get_set_ne _ _ hid).trans hsession
      · exact hsession
    · exact hsession

theorem Sound.data (h : s.Sound) {data : JsString} (htimely : s.timely (.data p data) = true) :
    (s.perform (.data p data)).Sound := by
  rw [perform]
  unfold timely at htimely
  split
  · exact h
  rename_i id hrunning
  dsimp only at htimely
  rw [hrunning] at htimely
  have hp := Window.running?_eq_some.1 hrunning
  exact {
    known := by
      have hkept : Known (s.bridge.onData id data).1 s.core
          (s.ledger.delivered p data (s.bridge.onData id data).2) none :=
        h.known.delivered hp htimely
      have hptys : (s.core.onData id p data).ptys = s.core.ptys := by
        unfold PtyCore.onData
        split
        · split <;> rfl
        · rfl
      exact { hkept with
        ptys := fun id' n hn hdue => by
          show (s.core.onData id p data).ptys.get id' = some n
          rw [hptys]
          exact hkept.ptys id' n hn hdue }
    kept := h.kept.onData h.replay hp
    replay := by
      show (s.core.onData id p data).replay = true
      unfold PtyCore.onData
      split
      · split <;> exact h.replay
      · exact h.replay }

/-- A process reaches a stage that still has to be told. -/
theorem Known.stage (h : Known bridge core l none) {st st' : Stage}
    (hp : l.processes.get p = some ⟨id, st⟩) (hst : st.exitCode? = none)
    (hst' : st'.exitCode? = (pending.filter fun e => e.1 = p).map (·.2))
    (hpending : ∀ n, p ≠ n → due pending n = []) :
    Known bridge core (l.stage p id st') pending where
  ledger := h.ledger.stage hp
  sinks := h.sinks
  parser := h.parser
  ptys id' n hn hdue := h.ptys id' n hn rfl
  reports n process hn := by
    change (l.processes.set p _).get n = some process at hn
    rw [Ledger.reportsOf_stage]
    rw [InsertionMap.get_set] at hn
    split at hn
    · rename_i hpn
      subst hpn
      cases hn
      have hnone := h.reports p _ hp
      rw [hst, due_none, List.append_nil] at hnone
      rw [hnone, hst', due]
      cases pending.filter fun e => e.1 = p <;> rfl
    · rename_i hpn
      rw [hpending n hpn]
      exact h.reports n process hn
  unknown n hn := by
    change (l.processes.set p _).get n = none at hn
    rw [InsertionMap.get_set] at hn
    split at hn
    · cases hn
    · exact h.unknown n hn

theorem Sound.exit (h : s.Sound) (htimely : s.timely (.exit p exitCode) = true) :
    (s.perform (.exit p exitCode)).Sound := by
  rw [perform]
  unfold timely at htimely
  split
  · exact h
  rename_i id hrunning
  dsimp only at htimely
  rw [hrunning] at htimely
  have htimely : s.ledger.timely p id = true := htimely
  have hp := Window.running?_eq_some.1 hrunning
  have hstaged : Known s.bridge s.core (s.ledger.stage p id (.exited exitCode))
      (some (p, exitCode)) :=
    h.known.stage hp rfl (by simp [Stage.exitCode?, Option.filter]) fun n hn => by
      rw [due_some, if_neg hn]
  have hsent := hstaged.reported (InsertionMap.get_set_self _ _ _) htimely
  have hptys : ∀ id', (s.core.onExit id p).ptys.get id' =
      if id = id' ∧ s.core.ptys.get id = some p then none else s.core.ptys.get id' := fun id' => by
    unfold PtyCore.onExit
    by_cases hholds : s.core.ptys.get id = some p
    · rw [if_pos hholds, InsertionMap.get_delete]
      by_cases hid : id = id'
      · rw [if_pos hid, if_pos ⟨hid, hholds⟩]
      · rw [if_neg hid, if_neg fun hboth => hid hboth.1]
    · rw [if_neg hholds, if_neg fun hboth => hholds hboth.2]
  have hsessions : (s.core.onExit id p).sessions = s.core.sessions := by
    unfold PtyCore.onExit
    split <;> rfl
  exact {
    known := { hsent with
      ptys := fun id' n hn hdue => by
        have hget := hsent.ptys id' n hn hdue
        show (s.core.onExit id p).ptys.get id' = some n
        rw [hptys, if_neg]
        · exact hget
        · rintro ⟨rfl, hholds⟩
          -- The id has no current process any more.
          have hn : (if s.ledger.current.get id = some p then s.ledger.current.delete id
            else s.ledger.current).get id = some n := hn
          split at hn
          · rw [InsertionMap.get_delete_self] at hn
            cases hn
          · rename_i hne
            exact hne (Ledger.timely_iff.1 htimely n hn ▸ hn) }
    kept := fun id' q hq => by
      have hq : (s.core.onExit id p).ptys.get id' = some q := hq
      rw [hptys] at hq
      split at hq
      · cases hq
      · obtain ⟨hprocess, session, hsession, hsuffix⟩ := h.kept id' q hq
        refine ⟨Ledger.known_stage hp hprocess, session, ?_, ?_⟩
        · exact (congrArg (·.get id') hsessions).trans hsession
        · exact (Ledger.outputOf_reported (l := s.ledger.stage p id (.exited exitCode))).symm ▸
            hsuffix
    replay := by
      show (s.core.onExit id p).replay = true
      unfold PtyCore.onExit
      split <;> exact h.replay }

theorem Sound.kill (h : s.Sound) : (s.perform (.kill id)).Sound where
  known := { h.known with
    ledger := h.known.ledger.killed
    parser := fun id' n hn => by
      change (s.ledger.current.delete id).get id' = some n at hn
      exact h.known.parser id' n (InsertionMap.get_of_delete hn).2
    ptys := fun id' n hn hdue => by
      change (s.ledger.current.delete id).get id' = some n at hn
      obtain ⟨hid, hn⟩ := InsertionMap.get_of_delete hn
      exact (InsertionMap.get_delete_ne _ hid).trans (h.known.ptys id' n hn hdue) }
  kept id' q hq := by
    change (s.core.ptys.delete id).get id' = some q at hq
    obtain ⟨hid, hq⟩ := InsertionMap.get_of_delete hq
    obtain ⟨hprocess, session, hsession, hsuffix⟩ := h.kept id' q hq
    exact ⟨hprocess, session, (InsertionMap.get_delete_ne _ hid).trans hsession, hsuffix⟩
  replay := h.replay

theorem Sound.unsubscribe (h : s.Sound) {sink : Nat} :
    (s.perform (.unsubscribe id sink)).Sound := by
  have hstream : ∀ id', (s.bridge.unsubscribe id sink).ownerStream id' = s.bridge.ownerStream id' ∨
      (s.bridge.unsubscribe id sink).ownerStream id' =
        (s.bridge.ownerStream id').unsubscribe sink := fun id' => by
    unfold SurfaceBridge.unsubscribe
    split
    · exact .inl rfl
    rename_i stream hstream
    rw [ownerStream_set]
    split
    · rename_i hid
      subst hid
      exact .inr (by rw [SurfaceBridge.ownerStream, hstream]; rfl)
    · exact .inl rfl
  refine ⟨{ h.known with sinks := fun id' => ?_, parser := fun id' n hn => ?_ }, h.kept, h.replay⟩
  · have hlistening := h.known.sinks id'
    rw [← sinks_ownerStream] at hlistening ⊢
    show s.ledger.Listening id' ((s.bridge.unsubscribe id sink).ownerStream id').sinks
    rcases hstream id' with heq | heq <;> rw [heq]
    · exact hlistening
    · obtain ⟨hnodup, hattached, huntold⟩ := hlistening
      exact ⟨hnodup.filter _, fun t ht => hattached t (List.mem_of_mem_filter ht),
        fun t ht => huntold t (List.mem_of_mem_filter ht)⟩
  · show ((s.bridge.unsubscribe id sink).ownerStream id').fed.flatten <:+ _
    rcases hstream id' with heq | heq <;> rw [heq]
    · exact h.known.parser id' n hn
    · exact h.known.parser id' n hn

theorem Sound.streamPty (h : s.Sound) : (s.perform (.streamPty id)).Sound := by
  have hkept : ∀ told, Kept s.core (s.ledger.attached id told) := fun told =>
    h.kept.of_ledger (fun n => Ledger.outputOf_attached) fun _ _ hp => hp
  have hreports : ∀ told n process, s.ledger.processes.get n = some process →
      (s.ledger.attached id told).reportsOf n ++ due none n = process.stage.exitCode?.toList :=
    fun told n process hn => by
      rw [Ledger.reportsOf_attached]
      exact h.known.reports n process hn
  have hunknown : ∀ told n, s.ledger.processes.get n = none →
      (s.ledger.attached id told).outputOf n = [] ∧ (s.ledger.attached id told).reportsOf n = [] :=
    fun told n hn => by
      rw [Ledger.outputOf_attached, Ledger.reportsOf_attached]
      exact h.known.unknown n hn
  rw [perform]
  cases halive : s.core.hasPty id with
  | true =>
    refine ⟨⟨h.known.ledger.attached (fun hsome => by cases hsome), fun id' => ?_,
      fun id' n hn => ?_, h.known.ptys, hreports none, hunknown none⟩, hkept none, h.replay⟩
    · show Ledger.Listening (s.ledger.attached id none) id' _
      rw [← sinks_ownerStream, SurfaceBridge.streamPty, if_pos rfl, ownerStream_set]
      split
      · rename_i hid
        subst hid
        rw [OwnerStream.subscribe, sinks_ownerStream]
        exact h.known.ledger.listening_concat (h.known.sinks id)
      · exact sinks_ownerStream ▸ h.known.ledger.listening_attached (h.known.sinks id')
    · show (SurfaceBridge.ownerStream _ id').fed.flatten <:+ (s.ledger.attached id none).outputOf n
      rw [SurfaceBridge.streamPty, if_pos rfl, ownerStream_set, Ledger.outputOf_attached]
      split
      · rename_i hid
        exact hid ▸ h.known.parser id' n hn
      · exact h.known.parser id' n hn
  | false =>
    -- The manager has no such PTY, so no process is current.
    have hcurrent : s.ledger.current.get id = none := by
      by_contra hne
      obtain ⟨n, hn⟩ := Option.ne_none_iff_exists'.1 hne
      have hhas : s.core.hasPty id = true := by
        rw [PtyCore.hasPty, InsertionMap.has, h.known.ptys id n hn rfl]
        rfl
      rw [halive] at hhas
      cases hhas
    have hback : (((s.bridge.ownerStream id).subscribe s.ledger.sinks).unsubscribe
        s.ledger.sinks).sinks = s.bridge.sinksOf id := by
      rw [OwnerStream.unsubscribe, OwnerStream.subscribe, sinks_ownerStream]
      exact filter_concat_self fun hmem =>
        Nat.lt_irrefl _ (h.known.ledger.lt (h.known.sinks id).2.1 hmem)
    refine ⟨⟨h.known.ledger.attached fun _ => hcurrent, fun id' => ?_, fun id' n hn => ?_,
      h.known.ptys, hreports _, hunknown _⟩, hkept _, h.replay⟩
    · rw [← sinks_ownerStream]
      unfold SurfaceBridge.streamPty
      dsimp only
      rw [if_neg Bool.false_ne_true]
      have hother : ∀ told, (s.ledger.attached id told).Listening id' (s.bridge.sinksOf id') :=
        fun _ => h.known.ledger.listening_attached (h.known.sinks id')
      split
      · rw [ownerStream_delete]
        split
        · exact Ledger.listening_nil
        · exact sinks_ownerStream ▸ hother _
      rw [ownerStream_set]
      split
      · rename_i hid
        subst hid
        rw [hback]
        exact hother _
      · exact sinks_ownerStream ▸ hother _
    · have hn : s.ledger.current.get id' = some n := hn
      have hid : id ≠ id' := fun heq => by
        rw [← heq, hcurrent] at hn
        cases hn
      show (SurfaceBridge.ownerStream _ id').fed.flatten <:+
        (s.ledger.attached id _).outputOf n
      unfold SurfaceBridge.streamPty
      dsimp only
      rw [if_neg Bool.false_ne_true, Ledger.outputOf_attached]
      split
      · rw [ownerStream_delete, if_neg hid]
        exact h.known.parser id' n hn
      · rw [ownerStream_set, if_neg hid]
        exact h.known.parser id' n hn

/-- The sinks of the process before are told, and the new one is at a stage that may still have
to be told. -/
theorem Known.spawned (h : Known bridge core l none) {core' : PtyCore} {st : Stage}
    (hst : st.exitCode?.toList = due pending l.spawns)
    (hpending : ∀ n, l.spawns ≠ n → due pending n = [])
    (hself : due pending l.spawns = [] → core'.ptys.get id = some l.spawns)
    (hptys : ∀ id', id ≠ id' → core'.ptys.get id' = core.ptys.get id') :
    Known (bridge.onPtySpawn id).1 core'
      (((l.tell (bridge.sinksOf id) exitCode).spawned id).stage l.spawns id st) pending := by
  have hprocesses : ∀ n, (((l.tell (bridge.sinksOf id) exitCode).spawned id).stage l.spawns id
      st).processes.get n = if l.spawns = n then some ⟨id, st⟩ else l.processes.get n := fun n => by
    show ((l.processes.set l.spawns _).set l.spawns _).get n = _
    rw [InsertionMap.get_set]
    split
    · rfl
    · rename_i hne
      exact InsertionMap.get_set_ne _ _ hne
  have hcurrent : ∀ id' n, (l.current.set id l.spawns).get id' = some n →
      id = id' ∧ l.spawns = n ∨ id ≠ id' ∧ l.current.get id' = some n :=
    fun _ _ => InsertionMap.get_of_set
  exact {
    ledger := (h.ledger.respawned (h.sinks id)).stage (InsertionMap.get_set_self _ _ _)
    sinks := fun id' => by
      have hsinks : (bridge.onPtySpawn id).1.sinksOf id' =
          if id = id' then [] else bridge.sinksOf id' := by
        rw [← sinks_ownerStream, SurfaceBridge.onPtySpawn, ownerStream_delete]
        split
        · rfl
        · exact sinks_ownerStream
      rw [hsinks]
      split
      · exact Ledger.listening_nil
      rename_i hid
      refine (h.sinks id').of_append rfl fun sink hs => ?_
      obtain ⟨spawns, hmem⟩ := (h.sinks id').2.1 sink hs
      have hnot := h.ledger.notMem (h.sinks id).2.1 hid hmem
      rw [Ledger.toldTo_stage, Ledger.toldTo_spawned, Ledger.toldTo_tell (h.sinks id).1,
        if_neg hnot, List.append_nil]
    parser := fun id' n hn => by
      rw [Ledger.outputOf_stage, Ledger.outputOf_spawned, Ledger.outputOf_tell,
        SurfaceBridge.onPtySpawn, ownerStream_delete]
      rcases hcurrent id' n hn with ⟨hid, -⟩ | ⟨hid, hn⟩
      · rw [if_pos hid]
        exact List.nil_suffix
      · rw [if_neg hid]
        exact h.parser id' n hn
    ptys := fun id' n hn hdue => by
      rcases hcurrent id' n hn with ⟨rfl, rfl⟩ | ⟨hid, hn⟩
      · exact hself hdue
      · rw [hptys id' hid]
        exact h.ptys id' n hn rfl
    reports := fun n process hn => by
      rw [Ledger.reportsOf_stage, Ledger.reportsOf_spawned, Ledger.reportsOf_tell]
      rw [hprocesses] at hn
      split at hn
      · rename_i heq
        cases hn
        rw [← heq, (h.unknown _ h.ledger.fresh).2, List.nil_append]
        exact hst.symm
      · rename_i hne
        rw [hpending n hne]
        exact h.reports n process hn
    unknown := fun n hn => by
      rw [Ledger.outputOf_stage, Ledger.outputOf_spawned, Ledger.outputOf_tell,
        Ledger.reportsOf_stage, Ledger.reportsOf_spawned, Ledger.reportsOf_tell]
      rw [hprocesses] at hn
      split at hn
      · cases hn
      · exact h.unknown n hn }

theorem Sound.spawn (h : s.Sound) {helper : Option HelperIdentity} {launched : Launch} :
    (s.perform (.spawn id helper launched)).Sound := by
  -- The ledger once the sinks before have been told and the process is at its stage.
  have hledger : ∀ st, ∃ l', l' = ((s.ledger.tell (s.bridge.onPtySpawn id).2.1
      (s.bridge.onPtySpawn id).2.2).spawned id).stage s.ledger.spawns id st ∧
      (∀ n, l'.outputOf n = s.ledger.outputOf n) ∧
      l'.processes.get s.ledger.spawns = some ⟨id, st⟩ ∧ l'.timely s.ledger.spawns id = true ∧
      ∀ p id', (∃ stage, s.ledger.processes.get p = some ⟨id', stage⟩) →
        p ≠ s.ledger.spawns ∧ ∃ stage, l'.processes.get p = some ⟨id', stage⟩ := fun st => by
    refine ⟨_, rfl, fun n => ?_, InsertionMap.get_set_self _ _ _, Ledger.timely_iff.2 fun n hn => ?_,
      fun p id' hp => ?_⟩
    · rw [Ledger.outputOf_stage, Ledger.outputOf_spawned, Ledger.outputOf_tell]
    · exact (Option.some.inj ((InsertionMap.get_set_self _ _ _).symm.trans hn)).symm
    · obtain ⟨stage, hp⟩ := hp
      have hne := Nat.ne_of_lt (h.known.ledger.processLt p _ hp)
      refine ⟨hne, stage, ?_⟩
      show ((s.ledger.processes.set s.ledger.spawns _).set s.ledger.spawns _).get p = _
      rw [InsertionMap.get_set_ne _ _ hne.symm, InsertionMap.get_set_ne _ _ hne.symm, hp]
  have hreplay : (s.core.spawn id helper s.ledger.spawns launched).1.replay = true := by
    have hlaunch : ∀ core : PtyCore, (core.launch id s.ledger.spawns launched).1.replay =
        core.replay := fun core => by
      cases launched <;> rfl
    unfold PtyCore.spawn
    split
    · split
      · exact (hlaunch _).trans h.replay
      · exact h.replay
    · exact (hlaunch _).trans h.replay
  rw [perform]
  dsimp only
  rcases s.core.spawn_cases id helper s.ledger.spawns launched with
    ⟨hptys, hsessions, hsent⟩ | ⟨hptys, hsessions, hsent⟩
  · -- Refused, or failed: its exit is sent, and nothing else of it is known to the bridge.
    have hstage : stageAfter (s.core.spawn id helper s.ledger.spawns launched).2 = .exited 1 := by
      rcases hsent with hsent | ⟨message, hsent⟩ <;> rw [hsent] <;>
        simp [stageAfter, List.filterMap_cons, Sent.exitCode?]
    have hsends : ∀ s' : Sidecar, (s.core.spawn id helper s.ledger.spawns launched).2.foldl
        (fun s'' e => s''.send s.ledger.spawns e) s' = s'.send s.ledger.spawns (.exit id 1) :=
      fun s' => by
        rcases hsent with hsent | ⟨message, hsent⟩ <;> rw [hsent] <;> rfl
    obtain ⟨l', hl', hout, hp, htimely, hold⟩ := hledger (.exited 1)
    have hknown : Known (s.bridge.onPtySpawn id).1
        (s.core.spawn id helper s.ledger.spawns launched).1 l' (some (s.ledger.spawns, 1)) := by
      rw [hl']
      refine h.known.spawned ?_ (fun n hn => ?_) (fun hdue => ?_) fun id' _ => by rw [hptys]
      · rw [due_some, if_pos rfl]
        rfl
      · rw [due_some, if_neg hn]
      · rw [due_some, if_pos rfl] at hdue
        cases hdue
    have hkept : Kept (s.core.spawn id helper s.ledger.spawns launched).1 l' := fun id' q hq => by
      rw [hptys] at hq
      obtain ⟨hprocess, session, hsession, hsuffix⟩ := h.kept id' q hq
      exact ⟨(hold q id' hprocess).2, session, by rw [hsessions, hsession], hout q ▸ hsuffix⟩
    rw [hsends, hstage]
    unfold Sidecar.onPtySpawn
    rw [← hl']
    exact ⟨hknown.reported hp htimely,
      hkept.of_ledger (fun n => Ledger.outputOf_reported) fun _ _ hq => hq, hreplay⟩
  · obtain ⟨l', hl', hout, hp, htimely, hold⟩ := hledger .running
    have hstage : stageAfter (s.core.spawn id helper s.ledger.spawns launched).2 = .running := by
      rcases hsent with hsent | ⟨data, hsent⟩ <;> rw [hsent] <;>
        simp [stageAfter, List.filterMap_cons, Sent.exitCode?]
    have hknown : Known (s.bridge.onPtySpawn id).1
        (s.core.spawn id helper s.ledger.spawns launched).1 l' none := by
      rw [hl']
      refine h.known.spawned rfl (fun _ _ => rfl) (fun _ => ?_) fun id' hid => ?_
      · rw [hptys, InsertionMap.get_set_self]
      · rw [hptys, InsertionMap.get_set_ne _ _ hid]
    -- The process that holds the id now has printed nothing that is kept.
    have hkept : ∀ l'', (∀ n, n ≠ s.ledger.spawns → l''.outputOf n = l'.outputOf n) →
        l''.processes = l'.processes →
        Kept (s.core.spawn id helper s.ledger.spawns launched).1 l'' :=
      fun l'' hout' hprocesses id' q hq => by
        rw [hptys, InsertionMap.get_set] at hq
        rw [hprocesses, hsessions]
        split at hq
        · rename_i hid
          subst hid
          cases hq
          exact ⟨⟨.running, hp⟩, .empty, InsertionMap.get_set_self _ _ _, List.nil_suffix⟩
        rename_i hid
        obtain ⟨hprocess, session, hsession, hsuffix⟩ := h.kept id' q hq
        obtain ⟨hne, hprocess⟩ := hold q id' hprocess
        refine ⟨hprocess, session, ?_, ?_⟩
        · rw [InsertionMap.get_set_ne _ _ hid, hsession]
        · rw [hout' q hne, hout q]
          exact hsuffix
    rw [hstage]
    unfold Sidecar.onPtySpawn
    rw [← hl']
    rcases hsent with hsent | ⟨data, hsent⟩ <;> rw [hsent]
    · exact ⟨hknown, hkept l' (fun _ _ => rfl) rfl, hreplay⟩
    · refine ⟨hknown.delivered hp htimely, hkept _ (fun n hn => ?_) rfl, hreplay⟩
      refine Ledger.outputOf_delivered.trans ?_
      rw [if_neg hn.symm, List.append_nil]

theorem sound_create : create.Sound where
  known := {
    ledger := Ledger.sound_create
    sinks := fun _ => Ledger.listening_nil
    parser := fun _ _ h => by cases h
    ptys := fun _ _ h => by cases h
    reports := fun _ _ h => by cases h
    unknown := fun _ _ => ⟨rfl, rfl⟩ }
  kept _ _ h := by cases h
  replay := rfl

theorem sound_perform (h : s.Sound) {act : SidecarAct} (htimely : s.timely act = true) :
    (s.perform act).Sound := by
  cases act with
  | spawn id helper launched => exact h.spawn
  | kill id => exact h.kill
  | data p data => exact h.data htimely
  | exit p exitCode => exact h.exit htimely
  | streamPty id => exact h.streamPty
  | unsubscribe id sink => exact h.unsubscribe

theorem inductive_sound : timelySidecarRuns.Inductive Sound where
  init h := h ▸ sound_create
  step h hstep := hstep.2 ▸ sound_perform h hstep.1

end Sidecar

/-! ### Apart -/

theorem Window.Sound.apart {w : Window} (h : w.Sound) : w.Apart where
  toApart := h.ledger.toApart
  status id n hn := (h.own id n hn).status
  scrollback id n hn text htext := by
    obtain ⟨entry, hentry, -, -, hholds⟩ := (h.own id n hn).entry
    rw [PtyManager.getScrollback, hentry] at htext
    dsimp only at htext
    split at htext
    · cases htext
    · exact Option.some.inj htext ▸ hholds.scrollback
  replay id n hn text htext := by
    obtain ⟨entry, hentry, -, -, hholds⟩ := (h.own id n hn).entry
    rw [PtyManager.getReplayData, hentry] at htext
    dsimp only at htext
    split at htext
    · cases htext
    · exact Option.some.inj htext ▸ hholds.replay
  parser id n hn := (h.own id n hn).parser
  reports := h.piped.reports

theorem Sidecar.Sound.apart {s : Sidecar} (h : s.Sound) : s.Apart where
  toApart := h.known.ledger.toApart
  ptys id n hn := h.known.ptys id n hn rfl
  replay id n hn text htext := by
    obtain ⟨id', -, hsome⟩ := List.mem_filterMap.1 htext
    obtain ⟨session, hsession, heq⟩ := Option.map_eq_some_iff.1 hsome
    cases heq
    obtain ⟨-, session', hsession', hsuffix⟩ := h.kept id n hn
    rw [hsession, Option.some.injEq] at hsession'
    exact hsession' ▸ hsuffix
  parser := h.known.parser
  reports n process hn := by
    have hreports := h.known.reports n process hn
    rwa [Sidecar.due_none, List.append_nil] at hreports

/-- Processes of one id are kept apart in a window, and in the sidecar, in every run in which
nothing of an earlier process comes while a later one is current. -/
theorem processes_apart (w : Window) (s : Sidecar) :
    (timelyWindowRuns.Reachable w → w.Apart) ∧ (timelySidecarRuns.Reachable s → s.Apart) :=
  ⟨fun hw => (Window.inductive_sound.reachable hw).apart,
    fun hs => (Sidecar.inductive_sound.reachable hs).apart⟩

/-! ### Runs -/

/-- The window after a run. -/
def Window.after (w : Window) (acts : List WindowAct) : Window := acts.foldl Window.perform w

/-- The sidecar after a run. -/
def Sidecar.after (s : Sidecar) (acts : List SidecarAct) : Sidecar := acts.foldl Sidecar.perform s

/-- Whether nothing comes too late in a whole run. -/
def Window.timelyRun (w : Window) : List WindowAct → Bool
  | [] => true
  | act :: acts => w.timely act && (w.perform act).timelyRun acts

def Sidecar.timelyRun (s : Sidecar) : List SidecarAct → Bool
  | [] => true
  | act :: acts => s.timely act && (s.perform act).timelyRun acts

theorem Window.reachable_after {w : Window} (acts : List WindowAct) (h : windowRuns.Reachable w) :
    windowRuns.Reachable (w.after acts) :=
  h.foldl (fun _ _ => rfl) acts

theorem Sidecar.reachable_after {s : Sidecar} (acts : List SidecarAct)
    (h : sidecarRuns.Reachable s) : sidecarRuns.Reachable (s.after acts) :=
  h.foldl (fun _ _ => rfl) acts

theorem Window.reachable_timelyRun {w : Window} (acts : List WindowAct)
    (h : timelyWindowRuns.Reachable w) (hacts : w.timelyRun acts = true) :
    timelyWindowRuns.Reachable (w.after acts) := by
  induction acts generalizing w with
  | nil => exact h
  | cons act acts ih =>
    rw [timelyRun, Bool.and_eq_true] at hacts
    exact ih (.next h ⟨hacts.1, rfl⟩) hacts.2

theorem Sidecar.reachable_timelyRun {s : Sidecar} (acts : List SidecarAct)
    (h : timelySidecarRuns.Reachable s) (hacts : s.timelyRun acts = true) :
    timelySidecarRuns.Reachable (s.after acts) := by
  induction acts generalizing s with
  | nil => exact h
  | cons act acts ih =>
    rw [timelyRun, Bool.and_eq_true] at hacts
    exact ih (.next h ⟨hacts.1, rfl⟩) hacts.2

/-- A killed process whose exit comes before the id is spawned again. -/
theorem processes_apart_respawned :
    (Window.create.after [.spawn [0x61] none none, .handle (.started none), .kill [0x61],
      .handle (.started none), .exit 0 0, .deliver, .spawn [0x61] none none,
      .handle (.started none), .streamPty [0x61], .data 1 [0x62], .deliver]).Apart ∧
    (Sidecar.create.after [.spawn [0x61] none (.started none), .kill [0x61], .exit 0 0,
      .spawn [0x61] none (.started none), .streamPty [0x61], .data 1 [0x62]]).Apart :=
  ⟨(processes_apart _ .create).1 (Window.reachable_timelyRun _ (.start rfl) (by decide)),
    (processes_apart .create _).2 (Sidecar.reachable_timelyRun _ (.start rfl) (by decide))⟩

/-- A killed process whose exit comes when the id has been spawned again: the window records the
new process as dead, and the sidecar tells the new process's sink of an exit, while it runs. -/
theorem late_exit :
    (∃ w, windowRuns.Reachable w ∧ w.ledger.current.get [0x61] = some 1 ∧
      w.ledger.processes.get 1 = some ⟨[0x61], .running⟩ ∧
        w.host.manager.getPtyStatus [0x61] = some ⟨false, some 0⟩) ∧
    ∃ s, sidecarRuns.Reachable s ∧ s.ledger.current.get [0x61] = some 1 ∧
      s.ledger.processes.get 1 = some ⟨[0x61], .running⟩ ∧
        Event.attached 0 [0x61] 2 ∈ s.ledger.history ∧ s.ledger.toldTo 0 = [0] :=
  ⟨⟨_, Window.reachable_after [.spawn [0x61] none none, .handle (.started none), .kill [0x61],
      .handle (.started none), .spawn [0x61] none none, .handle (.started none), .exit 0 0,
      .deliver] (.start rfl), by decide, by decide, by decide⟩,
    ⟨_, Sidecar.reachable_after [.spawn [0x61] none (.started none), .kill [0x61],
      .spawn [0x61] none (.started none), .streamPty [0x61], .exit 0 0] (.start rfl),
      by decide, by decide, by decide, by decide⟩⟩

end Dormouse.Pty
