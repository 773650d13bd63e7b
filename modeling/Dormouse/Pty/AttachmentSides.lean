import Dormouse.Pty.Streams

/-!
# Dormouse.Pty.AttachmentSides

Each host is a product of machines, **one for each id**. What an event does to the machine of its
id is said once, and the others stand still.
-/

namespace Dormouse.Pty

variable {id id' : JsString} {sink : Nat}

/-! ### The extension host, one id at a time -/

/-- What the extension host keeps under an id. -/
structure WindowSide where
  status : Option PtyStatus
  killed : Bool
  stream : OwnerStream
  registered : List Nat

/-- A sink leaves its parser; one that is nobody's any more goes with its last sink. -/
def WindowSide.stopChunks (v : WindowSide) (sink : Nat) : OwnerStream :=
  if sink ∈ v.stream.sinks then
    if (v.stream.unsubscribe sink).sinks.isEmpty && v.status.map (·.alive) != some true then .create
    else v.stream.unsubscribe sink
  else v.stream

namespace ExtensionHost

variable {host : ExtensionHost}

def side (host : ExtensionHost) (id : JsString) : WindowSide where
  status := host.manager.getPtyStatus id
  killed := id ∈ host.manager.killedPtyIds
  stream := host.getOwnerPtyStream id
  registered := (host.streams.get id).getD []

theorem side_spawn (shell : Option JsString) : (host.spawn id shell).side id' =
    if id = id' then ⟨some ⟨true, none⟩, false, .create, (host.side id').registered⟩
    else host.side id' := by
  by_cases h : id = id'
  · subst h
    simp [side, spawn, retireStream, PtyManager.spawn, PtyManager.getPtyStatus, getOwnerPtyStream,
      createBufferEntry]
  · have h' : id' ≠ id := fun heq => h heq.symm
    simp [side, spawn, retireStream, PtyManager.spawn, PtyManager.getPtyStatus, getOwnerPtyStream,
      InsertionMap.get_set, InsertionMap.get_delete, h, h']

theorem side_kill : (host.kill id).side id' =
    if id = id' then ⟨none, true, .create, (host.side id').registered⟩ else host.side id' := by
  by_cases h : id = id'
  · subst h
    simp [side, kill, retireStream, PtyManager.kill, PtyManager.getPtyStatus, getOwnerPtyStream]
  · have h' : id' ≠ id := fun heq => h heq.symm
    simp [side, kill, retireStream, PtyManager.kill, PtyManager.getPtyStatus, getOwnerPtyStream,
      InsertionMap.get_delete, h, h']

theorem side_onData (data : JsString) : (host.onData id data).1.side id' =
    if id = id' then
      { host.side id' with
        status := if (host.side id').killed then (host.side id').status
          else some ((host.side id').status.getD ⟨true, none⟩)
        stream := (host.side id').stream.write data }
    else host.side id' := by
  by_cases h : id = id'
  · subst h
    by_cases hkilled : id ∈ host.manager.killedPtyIds
    · simp [side, onData, PtyManager.bufferData, hkilled, getOwnerPtyStream]
    · cases hget : host.manager.ptyBuffers.get id <;>
        simp [side, onData, PtyManager.bufferData, PtyManager.getPtyStatus, hkilled, hget,
          getOwnerPtyStream, createBufferEntry, PtyBufferEntry.buffer]
  · by_cases hkilled : id ∈ host.manager.killedPtyIds <;>
      simp [side, onData, PtyManager.bufferData, PtyManager.getPtyStatus, hkilled,
        getOwnerPtyStream, InsertionMap.get_set, h]

theorem side_onExit (exitCode : Int) : (host.onExit id exitCode).1.side id' =
    if id = id' then
      ⟨if (host.side id').killed then (host.side id').status else some ⟨false, some exitCode⟩,
        (host.side id').killed, .create, []⟩
    else host.side id' := by
  by_cases h : id = id'
  · subst h
    by_cases hkilled : id ∈ host.manager.killedPtyIds
    · simp [side, onExit, PtyManager.bufferExit, hkilled, getOwnerPtyStream]
    · cases hget : host.manager.ptyBuffers.get id <;>
        simp [side, onExit, PtyManager.bufferExit, PtyManager.getPtyStatus, hkilled, hget,
          getOwnerPtyStream, createBufferEntry]
  by_cases hkilled : id ∈ host.manager.killedPtyIds
  · simp [side, onExit, PtyManager.bufferExit, hkilled, getOwnerPtyStream,
      InsertionMap.get_delete, h]
  · cases hget : host.manager.ptyBuffers.get id <;>
      simp [side, onExit, PtyManager.bufferExit, PtyManager.getPtyStatus, hkilled, hget,
        getOwnerPtyStream, InsertionMap.get_set, InsertionMap.get_delete, h]

theorem stopChunks_manager : (host.stopChunks id sink).manager = host.manager := by
  unfold stopChunks
  split
  · rfl
  · split
    · dsimp only
      split <;> rfl
    · rfl

theorem getOwnerPtyStream_stopChunks : (host.stopChunks id sink).getOwnerPtyStream id' =
    if id = id' then (host.side id').stopChunks sink else host.getOwnerPtyStream id' := by
  by_cases h : id = id'
  · subst h
    rw [if_pos rfl]
    unfold ExtensionHost.stopChunks WindowSide.stopChunks side
    cases hget : host.ownerPtyStreams.get id with
    | none => simp [getOwnerPtyStream, hget, OwnerStream.create]
    | some stream =>
      by_cases hmem : sink ∈ stream.sinks
      · by_cases hlast : (stream.unsubscribe sink).sinks.isEmpty &&
            (host.manager.getPtyStatus id).map (·.alive) != some true
        · simp [getOwnerPtyStream, hget, hmem, hlast, retireStream]
        · simp [getOwnerPtyStream, hget, hmem, hlast]
      · simp [getOwnerPtyStream, hget, hmem]
  · rw [if_neg h]
    unfold ExtensionHost.stopChunks
    split
    · rfl
    split
    · dsimp only
      split
      · simp [getOwnerPtyStream, retireStream, InsertionMap.get_delete, h]
      · simp [getOwnerPtyStream, InsertionMap.get_set, h]
    · rfl

theorem side_unsubscribe : (host.unsubscribe id sink).side id' =
    if id = id' ∧ sink ∈ (host.side id').registered then
      { host.side id' with
        stream := (host.side id').stopChunks sink
        registered := (host.side id').registered.filter (· ≠ sink) }
    else host.side id' := by
  unfold unsubscribe
  cases hget : host.streams.get id with
  | none =>
    rw [if_neg]
    rintro ⟨heq, hmem⟩
    subst heq
    simp [side, hget] at hmem
  | some sinks =>
    dsimp only
    by_cases hmem : sink ∈ sinks
    · rw [if_pos hmem]
      have hstreams : ∀ id', (((if (sinks.filter (· ≠ sink)).isEmpty then host.streams.delete id
          else host.streams.set id (sinks.filter (· ≠ sink))) :
            InsertionMap JsString (List Nat)).get id').getD [] =
          if id = id' then sinks.filter (· ≠ sink) else (host.streams.get id').getD [] := by
        intro id'
        by_cases hempty : (sinks.filter (· ≠ sink)).isEmpty
        · rw [if_pos hempty, InsertionMap.get_delete, List.isEmpty_iff.1 hempty]
          split <;> rfl
        · rw [if_neg hempty, InsertionMap.get_set]
          split <;> rfl
      unfold side
      rw [hstreams]
      rw [stopChunks_manager]
      show WindowSide.mk _ _ ((host.stopChunks id sink).getOwnerPtyStream id') _ = _
      rw [getOwnerPtyStream_stopChunks]
      by_cases h : id = id'
      · subst h
        simp [side, hget, hmem]
      · simp [h]
    · rw [if_neg hmem, if_neg]
      rintro ⟨heq, hmem'⟩
      subst heq
      simp [side, hget] at hmem'
      exact hmem hmem'

/-- `streamPty`, before it inspects the record. -/
def subscribe (host : ExtensionHost) (id : JsString) (sink : Nat) : ExtensionHost :=
  { host with
    streams := host.streams.set id ((host.streams.get id).getD [] ++ [sink])
    ownerPtyStreams := host.ownerPtyStreams.set id ((host.getOwnerPtyStream id).subscribe sink) }

theorem side_subscribe : (host.subscribe id sink).side id' =
    if id = id' then
      { host.side id' with
        stream := (host.side id').stream.subscribe sink
        registered := (host.side id').registered ++ [sink] }
    else host.side id' := by
  by_cases h : id = id'
  · subst h
    simp [side, subscribe, getOwnerPtyStream]
    rfl
  · simp [side, subscribe, getOwnerPtyStream, InsertionMap.get_set, h]
    rfl

/-- A sink that comes to a PTY that is alive stays. -/
theorem streamPty_alive {exitCode : Option Int}
    (h : (host.side id).status = some ⟨true, exitCode⟩) :
    host.streamPty id sink = (host.subscribe id sink, none) := by
  have h : host.manager.getPtyStatus id = some ⟨true, exitCode⟩ := h
  unfold streamPty
  rw [h]
  rfl

/-- A sink that comes too late is told at once. -/
theorem streamPty_dead (h : ∀ status, (host.side id).status = some status → status.alive = false) :
    host.streamPty id sink = ((host.subscribe id sink).unsubscribe id sink,
      some (((host.side id).status.bind (·.exitCode)).getD 0)) := by
  unfold streamPty
  split
  · rename_i hstatus
    exact absurd (h _ hstatus) Bool.noConfusion
  · rfl

theorem side_streamPty_ne (h : id ≠ id') :
    (host.streamPty id sink).1.side id' = host.side id' := by
  unfold streamPty
  split
  · exact side_subscribe.trans (if_neg h)
  · exact (side_unsubscribe.trans (if_neg fun hboth => h hboth.1)).trans
      (side_subscribe.trans (if_neg h))

theorem side_streamPty_dead
    (h : ∀ status, (host.side id).status = some status → status.alive = false)
    (hsinks : (host.side id).stream.sinks = []) (hfresh : sink ∉ (host.side id).registered) :
    ((host.subscribe id sink).unsubscribe id sink).side id' =
      if id = id' then { host.side id' with stream := .create } else host.side id' := by
  have hdead : ((host.side id).status.map (·.alive) != some true) = true := by
    cases hstatus : (host.side id).status with
    | none => rfl
    | some status => simp [h status hstatus]
  have hfilter : (host.side id).registered.filter (· ≠ sink) = (host.side id).registered :=
    List.filter_eq_self.2 fun sink' hsink' => decide_eq_true fun heq => hfresh (heq ▸ hsink')
  rw [side_unsubscribe, side_subscribe]
  by_cases heq : id = id'
  · subst heq
    rw [if_pos rfl, if_pos ⟨rfl, List.mem_append_right _ (List.mem_singleton_self _)⟩]
    simp only [List.filter_append, hfilter]
    simp [WindowSide.stopChunks, OwnerStream.subscribe, OwnerStream.unsubscribe, hsinks, hdead]
  · simp [heq]

end ExtensionHost

/-! ### The bridge, one id at a time -/

/-- What the bridge keeps under an id. -/
structure BridgeSide where
  stream : OwnerStream
  exit : Option Int

namespace SurfaceBridge

variable {bridge : SurfaceBridge}

def side (bridge : SurfaceBridge) (id : JsString) : BridgeSide where
  stream := bridge.ownerStream id
  exit := bridge.exits.get id

theorem sinksOf_eq : bridge.sinksOf id = (bridge.side id).stream.sinks := by
  unfold sinksOf side ownerStream
  cases bridge.streams.get id <;> rfl

theorem side_onPtySpawn : (bridge.onPtySpawn id).1.side id' =
    if id = id' then ⟨.create, none⟩ else bridge.side id' := by
  by_cases h : id = id'
  · subst h
    simp [side, onPtySpawn, ownerStream]
  · simp [side, onPtySpawn, ownerStream, InsertionMap.get_delete, h]

theorem side_onData (data : JsString) : (bridge.onData id data).1.side id' =
    if id = id' then { bridge.side id' with stream := (bridge.side id').stream.write data }
    else bridge.side id' := by
  by_cases h : id = id'
  · subst h
    simp [side, onData, ownerStream]
  · simp [side, onData, ownerStream, InsertionMap.get_set, h]

theorem side_onExit (exitCode : Int) : (bridge.onExit id exitCode).1.side id' =
    if id = id' then ⟨.create, some exitCode⟩ else bridge.side id' := by
  by_cases h : id = id'
  · subst h
    simp [side, onExit, ownerStream]
  · simp [side, onExit, ownerStream, InsertionMap.get_set, InsertionMap.get_delete, h]

theorem side_unsubscribe : (bridge.unsubscribe id sink).side id' =
    if id = id' then { bridge.side id' with stream := (bridge.side id').stream.unsubscribe sink }
    else bridge.side id' := by
  unfold unsubscribe
  cases hget : bridge.streams.get id with
  | none =>
    by_cases h : id = id'
    · subst h
      simp [side, ownerStream, hget, OwnerStream.create, OwnerStream.unsubscribe]
    · simp [h]
  | some stream =>
    by_cases h : id = id'
    · subst h
      simp [side, ownerStream, hget]
    · simp [side, ownerStream, InsertionMap.get_set, h]

/-- A sink that comes to a PTY that is alive stays. -/
theorem streamPty_alive : (bridge.streamPty true id sink).2 = none ∧
    ∀ id', (bridge.streamPty true id sink).1.side id' =
      if id = id' then ⟨(bridge.side id').stream.subscribe sink, none⟩ else bridge.side id' := by
  refine ⟨rfl, fun id' => ?_⟩
  by_cases h : id = id'
  · subst h
    simp [side, streamPty, ownerStream]
  · simp [side, streamPty, ownerStream, InsertionMap.get_set, InsertionMap.get_delete, h]

/-- A sink that comes too late is told at once; whoever else is there stays. -/
theorem streamPty_dead (hfresh : sink ∉ (bridge.side id).stream.sinks) :
    (bridge.streamPty false id sink).2 = some ((bridge.side id).exit.getD 0) ∧
      ((bridge.streamPty false id sink).1.side id).stream.sinks =
        (bridge.side id).stream.sinks := by
  have hsinks : (((bridge.ownerStream id).subscribe sink).unsubscribe sink).sinks =
      (bridge.side id).stream.sinks := by
    have hfilter : (bridge.ownerStream id).sinks.filter (· ≠ sink) = (bridge.ownerStream id).sinks :=
      List.filter_eq_self.2 fun sink' hsink' => decide_eq_true fun heq => hfresh (heq ▸ hsink')
    simp only [OwnerStream.subscribe, OwnerStream.unsubscribe, List.filter_append, hfilter]
    simp [side]
  refine ⟨rfl, ?_⟩
  unfold streamPty
  dsimp only
  rw [if_neg Bool.false_ne_true, ← hsinks]
  split
  · rename_i hempty
    rw [List.isEmpty_iff.1 hempty]
    simp [side, ownerStream, OwnerStream.create]
  · simp [side, ownerStream]

theorem side_streamPty_ne {alive : Bool} (h : id ≠ id') :
    (bridge.streamPty alive id sink).1.side id' = bridge.side id' := by
  cases alive with
  | true => exact (streamPty_alive.2 id').trans (if_neg h)
  | false =>
    unfold streamPty
    dsimp only
    rw [if_neg Bool.false_ne_true]
    split <;> simp [side, ownerStream, InsertionMap.get_set, InsertionMap.get_delete, h]

end SurfaceBridge

end Dormouse.Pty
