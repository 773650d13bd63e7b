import Dormouse.Pty.LedgerSound

/-!
# Dormouse.Pty.WindowSound

The **invariant of a window**: while a process is current, the record of its id, both buffers
and the parser are its own, and what is on its way between the extension host and the child
accounts for every exit.
-/

namespace Dormouse.Pty

/-! ### Fewer sinks -/

namespace ExtensionHost

variable {host host' : ExtensionHost} {id id' : JsString} {sink : Nat}

/-- The sinks attached under an id. -/
def sinksOf (host : ExtensionHost) (id : JsString) : List Nat := (host.streams.get id).getD []

/-- What taking sinks out and retiring parsers leaves: the record, and no more sinks. -/
structure Fewer (host' host : ExtensionHost) : Prop where
  manager : host'.manager = host.manager
  sinks : ∀ id, (host'.sinksOf id).Sublist (host.sinksOf id)
  parsed : ∀ id, (host'.getOwnerPtyStream id).sinks ⊆ (host.getOwnerPtyStream id).sinks
  fed : ∀ id, (host'.getOwnerPtyStream id).fed = (host.getOwnerPtyStream id).fed ∨
    (host'.getOwnerPtyStream id).fed = []

theorem Fewer.refl (host : ExtensionHost) : Fewer host host :=
  ⟨rfl, fun _ => List.Sublist.refl _, fun _ => List.Subset.refl _, fun _ => .inl rfl⟩

/-- A parser that goes, or that is left with fewer sinks. -/
theorem fewer_of_owner {streams : InsertionMap JsString OwnerStream}
    (h : ∀ id, (streams.get id).getD .create = host.getOwnerPtyStream id ∨
      (streams.get id).getD .create = .create ∨
      ∃ sink, (streams.get id).getD .create = (host.getOwnerPtyStream id).unsubscribe sink) :
    Fewer { host with ownerPtyStreams := streams } host where
  manager := rfl
  sinks _ := List.Sublist.refl _
  parsed id := by
    show ((streams.get id).getD .create).sinks ⊆ _
    rcases h id with h | h | ⟨sink, h⟩ <;> rw [h]
    · exact List.Subset.refl _
    · exact List.nil_subset _
    · exact List.filter_subset_self _
  fed id := by
    show ((streams.get id).getD .create).fed = _ ∨ ((streams.get id).getD .create).fed = _
    rcases h id with h | h | ⟨sink, h⟩ <;> rw [h]
    · exact .inl rfl
    · exact .inr rfl
    · exact .inl rfl

theorem fewer_retireStream : Fewer (host.retireStream id) host :=
  fewer_of_owner fun id' => by
    rw [InsertionMap.get_delete]
    split
    · exact .inr (.inl rfl)
    · exact .inl rfl

theorem fewer_stopChunks : Fewer (host.stopChunks id sink) host := by
  unfold stopChunks
  split
  · exact Fewer.refl host
  rename_i stream hstream
  split
  · dsimp only
    split
    · exact fewer_retireStream
    refine fewer_of_owner fun id' => ?_
    rw [InsertionMap.get_set]
    split
    · rename_i hid
      refine .inr (.inr ⟨sink, ?_⟩)
      rw [getOwnerPtyStream, ← hid, hstream]
      rfl
    · exact .inl rfl
  · exact Fewer.refl host

theorem fewer_unsubscribe : Fewer (host.unsubscribe id sink) host := by
  unfold unsubscribe
  split
  · exact Fewer.refl host
  rename_i sinks hsinks
  split
  · have h := @fewer_stopChunks host id sink
    refine { h with sinks := fun id' => ?_ }
    have hsub : (sinks.filter (· ≠ sink)).Sublist (host.sinksOf id) := by
      rw [sinksOf, hsinks]
      exact List.filter_sublist
    unfold sinksOf
    dsimp only
    split
    · rw [InsertionMap.get_delete]
      split
      · exact List.nil_sublist _
      · exact List.Sublist.refl _
    · rw [InsertionMap.get_set]
      split
      · rename_i hid
        exact hid ▸ hsub
      · exact List.Sublist.refl _
  · exact Fewer.refl host

end ExtensionHost

/-! ### A window -/

namespace Window

variable {w : Window} {id : JsString} {n p : Nat}

/-- The record, the buffers and the parser of `id` are those of process `n`. -/
structure Own (host : ExtensionHost) (l : Ledger) (id : JsString) (n : Nat) : Prop where
  notKilled : id ∉ host.manager.killedPtyIds
  entry : ∃ entry, host.manager.ptyBuffers.get id = some entry ∧ entry.alive = true ∧
    entry.exitCode = none ∧ entry.Holds (l.outputOf n)
  parser : (host.getOwnerPtyStream id).fed.flatten <:+ l.outputOf n

/-- Who is attached, as the two registries have it. -/
structure Registered (host : ExtensionHost) (l : Ledger) : Prop where
  sinks : ∀ id, l.Listening id (host.sinksOf id)
  parsed : ∀ id, l.AttachedTo id (host.getOwnerPtyStream id).sinks

def Command.spawned? : Command → Option Nat
  | .spawn p _ _ => some p
  | .kill _ => none

/-- What is on its way between the host and the child is about processes that are known. -/
structure Piped (w : Window) : Prop where
  commands : ∀ p id helper, Command.spawn p id helper ∈ w.commands →
    w.ledger.processes.get p = some ⟨id, .launching⟩
  commandsOnce : (w.commands.filterMap Command.spawned?).Nodup
  data : ∀ p id data, (p, Sent.data id data) ∈ w.messages →
    ∃ stage, w.ledger.processes.get p = some ⟨id, stage⟩
  exits : ∀ p id exitCode, (p, Sent.exit id exitCode) ∈ w.messages →
    ∃ stage, w.ledger.processes.get p = some ⟨id, stage⟩
  reports : ∀ n process, w.ledger.processes.get n = some process →
    w.ledger.reportsOf n ++ w.exitsInFlight n = process.stage.exitCode?.toList
  unknown : ∀ n, w.ledger.processes.get n = none →
    w.ledger.outputOf n = [] ∧ w.ledger.reportsOf n = [] ∧ w.exitsInFlight n = []

variable {host host' : ExtensionHost} {l l' : Ledger}

theorem Own.of_fewer (h : Own host l id n) (hhost : host'.Fewer host) : Own host' l id n where
  notKilled := hhost.manager ▸ h.notKilled
  entry := hhost.manager ▸ h.entry
  parser := by
    rcases hhost.fed id with hfed | hfed <;> rw [hfed]
    · exact h.parser
    · exact List.nil_suffix

/-- Nothing else of the ledger matters than what the process has printed. -/
theorem Own.of_output (h : Own host l id n) (hl : l'.outputOf n = l.outputOf n) :
    Own host l' id n where
  notKilled := h.notKilled
  entry := hl ▸ h.entry
  parser := hl ▸ h.parser

theorem Registered.of_fewer (h : Registered host l) (hhost : host'.Fewer host) :
    Registered host' l where
  sinks id := by
    obtain ⟨hnodup, hattached, huntold⟩ := h.sinks id
    have hsub := hhost.sinks id
    exact ⟨hsub.nodup hnodup, fun s hs => hattached s (hsub.subset hs),
      fun s hs => huntold s (hsub.subset hs)⟩
  parsed id s hs := h.parsed id s (hhost.parsed id hs)

theorem Registered.of_append {events : List Event} (h : Registered host l)
    (hl : l'.history = l.history ++ events)
    (htold : ∀ id, ∀ sink ∈ host.sinksOf id, l'.toldTo sink = l.toldTo sink) :
    Registered host l' where
  sinks id := (h.sinks id).of_append hl (htold id)
  parsed id := (h.parsed id).of_append hl

/-! ### What the host does -/

theorem own_spawn {shell : Option JsString} (hout : l.outputOf n = []) :
    Own (host.spawn id shell) l id n where
  notKilled := by simp [ExtensionHost.spawn, PtyManager.spawn]
  entry := ⟨createBufferEntry true none shell, InsertionMap.get_set_self _ _ _, rfl, rfl,
    hout ▸ PtyBufferEntry.holds_create true none shell⟩
  parser := by
    have hnone : (host.spawn id shell).getOwnerPtyStream id = .create := by
      show ((host.ownerPtyStreams.delete id).get id).getD .create = _
      rw [InsertionMap.get_delete_self]
      rfl
    rw [hnone]
    exact List.nil_suffix

variable {id' : JsString}

theorem Own.spawn_ne (h : Own host l id' n) {shell : Option JsString} (hne : id ≠ id') :
    Own (host.spawn id shell) l id' n where
  notKilled := fun hmem => h.notKilled (List.mem_of_mem_filter hmem)
  entry := by
    obtain ⟨entry, hentry, hrest⟩ := h.entry
    exact ⟨entry, (InsertionMap.get_set_ne _ _ hne).trans hentry, hrest⟩
  parser := (h.of_fewer (@ExtensionHost.fewer_retireStream _ id)).parser

theorem Own.kill_ne (h : Own host l id' n) (hne : id ≠ id') : Own (host.kill id) l id' n where
  notKilled := fun hmem => by
    rcases List.mem_cons.1 hmem with heq | hmem
    · exact hne heq.symm
    · exact h.notKilled hmem
  entry := by
    obtain ⟨entry, hentry, hrest⟩ := h.entry
    exact ⟨entry, (InsertionMap.get_delete_ne _ hne).trans hentry, hrest⟩
  parser := (h.of_fewer (@ExtensionHost.fewer_retireStream _ id)).parser

theorem getOwnerPtyStream_onData {data : JsString} :
    (host.onData id data).1.getOwnerPtyStream id' =
      if id = id' then (host.getOwnerPtyStream id).write data else host.getOwnerPtyStream id' := by
  show ((host.ownerPtyStreams.set id _).get id').getD .create = _
  rw [InsertionMap.get_set]
  split <;> rfl

theorem Own.onData_self (h : Own host l id n) {data : JsString} {sinks : List Nat} :
    Own (host.onData id data).1 (l.delivered n data sinks) id n := by
  obtain ⟨entry, hentry, halive, hexit, hholds⟩ := h.entry
  have hout : (l.delivered n data sinks).outputOf n = l.outputOf n ++ data := by simp
  refine ⟨?_, ⟨entry.buffer data, ?_, halive, hexit, hout ▸ hholds.buffer data⟩, ?_⟩
  · show id ∉ (host.manager.bufferData id data).killedPtyIds
    rw [PtyManager.bufferData, if_neg h.notKilled]
    exact h.notKilled
  · show (host.manager.bufferData id data).ptyBuffers.get id = _
    rw [PtyManager.bufferData, if_neg h.notKilled, hentry]
    exact InsertionMap.get_set_self _ _ _
  · obtain ⟨front, hfront⟩ := h.parser
    rw [getOwnerPtyStream_onData, if_pos rfl, hout, ← hfront]
    refine ⟨front, ?_⟩
    simp [OwnerStream.write]

theorem bufferData_ne {m : PtyManager} {data : JsString} (hne : id ≠ id') :
    (m.bufferData id data).ptyBuffers.get id' = m.ptyBuffers.get id' ∧
      (m.bufferData id data).killedPtyIds = m.killedPtyIds := by
  unfold PtyManager.bufferData
  split
  · exact ⟨rfl, rfl⟩
  · exact ⟨InsertionMap.get_set_ne _ _ hne, rfl⟩

theorem bufferExit_ne {m : PtyManager} {exitCode : Int} (hne : id ≠ id') :
    (m.bufferExit id exitCode).ptyBuffers.get id' = m.ptyBuffers.get id' ∧
      (m.bufferExit id exitCode).killedPtyIds = m.killedPtyIds := by
  unfold PtyManager.bufferExit
  split
  · exact ⟨rfl, rfl⟩
  · split
    · exact ⟨InsertionMap.get_set_ne _ _ hne, rfl⟩
    · exact ⟨InsertionMap.get_set_ne _ _ hne, rfl⟩

theorem Own.onData_ne (h : Own host l id' n) {data : JsString} (hne : id ≠ id') :
    Own (host.onData id data).1 l id' n := by
  obtain ⟨hget, hkilled⟩ := @bufferData_ne id id' host.manager data hne
  refine ⟨?_, ?_, ?_⟩
  · exact (show (host.onData id data).1.manager.killedPtyIds = _ from hkilled) ▸ h.notKilled
  · obtain ⟨entry, hentry, hrest⟩ := h.entry
    exact ⟨entry, hget.trans hentry, hrest⟩
  · rw [getOwnerPtyStream_onData, if_neg hne]
    exact h.parser

theorem Own.onExit_ne (h : Own host l id' n) {exitCode : Int} (hne : id ≠ id') :
    Own (host.onExit id exitCode).1 l id' n := by
  obtain ⟨hget, hkilled⟩ := @bufferExit_ne id id' host.manager exitCode hne
  refine ⟨?_, ?_, ?_⟩
  · exact (show (host.onExit id exitCode).1.manager.killedPtyIds = _ from hkilled) ▸ h.notKilled
  · obtain ⟨entry, hentry, hrest⟩ := h.entry
    exact ⟨entry, hget.trans hentry, hrest⟩
  · exact (h.of_fewer (@ExtensionHost.fewer_retireStream _ id)).parser

theorem Own.getReplayData (h : Own host l id' n) : Own (host.getReplayData id) l id' n := by
  obtain ⟨entry, hentry, halive, hexit, hholds⟩ := h.entry
  refine ⟨?_, ?_, h.parser⟩
  · unfold ExtensionHost.getReplayData PtyManager.getReplayData
    split
    · exact h.notKilled
    · split
      · exact h.notKilled
      · exact h.notKilled
  · unfold ExtensionHost.getReplayData PtyManager.getReplayData
    split
    · exact h.entry
    rename_i entry' hentry'
    split
    · exact h.entry
    by_cases hid : id = id'
    · subst hid
      rw [hentry, Option.some.injEq] at hentry'
      subst hentry'
      exact ⟨_, InsertionMap.get_set_self _ _ _, halive, hexit,
        { hholds with replay := List.nil_suffix }⟩
    · exact ⟨entry, (InsertionMap.get_set_ne _ _ hid).trans hentry, halive, hexit, hholds⟩

theorem Own.status (h : Own host l id n) : host.manager.getPtyStatus id = some ⟨true, none⟩ := by
  obtain ⟨entry, hentry, halive, hexit, -⟩ := h.entry
  rw [PtyManager.getPtyStatus, hentry, Option.map_some, halive, hexit]

/-- What `streamPty` has done before it inspects the record. -/
def subscribed (host : ExtensionHost) (id : JsString) (sink : Nat) : ExtensionHost :=
  { host with
    streams := host.streams.set id (host.sinksOf id ++ [sink])
    ownerPtyStreams := host.ownerPtyStreams.set id ((host.getOwnerPtyStream id).subscribe sink) }

/-- What `streamPty` comes to: a sink that is told is taken out again. -/
theorem streamPty_cases (host : ExtensionHost) (id : JsString) (sink : Nat) :
    (host.manager.getPtyStatus id).map (·.alive) = some true ∧
        host.streamPty id sink = (subscribed host id sink, none) ∨
      (host.manager.getPtyStatus id).map (·.alive) ≠ some true ∧
        ∃ exitCode, host.streamPty id sink =
          ((subscribed host id sink).unsubscribe id sink, some exitCode) := by
  unfold ExtensionHost.streamPty
  split
  · rename_i hstatus
    exact .inl ⟨by rw [hstatus]; rfl, rfl⟩
  · rename_i hstatus
    refine .inr ⟨fun halive => ?_, _, rfl⟩
    obtain ⟨⟨alive, exitCode⟩, hsome, rfl⟩ := Option.map_eq_some_iff.1 halive
    exact hstatus exitCode hsome

theorem Own.subscribed (h : Own host l id' n) {sink : Nat} :
    Own (subscribed host id sink) l id' n where
  notKilled := h.notKilled
  entry := h.entry
  parser := by
    have hfed : ((Window.subscribed host id sink).getOwnerPtyStream id').fed =
        (host.getOwnerPtyStream id').fed := by
      show (((host.ownerPtyStreams.set id _).get id').getD .create).fed = _
      rw [InsertionMap.get_set]
      split
      · rename_i hid
        subst hid
        rfl
      · rfl
    rw [hfed]
    exact h.parser

structure Sound (w : Window) : Prop where
  ledger : w.ledger.Sound
  own : ∀ id n, w.ledger.current.get id = some n → Own w.host w.ledger id n
  registered : Registered w.host w.ledger
  piped : w.Piped

theorem getOwnerPtyStream_subscribed {sink : Nat} :
    (subscribed host id sink).getOwnerPtyStream id' =
      if id = id' then (host.getOwnerPtyStream id).subscribe sink
      else host.getOwnerPtyStream id' := by
  show ((host.ownerPtyStreams.set id _).get id').getD .create = _
  rw [InsertionMap.get_set]
  split <;> rfl

theorem sinksOf_subscribed {sink : Nat} : (subscribed host id sink).sinksOf id' =
    if id = id' then host.sinksOf id ++ [sink] else host.sinksOf id' := by
  show ((host.streams.set id _).get id').getD [] = _
  rw [InsertionMap.get_set]
  split <;> rfl

/-- A sink that is taken out at once leaves the registry as it was. -/
theorem sinksOf_unsubscribe_subscribed {sink : Nat} (hsink : sink ∉ host.sinksOf id) :
    ((subscribed host id sink).unsubscribe id sink).sinksOf id' = host.sinksOf id' := by
  have hget : (subscribed host id sink).streams.get id = some (host.sinksOf id ++ [sink]) :=
    InsertionMap.get_set_self _ _ _
  unfold ExtensionHost.unsubscribe
  rw [hget]
  dsimp only
  rw [if_pos (List.mem_append_right _ (List.mem_singleton.2 rfl)), filter_concat_self hsink]
  unfold ExtensionHost.sinksOf
  by_cases hid : id = id'
  · subst hid
    split
    · rename_i hempty
      rw [InsertionMap.get_delete_self]
      exact (List.isEmpty_iff.1 hempty).symm
    · rw [InsertionMap.get_set_self]
      rfl
  · have hne : (subscribed host id sink).streams.get id' = host.streams.get id' :=
      InsertionMap.get_set_ne _ _ hid
    split
    · rw [InsertionMap.get_delete_ne _ hid, hne]
    · rw [InsertionMap.get_set_ne _ _ hid, hne]

theorem Registered.parsed_subscribed (h : Registered host l) (told : Option Int) :
    (l.attached id told).AttachedTo id'
      ((subscribed host id l.sinks).getOwnerPtyStream id').sinks := by
  rw [getOwnerPtyStream_subscribed]
  split
  · rename_i hid
    subst hid
    intro s hs
    rcases List.mem_append.1 hs with hs | hs
    · exact (h.parsed id).of_append rfl s hs
    · rw [List.mem_singleton.1 hs]
      exact ⟨l.spawns, by simp [Ledger.attached]⟩
  · exact (h.parsed id').of_append rfl

theorem Registered.subscribed (h : Registered host l) (hl : l.Sound) :
    Registered (subscribed host id l.sinks) (l.attached id none) where
  sinks id' := by
    rw [sinksOf_subscribed]
    split
    · next hid => exact hid ▸ hl.listening_concat (h.sinks id)
    · exact hl.listening_attached (h.sinks id')
  parsed id' := h.parsed_subscribed none

theorem Registered.told (h : Registered host l) (hl : l.Sound) (exitCode : Int) :
    Registered ((Window.subscribed host id l.sinks).unsubscribe id l.sinks)
      (l.attached id (some exitCode)) where
  sinks id' := by
    rw [sinksOf_unsubscribe_subscribed fun hmem =>
      Nat.lt_irrefl _ (hl.lt (h.sinks id).2.1 hmem)]
    exact hl.listening_attached (h.sinks id')
  parsed id' s hs := by
    have hfewer := @ExtensionHost.fewer_unsubscribe (Window.subscribed host id l.sinks) id l.sinks
    exact h.parsed_subscribed (some exitCode) s (hfewer.parsed id' hs)

/-! ### What a step keeps -/

/-- What is on its way is not affected by what only the sinks see. -/
theorem Piped.of_ledger {w' : Window} (h : w.Piped) (hcommands : w'.commands = w.commands)
    (hmessages : w'.messages = w.messages) (hprocesses : w'.ledger.processes = w.ledger.processes)
    (hout : ∀ n, w'.ledger.outputOf n = w.ledger.outputOf n)
    (hreports : ∀ n, w'.ledger.reportsOf n = w.ledger.reportsOf n) : w'.Piped where
  commands := by
    rw [hcommands, hprocesses]
    exact h.commands
  commandsOnce := hcommands ▸ h.commandsOnce
  data := by
    rw [hmessages, hprocesses]
    exact h.data
  exits := by
    rw [hmessages, hprocesses]
    exact h.exits
  reports n process hn := by
    rw [hreports, exitsInFlight, hmessages]
    exact h.reports n process (hprocesses ▸ hn)
  unknown n hn := by
    rw [hout, hreports, exitsInFlight, hmessages]
    exact h.unknown n (hprocesses ▸ hn)

theorem Sound.of_fewer (h : w.Sound) (hhost : host'.Fewer w.host) : { w with host := host' }.Sound where
  ledger := h.ledger
  own id n hn := (h.own id n hn).of_fewer hhost
  registered := h.registered.of_fewer hhost
  piped := h.piped.of_ledger rfl rfl rfl (fun _ => rfl) (fun _ => rfl)

theorem Sound.getReplayData (h : w.Sound) : (w.perform (.getReplayData id)).Sound where
  ledger := h.ledger
  own id' n hn := (h.own id' n hn).getReplayData
  registered := ⟨h.registered.sinks, h.registered.parsed⟩
  piped := h.piped.of_ledger rfl rfl rfl (fun _ => rfl) (fun _ => rfl)

theorem Sound.streamPty (h : w.Sound) : (w.perform (.streamPty id)).Sound := by
  have hpiped : ∀ host told, Piped { w with host, ledger := w.ledger.attached id told } :=
    fun host told => h.piped.of_ledger rfl rfl rfl (fun n => Ledger.outputOf_attached)
      (fun n => Ledger.reportsOf_attached)
  rcases streamPty_cases w.host id w.ledger.sinks with ⟨-, hcase⟩ | ⟨halive, exitCode, hcase⟩
  · rw [perform, hcase]
    exact {
      ledger := h.ledger.attached fun hsome => by cases hsome
      own := fun id' n hn => ((h.own id' n hn).subscribed).of_output Ledger.outputOf_attached
      registered := h.registered.subscribed h.ledger
      piped := hpiped _ _ }
  -- The record says the id has no live PTY, so no process is current.
  have hcurrent : w.ledger.current.get id = none := by
    by_contra hne
    obtain ⟨n, hn⟩ := Option.ne_none_iff_exists'.1 hne
    exact halive (by rw [(h.own id n hn).status]; rfl)
  rw [perform, hcase]
  exact {
    ledger := h.ledger.attached fun _ => hcurrent
    own := fun id' n hn => (((h.own id' n hn).subscribed).of_fewer
      ExtensionHost.fewer_unsubscribe).of_output Ledger.outputOf_attached
    registered := h.registered.told h.ledger exitCode
    piped := hpiped _ _ }

theorem Sound.spawn (h : w.Sound) {helper : Option HelperIdentity} {shell : Option JsString} :
    (w.perform (.spawn id helper shell)).Sound where
  ledger := h.ledger.spawned
  own id' n hn := by
    change (w.ledger.current.set id w.ledger.spawns).get id' = some n at hn
    rcases InsertionMap.get_of_set hn with ⟨hid, rfl⟩ | ⟨hid, hn⟩
    · exact hid ▸ own_spawn (h.piped.unknown _ h.ledger.fresh).1
    · exact ((h.own id' n hn).spawn_ne hid).of_output rfl
  registered :=
    have hkept := h.registered.of_fewer (@ExtensionHost.fewer_retireStream _ id)
    ⟨hkept.sinks, hkept.parsed⟩
  piped := by
    have hold : ∀ p process, w.ledger.processes.get p = some process →
        (w.ledger.spawned id).processes.get p = some process := fun p process hp =>
      (InsertionMap.get_set_ne _ _ (Nat.ne_of_gt (h.ledger.processLt p process hp))).trans hp
    have hspawns : w.ledger.spawns ∉ w.commands.filterMap Command.spawned? := fun hmem => by
      obtain ⟨command, hcommand, hspawned⟩ := List.mem_filterMap.1 hmem
      cases command with
      | kill id => cases hspawned
      | spawn p id helper =>
        cases hspawned
        have := h.piped.commands _ _ _ hcommand
        rw [h.ledger.fresh] at this
        cases this
    exact {
      commands := fun p id' helper' hmem => by
        rcases List.mem_append.1 hmem with hmem | hmem
        · exact hold p _ (h.piped.commands p id' helper' hmem)
        · cases List.mem_singleton.1 hmem
          exact InsertionMap.get_set_self _ _ _
      commandsOnce := by
        show ((w.commands ++ [_]).filterMap Command.spawned?).Nodup
        rw [List.filterMap_append, List.nodup_append]
        refine ⟨h.piped.commandsOnce, List.nodup_singleton _, fun p hp p' hp' heq => ?_⟩
        exact hspawns (List.mem_singleton.1 hp' ▸ heq ▸ hp)
      data := fun p id' data hmem => by
        obtain ⟨stage, hstage⟩ := h.piped.data p id' data hmem
        exact ⟨stage, hold p _ hstage⟩
      exits := fun p id' exitCode hmem => by
        obtain ⟨stage, hstage⟩ := h.piped.exits p id' exitCode hmem
        exact ⟨stage, hold p _ hstage⟩
      reports := fun n process hn => by
        change (w.ledger.processes.set _ _).get n = some process at hn
        rcases InsertionMap.get_of_set hn with ⟨heq, rfl⟩ | ⟨-, hn⟩
        · obtain ⟨-, hreports, hflight⟩ := h.piped.unknown _ (heq ▸ h.ledger.fresh)
          show w.ledger.reportsOf n ++ w.exitsInFlight n = []
          rw [hreports, hflight, List.nil_append]
        · exact h.piped.reports n process hn
      unknown := fun n hn => by
        change (w.ledger.processes.set _ _).get n = none at hn
        rw [InsertionMap.get_set] at hn
        split at hn
        · cases hn
        · exact h.piped.unknown n hn }

theorem Sound.kill (h : w.Sound) : (w.perform (.kill id)).Sound where
  ledger := h.ledger.killed
  own id' n hn := by
    change (w.ledger.current.delete id).get id' = some n at hn
    obtain ⟨hid, hn⟩ := InsertionMap.get_of_delete hn
    exact ((h.own id' n hn).kill_ne hid).of_output rfl
  registered :=
    have hkept := h.registered.of_fewer (@ExtensionHost.fewer_retireStream _ id)
    ⟨hkept.sinks, hkept.parsed⟩
  piped := { h.piped with
    commands := fun p id' helper hmem => by
      rcases List.mem_append.1 hmem with hmem | hmem
      · exact h.piped.commands p id' helper hmem
      · cases List.mem_singleton.1 hmem
    commandsOnce := by
      show ((w.commands ++ [_]).filterMap Command.spawned?).Nodup
      rw [List.filterMap_append]
      simpa [List.filterMap_cons, Command.spawned?] using h.piped.commandsOnce }

theorem exitsInFlight_concat (sent : List Sent) {w' : Window}
    (hmessages : w'.messages = w.messages ++ sent.map fun e => (p, e)) :
    w'.exitsInFlight n =
      w.exitsInFlight n ++ if p = n then sent.filterMap Sent.exitCode? else [] := by
  rw [exitsInFlight, hmessages, List.filterMap_append, List.filterMap_map]
  congr 1
  by_cases hp : p = n
  · simp [hp]
  · simp [hp]

theorem exitsInFlight_cons {sent : Sent} {messages : List (Nat × Sent)}
    (hmessages : w.messages = (p, sent) :: messages) :
    w.exitsInFlight n = (if p = n then sent.exitCode?.toList else []) ++
      { w with messages := messages }.exitsInFlight n := by
  rw [exitsInFlight, hmessages, List.filterMap_cons, exitsInFlight]
  by_cases hp : p = n
  · cases sent.exitCode? <;> simp [hp]
  · simp [hp]

/-- A process sends, and is at the stage its last exit says. -/
theorem Piped.stage (h : w.Piped) {st : Stage} {sent : List Sent} {w' : Window} {st' : Stage}
    (hp : w.ledger.processes.get p = some ⟨id, st⟩) (hst : st.exitCode? = none)
    (hmessages : w'.messages = w.messages ++ sent.map fun e => (p, e))
    (hcommands : w'.commands.Sublist w.commands)
    (hspawned : p ∉ w'.commands.filterMap Command.spawned?)
    (hledger : w'.ledger = w.ledger.stage p id st')
    (hdata : ∀ id' data, Sent.data id' data ∈ sent → id' = id)
    (hexit : ∀ id' exitCode, Sent.exit id' exitCode ∈ sent → id' = id)
    (hst' : sent.filterMap Sent.exitCode? = st'.exitCode?.toList) : w'.Piped := by
  have hget : ∀ n, w'.ledger.processes.get n =
      if p = n then some ⟨id, st'⟩ else w.ledger.processes.get n := fun n => by
    rw [hledger, Ledger.processes_stage]
  have hold : ∀ n id', (∃ st, w.ledger.processes.get n = some ⟨id', st⟩) →
      ∃ st, w'.ledger.processes.get n = some ⟨id', st⟩ := fun n id' =>
    hledger ▸ Ledger.known_stage hp
  exact {
    commands := fun q id' helper hmem => by
      have hne : p ≠ q := fun heq => hspawned
        (heq ▸ List.mem_filterMap.2 ⟨_, hmem, rfl⟩)
      rw [hget, if_neg hne]
      exact h.commands q id' helper (hcommands.subset hmem)
    commandsOnce := (hcommands.filterMap _).nodup h.commandsOnce
    data := fun q id' data hmem => by
      rw [hmessages] at hmem
      rcases List.mem_append.1 hmem with hmem | hmem
      · exact hold q id' (h.data q id' data hmem)
      · obtain ⟨e, he, heq⟩ := List.mem_map.1 hmem
        cases heq
        exact hdata id' data he ▸ hold p id ⟨st, hp⟩
    exits := fun q id' exitCode hmem => by
      rw [hmessages] at hmem
      rcases List.mem_append.1 hmem with hmem | hmem
      · exact hold q id' (h.exits q id' exitCode hmem)
      · obtain ⟨e, he, heq⟩ := List.mem_map.1 hmem
        cases heq
        exact hexit id' exitCode he ▸ hold p id ⟨st, hp⟩
    reports := fun n process hn => by
      rw [exitsInFlight_concat sent hmessages, ← List.append_assoc, hledger,
        Ledger.reportsOf_stage]
      rw [hget] at hn
      split at hn
      · rename_i hpn
        subst hpn
        cases hn
        rw [h.reports p _ hp, hst, if_pos rfl, hst']
        rfl
      · rename_i hpn
        rw [if_neg hpn, List.append_nil]
        exact h.reports n process hn
    unknown := fun n hn => by
      rw [hget] at hn
      split at hn
      · cases hn
      · rename_i hpn
        rw [exitsInFlight_concat sent hmessages, if_neg hpn, List.append_nil, hledger]
        exact h.unknown n hn }

theorem Sound.handle (h : w.Sound) (launched : Launch) : (w.handle launched).Sound := by
  unfold Window.handle
  split
  · exact h
  · rename_i id commands hcommands
    exact { h with
      piped := { h.piped with
        commands := fun p id' helper hmem =>
          h.piped.commands p id' helper (hcommands ▸ List.mem_cons_of_mem _ hmem)
        commandsOnce := by
          have hnodup := h.piped.commandsOnce
          rw [hcommands] at hnodup
          exact hnodup } }
  · rename_i p id helper commands hcommands
    have hp := h.piped.commands p id helper (hcommands ▸ List.mem_cons_self)
    have honce := h.piped.commandsOnce
    rw [hcommands, List.filterMap_cons_some (show Command.spawned? (.spawn p id helper) = some p
      from rfl), List.nodup_cons] at honce
    obtain ⟨hdata, hexit, hstage⟩ := w.core.spawn_sent id helper p launched
    exact {
      ledger := h.ledger.stage hp
      own := fun id' n hn => (h.own id' n hn).of_output rfl
      registered := ⟨h.registered.sinks, h.registered.parsed⟩
      piped := h.piped.stage hp rfl rfl (hcommands ▸ List.sublist_cons_self _ _) honce.1 rfl hdata
        hexit hstage }

theorem running?_eq_some {l : Ledger} : l.running? p = some id ↔
    l.processes.get p = some ⟨id, .running⟩ := by
  unfold Ledger.running?
  split
  · rename_i id' hp
    simp [hp]
  rename_i hp
  constructor
  · intro h
    cases h
  · intro h
    exact absurd h (hp id)

/-- A process that runs has been launched. -/
theorem Piped.notLaunching (h : w.Piped) (hp : w.ledger.processes.get p = some ⟨id, .running⟩) :
    p ∉ w.commands.filterMap Command.spawned? := fun hmem => by
  obtain ⟨command, hcommand, hspawned⟩ := List.mem_filterMap.1 hmem
  cases command with
  | kill id => cases hspawned
  | spawn q id' helper =>
    cases hspawned
    have := h.commands _ _ _ hcommand
    rw [hp] at this
    cases this

theorem Sound.data (h : w.Sound) {data : JsString} : (w.perform (.data p data)).Sound := by
  rw [perform]
  split
  · exact h
  rename_i id hrunning
  rw [running?_eq_some] at hrunning
  refine ⟨h.ledger, h.own, h.registered, ?_⟩
  exact {
    commands := h.piped.commands
    commandsOnce := h.piped.commandsOnce
    data := fun q id' data' hmem => by
      rcases List.mem_append.1 hmem with hmem | hmem
      · exact h.piped.data q id' data' hmem
      · cases List.mem_singleton.1 hmem
        exact ⟨_, hrunning⟩
    exits := fun q id' exitCode hmem => by
      rcases List.mem_append.1 hmem with hmem | hmem
      · exact h.piped.exits q id' exitCode hmem
      · cases List.mem_singleton.1 hmem
    reports := fun n process hn => by
      rw [exitsInFlight_concat (p := p) [.data id data] rfl]
      simpa [List.filterMap_cons, Sent.exitCode?] using h.piped.reports n process hn
    unknown := fun n hn => by
      rw [exitsInFlight_concat (p := p) [.data id data] rfl]
      simpa [List.filterMap_cons, Sent.exitCode?] using h.piped.unknown n hn }

theorem Sound.exit (h : w.Sound) {exitCode : Int} : (w.perform (.exit p exitCode)).Sound := by
  rw [perform]
  split
  · exact h
  rename_i id hrunning
  rw [running?_eq_some] at hrunning
  have hmessages : w.messages ++ [(p, Sent.exit id exitCode)] =
      w.messages ++ [Sent.exit id exitCode].map fun e => (p, e) := rfl
  exact {
    ledger := h.ledger.stage hrunning
    own := fun id' n hn => (h.own id' n hn).of_output rfl
    registered := ⟨h.registered.sinks, h.registered.parsed⟩
    piped := h.piped.stage hrunning rfl hmessages (List.Sublist.refl _)
      (h.piped.notLaunching hrunning) rfl (fun _ _ hmem => by cases List.mem_singleton.1 hmem)
      (fun _ _ hmem => by cases List.mem_singleton.1 hmem; rfl) rfl }

/-- A message that is taken was about a process that is known. -/
theorem Piped.deliver {w' : Window} {sent : Sent} {messages : List (Nat × Sent)} (h : w.Piped)
    (hmessages : w.messages = (p, sent) :: messages) (hmessages' : w'.messages = messages)
    (hcommands : w'.commands = w.commands) (hprocesses : w'.ledger.processes = w.ledger.processes)
    (hout : ∀ n, w.ledger.processes.get n = none → w'.ledger.outputOf n = w.ledger.outputOf n)
    (hreports : ∀ n, w'.ledger.reportsOf n =
      w.ledger.reportsOf n ++ if p = n then sent.exitCode?.toList else []) : w'.Piped := by
  have hflight : ∀ n, w'.ledger.reportsOf n ++ w'.exitsInFlight n =
      w.ledger.reportsOf n ++ w.exitsInFlight n := fun n => by
    rw [hreports, exitsInFlight_cons hmessages, List.append_assoc, exitsInFlight, hmessages']
    rfl
  exact {
    commands := by
      rw [hcommands, hprocesses]
      exact h.commands
    commandsOnce := hcommands ▸ h.commandsOnce
    data := fun q id data hmem => by
      rw [hprocesses]
      exact h.data q id data (hmessages ▸ List.mem_cons_of_mem _ (hmessages' ▸ hmem))
    exits := fun q id exitCode hmem => by
      rw [hprocesses]
      exact h.exits q id exitCode (hmessages ▸ List.mem_cons_of_mem _ (hmessages' ▸ hmem))
    reports := fun n process hn => by
      rw [hflight]
      exact h.reports n process (hprocesses ▸ hn)
    unknown := fun n hn => by
      rw [hprocesses] at hn
      obtain ⟨houtput, hnone, hnone'⟩ := h.unknown n hn
      have hboth := hflight n
      rw [hnone, hnone', List.append_nil, List.append_eq_nil_iff] at hboth
      exact ⟨(hout n hn).trans houtput, hboth⟩ }

theorem Sound.deliver (h : w.Sound) (htimely : w.timely .deliver = true) : w.deliver.Sound := by
  unfold Window.deliver
  unfold timely at htimely
  split
  · exact h
  · rename_i p id message messages hmessages
    exact { h with
      piped := h.piped.deliver hmessages rfl rfl rfl (fun _ _ => rfl)
        (fun n => by simp [Sent.exitCode?]) }
  · rename_i p id data messages hmessages
    rw [hmessages] at htimely
    obtain ⟨stage, hstage⟩ := h.piped.data p id data (hmessages ▸ List.mem_cons_self)
    have hout : ∀ sinks n, p ≠ n →
        (w.ledger.delivered p data sinks).outputOf n = w.ledger.outputOf n := fun sinks n hne => by
      rw [Ledger.outputOf_delivered, if_neg hne, List.append_nil]
    dsimp only
    exact {
      ledger := h.ledger.delivered (h.registered.parsed id) htimely
      own := fun id' n hn => by
        have hn : w.ledger.current.get id' = some n := hn
        by_cases hid : id = id'
        · subst hid
          exact Ledger.timely_iff.1 htimely n hn ▸ (h.own id n hn).onData_self
        · exact ((h.own id' n hn).onData_ne hid).of_output (hout _ n fun heq =>
            hid (h.ledger.id_eq hstage (heq ▸ hn)))
      registered := by
        have hkept : Registered w.host (w.ledger.delivered p data
            (w.host.getOwnerPtyStream id).sinks) :=
          h.registered.of_append rfl fun _ _ _ => Ledger.toldTo_delivered
        refine ⟨hkept.sinks, fun id' => ?_⟩
        rw [getOwnerPtyStream_onData]
        split
        · rename_i hid
          exact hid ▸ hkept.parsed id
        · exact hkept.parsed id'
      piped := h.piped.deliver hmessages rfl rfl rfl
        (fun n hn => hout _ n fun heq => by rw [← heq, hstage] at hn; cases hn)
        (fun n => by simp [Sent.exitCode?]) }
  · rename_i p id exitCode messages hmessages
    rw [hmessages] at htimely
    dsimp only
    have hsinks : w.ledger.Listening id (w.host.sinksOf id) := h.registered.sinks id
    exact {
      ledger := h.ledger.reported hsinks htimely
      own := fun id' n hn => by
        obtain ⟨hid, hn⟩ := Ledger.current_of_reported htimely hn
        exact ((h.own id' n hn).onExit_ne hid).of_output Ledger.outputOf_reported
      registered := by
        refine ⟨fun id' => ?_, fun id' => ?_⟩
        · show Ledger.Listening _ _ (((w.host.streams.delete id).get id').getD [])
          rw [InsertionMap.get_delete]
          split
          · exact Ledger.listening_nil
          next hid => exact h.ledger.listening_reported hsinks hid (h.registered.sinks id')
        · exact ((h.registered.of_fewer (@ExtensionHost.fewer_retireStream _ id)).parsed
            id').of_append (List.append_assoc _ _ _)
      piped := h.piped.deliver hmessages rfl rfl rfl (fun _ _ => Ledger.outputOf_reported)
        (fun n => by rw [Ledger.reportsOf_reported]; rfl) }

theorem sound_create : create.Sound where
  ledger := Ledger.sound_create
  own _ _ h := by cases h
  registered := ⟨fun _ => Ledger.listening_nil, fun _ _ h => by cases h⟩
  piped := {
    commands := fun _ _ _ h => by cases h
    commandsOnce := List.nodup_nil
    data := fun _ _ _ h => by cases h
    exits := fun _ _ _ h => by cases h
    reports := fun _ _ h => by cases h
    unknown := fun _ _ => ⟨rfl, rfl, rfl⟩ }

theorem sound_perform (h : w.Sound) {act : WindowAct} (htimely : w.timely act = true) :
    (w.perform act).Sound := by
  cases act with
  | spawn id helper shell => exact h.spawn
  | kill id => exact h.kill
  | retireStream id => exact h.of_fewer ExtensionHost.fewer_retireStream
  | streamPty id => exact h.streamPty
  | unsubscribe id sink => exact h.of_fewer ExtensionHost.fewer_unsubscribe
  | getReplayData id => exact h.getReplayData
  | handle launched => exact h.handle launched
  | data p data => exact h.data
  | exit p exitCode => exact h.exit
  | deliver => exact h.deliver htimely

theorem inductive_sound : timelyWindowRuns.Inductive Sound where
  init h := h ▸ sound_create
  step h hstep := hstep.2 ▸ sound_perform h hstep.1

end Window

end Dormouse.Pty
