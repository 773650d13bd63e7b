import Dormouse.Pty.Recovery

/-!
# Dormouse.Pty.RecoverySound

A **recovery command is handed out at most once**, by the host that unlinked its record, and was
found in what its pane's buffers received after the capture had taken its marks.

Two facts carry it. A capture that finds anything runs in a host that has claimed before, so the
record it writes is not read in the same host. And a mark counts what was received under the
entry, so what lies beyond it has been received since.
-/

namespace Dormouse.Pty

open RecoveryWorld

variable {r : Recognizers} {w : RecoveryWorld} {host : RecoveryHost} {c c' : Capture}
  {m m' : PtyManager} {id : JsString} {now : Int}

/-! ### What is received -/

theorem receivedIn_append (id : JsString) (before events : List RecoveryEvent) :
    receivedIn id (before ++ events) = receivedIn id before ++ receivedIn id events :=
  List.flatMap_append

/-- Every buffer ends what was received under its entry. -/
def Held (m : PtyManager) : Prop :=
  ∀ id entry, m.ptyBuffers.get id = some entry → ∃ received, entry.Holds received

/-- What lies beyond the marks of a capture has been received since it began. -/
def Marked (m : PtyManager) (c : Capture) (history : List RecoveryEvent) : Prop :=
  ∃ earlier since, history = earlier ++ .began c.number :: since ∧
    ∀ id mark, c.startMark.get id = some mark → ∀ entry, m.ptyBuffers.get id = some entry →
      ∃ received, entry.Holds received ∧ received.drop mark <:+ receivedIn id since

/-- An entry of `m'` has the buffers of one of `m`, or is new. -/
def Derived (m' m : PtyManager) : Prop :=
  ∀ id entry, m'.ptyBuffers.get id = some entry → entry.Holds [] ∨
    ∃ entry', m.ptyBuffers.get id = some entry' ∧ ∀ received, entry'.Holds received →
      entry.Holds received

theorem derived_spawn (shell : Option JsString) : Derived (m.spawn id shell) m :=
  fun id' entry hentry => by
    change (m.ptyBuffers.set id _).get id' = some entry at hentry
    rw [InsertionMap.get_set] at hentry
    split at hentry
    · cases hentry
      exact .inl (PtyBufferEntry.holds_create true none shell)
    · exact .inr ⟨entry, hentry, fun _ h => h⟩

theorem derived_kill : Derived (m.kill id) m := fun id' entry hentry => by
  change (m.ptyBuffers.delete id).get id' = some entry at hentry
  exact .inr ⟨entry, (InsertionMap.get_of_delete hentry).2, fun _ h => h⟩

theorem derived_bufferExit {exitCode : Int} : Derived (m.bufferExit id exitCode) m :=
  fun id' entry hentry => by
    unfold PtyManager.bufferExit at hentry
    split at hentry
    · exact .inr ⟨entry, hentry, fun _ h => h⟩
    split at hentry
    · dsimp only at hentry
      rw [InsertionMap.get_set] at hentry
      split at hentry
      · cases hentry
        exact .inl (PtyBufferEntry.holds_create false exitCode none)
      · exact .inr ⟨entry, hentry, fun _ h => h⟩
    rename_i entry' hentry'
    rcases InsertionMap.get_of_set hentry with ⟨hid, rfl⟩ | ⟨-, hentry⟩
    · exact .inr ⟨entry', hid ▸ hentry', fun _ h => { h with }⟩
    · exact .inr ⟨entry, hentry, fun _ h => h⟩

theorem Held.of_derived (h : Held m) (hm : Derived m' m) : Held m' := fun id entry hentry => by
  rcases hm id entry hentry with hnew | ⟨entry', hentry', hholds⟩
  · exact ⟨[], hnew⟩
  · obtain ⟨received, hreceived⟩ := h id entry' hentry'
    exact ⟨received, hholds received hreceived⟩

theorem Marked.of_derived {history : List RecoveryEvent} (h : Marked m c history)
    (hm : Derived m' m) : Marked m' c history := by
  obtain ⟨earlier, since, hhistory, hmarks⟩ := h
  refine ⟨earlier, since, hhistory, fun id mark hmark entry hentry => ?_⟩
  rcases hm id entry hentry with hnew | ⟨entry', hentry', hholds⟩
  · exact ⟨[], hnew, by rw [List.drop_nil]; exact List.nil_suffix⟩
  · obtain ⟨received, hreceived, hsince⟩ := hmarks id mark hmark entry' hentry'
    exact ⟨received, hholds received hreceived, hsince⟩

/-- Other events than what is received do not matter. -/
theorem Marked.append {history events : List RecoveryEvent} (h : Marked m c history)
    (hevents : ∀ id, receivedIn id events = []) : Marked m c (history ++ events) := by
  obtain ⟨earlier, since, rfl, hmarks⟩ := h
  refine ⟨earlier, since ++ events, by rw [List.append_assoc, List.cons_append], ?_⟩
  intro id mark hmark entry hentry
  rw [receivedIn_append, hevents, List.append_nil]
  exact hmarks id mark hmark entry hentry

theorem drop_append_suffix {α : Type} {received since : List α} {mark : Nat}
    (h : received.drop mark <:+ since) (data : List α) :
    (received ++ data).drop mark <:+ since ++ data := by
  rw [List.drop_append]
  obtain ⟨front, hfront⟩ := h
  obtain ⟨cut, hcut⟩ := List.drop_suffix (mark - received.length) data
  by_cases hmark : mark ≤ received.length
  · rw [Nat.sub_eq_zero_of_le hmark, List.drop_zero]
    exact ⟨front, by rw [← List.append_assoc, hfront]⟩
  · rw [List.drop_of_length_le (by omega), List.nil_append]
    exact (List.drop_suffix _ data).trans (List.suffix_append since data)

theorem entry_bufferData {data : JsString} {id' : JsString} {entry : PtyBufferEntry}
    (hkilled : id ∉ m.killedPtyIds) (hentry : (m.bufferData id data).ptyBuffers.get id' = some entry) :
    (id = id' ∧ ∃ old, entry = old.buffer data ∧
      (m.ptyBuffers.get id = some old ∨ old.Holds [])) ∨
    (id ≠ id' ∧ m.ptyBuffers.get id' = some entry) := by
  rw [PtyManager.bufferData, if_neg hkilled] at hentry
  rw [InsertionMap.get_set] at hentry
  split at hentry
  · rename_i hid
    refine .inl ⟨hid, _, (Option.some.inj hentry).symm, ?_⟩
    cases hold : m.ptyBuffers.get id with
    | none => exact .inr (PtyBufferEntry.holds_create true none none)
    | some old => exact .inl rfl
  · rename_i hid
    exact .inr ⟨hid, hentry⟩

theorem Held.bufferData (h : Held m) (data : JsString) : Held (m.bufferData id data) := by
  by_cases hkilled : id ∈ m.killedPtyIds
  · rw [PtyManager.bufferData, if_pos hkilled]
    exact h
  intro id' entry hentry
  rcases entry_bufferData hkilled hentry with ⟨-, old, rfl, hold | hnew⟩ | ⟨-, hentry⟩
  · obtain ⟨received, hreceived⟩ := h id old hold
    exact ⟨received ++ data, hreceived.buffer data⟩
  · exact ⟨[] ++ data, hnew.buffer data⟩
  · exact h id' entry hentry

theorem Marked.bufferData {history : List RecoveryEvent} (h : Marked m c history) (data : JsString) :
    Marked (m.bufferData id data) c (history ++
      if id ∈ m.killedPtyIds then [] else [RecoveryEvent.received id data]) := by
  by_cases hkilled : id ∈ m.killedPtyIds
  · rw [PtyManager.bufferData, if_pos hkilled, if_pos hkilled, List.append_nil]
    exact h
  rw [if_neg hkilled]
  obtain ⟨earlier, since, rfl, hmarks⟩ := h
  refine ⟨earlier, since ++ [.received id data], by rw [List.append_assoc, List.cons_append], ?_⟩
  intro id' mark hmark entry hentry
  rw [receivedIn_append]
  rcases entry_bufferData hkilled hentry with ⟨rfl, old, rfl, hold | hnew⟩ | ⟨hne, hentry⟩
  · obtain ⟨received, hreceived, hsince⟩ := hmarks id mark hmark old hold
    refine ⟨received ++ data, hreceived.buffer data, ?_⟩
    have hdata : receivedIn id [.received id data] = data := by simp [receivedIn]
    rw [hdata]
    exact drop_append_suffix hsince data
  · refine ⟨[] ++ data, hnew.buffer data, ?_⟩
    have hdata : receivedIn id [.received id data] = data := by simp [receivedIn]
    rw [hdata, List.nil_append]
    exact (List.drop_suffix _ data).trans (List.suffix_append _ data)
  · have hnone : receivedIn id' [.received id data] = [] := by simp [receivedIn, hne]
    rw [hnone, List.append_nil]
    exact hmarks id' mark hmark entry hentry

/-! ### What is found -/

theorem get_marks (m : PtyManager) (ids : List JsString) {mark : Nat}
    (h : (marks m ids).get id = some mark) : mark = m.getScrollbackReceived id := by
  have hfold : ∀ (ids : List JsString) (ms : InsertionMap JsString Nat),
      (ms.get id = some mark → mark = m.getScrollbackReceived id) →
      (ids.foldl (fun ms id => ms.set id (m.getScrollbackReceived id)) ms).get id = some mark →
        mark = m.getScrollbackReceived id := fun ids => by
    induction ids with
    | nil => exact fun _ hms hget => hms hget
    | cons id' ids ih =>
      refine fun ms hms hget => ih _ (fun hset => ?_) hget
      rw [InsertionMap.get_set] at hset
      split at hset
      · rename_i hid
        rw [← hid]
        exact (Option.some.inj hset).symm
      · exact hms hset
  exact hfold ids .empty (fun hempty => by cases hempty) h

/-- Nothing has been received beyond a mark that has just been taken. -/
theorem marked_start (h : Held m) (number : Nat) (now maxWaitMs : Int)
    (history events : List RecoveryEvent) :
    Marked m (.start number m now maxWaitMs) (history ++ .began number :: events) := by
  refine ⟨history, events, rfl, fun id mark hmark entry hentry => ?_⟩
  obtain ⟨received, hreceived⟩ := h id entry hentry
  have hlength : mark = received.length := by
    rw [get_marks m m.liveIds hmark, PtyManager.getScrollbackReceived, hentry]
    exact hreceived.receivedChars
  exact ⟨received, hreceived, by rw [hlength, List.drop_length]; exact List.nil_suffix⟩

/-- What is detected is detected in what has been received since the capture began. -/
theorem Marked.detected {history : List RecoveryEvent} (h : Marked m c history) {command : JsString}
    (hdetected : Capture.detected r m c id = some command) :
    Justified r history (.found c.number id command) := by
  obtain ⟨earlier, since, hhistory, hmarks⟩ := h
  unfold Capture.detected at hdetected
  split at hdetected
  · cases hdetected
  rename_i output hnil
  rw [Option.filter_eq_some_iff] at hdetected
  refine ⟨earlier, since, c.outputSinceInterrupt m id, hhistory, ?_, hdetected.1⟩
  unfold Capture.outputSinceInterrupt PtyManager.getScrollbackSince
  split
  · exact List.nil_suffix
  rename_i mark hmark
  split
  · exact List.nil_suffix
  · rename_i entry hentry
    obtain ⟨received, hreceived, hsince⟩ := hmarks id mark hmark entry hentry
    exact (hreceived.since_suffix mark).trans hsince

theorem mem_scanPending {found : JsString × JsString} (h : found ∈ (c.scanPending r m).1) :
    Capture.detected r m c found.1 = some found.2 := by
  obtain ⟨id, -, hid⟩ := List.mem_filterMap.1 h
  obtain ⟨command, hcommand, rfl⟩ := Option.map_eq_some_iff.1 hid
  exact hcommand

theorem get_record {found : List (JsString × JsString)} {command : JsString}
    (h : (c.record found).commands.get id = some command) :
    c.commands.get id = some command ∨ (id, command) ∈ found := by
  have hfold : ∀ (found : List (JsString × JsString)) (commands : InsertionMap JsString JsString),
      (found.foldl (fun commands e => commands.set e.1 e.2) commands).get id = some command →
        commands.get id = some command ∨ (id, command) ∈ found := fun found => by
    induction found with
    | nil => exact fun _ hget => .inl hget
    | cons e found ih =>
      intro commands hget
      rcases ih _ hget with hset | hmem
      · rcases InsertionMap.get_of_set hset with ⟨hid, rfl⟩ | ⟨-, hset⟩
        · exact .inr (hid ▸ List.mem_cons_self)
        · exact .inl hset
      · exact .inr (List.mem_cons_of_mem _ hmem)
  exact hfold found c.commands h

/-! ### What a capture keeps -/

/-- The poll goes on with the same marks and commands. -/
structure Continues (c' c : Capture) : Prop where
  number : c'.number = c.number
  startMark : c'.startMark = c.startMark
  commands : c'.commands = c.commands

theorem continues_watch : Continues (c.watch m now) c := by
  unfold Capture.watch
  generalize c.pending = ids
  induction ids generalizing c with
  | nil => exact ⟨rfl, rfl, rfl⟩
  | cons id ids ih =>
    rw [List.foldl_cons]
    dsimp only
    split
    · exact ih
    · exact ⟨ih.number, ih.startMark, ih.commands⟩

theorem continues_poll (h : c.poll now = some c') : Continues c' c := by
  unfold Capture.poll at h
  split at h
  · cases h
    exact ⟨rfl, rfl, rfl⟩
  · cases h

theorem continues_acked (h : c.acked now = some c') : Continues c' c := by
  unfold Capture.acked at h
  split at h
  · cases h
    exact ⟨rfl, rfl, rfl⟩
  · exact continues_poll h
  · have hpoll := continues_poll h
    exact ⟨hpoll.number, hpoll.startMark, hpoll.commands⟩

theorem continues_settle {asked : List JsString} (h : c.settle m asked now = some c') :
    Continues c' c := by
  unfold Capture.settle at h
  split at h
  · cases h
  have hwatch := @continues_watch c m now
  dsimp only at h
  split at h
  · have hpoll := continues_poll h
    exact ⟨hpoll.number.trans hwatch.number, hpoll.startMark.trans hwatch.startMark,
      hpoll.commands.trans hwatch.commands⟩
  · cases h
    exact ⟨hwatch.number, hwatch.startMark, hwatch.commands⟩

theorem Marked.continues {history : List RecoveryEvent} (h : Marked m c history)
    (hnumber : c'.number = c.number) (hstartMark : c'.startMark = c.startMark) :
    Marked m c' history := by
  unfold Marked
  rw [hnumber, hstartMark]
  exact h

/-! ### What is handed out -/

theorem claim_spec (unclaimed : InsertionMap JsString JsString) (ids : List JsString) :
    ((claim unclaimed ids).1.map Prod.fst).Nodup ∧
      (∀ e ∈ (claim unclaimed ids).1, unclaimed.get e.1 = some e.2) ∧
        ∀ id command, (claim unclaimed ids).2.get id = some command →
          unclaimed.get id = some command ∧ id ∉ (claim unclaimed ids).1.map Prod.fst := by
  induction ids generalizing unclaimed with
  | nil => exact ⟨List.nodup_nil, fun _ h => (List.not_mem_nil h).elim,
      fun id command h => ⟨h, List.not_mem_nil⟩⟩
  | cons id ids ih =>
    rw [claim]
    split
    · exact ih unclaimed
    rename_i command hcommand
    obtain ⟨hnodup, hclaimed, hrest⟩ := ih (unclaimed.delete id)
    -- What is claimed later is not the entry that has just left.
    have hlater : ∀ e ∈ (claim (unclaimed.delete id) ids).1,
        id ≠ e.1 ∧ unclaimed.get e.1 = some e.2 := fun e he => by
      have hget := hclaimed e he
      obtain ⟨hne, hget⟩ := InsertionMap.get_of_delete hget
      exact ⟨hne, hget⟩
    refine ⟨List.nodup_cons.2 ⟨fun hmem => ?_, hnodup⟩, fun e he => ?_, fun id' command' h => ?_⟩
    · obtain ⟨e, he, heq⟩ := List.mem_map.1 hmem
      exact (hlater e he).1 heq.symm
    · rcases List.mem_cons.1 he with rfl | he
      · exact hcommand
      · exact (hlater e he).2
    · obtain ⟨hget, hnot⟩ := hrest id' command' h
      obtain ⟨hne, hget⟩ := InsertionMap.get_of_delete hget
      refine ⟨hget, fun hmem => ?_⟩
      rcases List.mem_cons.1 hmem with heq | hmem
      · exact hne heq.symm
      · exact hnot hmem

theorem get_usable {record : PersistedRecovery} {command : JsString}
    (h : (usable record now).get id = some command) :
    record.commands.get id = some (some command) := by
  unfold usable at h
  split at h
  · cases h
  · rw [InsertionMap.get_filterMap, Option.bind_eq_some_iff] at h
    obtain ⟨value, hvalue, heq⟩ := h
    exact hvalue.trans (congrArg some heq)

/-! ### The invariant -/

/-- The capture an event is about. -/
def RecoveryEvent.capture? : RecoveryEvent → Option Nat
  | .began capture | .cleared capture | .found capture .. | .unlinked _ capture
  | .handed _ capture .. => some capture
  | .printed .. | .received .. => none

/-- The record of a capture has not been taken, so nothing of it has been handed out. -/
def Untaken (history : List RecoveryEvent) (capture : Nat) : Prop :=
  ∀ host, RecoveryEvent.unlinked host capture ∉ history

/-- A record is one that may be taken: what it names was found, and it has not been cleared. -/
structure RecordSound (w : RecoveryWorld) (stored : Stored) : Prop where
  lt : stored.capture < w.captures
  untaken : Untaken w.history stored.capture
  kept : ∀ later, RecoveryEvent.cleared later ∈ w.history → later ≤ stored.capture
  found : ∀ id command, stored.record.commands.get id = some (some command) →
    RecoveryEvent.found stored.capture id command ∈ w.history

/-- A capture under way is the last one, in a host that has claimed before. -/
structure CaptureSound (w : RecoveryWorld) (host : RecoveryHost) (c : Capture) : Prop where
  attached : host.attached = true
  last : c.number + 1 = w.captures
  untaken : Untaken w.history c.number
  found : ∀ id command, c.commands.get id = some command →
    RecoveryEvent.found c.number id command ∈ w.history
  marked : Marked host.manager c w.history

/-- What a host holds may still be handed out, and only one that has claimed has PTYs. -/
structure HostSound (w : RecoveryWorld) (host : RecoveryHost) : Prop where
  held : Held host.manager
  claimed : host.attached = true → host.unclaimedRecovery ≠ none
  quiet : host.attached = false → host.printed = [] ∧
    ∀ id entry, host.manager.ptyBuffers.get id = some entry → entry.alive = false
  unclaimed : ∀ left, host.unclaimedRecovery = some left → ∀ id command,
    left.get id = some command →
      RecoveryEvent.unlinked w.number host.readFrom ∈ w.history ∧
        RecoveryEvent.found host.readFrom id command ∈ w.history ∧
          ∀ host' command', RecoveryEvent.handed host' host.readFrom id command' ∉ w.history
  capture : ∀ c, host.capture = some c → CaptureSound w host c

structure RecoverySound (r : Recognizers) (w : RecoveryWorld) : Prop where
  justified : Preceded (Justified r) w.history
  numbers : ∀ e ∈ w.history, ∀ capture, e.capture? = some capture → capture < w.captures
  record : ∀ stored, w.record = some stored → RecordSound w stored
  host : ∀ host, w.host = some host → HostSound w host

theorem recoverySound_create : RecoverySound r create where
  justified := Preceded.nil
  numbers _ h := (List.not_mem_nil h).elim
  record _ h := by cases h
  host _ h := by cases h

/-! ### Frames -/

/-- Events about no capture change nothing that is known of any. -/
theorem RecordSound.append {w' : RecoveryWorld} {stored : Stored} {events : List RecoveryEvent}
    (h : RecordSound w stored) (hhistory : w'.history = w.history ++ events)
    (hcaptures : w.captures ≤ w'.captures)
    (huntaken : ∀ host, RecoveryEvent.unlinked host stored.capture ∉ events)
    (hcleared : ∀ later, RecoveryEvent.cleared later ∉ events) : RecordSound w' stored where
  lt := Nat.lt_of_lt_of_le h.lt hcaptures
  untaken host hmem := by
    rw [hhistory, List.mem_append] at hmem
    exact hmem.elim (h.untaken host) (huntaken host)
  kept later hmem := by
    rw [hhistory, List.mem_append] at hmem
    exact hmem.elim (h.kept later) fun hmem => absurd hmem (hcleared later)
  found id command hget := hhistory ▸ List.mem_append_left _ (h.found id command hget)

/-- What a step leaves that appends events of none of these kinds. -/
structure Plain (events : List RecoveryEvent) : Prop where
  unlinked : ∀ host capture, RecoveryEvent.unlinked host capture ∉ events
  cleared : ∀ capture, RecoveryEvent.cleared capture ∉ events
  handed : ∀ host capture id command, RecoveryEvent.handed host capture id command ∉ events

theorem plain_nil : Plain [] :=
  ⟨fun _ _ => List.not_mem_nil, fun _ => List.not_mem_nil, fun _ _ _ _ => List.not_mem_nil⟩

/-- A host goes on beside events that hand nothing out. -/
theorem HostSound.append {w' : RecoveryWorld} {host' : RecoveryHost} {events : List RecoveryEvent}
    (h : HostSound w host) (hhistory : w'.history = w.history ++ events)
    (hhanded : ∀ host capture id command, RecoveryEvent.handed host capture id command ∉ events)
    (hhosts : w'.hosts = w.hosts) (hheld : Held host'.manager)
    (hattached : host'.attached = host.attached)
    (hunclaimed : host'.unclaimedRecovery = host.unclaimedRecovery)
    (hreadFrom : host'.readFrom = host.readFrom)
    (hquiet : host.attached = false → host'.printed = [] ∧
      ∀ id entry, host'.manager.ptyBuffers.get id = some entry → entry.alive = false)
    (hcapture : ∀ c, host'.capture = some c → CaptureSound w' host' c) : HostSound w' host' where
  held := hheld
  claimed := by
    rw [hattached, hunclaimed]
    exact h.claimed
  quiet := by
    rw [hattached]
    exact hquiet
  unclaimed left hleft id command hget := by
    rw [hunclaimed] at hleft
    obtain ⟨hunlinked, hfound, hnot⟩ := h.unclaimed left hleft id command hget
    rw [hreadFrom, hhistory, number, hhosts]
    refine ⟨List.mem_append_left _ hunlinked, List.mem_append_left _ hfound, ?_⟩
    intro host'' command' hmem
    exact (List.mem_append.1 hmem).elim (hnot host'' command') (hhanded _ _ _ _)
  capture := hcapture

theorem CaptureSound.append {w' : RecoveryWorld} {host' : RecoveryHost}
    {events : List RecoveryEvent} (h : CaptureSound w host c)
    (hhistory : w'.history = w.history ++ events)
    (hunlinked : ∀ host capture, RecoveryEvent.unlinked host capture ∉ events)
    (hcaptures : w'.captures = w.captures) (hattached : host'.attached = host.attached)
    (hmarked : Marked host'.manager c w'.history) : CaptureSound w' host' c where
  attached := hattached.trans h.attached
  last := hcaptures ▸ h.last
  untaken host'' hmem := by
    rw [hhistory, List.mem_append] at hmem
    exact hmem.elim (h.untaken host'') (hunlinked _ _)
  found id command hget := hhistory ▸ List.mem_append_left _ (h.found id command hget)
  marked := hmarked

/-! ### What a step keeps -/

/-- A step of the panes: the record stays, and a capture goes on with its marks. -/
theorem RecoverySound.pane {host' : RecoveryHost} {events : List RecoveryEvent}
    (h : RecoverySound r w) (hw : w.host = some host) (hplain : Plain events)
    (hcapture? : ∀ e ∈ events, e.capture? = none)
    (hjustified : ∀ e ∈ events, ∀ before, Justified r before e)
    (hheld : Held host'.manager)
    (hsame : host'.attached = host.attached ∧ host'.unclaimedRecovery = host.unclaimedRecovery ∧
      host'.readFrom = host.readFrom ∧ host'.capture = host.capture)
    (hquiet : host.attached = false → host'.printed = [] ∧
      ∀ id entry, host'.manager.ptyBuffers.get id = some entry → entry.alive = false)
    (hmarked : ∀ c, Marked host.manager c w.history → Marked host'.manager c (w.history ++ events)) :
    RecoverySound r { w with host := some host', history := w.history ++ events } := by
  obtain ⟨hattached, hunclaimed, hreadFrom, hcapture⟩ := hsame
  have hsound := h.host host hw
  exact {
    justified := h.justified.append fun done e rest heq =>
      hjustified e (heq ▸ List.mem_append_right _ List.mem_cons_self) _
    numbers := fun e he capture hcap => by
      rcases List.mem_append.1 he with he | he
      · exact h.numbers e he capture hcap
      · rw [hcapture? e he] at hcap
        cases hcap
    record := fun stored hstored => (h.record stored hstored).append rfl (Nat.le_refl _)
      (fun _ => hplain.unlinked _ _) hplain.cleared
    host := fun host'' hhost'' => by
      cases hhost''
      refine hsound.append rfl hplain.handed rfl hheld hattached hunclaimed hreadFrom hquiet fun c hc => ?_
      rw [hcapture] at hc
      have hcap := hsound.capture c hc
      exact hcap.append rfl hplain.unlinked rfl hattached (hmarked c hcap.marked) }

/-- The same without an event. -/
theorem RecoverySound.manager {manager : PtyManager} (h : RecoverySound r w)
    (hw : w.host = some host) (hm : Derived manager host.manager)
    (hquiet : host.attached = false →
      ∀ id entry, manager.ptyBuffers.get id = some entry → entry.alive = false) :
    RecoverySound r { w with host := some { host with manager } } := by
  have hpane : RecoverySound r
      { w with host := some { host with manager }, history := w.history ++ [] } :=
    h.pane hw plain_nil (fun _ he => (List.not_mem_nil he).elim)
      (fun _ he => (List.not_mem_nil he).elim) ((h.host host hw).held.of_derived hm)
      ⟨rfl, rfl, rfl, rfl⟩
      (fun hattached => ⟨((h.host host hw).quiet hattached).1, hquiet hattached⟩)
      (fun c hc => by rw [List.append_nil]; exact hc.of_derived hm)
  rwa [List.append_nil] at hpane

theorem RecoverySound.bufferExit {exitCode : Int} (h : RecoverySound r w)
    (hw : w.host = some host) : RecoverySound r
      { w with host := some { host with manager := host.manager.bufferExit id exitCode } } := by
  refine h.manager hw derived_bufferExit fun hattached id' entry hentry => ?_
  have hquiet := ((h.host host hw).quiet hattached).2
  unfold PtyManager.bufferExit at hentry
  split at hentry
  · exact hquiet id' entry hentry
  split at hentry <;> dsimp only at hentry <;> rw [InsertionMap.get_set] at hentry <;>
    split at hentry
  · cases hentry
    rfl
  · exact hquiet id' entry hentry
  · cases hentry
    rfl
  · exact hquiet id' entry hentry

theorem RecoverySound.kill (h : RecoverySound r w) (hw : w.host = some host) :
    RecoverySound r { w with host := some { host with manager := host.manager.kill id } } := by
  refine h.manager hw derived_kill fun hattached id' entry hentry => ?_
  change (host.manager.ptyBuffers.delete id).get id' = some entry at hentry
  exact ((h.host host hw).quiet hattached).2 id' entry (InsertionMap.get_of_delete hentry).2

theorem RecoverySound.print (h : RecoverySound r w) (hw : w.host = some host) {data : JsString}
    (hattached : host.attached = true) : RecoverySound r { w with
      host := some { host with printed := host.printed ++ [(id, data)] }
      history := w.history ++ [.printed id data] } := by
  refine h.pane hw ⟨?_, ?_, ?_⟩ ?_ ?_ (h.host host hw).held ⟨rfl, rfl, rfl, rfl⟩ ?_ ?_
  · exact fun _ _ hmem => by cases List.mem_singleton.1 hmem
  · exact fun _ hmem => by cases List.mem_singleton.1 hmem
  · exact fun _ _ _ _ hmem => by cases List.mem_singleton.1 hmem
  · exact fun e he => by rw [List.mem_singleton.1 he]; rfl
  · exact fun e he before => by rw [List.mem_singleton.1 he]; exact trivial
  · exact fun hnot => by rw [hattached] at hnot; cases hnot
  · exact fun c hc => hc.append fun _ => by simp [receivedIn]

theorem RecoverySound.deliver (h : RecoverySound r w) (hw : w.host = some host) :
    RecoverySound r (w.deliver host) := by
  unfold RecoveryWorld.deliver
  split
  · exact h
  rename_i id data printed hprinted
  have hsound := h.host host hw
  refine h.pane hw ⟨?_, ?_, ?_⟩ ?_ ?_ (hsound.held.bufferData data) ⟨rfl, rfl, rfl, rfl⟩ ?_ ?_
  · intro _ _ hmem
    split at hmem
    · exact List.not_mem_nil hmem
    · cases List.mem_singleton.1 hmem
  · intro _ hmem
    split at hmem
    · exact List.not_mem_nil hmem
    · cases List.mem_singleton.1 hmem
  · intro _ _ _ _ hmem
    split at hmem
    · exact List.not_mem_nil hmem
    · cases List.mem_singleton.1 hmem
  · intro e he
    split at he
    · exact (List.not_mem_nil he).elim
    · rw [List.mem_singleton.1 he]
      rfl
  · intro e he before
    split at he
    · exact (List.not_mem_nil he).elim
    · rw [List.mem_singleton.1 he]
      exact trivial
  · intro hattached
    rw [(hsound.quiet hattached).1] at hprinted
    cases hprinted
  · exact fun c hc => hc.bufferData data

theorem RecoverySound.activate (h : RecoverySound r w) :
    RecoverySound r (w.perform r .activate) := by
  rw [perform]
  split
  · exact h
  refine ⟨h.justified, h.numbers, fun stored hstored => ?_, fun host hhost => ?_⟩
  · exact (h.record stored hstored).append (List.append_nil _).symm (Nat.le_refl _)
      (fun _ => List.not_mem_nil) fun _ => List.not_mem_nil
  · cases hhost
    exact {
      held := fun _ _ hentry => by cases hentry
      claimed := fun hattached => by cases hattached
      quiet := fun _ => ⟨rfl, fun _ _ hentry => by cases hentry⟩
      unclaimed := fun _ hleft => by cases hleft
      capture := fun _ hcapture => by cases hcapture }

theorem RecoverySound.die (h : RecoverySound r w) : RecoverySound r (w.perform r .die) :=
  { h with
    record stored hstored := (h.record stored hstored).append (List.append_nil _).symm (Nat.le_refl _)
      (fun _ => List.not_mem_nil) fun _ => List.not_mem_nil
    host _ hhost := by cases hhost }

/-- A host that has nothing of a capture under way. -/
theorem HostSound.idle (h : HostSound w host) (hunclaimed : host.unclaimedRecovery = none) :
    host.capture = none := by
  cases hcapture : host.capture with
  | none => rfl
  | some c => exact absurd hunclaimed (h.claimed (h.capture c hcapture).attached)

/-- Reading the record: afterwards the host has what is left of it, and the disk does not. -/
theorem RecoverySound.readAndClear (h : RecoverySound r w) (hw : w.host = some host)
    (readable unlinkable : Bool) (now : Int) :
    RecoverySound r { (w.readAndClear host readable unlinkable now).1 with
      host := some (w.readAndClear host readable unlinkable now).2 } ∧
    (w.readAndClear host readable unlinkable now).2.unclaimedRecovery ≠ none := by
  have hsound := h.host host hw
  unfold RecoveryWorld.readAndClear
  split
  · rename_i left _ hleft
    exact ⟨hw ▸ h, by rw [hleft]; simp⟩
  · rename_i hleft _
    have hidle := hsound.idle hleft
    refine ⟨⟨h.justified, h.numbers, fun stored hstored => ?_, fun host' hhost' => ?_⟩, by simp⟩
    · exact (h.record stored hstored).append (List.append_nil _).symm (Nat.le_refl _)
        (fun _ => List.not_mem_nil) fun _ => List.not_mem_nil
    · cases hhost'
      exact { hsound with
        claimed := fun _ => by simp
        unclaimed := fun left hleft id command hget => by
          cases hleft
          cases hget
        capture := fun c hc => by
          have hc : host.capture = some c := hc
          rw [hidle] at hc
          cases hc }
  · rename_i stored hleft hrecord
    have hidle := hsound.idle hleft
    have hrec := h.record stored hrecord
    split
    · refine ⟨⟨?_, ?_, (fun stored' hstored' => by cases hstored'), fun host' hhost' => ?_⟩, by simp⟩
      · exact h.justified.concat ⟨hrec.kept, hrec.untaken⟩
      · intro e he capture hcap
        rcases List.mem_append.1 he with he | he
        · exact h.numbers e he capture hcap
        · rw [List.mem_singleton.1 he] at hcap
          cases hcap
          exact hrec.lt
      · cases hhost'
        exact {
          held := hsound.held
          claimed := fun _ => by simp
          quiet := hsound.quiet
          unclaimed := fun left hleft id command hget => by
            have hleft : some (if readable then usable stored.record now else .empty) = some left :=
              hleft
            rw [Option.some.injEq] at hleft
            have hfound : RecoveryEvent.found stored.capture id command ∈ w.history := by
              rw [← hleft] at hget
              split at hget
              · exact hrec.found id command (get_usable hget)
              · cases hget
            refine ⟨List.mem_append_right _ (List.mem_singleton.2 rfl),
              List.mem_append_left _ hfound, fun host' command' hmem => ?_⟩
            -- What has been handed out was unlinked before, and this record was not.
            rcases List.mem_append.1 hmem with hmem | hmem
            · obtain ⟨before, after, heq, hjustified⟩ := h.justified.of_mem hmem
              exact hrec.untaken host' (heq ▸ List.mem_append_left _ hjustified.1)
            · cases List.mem_singleton.1 hmem
          capture := fun c hc => by
            have hc : host.capture = some c := hc
            rw [hidle] at hc
            cases hc }
    · refine ⟨⟨h.justified, h.numbers, fun stored hstored => ?_, fun host' hhost' => ?_⟩, by simp⟩
      · exact (h.record stored hstored).append (List.append_nil _).symm (Nat.le_refl _)
          (fun _ => List.not_mem_nil) fun _ => List.not_mem_nil
      · cases hhost'
        exact { hsound with
          claimed := fun _ => by simp
          unclaimed := fun left hleft id command hget => by
            cases hleft
            cases hget
          capture := fun c hc => by
            have hc : host.capture = some c := hc
            rw [hidle] at hc
            cases hc }

/-- Handing out what is left, to a container that is then attached. -/
theorem RecoverySound.claimed (h : RecoverySound r w) (hw : w.host = some host)
    (hclaimed : host.unclaimedRecovery ≠ none) (ids : List JsString) :
    RecoverySound r { w with
      host := some { host with
        unclaimedRecovery := some (claim (host.unclaimedRecovery.getD .empty) ids).2
        attached := true }
      history := w.history ++ (claim (host.unclaimedRecovery.getD .empty) ids).1.map fun e =>
        RecoveryEvent.handed w.number host.readFrom e.1 e.2 } := by
  have hsound := h.host host hw
  obtain ⟨left, hleft⟩ := Option.ne_none_iff_exists'.1 hclaimed
  rw [hleft, Option.getD_some]
  obtain ⟨hnodup, hget, hrest⟩ := claim_spec left ids
  generalize claim left ids = claimed at hnodup hget hrest
  have hhanded : ∀ e ∈ claimed.1.map fun e => RecoveryEvent.handed w.number host.readFrom e.1 e.2,
      ∃ id command, (id, command) ∈ claimed.1 ∧
        e = .handed w.number host.readFrom id command := fun e he => by
    obtain ⟨entry, hentry, rfl⟩ := List.mem_map.1 he
    exact ⟨entry.1, entry.2, hentry, rfl⟩
  have hlt : ∀ id command, left.get id = some command → host.readFrom < w.captures :=
    fun id command hid =>
      h.numbers _ (hsound.unclaimed left hleft id command hid).1 host.readFrom rfl
  exact {
    justified := h.justified.append fun done e rest heq => by
      obtain ⟨id, command, hmem, rfl⟩ := hhanded e (heq ▸ List.mem_append_right _ List.mem_cons_self)
      obtain ⟨hunlinked, hfound, hnot⟩ := hsound.unclaimed left hleft id command (hget _ hmem)
      refine ⟨List.mem_append_left _ hunlinked, List.mem_append_left _ hfound, ?_⟩
      intro host' command' hbefore
      rcases List.mem_append.1 hbefore with hbefore | hbefore
      · exact hnot host' command' hbefore
      -- The ids that are handed out at once differ.
      obtain ⟨before, after, hsplit, hdone, hafter⟩ := List.map_eq_append_iff.1 heq
      obtain ⟨entry, tail, htail, hentry, -⟩ := List.map_eq_cons_iff.1 hafter
      cases hentry
      rw [← hdone] at hbefore
      obtain ⟨entry', hentry', heq'⟩ := List.mem_map.1 hbefore
      obtain ⟨-, -, hid, -⟩ := RecoveryEvent.handed.inj heq'
      rw [hsplit, htail, List.map_append, List.map_cons] at hnodup
      exact List.disjoint_of_nodup_append hnodup (hid ▸ List.mem_map_of_mem hentry')
        List.mem_cons_self
    numbers := fun e he capture hcap => by
      rcases List.mem_append.1 he with he | he
      · exact h.numbers e he capture hcap
      · obtain ⟨id, command, hmem, rfl⟩ := hhanded e he
        cases hcap
        exact hlt id command (hget _ hmem)
    record := fun stored hstored => (h.record stored hstored).append rfl (Nat.le_refl _)
      (fun _ hmem => by obtain ⟨_, _, _, heq⟩ := hhanded _ hmem; cases heq)
      (fun _ hmem => by obtain ⟨_, _, _, heq⟩ := hhanded _ hmem; cases heq)
    host := fun host' hhost' => by
      cases hhost'
      exact {
        held := hsound.held
        claimed := fun _ => by simp
        quiet := fun hattached => by cases hattached
        unclaimed := fun left' hleft' id command hid => by
          cases hleft'
          obtain ⟨hid, hnotin⟩ := hrest id command hid
          obtain ⟨hunlinked, hfound, hnot⟩ := hsound.unclaimed left hleft id command hid
          refine ⟨List.mem_append_left _ hunlinked, List.mem_append_left _ hfound, ?_⟩
          intro host' command' hmem
          rcases List.mem_append.1 hmem with hmem | hmem
          · exact hnot host' command' hmem
          · obtain ⟨id', command'', hin, heq⟩ := hhanded _ hmem
            cases heq
            exact hnotin (List.mem_map.2 ⟨_, hin, rfl⟩)
        capture := fun c hc => by
          have hcap := hsound.capture c hc
          exact {
            attached := rfl
            last := hcap.last
            untaken := fun host' hmem => by
              rcases List.mem_append.1 hmem with hmem | hmem
              · exact hcap.untaken host' hmem
              · obtain ⟨_, _, _, heq⟩ := hhanded _ hmem
                cases heq
            found := fun id command hid => List.mem_append_left _ (hcap.found id command hid)
            marked := hcap.marked.append fun id => by
              rw [receivedIn, List.flatMap_eq_nil_iff]
              intro e he
              obtain ⟨_, _, _, rfl⟩ := hhanded e he
              rfl } } }

theorem RecoverySound.resolve (h : RecoverySound r w) (hw : w.host = some host)
    (ids : List JsString) (readable unlinkable : Bool) :
    RecoverySound r (w.resolve host ids readable unlinkable now) := by
  obtain ⟨hread, hclaimed⟩ := h.readAndClear hw readable unlinkable now
  exact hread.claimed rfl hclaimed ids

/-- Only a host that has claimed has a live PTY. -/
theorem HostSound.attached_of_live (h : HostSound w host)
    (hlive : host.manager.liveIds.isEmpty = false) : host.attached = true := by
  cases hattached : host.attached with
  | true => rfl
  | false =>
    have hnone : host.manager.liveIds = [] := by
      rw [PtyManager.liveIds, List.map_eq_nil_iff, List.filter_eq_nil_iff]
      intro e he
      rw [(h.quiet hattached).2 e.1 e.2 (InsertionMap.get_eq_some.2 he)]
      exact Bool.false_ne_true
    rw [hnone] at hlive
    cases hlive

theorem RecoverySound.startCapture (h : RecoverySound r w) (hw : w.host = some host)
    (removable : Bool) (maxWaitMs : Int) :
    RecoverySound r (w.startCapture host removable now maxWaitMs) := by
  have hsound := h.host host hw
  have hevents : ∀ e ∈ (RecoveryEvent.began w.captures ::
      if removable then [RecoveryEvent.cleared w.captures] else []),
      e = .began w.captures ∨ e = .cleared w.captures := fun e he => by
    rcases List.mem_cons.1 he with rfl | he
    · exact .inl rfl
    · split at he
      · exact .inr (List.mem_singleton.1 he)
      · exact (List.not_mem_nil he).elim
  have hplain : ∀ e ∈ (RecoveryEvent.began w.captures ::
      if removable then [RecoveryEvent.cleared w.captures] else []),
      (∀ host capture, e ≠ .unlinked host capture) ∧
        ∀ host capture id command, e ≠ .handed host capture id command := fun e he => by
    rcases hevents e he with rfl | rfl
    · exact ⟨(fun _ _ heq => by cases heq), fun _ _ _ _ heq => by cases heq⟩
    · exact ⟨(fun _ _ heq => by cases heq), fun _ _ _ _ heq => by cases heq⟩
  exact {
    justified := h.justified.append fun done e rest heq => by
      rcases hevents e (heq ▸ List.mem_append_right _ List.mem_cons_self) with rfl | rfl
      · exact trivial
      · exact trivial
    numbers := fun e he capture hcap => by
      rcases List.mem_append.1 he with he | he
      · exact Nat.lt_succ_of_lt (h.numbers e he capture hcap)
      · rcases hevents e he with rfl | rfl <;> cases hcap <;> exact Nat.lt_succ_self _
    record := fun stored hstored => by
      unfold RecoveryWorld.startCapture at hstored
      split at hstored
      · cases hstored
      · rename_i hremovable
        refine (h.record stored hstored).append rfl (Nat.le_succ _)
          (fun _ hmem => (hplain _ hmem).1 _ _ rfl) fun later hmem => ?_
        rw [if_neg hremovable] at hmem
        cases List.mem_singleton.1 hmem
    host := fun host' hhost' => by
      cases hhost'
      refine hsound.append rfl (fun _ _ _ _ hmem => (hplain _ hmem).2 _ _ _ _ rfl) rfl hsound.held
        rfl rfl rfl hsound.quiet fun c hc => ?_
      have hc : (if host.manager.liveIds.isEmpty then none
        else some (Capture.start w.captures host.manager now maxWaitMs)) = some c := hc
      split at hc
      · cases hc
      rename_i hlive
      cases hc
      exact {
        attached := hsound.attached_of_live (Bool.not_eq_true _ ▸ hlive)
        last := rfl
        untaken := fun host' hmem => by
          rcases List.mem_append.1 hmem with hmem | hmem
          · exact Nat.lt_irrefl _ (h.numbers _ hmem w.captures rfl)
          · exact (hplain _ hmem).1 _ _ rfl
        found := fun _ _ hid => by cases hid
        marked := marked_start hsound.held w.captures now maxWaitMs w.history _ } }

theorem RecoverySound.ack (h : RecoverySound r w) (hw : w.host = some host) :
    RecoverySound r { w with host := some { host with capture := host.capture.bind (·.acked now) } } := by
  have hsound := h.host host hw
  refine ⟨h.justified, h.numbers, fun stored hstored => ?_, fun host' hhost' => ?_⟩
  · exact (h.record stored hstored).append (List.append_nil _).symm (Nat.le_refl _)
      (fun _ => List.not_mem_nil) fun _ => List.not_mem_nil
  · cases hhost'
    refine { hsound with capture := fun c hc => ?_ }
    obtain ⟨c', hc', hacked⟩ := Option.bind_eq_some_iff.1 hc
    have hcap := hsound.capture c' hc'
    have hcontinues := continues_acked hacked
    exact {
      attached := hcap.attached
      last := hcontinues.number ▸ hcap.last
      untaken := hcontinues.number ▸ hcap.untaken
      found := by
        rw [hcontinues.number, hcontinues.commands]
        exact hcap.found
      marked := hcap.marked.continues hcontinues.number hcontinues.startMark }

/-- What a scan has found is found. -/
theorem CaptureSound.tick (h : CaptureSound w host c) {w' : RecoveryWorld} {host' : RecoveryHost}
    {found : List (JsString × JsString)} (hcaptures : w'.captures = w.captures)
    (hattached : host'.attached = host.attached) (hmanager : host'.manager = host.manager)
    (hhistory : w'.history =
      w.history ++ found.map fun e => RecoveryEvent.found c.number e.1 e.2)
    (hcontinues : Continues c' (c.record found)) : CaptureSound w' host' c' where
  attached := hattached.trans h.attached
  last := by
    rw [hcontinues.number, hcaptures]
    exact h.last
  untaken host'' hmem := by
    rw [hcontinues.number, hhistory, List.mem_append] at hmem
    rcases hmem with hmem | hmem
    · exact h.untaken host'' hmem
    · obtain ⟨e, -, heq⟩ := List.mem_map.1 hmem
      cases heq
  found id command hid := by
    rw [hcontinues.commands] at hid
    rw [hcontinues.number, hhistory, List.mem_append]
    rcases get_record hid with hold | hnew
    · exact .inl (h.found id command hold)
    · exact .inr (List.mem_map.2 ⟨_, hnew, rfl⟩)
  marked := by
    rw [hmanager, hhistory]
    refine (h.marked.append fun id => ?_).continues hcontinues.number hcontinues.startMark
    rw [receivedIn, List.flatMap_eq_nil_iff]
    intro e he
    obtain ⟨e', -, rfl⟩ := List.mem_map.1 he
    rfl

theorem RecoverySound.tick (h : RecoverySound r w) (hw : w.host = some host)
    (hc : host.capture = some c) (writable : Bool) :
    RecoverySound r (w.tick r host c writable now) := by
  have hsound := h.host host hw
  have hcap := hsound.capture c hc
  unfold RecoveryWorld.tick
  have hdetected : ∀ e ∈ (c.scanPending r host.manager).1,
      Capture.detected r host.manager c e.1 = some e.2 := fun e he => mem_scanPending he
  generalize c.scanPending r host.manager = scanned at hdetected
  obtain ⟨found, asked⟩ := scanned
  have hevents : ∀ e ∈ found.map fun e => RecoveryEvent.found c.number e.1 e.2,
      ∃ id command, (id, command) ∈ found ∧ e = .found c.number id command := fun e he => by
    obtain ⟨entry, hentry, rfl⟩ := List.mem_map.1 he
    exact ⟨entry.1, entry.2, hentry, rfl⟩
  have hcaptures : c.number < w.captures := hcap.last ▸ Nat.lt_succ_self _
  exact {
    justified := h.justified.append fun done e rest heq => by
      obtain ⟨id, command, hmem, rfl⟩ := hevents e (heq ▸ List.mem_append_right _ List.mem_cons_self)
      refine Marked.detected (hcap.marked.append fun id => ?_) (hdetected _ hmem)
      rw [receivedIn, List.flatMap_eq_nil_iff]
      intro e he
      obtain ⟨_, _, _, rfl⟩ := hevents e (heq ▸ List.mem_append_left _ he)
      rfl
    numbers := fun e he capture hcapture => by
      rcases List.mem_append.1 he with he | he
      · exact h.numbers e he capture hcapture
      · obtain ⟨_, _, _, rfl⟩ := hevents e he
        cases hcapture
        exact hcaptures
    record := fun stored hstored => by
      have hstored : (if !found.isEmpty && writable then
        some ⟨(c.record found).payload now, c.number⟩ else w.record) = some stored := hstored
      split at hstored
      · cases hstored
        exact {
          lt := hcaptures
          untaken := fun host' hmem => by
            rcases List.mem_append.1 hmem with hmem | hmem
            · exact hcap.untaken host' hmem
            · obtain ⟨_, _, _, heq⟩ := hevents _ hmem
              cases heq
          kept := fun later hmem => by
            rcases List.mem_append.1 hmem with hmem | hmem
            · have hlater := h.numbers _ hmem later rfl
              rw [← hcap.last] at hlater
              exact Nat.lt_succ_iff.1 hlater
            · obtain ⟨_, _, _, heq⟩ := hevents _ hmem
              cases heq
          found := fun id command hid => by
            have hid : ((c.record found).commands.filterMap fun command =>
              some (some command)).get id = some (some command) := hid
            rw [InsertionMap.get_filterMap, Option.bind_eq_some_iff] at hid
            obtain ⟨command', hid, heq⟩ := hid
            cases heq
            rcases get_record hid with hold | hnew
            · exact List.mem_append_left _ (hcap.found id command hold)
            · exact List.mem_append_right _ (List.mem_map.2 ⟨_, hnew, rfl⟩) }
      · exact (h.record stored hstored).append rfl (Nat.le_refl _)
          (fun _ hmem => by obtain ⟨_, _, _, heq⟩ := hevents _ hmem; cases heq)
          (fun _ hmem => by obtain ⟨_, _, _, heq⟩ := hevents _ hmem; cases heq)
    host := fun host' hhost' => by
      cases hhost'
      refine hsound.append rfl
        (fun _ _ _ _ hmem => by obtain ⟨_, _, _, heq⟩ := hevents _ hmem; cases heq) rfl hsound.held
        rfl rfl rfl hsound.quiet fun c' hc' => ?_
      exact hcap.tick rfl rfl rfl rfl (continues_settle hc') }

theorem RecoverySound.perform (h : RecoverySound r w) (act : RecoveryAct) :
    RecoverySound r (w.perform r act) := by
  cases act with
  | activate => exact h.activate
  | die => exact h.die
  | resolve ids readable unlinkable now =>
    rw [RecoveryWorld.perform]
    split
    · exact h
    · rename_i host hw
      exact h.resolve hw ids readable unlinkable
  | spawn id shell =>
    rw [RecoveryWorld.perform]
    split
    · exact h
    · rename_i host hw
      split
      · rename_i hattached
        exact h.manager hw (derived_spawn shell) fun hnot => by rw [hattached] at hnot; cases hnot
      · exact h
  | kill id =>
    rw [RecoveryWorld.perform]
    split
    · exact h
    · rename_i host hw
      exact h.kill hw
  | print id data =>
    rw [RecoveryWorld.perform]
    split
    · exact h
    · rename_i host hw
      split
      · rename_i hattached
        exact h.print hw hattached
      · exact h
  | deliver =>
    rw [RecoveryWorld.perform]
    split
    · exact h
    · rename_i host hw
      exact h.deliver hw
  | exit id exitCode =>
    rw [RecoveryWorld.perform]
    split
    · exact h
    · rename_i host hw
      exact h.bufferExit hw
  | capture removable now maxWaitMs =>
    rw [RecoveryWorld.perform]
    split
    · exact h
    · rename_i host hw
      split
      · exact h.startCapture hw removable maxWaitMs
      · exact h
  | ack now =>
    rw [RecoveryWorld.perform]
    split
    · exact h
    · rename_i host hw
      exact h.ack hw
  | tick writable now =>
    rw [RecoveryWorld.perform]
    split
    · exact h
    rename_i host hw
    split
    · exact h
    · rename_i c hc
      split
      · exact h.tick hw hc writable
      · exact h

theorem inductive_recoverySound : (recoveryRuns r).Inductive (RecoverySound r) where
  init h := h ▸ recoverySound_create
  step h hstep := hstep ▸ h.perform _

/-! ### At most once -/

/-- In every run, every event is justified by the events before it: a command is handed out once,
by the host that unlinked the record of the capture that found it, which it did while no later
capture had cleared that record; and it was found in what the pane's buffers had received since
that capture had taken its marks. -/
theorem recovery_justified (r : Recognizers) (w : RecoveryWorld)
    (h : (recoveryRuns r).Reachable w) : Preceded (Justified r) w.history :=
  (inductive_recoverySound.reachable h).justified

theorem reachable_recovery {w : RecoveryWorld} (acts : List RecoveryAct)
    (h : (recoveryRuns r).Reachable w) : (recoveryRuns r).Reachable (w.after r acts) :=
  h.foldl (fun _ _ => rfl) acts

/-- A recognizer of one invocation, and of one prompt. -/
def oneAgent : Recognizers where
  detectResumeCommand output :=
    if output = js "codex resume a\n" then some (js "codex resume a") else none
  asksForSecondPress output := output == js "Press Ctrl-C again to exit"

/-- An agent that answers the interrupt, and is resumed by the next host. -/
theorem recovery_justified_resumed : Preceded (Justified oneAgent)
    (create.after oneAgent [.activate, .resolve [] true true 0, .spawn [0x61] none,
      .print [0x61] [0x24], .deliver, .capture true 0 1200, .ack 10,
      .print [0x61] (js "codex resume a\n"), .deliver, .tick true 50, .die, .activate,
      .resolve [[0x61]] true true 1000]).history :=
  recovery_justified oneAgent _ (reachable_recovery _ (.start rfl))

/-- What it does not say: here a command was printed before the interrupt, and received after the
marks were taken; and it is handed out, from memory, when another capture has begun. -/
theorem late_recovery :
    ∃ w, (recoveryRuns oneAgent).Reachable w ∧ w.history = [.printed [0x61] (js "codex resume a\n"),
      .began 0, .cleared 0, .received [0x61] (js "codex resume a\n"),
      .found 0 [0x61] (js "codex resume a"), .unlinked 1 0, .began 1, .cleared 1,
      .handed 1 0 [0x61] (js "codex resume a")] :=
  ⟨_, reachable_recovery [.activate, .resolve [] true true 0, .spawn [0x61] none,
    .print [0x61] (js "codex resume a\n"), .capture true 0 1200, .ack 10, .deliver, .tick true 50,
    .die, .activate, .resolve [] true true 1000, .capture true 1000 1200,
    .resolve [[0x61]] true true 2000] (.start rfl), by decide⟩

end Dormouse.Pty
