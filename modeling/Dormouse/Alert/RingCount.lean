import Dormouse.Alert.Chains

/-!
# Dormouse.Alert.RingCount

**`ringSeq` counts rings.** An operation either latches rings, counting each track that was
not ringing, or releases some and counts nothing; none does both.
-/

namespace Dormouse.Alert

open Terminal

/-! ### The whole manager -/

namespace AlertManager

open AlertEntry

/-- Every entry there is moved by `R` from what it was, or from a new one. -/
structure Moves (R : AlertEntry → AlertEntry → Prop) (m m' : AlertManager) : Prop where
  kept : ∀ id e, m.entries.get id = some e → ∃ e', m'.entries.get id = some e'
  moved : ∀ id e', m'.entries.get id = some e' → R ((m.entries.get id).getD .fresh) e'

section Moves

variable {R : AlertEntry → AlertEntry → Prop} [RingRelation R]

theorem Moves.trans {a b c : AlertManager} (hab : Moves R a b) (hbc : Moves R b c) :
    Moves R a c := by
  refine ⟨fun id e he => ?_, fun id e'' he'' => ?_⟩
  · obtain ⟨e', he'⟩ := hab.kept id e he
    exact hbc.kept id e' he'
  · have hlast := hbc.moved id e'' he''
    cases hb : b.entries.get id with
    | some e' =>
      rw [hb] at hlast
      exact RingRelation.trans (hab.moved id e' hb) hlast
    | none =>
      rw [hb] at hlast
      cases ha : a.entries.get id with
      | none => exact hlast
      | some e =>
        obtain ⟨e', he'⟩ := hab.kept id e ha
        exact absurd (hb.symm.trans he') (by simp)

theorem Moves.of_entries {m m' : AlertManager} (h : m'.entries = m.entries) : Moves R m m' := by
  refine ⟨fun id e he => ⟨e, by rw [h, he]⟩, fun id e' he' => ?_⟩
  rw [h] at he'
  rw [he']
  exact RingRelation.same (.refl e')

theorem Moves.refl (m : AlertManager) : Moves R m m := .of_entries rfl

theorem Quiet.moves {m m' : AlertManager} (h : Quiet m m') : Moves R m m' := .of_entries h.entries

theorem Edits.moves {id : Id} {f : AlertEntry → AlertEntry} {m m' : AlertManager}
    (h : Edits id f m m') (hf : ∀ e, m.entries.get id = some e → R e (f e)) : Moves R m m' := by
  refine ⟨fun id' e he => ?_, fun id' e' he' => ?_⟩
  · rw [h.get, he]
    split
    · exact ⟨f e, rfl⟩
    · exact ⟨e, rfl⟩
  · rw [h.get] at he'
    split at he'
    · rename_i hid
      subst hid
      obtain ⟨e, he, rfl⟩ := Option.map_eq_some_iff.1 he'
      rw [he]
      exact hf e he
    · rw [he']
      exact RingRelation.same (.refl e')

theorem modifyEntry_moves {id : Id} {f : AlertEntry → AlertEntry} {m : AlertManager}
    (hf : ∀ e, m.entries.get id = some e → R e (f e)) : Moves R m (m.modifyEntry id f) :=
  (modifyEntry_edits id f m).moves hf

theorem getOrCreateEntry_moves (id : Id) (m : AlertManager) :
    Moves R m (m.getOrCreateEntry id) := by
  rw [getOrCreateEntry]
  split
  · exact .refl m
  rename_i hfresh
  have hnone : m.entries.get id = none := by simpa [InsertionMap.has] using hfresh
  refine ⟨fun id' e he => ?_, fun id' e' he' => ?_⟩
  · have hid : id ≠ id' := by
      rintro rfl
      exact absurd (hnone.symm.trans he) (by simp)
    exact ⟨e, by rw [InsertionMap.get_set, if_neg hid, he]⟩
  · rcases InsertionMap.get_of_set he' with ⟨hid, rfl⟩ | ⟨-, he'⟩
    · rw [← hid, hnone]
      exact RingRelation.same (.refl _)
    · rw [he']
      exact RingRelation.same (.refl e')

theorem reportedEntry_moves (id : Id) (m : AlertManager) : Moves R m (m.reportedEntry id) := by
  have hclaimed : Moves R m { m with removed := m.removed.erase id } := .of_entries rfl
  exact hclaimed.trans (getOrCreateEntry_moves id _)

theorem armAndNotify_moves (id : Id) (m : AlertManager) : Moves R m (m.armAndNotify id) :=
  (armAndNotify_edits id m).moves fun e _ => RingRelation.same (armed_sameRings e)

instance : Attends (Moves R) where
  refl := .refl
  trans := .trans
  rest h := .of_entries h.entries
  notify id m := (notify_quiet id m).moves
  settle id handle outcome m := (settle_quiet id handle outcome m).moves
  clearGrace id p m := (clearGrace_quiet id p m).moves
  arm := armAndNotify_moves
  look _ _ _ := .of_entries rfl

end Moves

instance : LatchEdits (Moves Latching) where
  create := getOrCreateEntry_moves
  entry h := modifyEntry_moves fun e he => (h e he).latching

instance : Releases (Moves Releasing) where
  create := getOrCreateEntry_moves
  entry := modifyEntry_moves
  rules _ _ := .of_entries rfl

theorem awaitCompletion_moves (id : Id) (awaitUntil : AwaitUntil) (timeoutMs : Option Ms)
    (now : Ms) (m : AlertManager) :
    Moves Releasing m (m.awaitCompletion id awaitUntil timeoutMs now) := by
  have hreject : ∀ outcome : AwaitOutcome, Moves Releasing m
      ({ m with nextHandle := m.nextHandle + 1 }.settledAwait m.nextHandle outcome) :=
    fun _ => .of_entries rfl
  have hcount : Moves Releasing m { m with nextHandle := m.nextHandle + 1 } := .of_entries rfl
  have hconsume := hcount.trans ((getOrCreateEntry_moves id _).trans
    (consumeAwaitableRing_releases id awaitUntil _))
  rcases timeoutMs with _ | timeoutMs
  · rw [awaitCompletion]
    split <;> exact hreject _
  rw [awaitCompletion]
  split
  · exact hreject _
  split
  · exact hreject _
  split
  · exact hreject _
  split
  · rename_i heq
    rw [heq] at hconsume
    exact hconsume.trans ((notify_quiet id _).moves.trans (settledAwait_quiet ..).moves)
  · rename_i heq
    rw [heq] at hconsume
    exact hconsume.trans ((addWaiter_quiet ..).moves.trans (notify_quiet id _).moves)

/-! ### Every operation -/

/-- A report of progress ends a cycle, which may ring, or starts or goes on with one, which
takes the place of a ring. -/
theorem updateProtocolProgress_moves (id : Id) (progress : ProtocolProgressUpdate) (now : Ms)
    (m : AlertManager) : Moves Latching m (m.updateProtocolProgress id progress now) ∨
      Moves Releasing m (m.updateProtocolProgress id progress now) := by
  have hactive : ∀ running, Moves Releasing m ((m.reportedEntry id).activeProgress id running) :=
    fun running => (reportedEntry_moves id m).trans (activeProgress_releases id running _)
  have hfinish : ∀ title percent,
      Moves Latching m ((m.reportedEntry id).finishProtocolProgressCycle id title percent now) :=
    fun title percent => (reportedEntry_moves id m).trans
      (finishProtocolProgressCycle_latches id title percent now _)
  rw [updateProtocolProgress]
  split
  · exact .inl (.refl m)
  dsimp only
  split
  · split
    · exact .inl (reportedEntry_moves id m)
    · exact .inl (hfinish _ _)
  · exact .inl (hfinish _ _)
  · split
    · exact .inl (hfinish _ _)
    · exact .inr (hactive _)
  · exact .inr (hactive _)
  · exact .inr (hactive _)

/-- Whether `id` had an entry or not, what an operation does to the one it leaves. -/
def MovesAt (R : AlertEntry → AlertEntry → Prop) (id : Id) (m m' : AlertManager) : Prop :=
  ∀ e', m'.entries.get id = some e' → R ((m.entries.get id).getD .fresh) e'

theorem remove_movesAt (id : Id) (now : Ms) (m : AlertManager) (id' : Id) :
    MovesAt Latching id' m (m.remove id now) := by
  intro e' he'
  rw [remove] at he'
  generalize hm₁ : settleWaiters id .died now
    { m with helpers := m.helpers.erase id, removed := insert id m.removed } = m₁ at he'
  have hentries : m₁.entries = m.entries := by
    rw [← hm₁]
    exact (settleWaiters_publishes (R := Quiet) id .died now
      { m with helpers := m.helpers.erase id, removed := insert id m.removed }).entries
  have hkept : m.entries.get id' = some e' := by
    split at he'
    · rw [(notify_quiet ..).entries] at he'
      have hdelete : (m₁.entries.delete id).get id' = some e' := by
        split at he' <;> exact he'
      obtain ⟨-, hdelete⟩ := InsertionMap.get_of_delete hdelete
      rw [← hentries, hdelete]
    · rw [← hentries]
      exact he'
  rw [hkept]
  exact RingRelation.same (.refl e')

/-- **What an operation does to the rings of an entry**: it latches some or releases some. -/
theorem perform_movesAt (now : Ms) (m : AlertManager) (op : Operation) (id : Id) :
    MovesAt Latching id m (m.perform now op) ∨ MovesAt Releasing id m (m.perform now op) := by
  have hlatch : Moves Latching m (m.perform now op) →
      MovesAt Latching id m (m.perform now op) ∨ MovesAt Releasing id m (m.perform now op) :=
    fun h => .inl (h.moved id)
  have hrelease : Moves Releasing m (m.perform now op) →
      MovesAt Latching id m (m.perform now op) ∨ MovesAt Releasing id m (m.perform now op) :=
    fun h => .inr (h.moved id)
  cases op with
  | applySettings timeoutMs deferUntilQuiet =>
    exact hlatch (Rests.trans (setInactivityTimeoutMs_attends ..)
      (setDeferAlertsUntilQuiet_latches ..))
  | setHelper id helper => exact hlatch (.of_entries rfl)
  | onData id => exact hlatch (onData_latches ..)
  | onExit id exitCode => exact hlatch (onExit_latches ..)
  | onResize id => exact hlatch (onResize_latches ..)
  | setWatchedCommands names => exact hrelease (replaceWatchedCommands_releases ..)
  | setCommandWatched name watched => exact hrelease (setCommandWatched_releases ..)
  | registerCompletionClaimant id key answer => exact hlatch (registerClaimant_rests ..)
  | unregisterClaimant id key => exact hlatch (unregisterClaimant_rests ..)
  | awaitCompletion id awaitUntil timeoutMs => exact hrelease (awaitCompletion_moves ..)
  | cancelAwait id handle => exact hlatch (cancelAwait_publishes ..)
  | notifyFromProtocol id notification => exact hlatch (notifyFromProtocol_latches ..)
  | updateProtocolProgress id progress =>
    exact (updateProtocolProgress_moves id progress now m).elim hlatch hrelease
  | applyTerminalSemanticEvents id events => exact hlatch (applyTerminalSemanticEvents_latches ..)
  | attend id => exact hrelease (attend_releases ..)
  | clearAttention id => exact hlatch (clearAttention_attends ..)
  | dismissAlert id => exact hrelease (dismissAlert_releases ..)
  | toggleTodo id => exact hrelease (toggleTodo_releases ..)
  | markTodo id => exact hrelease (markTodo_releases ..)
  | clearTodo id => exact hrelease (clearTodo_releases ..)
  | remove id' => exact .inl (remove_movesAt id' now m id)
  | seed id todo notification => exact hrelease (seed_releases ..)
  | dispose => exact .inl fun e' he' => absurd he' (by simp [perform, dispose])
  | attentionExpires => exact hlatch (attentionExpires_attends m)
  | graceExpires id handle => exact hlatch (graceExpires_publishes ..)
  | awaitTimesOut id handle => exact hlatch (awaitTimesOut_publishes ..)
  | deferredNotificationDue id =>
    have htimer : Moves Latching m
        (m.modifyEntry id fun e => { e with deferredNotificationTimer := none }) :=
      modifyEntry_moves fun _ _ => RingRelation.same (.of_eq rfl rfl rfl rfl)
    exact hlatch (deferredNotificationDue_latches id now m htimer)
  | detectorTimer id timer => exact hlatch (detectorTimer_latches ..)

/-! ### Every run -/

/-- The rings of each entry counted along: the count starts over with the entry. -/
def countRings (s : AlertManager × (Id → Nat)) (now : Ms) (op : Operation) :
    AlertManager × (Id → Nat) :=
  let next := s.1.perform now op
  (next, fun id =>
    match next.entries.get id with
    | none => 0
    | some e' => s.2 id + newRings ((s.1.entries.get id).getD .fresh) e')

/-- The runs of one manager, with its rings counted. -/
def countedAlerts : System (AlertManager × (Id → Nat)) (Ms × Operation) where
  init s := s = (.fresh, fun _ => 0)
  step s label t := t = countRings s label.1 label.2

theorem newRings_of_movesAt {now : Ms} {m : AlertManager} {op : Operation} {id : Id}
    {e' : AlertEntry} (he' : (m.perform now op).entries.get id = some e') :
    e'.ringSeq = ((m.entries.get id).getD .fresh).ringSeq +
        newRings ((m.entries.get id).getD .fresh) e' := by
  rcases perform_movesAt now m op id with h | h
  · exact (h e' he').counted
  · rw [newRings_eq_zero (h e' he').old]
    exact (h e' he').ringSeq

/-- **`ringSeq` counts rings**: it is the number of times a track of the entry went from
not ringing to ringing, and no operation that makes one ring releases one as well. -/
theorem ringSeq_counts (s : AlertManager × (Id → Nat)) (h : countedAlerts.Reachable s) :
    (∀ id e, s.1.entries.get id = some e → e.ringSeq = s.2 id) ∧
      ∀ now op id e e', s.1.entries.get id = some e →
        (s.1.perform now op).entries.get id = some e' →
          e'.ringSeq = e.ringSeq + newRings e e' ∧
            ((∀ track, e.rings track = true → e'.rings track = true) ∨
              (∀ track, e'.rings track = true → e.rings track = true)) := by
  refine ⟨?_, fun now op id e e' he he' => ⟨?_, ?_⟩⟩
  · have hinductive : countedAlerts.Inductive fun s =>
        ∀ id, ((s.1.entries.get id).getD .fresh).ringSeq = s.2 id := by
      refine ⟨?_, ?_⟩
      · intro s hs id
        rw [show s = _ from hs]
        rfl
      · intro s t label hs hstep id
        rw [show t = _ from hstep]
        show (((s.1.perform label.1 label.2).entries.get id).getD .fresh).ringSeq = _
        rw [countRings]
        cases he' : (s.1.perform label.1 label.2).entries.get id with
        | none => simp [he', AlertEntry.fresh]
        | some e' =>
          simp only [he', Option.getD_some]
          rw [newRings_of_movesAt he', hs id]
    intro id e he
    have hcount := hinductive.reachable h id
    rwa [he] at hcount
  · have hcount := newRings_of_movesAt he'
    rwa [he] at hcount
  · have hmoves := perform_movesAt now s.1 op id
    rw [MovesAt, MovesAt, he] at hmoves
    exact hmoves.imp (fun h => (h e' he').kept) (fun h => (h e' he').old)

/-- Perform a list of timed operations on a new manager and count. -/
def countAll (ops : List (Ms × Operation)) : AlertManager × (Id → Nat) :=
  ops.foldl (fun s op => countRings s op.1 op.2) (.fresh, fun _ => 0)

theorem reachable_countAll (ops : List (Ms × Operation)) :
    countedAlerts.Reachable (countAll ops) :=
  .foldl (fun _ _ => rfl) ops (.start rfl)

/-- A request for input that is answered, and asked again. -/
def askedTwice : AlertManager × (Id → Nat) :=
  countAll [(0, .notifyFromProtocol (js "a") ⟨.OSC_9, none, some (js "Approve?")⟩),
    (1, .notifyFromProtocol (js "a") ⟨.OSC_9, none, some (js "Approve!")⟩),
    (2, .dismissAlert (js "a")),
    (3, .notifyFromProtocol (js "a") ⟨.OSC_9, none, some (js "And this?")⟩)]

theorem ringSeq_counts_asksTwice :
    askedTwice.2 (js "a") = 2 ∧
      (∀ id e, askedTwice.1.entries.get id = some e → e.ringSeq = askedTwice.2 id) ∧
      ∀ now op id e e', askedTwice.1.entries.get id = some e →
        (askedTwice.1.perform now op).entries.get id = some e' →
          e'.ringSeq = e.ringSeq + newRings e e' ∧
            ((∀ track, e.rings track = true → e'.rings track = true) ∨
              (∀ track, e'.rings track = true → e.rings track = true)) :=
  ⟨by decide +kernel, ringSeq_counts askedTwice (reachable_countAll _)⟩

end AlertManager

end Dormouse.Alert
