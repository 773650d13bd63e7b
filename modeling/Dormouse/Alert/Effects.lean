import Dormouse.Alert.Entry

/-!
# Dormouse.Alert.Effects

**What the manager's building blocks do to the entries.** `Quiet` steps only publish,
`Edits id f` steps edit one entry with `f`, and an `Effect P` keeps every entry coherent
and releases no ring outside `P`. Effects compose, so each operation needs one lemma,
assembled from those of the functions it calls.
-/

namespace Dormouse.Alert

open Terminal

/-! ### The whole manager -/

namespace AlertManager

open AlertEntry

/-- Whether a track of an id is ringing. -/
def rings (m : AlertManager) (id : Id) (track : Track) : Bool :=
  (m.entries.get id).any (AlertEntry.rings · track)

/-- Every entry is coherent with the rule set, the ids of `attended` being attended. -/
def CoherentAs (attended : Id → Bool) (m : AlertManager) : Prop :=
  ∀ id e, m.entries.get id = some e → e.Coherent (attended id) m.watchedCommands

/-- Every entry is coherent with the attention and the rule set. -/
def Coherent (m : AlertManager) : Prop := m.CoherentAs m.hasAttention

/-- The manager moved on without touching entries, attention or rules: it published,
or moved its claimants and awaits. -/
structure Quiet (m m' : AlertManager) : Prop where
  entries : m'.entries = m.entries
  attentionId : m'.attentionId = m.attentionId
  watchedCommands : m'.watchedCommands = m.watchedCommands

theorem Quiet.refl (m : AlertManager) : Quiet m m := ⟨rfl, rfl, rfl⟩

theorem Quiet.trans {a b c : AlertManager} (hab : Quiet a b) (hbc : Quiet b c) : Quiet a c :=
  ⟨hbc.entries.trans hab.entries, hbc.attentionId.trans hab.attentionId,
    hbc.watchedCommands.trans hab.watchedCommands⟩

theorem Quiet.hasAttention {m m' : AlertManager} (h : Quiet m m') (id : Id) :
    m'.hasAttention id = m.hasAttention id := by
  rw [AlertManager.hasAttention, AlertManager.hasAttention, h.attentionId]

/-- Every entry stays coherent, and no ring outside `P` is released. -/
structure Effect (P : Id → Track → Prop) (m m' : AlertManager) : Prop where
  coherent : m.Coherent → m'.Coherent
  latched : ∀ id track, ¬P id track → m.rings id track = true → m'.rings id track = true

variable {P : Id → Track → Prop}

theorem Effect.refl (m : AlertManager) : Effect P m m := ⟨id, fun _ _ _ => id⟩

theorem Effect.trans {a b c : AlertManager} (hab : Effect P a b) (hbc : Effect P b c) :
    Effect P a c :=
  ⟨fun h => hbc.coherent (hab.coherent h), fun id t hP h =>
    hbc.latched id t hP (hab.latched id t hP h)⟩

theorem Effect.mono {Q : Id → Track → Prop} {m m' : AlertManager} (h : Effect P m m')
    (hPQ : ∀ id track, P id track → Q id track) : Effect Q m m' :=
  ⟨h.coherent, fun id t hQ => h.latched id t fun hP => hQ (hPQ id t hP)⟩

theorem Quiet.effect {m m' : AlertManager} (h : Quiet m m') : Effect P m m' := by
  refine ⟨fun hm id e he => ?_, fun id track _ hring => ?_⟩
  · rw [h.hasAttention, h.watchedCommands]
    rw [h.entries] at he
    exact hm id e he
  · rw [rings, h.entries]
    exact hring

/-! ### Publishing, claimants and awaits -/

/-- What entries, awaits, attention, rules and reports do not tell apart. -/
structure Rest (m m' : AlertManager) : Prop where
  entries : m'.entries = m.entries
  awaits : m'.awaits = m.awaits
  nextHandle : m'.nextHandle = m.nextHandle
  outcomes : m'.outcomes = m.outcomes
  lastEmitted : m'.lastEmitted = m.lastEmitted
  emitted : m'.emitted = m.emitted
  attentionId : m'.attentionId = m.attentionId
  watchedCommands : m'.watchedCommands = m.watchedCommands

/-- A relation between a manager and a later one that nothing of the rest disturbs. -/
class Rests (R : AlertManager → AlertManager → Prop) : Prop where
  refl : ∀ m, R m m
  trans : ∀ {a b c}, R a b → R b c → R a c
  rest : ∀ {m m'}, Rest m m' → R m m'

/-- Nor reports and the ends of awaits. -/
class Publishes (R : AlertManager → AlertManager → Prop) : Prop extends Rests R where
  notify : ∀ id m, R m (m.notify id)
  settle : ∀ id handle outcome m, R m (m.settle id handle outcome)
  clearGrace : ∀ id p m, R m (m.clearGrace id p)

section

variable {R : AlertManager → AlertManager → Prop} [Rests R]

theorem registerClaimant_rests (id : Id) (key : Option Nat) (claimant : Claimant)
    (m : AlertManager) : R m (m.registerClaimant id key claimant) := by
  rw [registerClaimant]
  split
  · exact Rests.refl m
  · exact Rests.rest ⟨rfl, rfl, rfl, rfl, rfl, rfl, rfl, rfl⟩

theorem unregisterClaimant_rests (id : Id) (key : Option Nat) (m : AlertManager) :
    R m (m.unregisterClaimant id key) := by
  rw [unregisterClaimant]
  split
  · exact Rests.refl m
  · exact Rests.rest ⟨rfl, rfl, rfl, rfl, rfl, rfl, rfl, rfl⟩

theorem countAsked_rests (id : Id) (key : Nat) (m : AlertManager) : R m (m.countAsked id key) :=
  Rests.rest ⟨rfl, rfl, rfl, rfl, rfl, rfl, rfl, rfl⟩

theorem foldl_rests {α : Type} {f : AlertManager → α → AlertManager} (hf : ∀ m a, R m (f m a))
    (as : List α) : ∀ m : AlertManager, R m (as.foldl f m) := by
  induction as with
  | nil => exact Rests.refl
  | cons a as ih => exact fun m => Rests.trans (hf m a) (ih _)

end

section

variable {R : AlertManager → AlertManager → Prop} [Publishes R]

theorem offerWaiters_publishes (id : Id) (event : CompletionEvent) (now : Ms)
    (waiters : List AwaitWaiter) :
    ∀ m : AlertManager, R m (offerWaiters id event now waiters m).1 := by
  induction waiters with
  | nil => exact Rests.refl
  | cons waiter waiters ih =>
    intro m
    rw [offerWaiters]
    split
    · exact ih m
    · exact Rests.trans (Publishes.settle ..) (ih _)

theorem offerClaimants_publishes (id : Id) (event : CompletionEvent) (now : Ms)
    (claimants : List Claimant) :
    ∀ m : AlertManager, R m (offerClaimants id event now claimants m).1 := by
  induction claimants with
  | nil => exact Rests.refl
  | cons claimant claimants ih =>
    intro m
    cases claimant with
    | callback key answer asked =>
      rw [offerClaimants]
      split
      · exact countAsked_rests id key m
      · exact Rests.trans (countAsked_rests id key m) (ih _)
    | parked =>
      have h := offerWaiters_publishes (R := R) id event now ((m.awaits.get id).getD []) m
      rw [offerClaimants]
      split
      · rename_i heq
        rw [heq] at h
        exact h
      · rename_i heq
        rw [heq] at h
        exact Rests.trans h (ih _)

theorem settleWaiters_publishes (id : Id) (outcome : Ms → AwaitOutcome) (now : Ms)
    (m : AlertManager) : R m (m.settleWaiters id outcome now) :=
  foldl_rests
    (f := fun m (waiter : AwaitWaiter) =>
      m.settle id waiter.handle (outcome (now - waiter.startedAt)))
    (fun m _ => Publishes.settle _ _ _ m) _ m

theorem graceExpires_publishes (id : Id) (handle : Nat) (now : Ms) (m : AlertManager) :
    R m (m.graceExpires id handle now) := by
  rw [graceExpires]
  split
  · split
    · exact Publishes.settle ..
    · exact Rests.refl m
  · exact Rests.refl m

theorem awaitTimesOut_publishes (id : Id) (handle : Nat) (now : Ms) (m : AlertManager) :
    R m (m.awaitTimesOut id handle now) := by
  rw [awaitTimesOut]
  split
  · exact Publishes.settle ..
  · exact Rests.refl m

theorem cancelAwait_publishes (id : Id) (handle : Nat) (now : Ms) (m : AlertManager) :
    R m (m.cancelAwait id handle now) := by
  rw [cancelAwait]
  split
  · exact Publishes.settle ..
  · exact Rests.refl m

end

instance : Rests Quiet where
  refl := .refl
  trans := .trans
  rest h := ⟨h.entries, h.attentionId, h.watchedCommands⟩

theorem notify_quiet (id : Id) (m : AlertManager) : Quiet m (m.notify id) := by
  rw [notify]
  split
  · exact .refl m
  · exact ⟨rfl, rfl, rfl⟩

theorem clearGrace_quiet (id : Id) (p : AwaitWaiter → Bool) (m : AlertManager) :
    Quiet m (m.clearGrace id p) := by
  rw [clearGrace]
  split
  · exact .refl m
  · exact ⟨rfl, rfl, rfl⟩

theorem settledAwait_quiet (handle : Nat) (outcome : AwaitOutcome) (m : AlertManager) :
    Quiet m (m.settledAwait handle outcome) :=
  ⟨rfl, rfl, rfl⟩

theorem addWaiter_quiet (id : Id) (waiter : AwaitWaiter) (m : AlertManager) :
    Quiet m (m.addWaiter id waiter) := by
  rw [addWaiter]
  split
  · have h := registerClaimant_rests (R := Quiet) id none .parked m
    exact ⟨h.entries, h.attentionId, h.watchedCommands⟩
  · exact ⟨rfl, rfl, rfl⟩

theorem dropWaiter_quiet (id : Id) (handle : Nat) (m : AlertManager) :
    Quiet m (m.dropWaiter id handle) := by
  rw [dropWaiter]
  split
  · exact .refl m
  · simp only
    split
    · have h := unregisterClaimant_rests (R := Quiet) id none { m with awaits := m.awaits.delete id }
      exact ⟨h.entries, h.attentionId, h.watchedCommands⟩
    · exact ⟨rfl, rfl, rfl⟩

theorem settle_quiet (id : Id) (handle : Nat) (outcome : AwaitOutcome) (m : AlertManager) :
    Quiet m (m.settle id handle outcome) := by
  rw [settle]
  split
  · have h := (dropWaiter_quiet id handle m).trans
      (settledAwait_quiet handle outcome (m.dropWaiter id handle))
    exact h.trans (notify_quiet id _)
  · exact .refl m

instance : Publishes Quiet where
  notify := notify_quiet
  settle := settle_quiet
  clearGrace := clearGrace_quiet

/-! ### Editing one entry -/

/-- The manager moved on by editing the entry of `id` with `f`, whatever it published. -/
structure Edits (id : Id) (f : AlertEntry → AlertEntry) (m m' : AlertManager) : Prop where
  get : ∀ id', m'.entries.get id' =
    if id = id' then (m.entries.get id').map f else m.entries.get id'
  attentionId : m'.attentionId = m.attentionId
  watchedCommands : m'.watchedCommands = m.watchedCommands

theorem Edits.get_self {id : Id} {f : AlertEntry → AlertEntry} {m m' : AlertManager}
    (h : Edits id f m m') : m'.entries.get id = (m.entries.get id).map f := by
  rw [h.get, if_pos rfl]

theorem Edits.trans {id : Id} {f g : AlertEntry → AlertEntry} {a b c : AlertManager}
    (hab : Edits id f a b) (hbc : Edits id g b c) : Edits id (fun e => g (f e)) a c := by
  refine ⟨fun id' => ?_, hbc.attentionId.trans hab.attentionId,
    hbc.watchedCommands.trans hab.watchedCommands⟩
  rw [hbc.get, hab.get]
  split
  · rw [Option.map_map]
    rfl
  · rfl

theorem Edits.quiet {id : Id} {f : AlertEntry → AlertEntry} {a b c : AlertManager}
    (hab : Edits id f a b) (hbc : Quiet b c) : Edits id f a c :=
  ⟨fun id' => by rw [hbc.entries, hab.get], hbc.attentionId.trans hab.attentionId,
    hbc.watchedCommands.trans hab.watchedCommands⟩

theorem Edits.refl (id : Id) (m : AlertManager) : Edits id (fun e => e) m m :=
  ⟨fun id' => by split <;> simp, rfl, rfl⟩

theorem Edits.congr {id : Id} {f g : AlertEntry → AlertEntry} {m m' : AlertManager}
    (h : Edits id f m m') (hfg : ∀ e, m.entries.get id = some e → f e = g e) :
    Edits id g m m' := by
  refine ⟨fun id' => ?_, h.attentionId, h.watchedCommands⟩
  rw [h.get]
  split
  · rename_i heq
    subst heq
    cases he : m.entries.get id with
    | none => rfl
    | some e => simp only [Option.map_some, hfg e he]
  · rfl

/-- An edit keeps the entries coherent if it keeps the one it edits. -/
theorem Edits.coherentAs {id : Id} {f : AlertEntry → AlertEntry} {m m' : AlertManager}
    (h : Edits id f m m') {attended : Id → Bool} (hm : m.CoherentAs attended)
    (hedit : ∀ e, m.entries.get id = some e → e.Coherent (attended id) m.watchedCommands →
      (f e).Coherent (attended id) m.watchedCommands) : m'.CoherentAs attended := by
  intro id' e' he'
  rw [h.get] at he'
  rw [h.watchedCommands]
  split at he'
  · rename_i heq
    subst heq
    obtain ⟨e, he, rfl⟩ := Option.map_eq_some_iff.1 he'
    exact hedit e he (hm id e he)
  · exact hm id' e' he'

theorem Edits.latched {id : Id} {f : AlertEntry → AlertEntry} {m m' : AlertManager}
    (h : Edits id f m m') (hedit : ∀ e, m.entries.get id = some e → ∀ track, ¬P id track →
      e.rings track = true → (f e).rings track = true) (id' : Id) (track : Track)
    (hP : ¬P id' track) (hring : m.rings id' track = true) : m'.rings id' track = true := by
  obtain ⟨e, he, hringing⟩ := (Option.any_eq_true _ _).1 hring
  rw [rings, h.get]
  split
  · rename_i heq
    subst heq
    rw [he]
    exact hedit e he track hP hringing
  · rw [he]
    exact hringing

theorem Edits.effect {id : Id} {f : AlertEntry → AlertEntry} {m m' : AlertManager}
    (h : Edits id f m m') (hedit : ∀ e, m.entries.get id = some e →
      Edit (m.hasAttention id) m.watchedCommands (P id) e (f e)) : Effect P m m' := by
  refine ⟨fun hm => ?_, h.latched fun e he => (hedit e he).latched⟩
  have hattended : m'.hasAttention = m.hasAttention := by
    funext id'
    rw [hasAttention, hasAttention, h.attentionId]
  rw [Coherent, hattended]
  exact h.coherentAs hm fun e he => (hedit e he).coherent

theorem modifyEntry_edits (id : Id) (f : AlertEntry → AlertEntry) (m : AlertManager) :
    Edits id f m (m.modifyEntry id f) := by
  refine ⟨fun id' => ?_, ?_, ?_⟩
  · rw [modifyEntry]
    split
    · rename_i hnone
      split
      · rename_i heq
        rw [← heq, hnone]
        rfl
      · rfl
    rename_i e he
    simp only [InsertionMap.get_set]
    split
    · rename_i heq
      rw [← heq, he]
      rfl
    · rfl
  · rw [modifyEntry]
    split <;> rfl
  · rw [modifyEntry]
    split <;> rfl

theorem modifyEntry_hasAttention (id id' : Id) (f : AlertEntry → AlertEntry)
    (m : AlertManager) : (m.modifyEntry id f).hasAttention id' = m.hasAttention id' := by
  rw [hasAttention, hasAttention, (modifyEntry_edits id f m).attentionId]

theorem modifyEntry_effect {id : Id} {f : AlertEntry → AlertEntry} {m : AlertManager}
    (h : ∀ e, m.entries.get id = some e →
      Edit (m.hasAttention id) m.watchedCommands (P id) e (f e)) :
    Effect P m (m.modifyEntry id f) :=
  (modifyEntry_edits id f m).effect h

theorem modifyDetector_edits (id : Id) (f : QuiesceDetector → QuiesceDetector)
    (m : AlertManager) :
    Edits id (fun e => { e with detector := f e.detector }) m (m.modifyDetector id f) := by
  rw [modifyDetector]
  split
  · rename_i hnone
    exact (Edits.refl id m).congr fun e he => absurd (hnone.symm.trans he) (by simp)
  · simp only
    split
    · exact (modifyEntry_edits ..).quiet (notify_quiet id _)
    · exact modifyEntry_edits ..

theorem getOrCreateEntry_effect (id : Id) (m : AlertManager) :
    Effect P m (m.getOrCreateEntry id) := by
  rw [getOrCreateEntry]
  split
  · exact .refl m
  rename_i hfresh
  have hnone : m.entries.get id = none := by simpa [InsertionMap.has] using hfresh
  refine ⟨fun hm id' e' he' => ?_, fun id' track _ hring => ?_⟩
  · rcases InsertionMap.get_of_set he' with ⟨-, rfl⟩ | ⟨-, he'⟩
    · exact coherent_idle rfl rfl rfl rfl rfl rfl
    · exact hm id' e' he'
  · simp only [rings, InsertionMap.get_set]
    split
    · rename_i heq
      rw [rings, ← heq, hnone] at hring
      exact absurd hring (by simp)
    · exact hring

theorem rings_reportedEntry (id : Id) (m : AlertManager) (track : Track) :
    (m.reportedEntry id).rings id track = m.rings id track := by
  rw [reportedEntry, getOrCreateEntry]
  split
  · rfl
  · rename_i hfresh
    have hnone : m.entries.get id = none := by simpa [InsertionMap.has] using hfresh
    simp only [rings, InsertionMap.get_set_self, hnone]
    cases track <;> rfl

/-! ### Releasing rings -/

theorem releaseRing_edits (id : Id) (track : Track) (m : AlertManager) :
    Edits id (released track) m (m.releaseRing id track).1 := by
  rw [releaseRing]
  split
  · rename_i hnone
    exact (Edits.refl id m).congr fun e he => absurd (hnone.symm.trans he) (by simp)
  rename_i e₀ he₀
  have hkeep : e₀.rings track = false → Edits id (released track) m m := fun hring =>
    (Edits.refl id m).congr fun e he => by
      obtain rfl := Option.some.inj (he₀.symm.trans he)
      exact (released_of_not_rings hring).symm
  have hrelease : ∀ f : AlertEntry → AlertEntry, f e₀ = e₀.released track →
      ∀ e, m.entries.get id = some e → f e = e.released track := by
    intro f hf e he
    obtain rfl := Option.some.inj (he₀.symm.trans he)
    exact hf
  cases track with
  | protocol =>
    simp only
    split
    · rename_i hring
      exact hkeep (decide_eq_false hring)
    · rename_i hring
      exact (modifyEntry_edits ..).congr
        (hrelease _ (if_pos (not_not.1 hring)).symm)
  | commandExit =>
    simp only
    split
    · rename_i hring
      exact hkeep (decide_eq_false hring)
    · rename_i hring
      exact (modifyEntry_edits ..).congr
        (hrelease _ (if_pos (not_not.1 hring)).symm)
  | watching =>
    simp only
    split
    · rename_i hring
      exact hkeep (by rw [AlertEntry.rings, hring]; rfl)
    · rename_i hring
      exact ((modifyEntry_edits ..).trans (modifyDetector_edits ..)).congr
        (hrelease _ (if_pos hring).symm)

theorem clearAllRingsIfActive_edits (id : Id) (m : AlertManager) :
    Edits id allReleased m (m.clearAllRingsIfActive id).1 :=
  (modifyEntry_edits id clearDeferredNotification m).trans
    ((releaseRing_edits id .protocol _).trans
      ((releaseRing_edits id .commandExit _).trans (releaseRing_edits id .watching _)))

theorem releaseRing_effect (id : Id) (track : Track) (m : AlertManager)
    (hP : P id track) : Effect P m (m.releaseRing id track).1 :=
  (releaseRing_edits id track m).effect fun e _ => released_edit track e hP

theorem clearAllRingsIfActive_effect (id : Id) (m : AlertManager) (hP : ∀ track, P id track) :
    Effect P m (m.clearAllRingsIfActive id).1 :=
  (clearAllRingsIfActive_edits id m).effect fun e _ => allReleased_edit e hP

end AlertManager

end Dormouse.Alert
