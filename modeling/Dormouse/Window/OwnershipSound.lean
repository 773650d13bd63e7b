import Dormouse.Lib.Holdings
import Dormouse.Lib.Transition
import Dormouse.Window.Ownership

/-!
# Dormouse.Window.OwnershipSound

**A PTY has one owner.** The routers and the disposals that owe kills hold the PTYs, and the global
set is the register of what they hold. A spawn claims its id and a kill releases it whoever holds
it; as long as both concern an id that is the router's own or free (`Free`), nothing is held twice,
the register is exact, and no disposal kills a PTY that was spawned after it.
-/

namespace Dormouse.Window

/-- Who holds a PTY: a router, or its disposal. -/
inductive Holder
  | router (router : Nat)
  | disposal (router : Nat)
  deriving DecidableEq

namespace RouterHost

variable {s s' : RouterHost} {router : Nat} {id : JsString}

def heldIds (s : RouterHost) : Holder → List JsString
  | .router router => (s.routers[router]?.map Router.ownedPtyIds).getD []
  | .disposal router => ((s.disposals.get router).map Disposal.toKill).getD []

def held (s : RouterHost) (holder : Holder) : Set JsString := {id | id ∈ s.heldIds holder}

def registered (s : RouterHost) : Set JsString := {id | id ∈ s.globalOwnedPtyIds}

/-! ### The condition and the property -/

/-- The id is the router's own, or nobody's. -/
def IsFree (s : RouterHost) (r : Router) (id : JsString) : Prop :=
  id ∈ r.ownedPtyIds ∨ id ∉ s.globalOwnedPtyIds

/-- What is spawned or killed is the router's own, or nobody's. -/
def Free (s : RouterHost) : RouterEvent → Prop
  | .spawn router id helper _ =>
    ∀ r, s.live router = some r → s.refusesHelper r.ownedPtyIds helper = false → s.IsFree r id
  | .kill router id => ∀ r, s.live router = some r → s.IsFree r id
  | _ => True

/-- The routers of a window, with every step they can take. -/
def routing : System RouterHost RouterEvent where
  init s := s = create
  step s e t := s.step e = some t

/-- The routers, as long as the condition is met. -/
def freeRouting : System RouterHost RouterEvent where
  init s := s = create
  step s e t := s.Free e ∧ s.step e = some t

/-- A live router owns the id. -/
def Owns (s : RouterHost) (router : Nat) (id : JsString) : Prop :=
  ∃ r, s.live router = some r ∧ id ∈ r.ownedPtyIds

/-- A disposal has yet to kill the id. -/
def Reserves (s : RouterHost) (router : Nat) (id : JsString) : Prop :=
  ∃ d, s.disposals.get router = some d ∧ id ∈ d.toKill

/-- PTY ownership is in order. -/
structure Ordered (s : RouterHost) : Prop where
  exclusive : ∀ id router router', s.Owns router id → s.Owns router' id → router = router'
  register : ∀ id, id ∈ s.globalOwnedPtyIds ↔
    (∃ router, s.Owns router id) ∨ ∃ router, s.Reserves router id
  /-- What a router claims when its webview comes up is nobody's. -/
  resumed : ∀ router t, s.step (.init router) = some t → ∀ id, t.Owns router id →
    s.Owns router id ∨ (∀ other, ¬ s.Owns other id) ∧ ∀ other, ¬ s.Reserves other id
  /-- What a disposal kills was spawned before it, and is of no live router. -/
  spared : ∀ router d, s.disposals.get router = some d → ∀ id ∈ d.toKill,
    (∀ pty, s.ptyBuffers.get id = some pty → pty.spawned < d.since) ∧ ∀ other, ¬ s.Owns other id

/-! ### The invariant -/

structure Kept (s : RouterHost) : Prop where
  divides : Divides s.held s.registered
  closed : ∀ (router : Nat) (r : Router), s.routers[router]? = some r → r.disposed → r.ownedPtyIds = []
  settling : ∀ router d, s.disposals.get router = some d →
    ∃ r : Router, s.routers[router]? = some r ∧ r.disposed
  stamped : ∀ id pty, s.ptyBuffers.get id = some pty → pty.spawned < s.clock
  spared : ∀ router d, s.disposals.get router = some d → ∀ id ∈ d.toKill, ∀ pty,
    s.ptyBuffers.get id = some pty → pty.spawned < d.since

theorem live_eq_some {r : Router} :
    s.live router = some r ↔ s.routers[router]? = some r ∧ r.disposed = false := by
  simp [live, Option.filter_eq_some_iff]

theorem held_router {r : Router} (h : s.routers[router]? = some r) :
    s.held (.router router) = {id | id ∈ r.ownedPtyIds} := by
  simp [held, heldIds, h]

theorem held_disposal {d : Disposal} (h : s.disposals.get router = some d) :
    s.held (.disposal router) = {id | id ∈ d.toKill} := by
  simp [held, heldIds, h]

theorem mem_held_router : id ∈ s.held (.router router) ↔
    ∃ r, s.routers[router]? = some r ∧ id ∈ r.ownedPtyIds := by
  cases h : s.routers[router]? <;> simp [held, heldIds, h]

theorem mem_held_disposal : id ∈ s.held (.disposal router) ↔ s.Reserves router id := by
  cases h : s.disposals.get router <;> simp [held, heldIds, Reserves, h]

namespace Kept

/-- Disposed routers own nothing. -/
theorem owns_iff (h : Kept s) : s.Owns router id ↔ id ∈ s.held (.router router) := by
  rw [mem_held_router]
  constructor
  · rintro ⟨r, hlive, hmem⟩
    exact ⟨r, (live_eq_some.1 hlive).1, hmem⟩
  · rintro ⟨r, hr, hmem⟩
    refine ⟨r, live_eq_some.2 ⟨hr, ?_⟩, hmem⟩
    by_contra hdisposed
    rw [h.closed router r hr (by simpa using hdisposed)] at hmem
    exact absurd hmem List.not_mem_nil

theorem create : Kept create where
  divides := by
    have hheld : held RouterHost.create = fun _ => ∅ := by
      funext holder
      cases holder <;> simp [held, heldIds, RouterHost.create, InsertionMap.get, InsertionMap.empty,
        InsertionMap.getEntry]
    have hregistered : registered RouterHost.create = ∅ := by simp [registered, RouterHost.create]
    rw [hheld, hregistered]
    exact Divides.empty
  closed _ _ h := nomatch h
  settling _ _ h := nomatch h
  stamped _ _ h := nomatch h
  spared _ _ h := nomatch h

/-- Routers, register and disposals are as they were, or hold the same. -/
theorem congr (h : Kept s) (hrouters : s'.routers = s.routers)
    (hglobal : s'.globalOwnedPtyIds = s.globalOwnedPtyIds) (hdisposals : s'.disposals = s.disposals)
    (hstamped : ∀ id pty, s'.ptyBuffers.get id = some pty → pty.spawned < s'.clock)
    (hspared : ∀ router d, s.disposals.get router = some d → ∀ id ∈ d.toKill, ∀ pty,
      s'.ptyBuffers.get id = some pty → pty.spawned < d.since) : Kept s' where
  divides := by
    have hheld : s'.held = s.held := by
      funext holder
      cases holder <;> simp [held, heldIds, hrouters, hdisposals]
    rw [hheld, registered, hglobal]
    exact h.divides
  closed := by
    rw [hrouters]
    exact h.closed
  settling := by
    rw [hrouters, hdisposals]
    exact h.settling
  stamped := hstamped
  spared := by
    rw [hdisposals]
    exact hspared

/-! ### Claims and releases -/

theorem held_modifyOwned {r : Router} (hr : s.routers[router]? = some r)
    (f : List JsString → List JsString) :
    (s.modifyOwned router f).held =
      Function.update s.held (.router router) {id | id ∈ f r.ownedPtyIds} := by
  funext holder
  rcases holder with router' | router'
  · by_cases heq : router = router'
    · subst heq
      rw [Function.update_self]
      simp [held, heldIds, modifyOwned, hr]
    · rw [Function.update_of_ne (fun h => heq (Holder.router.inj h).symm)]
      simp [held, heldIds, modifyOwned, heq]
  · have hne : Holder.disposal router' ≠ .router router := fun h => nomatch h
    rw [Function.update_of_ne hne]
    rfl

/-- What becomes of the routers when one of them owns something else. -/
theorem modifyOwned_get {f : List JsString → List JsString} {router' : Nat} {r' : Router}
    (h : (s.modifyOwned router f).routers[router']? = some r') :
    ∃ r, s.routers[router']? = some r ∧ r'.disposed = r.disposed ∧
      (router' ≠ router → r'.ownedPtyIds = r.ownedPtyIds) := by
  rw [modifyOwned, List.getElem?_modify] at h
  obtain ⟨r, hr, rfl⟩ := Option.map_eq_some_iff.1 h
  refine ⟨r, hr, ?_⟩
  split
  · rename_i heq
    exact ⟨rfl, fun hne => absurd heq.symm hne⟩
  · exact ⟨rfl, fun _ => rfl⟩

/-- A live router owns something else: what is divided changes, nothing else. -/
theorem own {r : Router} (h : Kept s) (hlive : s.live router = some r)
    {f : List JsString → List JsString} {ids : List JsString}
    (hdivides : Divides (Function.update s.held (.router router) {id | id ∈ f r.ownedPtyIds})
      {id | id ∈ ids}) :
    Kept { s.modifyOwned router f with globalOwnedPtyIds := ids } where
  divides := by
    have hheld := held_modifyOwned (live_eq_some.1 hlive).1 f
    exact hheld ▸ hdivides
  closed router' r' hr' hdisposed := by
    obtain ⟨r₀, hr₀, hsame, howned⟩ := modifyOwned_get hr'
    by_cases heq : router' = router
    · subst heq
      obtain ⟨hr, hopen⟩ := live_eq_some.1 hlive
      cases hr₀.symm.trans hr
      rw [hsame, hopen] at hdisposed
      cases hdisposed
    · rw [howned heq]
      exact h.closed router' r₀ hr₀ (hsame ▸ hdisposed)
  settling router' d hd := by
    obtain ⟨r₀, hr₀, hdisposed⟩ := h.settling router' d hd
    have hr' : (s.modifyOwned router f).routers[router']? = some
        (if router = router' then { r₀ with ownedPtyIds := f r₀.ownedPtyIds } else r₀) := by
      rw [modifyOwned, List.getElem?_modify, hr₀]
      rfl
    refine ⟨_, hr', ?_⟩
    split
    · exact hdisposed
    · exact hdisposed
  stamped := h.stamped
  spared := h.spared

/-- A live router claims what is free. -/
theorem claim {r : Router} (h : Kept s) (hlive : s.live router = some r) (hfree : s.IsFree r id) :
    Kept (s.claim router id) := by
  have hheld := held_router (live_eq_some.1 hlive).1
  have htake := h.divides.take (h := .router router) (i := id) (by rw [hheld]; exact hfree)
  refine h.own hlive ?_
  have hids : {id' | id' ∈ addId id r.ownedPtyIds} = insert id (s.held (.router router)) := by
    rw [hheld]
    ext id'
    simp [or_comm]
  have hall : {id' | id' ∈ addId id s.globalOwnedPtyIds} = insert id s.registered := by
    ext id'
    simp [registered, or_comm]
  rw [hids]
  exact hall ▸ htake

/-- A live router releases what is its own, or nobody's. -/
theorem release {r : Router} (h : Kept s) (hlive : s.live router = some r) (hfree : s.IsFree r id) :
    Kept (s.release router id) := by
  have hheld := held_router (live_eq_some.1 hlive).1
  have hdrop := h.divides.drop (h := .router router) (s := {id}) (by
    rintro _ rfl
    rw [hheld]
    exact hfree)
  refine h.own hlive ?_
  have hids : {id' | id' ∈ deleteId id r.ownedPtyIds} = s.held (.router router) \ {id} := by
    rw [hheld]
    ext id'
    simp
  have hall : {id' | id' ∈ deleteId id s.globalOwnedPtyIds} = s.registered \ {id} := by
    ext id'
    simp [registered]
  rw [hids]
  exact hall ▸ hdrop

/-! ### Processes -/

/-- A router's own id gets a new process. -/
theorem spawnPty (h : Kept s) (hown : id ∈ s.held (.router router))
    (helper : Option Pty.HelperIdentity) (shell : Option JsString) :
    Kept (s.spawnPty id helper shell) := by
  refine h.congr rfl rfl rfl ?_ ?_
  · intro id' pty hpty
    have hpty : (s.ptyBuffers.set id ⟨true, none, shell, s.clock⟩).get id' = some pty := hpty
    show pty.spawned < s.clock + 1
    rw [InsertionMap.get_set] at hpty
    split at hpty
    · cases hpty
      exact Nat.lt_succ_self _
    · exact Nat.lt_succ_of_lt (h.stamped id' pty hpty)
  · intro router' d hd id' hmem pty hpty
    have hpty : (s.ptyBuffers.set id ⟨true, none, shell, s.clock⟩).get id' = some pty := hpty
    rw [InsertionMap.get_set] at hpty
    split at hpty
    · rename_i heq
      subst heq
      have hreserved : id ∈ s.held (.disposal router') := mem_held_disposal.2 ⟨d, hd, hmem⟩
      exact absurd (h.divides.eq_of_mem hown hreserved) fun heq => by cases heq
    · exact h.spared router' d hd id' hmem pty hpty

/-- Fewer processes. -/
theorem killPty (h : Kept s) (id : JsString) : Kept (s.killPty id) := by
  have hsub : ∀ id' pty, (s.ptyBuffers.delete id).get id' = some pty →
      s.ptyBuffers.get id' = some pty := by
    intro id' pty hpty
    exact (InsertionMap.get_of_delete hpty).2
  refine h.congr rfl rfl rfl ?_ ?_
  · exact fun id' pty hpty => h.stamped id' pty (hsub id' pty hpty)
  · exact fun router d hd id' hmem pty hpty => h.spared router d hd id' hmem pty (hsub id' pty hpty)

theorem emit (h : Kept s) (post : RouterPost) : Kept (s.emit post) :=
  h.congr rfl rfl rfl h.stamped h.spared

/-! ### Messages -/

theorem live_claim {r : Router} (id : JsString) (hlive : s.live router = some r) :
    (s.claim router id).live router = some { r with ownedPtyIds := addId id r.ownedPtyIds } := by
  obtain ⟨hr, hopen⟩ := live_eq_some.1 hlive
  refine live_eq_some.2 ⟨?_, hopen⟩
  simp [RouterHost.claim, modifyOwned, hr]

theorem spawn {r : Router} (h : Kept s) (hlive : s.live router = some r)
    {helper : Option Pty.HelperIdentity} {shell : Option JsString}
    (hfree : s.refusesHelper r.ownedPtyIds helper = false → s.IsFree r id) :
    Kept (s.spawn router r.ownedPtyIds id helper shell) := by
  unfold RouterHost.spawn
  split
  · exact h.emit _
  · rename_i haccepted
    have hclaimed := h.claim hlive (hfree (by simpa using haccepted))
    have hown : id ∈ (s.claim router id).held (.router router) :=
      mem_held_router.2 ⟨_, (live_eq_some.1 (live_claim id hlive)).1, by simp⟩
    exact hclaimed.spawnPty hown helper shell

theorem kill {r : Router} (h : Kept s) (hlive : s.live router = some r) (hfree : s.IsFree r id) :
    Kept (s.kill router id) :=
  (h.release hlive hfree).killPty id

end Kept

/-- What a router claims while its webview comes up: `s₀` is the state it came up in. -/
structure Claiming (s₀ : RouterHost) (router : Nat) (s : RouterHost) : Prop where
  kept : Kept s
  live : ∃ r, s.live router = some r
  grows : ∀ id ∈ s₀.globalOwnedPtyIds, id ∈ s.globalOwnedPtyIds
  claimed : ∀ id ∈ s.held (.router router), id ∈ s₀.held (.router router) ∨
    id ∉ s₀.globalOwnedPtyIds

namespace Claiming

variable {s₀ : RouterHost}

theorem refl {r : Router} (h : Kept s₀) (hlive : s₀.live router = some r) :
    Claiming s₀ router s₀ :=
  ⟨h, ⟨r, hlive⟩, fun _ hmem => hmem, fun _ => .inl⟩

theorem claim (h : Claiming s₀ router s) (hfree : id ∉ s.globalOwnedPtyIds) :
    Claiming s₀ router (s.claim router id) := by
  obtain ⟨r, hlive⟩ := h.live
  refine ⟨h.kept.claim hlive (.inr hfree), ⟨_, Kept.live_claim id hlive⟩, ?_, ?_⟩
  · exact fun id' hmem => mem_addId.2 (.inl (h.grows id' hmem))
  · intro id' hmem
    have hheld := held_router (live_eq_some.1 (Kept.live_claim id hlive)).1
    rw [hheld] at hmem
    rcases mem_addId.1 hmem with hmem | rfl
    · exact h.claimed id' ((held_router (live_eq_some.1 hlive).1).symm ▸ hmem)
    · exact .inr fun hmem => hfree (h.grows id' hmem)

theorem claimUnowned (ptys : List (JsString × BufferedPty)) (found : RouterHost × List ListedPty)
    (h : Claiming s₀ router found.1) :
    Claiming s₀ router (ptys.foldl (RouterHost.claimUnowned router) found).1 := by
  induction ptys generalizing found with
  | nil => exact h
  | cons pty ptys ih =>
    refine ih _ ?_
    unfold RouterHost.claimUnowned
    split
    · exact h
    · rename_i hfree
      exact h.claim hfree

theorem claimSaved (panes : List SavedPane) (h : Claiming s₀ router s) :
    Claiming s₀ router (panes.foldl (RouterHost.claimSaved router) s) := by
  induction panes generalizing s with
  | nil => exact h
  | cons pane panes ih =>
    refine ih ?_
    unfold RouterHost.claimSaved
    split
    · exact h
    · split
      · exact h
      · rename_i hfree
        exact h.claim hfree

theorem emit (h : Claiming s₀ router s) (post : RouterPost) : Claiming s₀ router (s.emit post) :=
  ⟨h.kept.emit post, h.live, h.grows, h.claimed⟩

/-- A webview comes up: its router claims what nobody holds. -/
theorem init {r : Router} (h : Kept s) (hlive : s.live router = some r) :
    Claiming s router (s.init router r) := by
  unfold RouterHost.init
  split
  · exact (refl h hlive).emit _
  have hclaimed := claimUnowned s.ptyBuffers.entries (s, r.ownedPtyIds.filterMap fun id =>
    (s.ptyBuffers.get id).map (s.listed id)) (refl h hlive)
  refine Claiming.emit ?_ _
  split
  · exact hclaimed.claimSaved _
  · exact hclaimed

end Claiming

namespace Kept

/-! ### Disposal -/

theorem held_dispose {r : Router} (hr : s.routers[router]? = some r) :
    (s.dispose router r).held = Function.update (Function.update s.held (.router router) ∅)
      (.disposal router) {id | id ∈ if r.killOnDispose then r.ownedPtyIds else []} := by
  funext holder
  rcases holder with router' | router'
  · have hne : Holder.router router' ≠ .disposal router := fun h => by cases h
    rw [Function.update_of_ne hne]
    by_cases heq : router = router'
    · subst heq
      rw [Function.update_self]
      simp [held, heldIds, RouterHost.dispose, hr]
    · rw [Function.update_of_ne (fun h => heq (Holder.router.inj h).symm)]
      simp [held, heldIds, RouterHost.dispose, heq]
  · by_cases heq : router = router'
    · subst heq
      rw [Function.update_self]
      simp [held, heldIds, RouterHost.dispose]
    · have hne : Holder.disposal router' ≠ .router router := fun h => by cases h
      rw [Function.update_of_ne (fun h => heq (Holder.disposal.inj h).symm),
        Function.update_of_ne hne]
      simp [held, heldIds, RouterHost.dispose, InsertionMap.get_set, heq]

theorem dispose {r : Router} (h : Kept s) (hlive : s.live router = some r) :
    Kept (s.dispose router r) := by
  obtain ⟨hr, hopen⟩ := live_eq_some.1 hlive
  have hheld := held_router hr
  -- A live router has no disposal yet.
  have hnone : s.disposals.get router = none := by
    by_contra hsome
    obtain ⟨d, hd⟩ := Option.ne_none_iff_exists'.1 hsome
    obtain ⟨r', hr', hdisposed⟩ := h.settling router d hd
    cases hr.symm.trans hr'
    rw [hopen] at hdisposed
    cases hdisposed
  have hempty : s.held (.disposal router) = ∅ := by simp [held, heldIds, hnone]
  have hne : Holder.router router ≠ .disposal router := fun heq => by cases heq
  constructor
  · rw [held_dispose hr, registered]
    unfold RouterHost.dispose
    split
    · rw [← hheld]
      exact h.divides.move hne hempty
    have hdrop := h.divides.drop (h := .router router) (s := s.held (.router router))
      fun _ => .inl
    rw [sdiff_self, Set.bot_eq_empty] at hdrop
    have hsame : Function.update (Function.update s.held (.router router) ∅) (.disposal router)
        {id | id ∈ ([] : List JsString)} = Function.update s.held (.router router) ∅ := by
      refine Function.update_eq_self_iff.2 ?_
      rw [Function.update_of_ne hne.symm, hempty]
      simp
    have hall : {id | id ∈ s.globalOwnedPtyIds.filter fun id => id ∉ r.ownedPtyIds} =
        s.registered \ s.held (.router router) := by
      rw [hheld]
      ext id
      simp [registered]
    rw [hsame, hall]
    exact hdrop
  · intro router' r' hr' hdisposed
    have hr' : (s.routers.modify router fun r => { r with ownedPtyIds := [], disposed := true })[router']? =
        some r' := hr'
    rw [List.getElem?_modify] at hr'
    obtain ⟨r₀, hr₀, rfl⟩ := Option.map_eq_some_iff.1 hr'
    split at hdisposed
    · rename_i heq
      rw [if_pos heq]
    · rename_i heq
      rw [if_neg heq]
      exact h.closed router' r₀ hr₀ hdisposed
  · intro router' d hd
    have hd : (s.disposals.set router _).get router' = some d := hd
    rw [InsertionMap.get_set] at hd
    have hget : ∀ r₀, s.routers[router']? = some r₀ → (s.dispose router r).routers[router']? = some
        (if router = router' then { r₀ with ownedPtyIds := [], disposed := true } else r₀) := by
      intro r₀ hr₀
      show (s.routers.modify router _)[router']? = _
      rw [List.getElem?_modify, hr₀]
      rfl
    split at hd
    · rename_i heq
      exact ⟨_, hget r (heq ▸ hr), by rw [if_pos heq]⟩
    · rename_i heq
      obtain ⟨r₀, hr₀, hdisposed⟩ := h.settling router' d hd
      exact ⟨_, hget r₀ hr₀, by rw [if_neg heq]; exact hdisposed⟩
  · exact fun id pty hpty => Nat.lt_succ_of_lt (h.stamped id pty hpty)
  · intro router' d hd id hmem pty hpty
    have hd : (s.disposals.set router _).get router' = some d := hd
    rw [InsertionMap.get_set] at hd
    split at hd
    · cases hd
      exact h.stamped id pty hpty
    · exact h.spared router' d hd id hmem pty hpty

/-- What the kills of a disposal leave. -/
theorem foldl_killOwed (ids : List JsString) (s : RouterHost) :
    (ids.foldl killOwed s).routers = s.routers ∧ (ids.foldl killOwed s).disposals = s.disposals ∧
      (ids.foldl killOwed s).clock = s.clock ∧
      (∀ id, id ∈ (ids.foldl killOwed s).globalOwnedPtyIds ↔ id ∈ s.globalOwnedPtyIds ∧ id ∉ ids) ∧
      ∀ id pty, (ids.foldl killOwed s).ptyBuffers.get id = some pty →
        s.ptyBuffers.get id = some pty := by
  induction ids generalizing s with
  | nil => simp
  | cons id ids ih =>
    obtain ⟨hrouters, hdisposals, hclock, hglobal, hbuffers⟩ := ih (s.killOwed id)
    refine ⟨hrouters, hdisposals, hclock, fun id' => ?_, fun id' pty hpty => ?_⟩
    · rw [List.foldl_cons, hglobal, killOwed, mem_deleteId, List.mem_cons, not_or, and_assoc]
      rfl
    · have hkilled : (s.ptyBuffers.delete id).get id' = some pty := hbuffers id' pty hpty
      exact (InsertionMap.get_of_delete hkilled).2

theorem settle {d : Disposal} (h : Kept s) (hd : s.disposals.get router = some d) :
    Kept (s.settle router d) := by
  obtain ⟨hrouters, hdisposals, hclock, hglobal, hbuffers⟩ :=
    foldl_killOwed d.toKill { s with disposals := s.disposals.delete router }
  have hheld := held_disposal hd
  have hafter : (s.settle router d).disposals = s.disposals.delete router := hdisposals
  constructor
  · have hdrop := h.divides.drop (h := .disposal router) (s := s.held (.disposal router))
      fun _ => .inl
    rw [sdiff_self, Set.bot_eq_empty] at hdrop
    have hall : (s.settle router d).registered = s.registered \ s.held (.disposal router) := by
      rw [hheld]
      ext id
      exact hglobal id
    have hheld' : (s.settle router d).held = Function.update s.held (.disposal router) ∅ := by
      funext holder
      rcases holder with router' | router'
      · have hne : Holder.router router' ≠ .disposal router := fun heq => nomatch heq
        rw [Function.update_of_ne hne]
        simp [held, heldIds, RouterHost.settle, hrouters]
      by_cases heq : router = router'
      · subst heq
        rw [Function.update_self]
        simp [held, heldIds, hafter]
      · rw [Function.update_of_ne (fun heq' => heq (Holder.disposal.inj heq').symm)]
        simp [held, heldIds, hafter, InsertionMap.get_delete, heq]
    rw [hall, hheld']
    exact hdrop
  · intro router' r hr hdisposed
    exact h.closed router' r (hrouters ▸ hr) hdisposed
  · intro router' d' hd'
    rw [hafter, InsertionMap.get_delete] at hd'
    split at hd'
    · cases hd'
    · obtain ⟨r, hr, hdisposed⟩ := h.settling router' d' hd'
      exact ⟨r, hrouters.symm ▸ hr, hdisposed⟩
  · intro id pty hpty
    show pty.spawned < (d.toKill.foldl killOwed _).clock
    rw [hclock]
    exact h.stamped id pty (hbuffers id pty hpty)
  · intro router' d' hd' id hmem pty hpty
    rw [hafter, InsertionMap.get_delete] at hd'
    split at hd'
    · cases hd'
    · exact h.spared router' d' hd' id hmem pty (hbuffers id pty hpty)

theorem attach (h : Kept s) (r : Router) (hempty : r.ownedPtyIds = []) :
    Kept { s with routers := s.routers ++ [r] } := by
  have hold : ∀ (router : Nat) (r' : Router), s.routers[router]? = some r' →
      (s.routers ++ [r])[router]? = some r' := by
    intro router r' hr'
    rw [List.getElem?_append_left (List.getElem?_eq_some_iff.1 hr').1]
    exact hr'
  have hnew : ∀ (router : Nat) (r' : Router), (s.routers ++ [r])[router]? = some r' →
      s.routers[router]? = some r' ∨ s.routers[router]? = none ∧ r' = r := by
    intro router r' hr'
    rw [List.getElem?_append] at hr'
    split at hr'
    · exact .inl hr'
    · rename_i hlength
      rw [List.getElem?_singleton] at hr'
      split at hr'
      · exact .inr ⟨List.getElem?_eq_none (Nat.le_of_not_lt hlength), (Option.some.inj hr').symm⟩
      · cases hr'
  constructor
  · have hheld : held { s with routers := s.routers ++ [r] } = s.held := by
      funext holder
      rcases holder with router | router
      · ext id
        rw [mem_held_router, mem_held_router]
        constructor
        · rintro ⟨r', hr', hmem⟩
          rcases hnew router r' hr' with hr' | ⟨-, rfl⟩
          · exact ⟨r', hr', hmem⟩
          · rw [hempty] at hmem
            exact absurd hmem List.not_mem_nil
        · rintro ⟨r', hr', hmem⟩
          exact ⟨r', hold router r' hr', hmem⟩
      · rfl
    rw [hheld]
    exact h.divides
  · intro router r' hr' hdisposed
    rcases hnew router r' hr' with hr' | ⟨-, rfl⟩
    · exact h.closed router r' hr' hdisposed
    · exact hempty
  · intro router d hd
    obtain ⟨r', hr', hdisposed⟩ := h.settling router d hd
    exact ⟨r', hold router r' hr', hdisposed⟩
  · exact h.stamped
  · exact h.spared

theorem step {event : RouterEvent} (h : Kept s) (hfree : s.Free event)
    (hstep : s.step event = some s') : Kept s' := by
  cases event with
  | attach killOnDispose reconnect savedSession =>
    cases hstep
    exact h.attach _ rfl
  | spawn router id helper shell =>
    obtain ⟨r, hlive, rfl⟩ := Option.map_eq_some_iff.1 hstep
    exact h.spawn hlive (hfree r hlive)
  | kill router id =>
    obtain ⟨r, hlive, rfl⟩ := Option.map_eq_some_iff.1 hstep
    exact h.kill hlive (hfree r hlive)
  | init router =>
    obtain ⟨r, hlive, rfl⟩ := Option.map_eq_some_iff.1 hstep
    exact (Claiming.init h hlive).kept
  | dispose router =>
    obtain ⟨r, hlive, rfl⟩ := Option.map_eq_some_iff.1 hstep
    exact h.dispose hlive
  | settled router =>
    obtain ⟨d, hd, rfl⟩ := Option.map_eq_some_iff.1 hstep
    exact h.settle hd
  | exited id exitCode =>
    obtain ⟨info, hinfo, rfl⟩ := Option.map_eq_some_iff.1 hstep
    -- An exit keeps the time of the spawn.
    have hsame : ∀ id' pty, (s.ptyBuffers.set id
        { info with alive := false, exitCode := some exitCode }).get id' = some pty →
        ∃ pty', s.ptyBuffers.get id' = some pty' ∧ pty.spawned = pty'.spawned := by
      intro id' pty hpty
      rcases InsertionMap.get_of_set hpty with ⟨heq, rfl⟩ | ⟨-, hpty⟩
      · exact ⟨info, heq ▸ hinfo, rfl⟩
      · exact ⟨pty, hpty, rfl⟩
    refine h.congr rfl rfl rfl ?_ ?_
    · intro id' pty hpty
      obtain ⟨pty', hpty', heq⟩ := hsame id' pty hpty
      exact heq ▸ h.stamped id' pty' hpty'
    · intro router d hd id' hmem pty hpty
      obtain ⟨pty', hpty', heq⟩ := hsame id' pty hpty
      exact heq ▸ h.spared router d hd id' hmem pty' hpty'

theorem ordered (h : Kept s) : Ordered s where
  exclusive id router router' howns howns' :=
    Holder.router.inj (h.divides.eq_of_mem (h.owns_iff.1 howns) (h.owns_iff.1 howns'))
  register id := by
    refine h.divides.mem_all.trans ⟨?_, ?_⟩
    · rintro ⟨router | router, hmem⟩
      · exact .inl ⟨router, h.owns_iff.2 hmem⟩
      · exact .inr ⟨router, mem_held_disposal.1 hmem⟩
    · rintro (⟨router, howns⟩ | ⟨router, hreserves⟩)
      · exact ⟨.router router, h.owns_iff.1 howns⟩
      · exact ⟨.disposal router, mem_held_disposal.2 hreserves⟩
  resumed router t hstep id howns := by
    obtain ⟨r, hlive, rfl⟩ := Option.map_eq_some_iff.1 hstep
    have hclaiming := Claiming.init h hlive
    rcases hclaiming.claimed id (hclaiming.kept.owns_iff.1 howns) with hmem | hfree
    · exact .inl (h.owns_iff.2 hmem)
    · refine .inr ⟨fun other howns' => hfree ?_, fun other hreserves => hfree ?_⟩
      · exact h.divides.mem_all.2 ⟨_, h.owns_iff.1 howns'⟩
      · exact h.divides.mem_all.2 ⟨_, mem_held_disposal.2 hreserves⟩
  spared router d hd id hmem := by
    refine ⟨h.spared router d hd id hmem, fun other howns => ?_⟩
    have hreserved : id ∈ s.held (.disposal router) := mem_held_disposal.2 ⟨d, hd, hmem⟩
    exact absurd (h.divides.eq_of_mem (h.owns_iff.1 howns) hreserved) fun heq => nomatch heq

end Kept

theorem inductive_kept : freeRouting.Inductive Kept where
  init hinit := hinit ▸ Kept.create
  step h hstep := h.step hstep.1 hstep.2

theorem live_modifyOwned {router' : Nat} (hne : router' ≠ router) (f : List JsString → List JsString) :
    (s.modifyOwned router f).live router' = s.live router' := by
  simp [live, modifyOwned, hne.symm]

/-- An id that is not free for a router is held by another one, or by a disposal. -/
theorem held_of_not_free {r : Router} (h : Kept s) (hlive : s.live router = some r)
    (hnot : ¬ s.IsFree r id) :
    (∃ other, other ≠ router ∧ s.Owns other id) ∨ ∃ other, s.Reserves other id := by
  obtain ⟨hother, hregistered⟩ := not_or.1 hnot
  obtain ⟨other | other, hmem⟩ := h.divides.mem_all.1 (not_not.1 hregistered)
  · refine .inl ⟨other, ?_, h.owns_iff.2 hmem⟩
    rintro rfl
    rw [held_router (live_eq_some.1 hlive).1] at hmem
    exact hother hmem
  · exact .inr ⟨other, mem_held_disposal.1 hmem⟩

/-- The condition is exact: a spawn or a kill of what another holds leaves things out of order. -/
theorem ordered_iff_free {event : RouterEvent} (h : Kept s) (hstep : s.step event = some s') :
    s'.Ordered ↔ s.Free event := by
  refine ⟨fun hordered => ?_, fun hfree => (h.step hfree hstep).ordered⟩
  cases event with
  | spawn router id helper shell =>
    intro r hlive haccepted
    obtain ⟨r', hlive', rfl⟩ := Option.map_eq_some_iff.1 hstep
    cases hlive.symm.trans hlive'
    by_contra hnot
    have hspawned : s.spawn router r.ownedPtyIds id helper shell =
        (s.claim router id).spawnPty id helper shell := by
      rw [RouterHost.spawn, haccepted]
      rfl
    rw [hspawned] at hordered
    have howns : ((s.claim router id).spawnPty id helper shell).Owns router id :=
      ⟨_, Kept.live_claim id hlive, by simp⟩
    rcases held_of_not_free h hlive hnot with ⟨other, hne, r', hother, hmem⟩ | ⟨other, d, hd, hmem⟩
    · exact hne (hordered.exclusive id other router
        ⟨r', (live_modifyOwned hne _).trans hother, hmem⟩ howns)
    · exact (hordered.spared other d hd id hmem).2 router howns
  | kill router id =>
    intro r hlive
    obtain ⟨r', hlive', rfl⟩ := Option.map_eq_some_iff.1 hstep
    by_contra hnot
    have hregistered : id ∉ (s.kill router id).globalOwnedPtyIds := fun hmem =>
      (mem_deleteId.1 hmem).2 rfl
    refine hregistered ((hordered.register id).2 ?_)
    rcases held_of_not_free h hlive hnot with ⟨other, hne, r', hother, hmem⟩ | hreserves
    · exact .inl ⟨other, r', (live_modifyOwned hne _).trans hother, hmem⟩
    · exact .inr hreserves
  | attach killOnDispose reconnect savedSession => trivial
  | init router => trivial
  | dispose router => trivial
  | settled router => trivial
  | exited id exitCode => trivial

/-- As long as routers spawn and kill what is theirs or nobody's, every PTY has one owner. -/
theorem ownership_ordered {s : RouterHost} (h : freeRouting.Reachable s) : s.Ordered :=
  (inductive_kept.reachable h).ordered

/-! ### A panel closed and reopened -/

theorem next_reachable (event : RouterEvent) (h : freeRouting.Reachable s) (hfree : s.Free event)
    (hstep : s.step event = some s') : freeRouting.Reachable s' :=
  .next h ⟨hfree, hstep⟩

/-- A panel has spawned a terminal and been closed; its archive write is under way. -/
def closing : RouterHost where
  routers := [⟨true, false, none, [], true⟩]
  globalOwnedPtyIds := [js "pane"]
  ptyBuffers := .set .empty (js "pane") ⟨true, none, none, 0⟩
  helperPtys := .empty
  disposals := .set .empty 0 ⟨[js "pane"], 1⟩
  clock := 2
  posts := []

theorem closing_reachable : freeRouting.Reachable closing := by
  have hattached := next_reachable (.attach true false none) (.start rfl) trivial rfl
  have hspawned := next_reachable (.spawn 0 (js "pane") none none) hattached
    (fun r _ _ => .inr List.not_mem_nil) rfl
  exact next_reachable (.dispose 0) hspawned trivial rfl

theorem ownership_ordered_closing : closing.Ordered := ownership_ordered closing_reachable

theorem reachable_of_free (h : freeRouting.Reachable s) : routing.Reachable s := by
  induction h with
  | start hinit => exact .start hinit
  | next _ hstep ih => exact .next ih hstep.2

/-- The panel is reopened, spawns the terminal of the saved pane, and the kill of its predecessor
takes it: it is killed, and its owner is no longer registered. -/
theorem reopened_pane_killed : ∃ s, routing.Reachable s ∧ s.Owns 1 (js "pane") ∧
    s.ptyBuffers.get (js "pane") = none ∧ js "pane" ∉ s.globalOwnedPtyIds ∧ ¬ s.Ordered := by
  have hattached := System.Reachable.next (a := RouterEvent.attach true true none)
    (reachable_of_free closing_reachable) rfl
  have hspawned := System.Reachable.next (a := RouterEvent.spawn 1 (js "pane") none none) hattached rfl
  have hsettled := System.Reachable.next (a := RouterEvent.settled 0) hspawned rfl
  refine ⟨_, hsettled, ⟨_, rfl, List.mem_singleton.2 rfl⟩, rfl, List.not_mem_nil, fun hordered => ?_⟩
  have hregistered := (hordered.register (js "pane")).2
    (.inl ⟨1, _, rfl, List.mem_singleton.2 rfl⟩)
  exact absurd hregistered List.not_mem_nil

end RouterHost

end Dormouse.Window
