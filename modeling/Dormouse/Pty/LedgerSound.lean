import Dormouse.Pty.Generations

/-!
# Dormouse.Pty.LedgerSound

The **ledger of a run** of PTY processes: what each entry changes, and that the sinks attached
under the current process of an id stay apart from the processes before it, as long as nothing
of these comes while that one is current.
-/

namespace Dormouse.Pty

namespace Ledger

variable {l : Ledger} {id id' : JsString} {p n sink : Nat} {data : JsString} {exitCode : Int}
  {sinks : List Nat} {told : Option Int}

/-! ### What an entry of the ledger changes -/

@[simp] theorem outputOf_delivered : (l.delivered p data sinks).outputOf n =
    l.outputOf n ++ if p = n then data else [] := by
  simp [outputOf, delivered, Event.outputOf]

@[simp] theorem outputOf_tell : (l.tell sinks exitCode).outputOf n = l.outputOf n := by
  simp [outputOf, tell, Event.outputOf]

@[simp] theorem outputOf_reported :
    (l.reported p id exitCode sinks).outputOf n = l.outputOf n := by
  simp [outputOf, reported, tell, Event.outputOf]

@[simp] theorem outputOf_spawned : (l.spawned id).outputOf n = l.outputOf n := rfl

@[simp] theorem outputOf_stage (st : Stage) : (l.stage p id st).outputOf n = l.outputOf n := rfl

@[simp] theorem outputOf_attached : (l.attached id told).outputOf n = l.outputOf n := by
  simp [outputOf, attached, Event.outputOf]

@[simp] theorem reportsOf_delivered :
    (l.delivered p data sinks).reportsOf n = l.reportsOf n := by
  simp [reportsOf, delivered, Event.reportOf]

@[simp] theorem reportsOf_tell : (l.tell sinks exitCode).reportsOf n = l.reportsOf n := by
  simp [reportsOf, tell, Event.reportOf]

@[simp] theorem reportsOf_reported : (l.reported p id exitCode sinks).reportsOf n =
    l.reportsOf n ++ if p = n then [exitCode] else [] := by
  by_cases h : p = n <;> simp [reportsOf, reported, tell, Event.reportOf, h]

@[simp] theorem reportsOf_spawned : (l.spawned id).reportsOf n = l.reportsOf n := rfl

@[simp] theorem reportsOf_stage (st : Stage) : (l.stage p id st).reportsOf n = l.reportsOf n := rfl

@[simp] theorem reportsOf_attached : (l.attached id told).reportsOf n = l.reportsOf n := by
  simp [reportsOf, attached, Event.reportOf]

@[simp] theorem toldTo_delivered : (l.delivered p data sinks).toldTo sink = l.toldTo sink := by
  simp [toldTo, delivered, Event.toldTo]

theorem toldTo_tell (h : sinks.Nodup) : (l.tell sinks exitCode).toldTo sink =
    l.toldTo sink ++ if sink ∈ sinks then [exitCode] else [] := by
  have hmap : (sinks.map fun s => Event.told s exitCode).filterMap (Event.toldTo sink) =
      if sink ∈ sinks then [exitCode] else [] := by
    induction sinks with
    | nil => rfl
    | cons s sinks ih =>
      rw [List.nodup_cons] at h
      by_cases hs : s = sink
      · subst hs
        simp [ih h.2, h.1, Event.toldTo]
      · simp [hs, Ne.symm hs, ih h.2, Event.toldTo]
  rw [toldTo, tell, List.filterMap_append, hmap, toldTo]

theorem toldTo_reported (h : sinks.Nodup) : (l.reported p id exitCode sinks).toldTo sink =
    l.toldTo sink ++ if sink ∈ sinks then [exitCode] else [] := by
  rw [← toldTo_tell h]
  simp [toldTo, reported, Event.toldTo]

@[simp] theorem toldTo_spawned : (l.spawned id).toldTo sink = l.toldTo sink := rfl

@[simp] theorem toldTo_stage (st : Stage) : (l.stage p id st).toldTo sink = l.toldTo sink := rfl

theorem toldTo_attached : (l.attached id told).toldTo sink =
    l.toldTo sink ++ if l.sinks = sink then told.toList else [] := by
  cases told <;> by_cases h : l.sinks = sink <;> simp [toldTo, attached, List.filterMap_cons, Event.toldTo, h]

/-! ### The invariant -/

/-- The sinks were attached to this id. -/
def AttachedTo (l : Ledger) (id : JsString) (sinks : List Nat) : Prop :=
  ∀ sink ∈ sinks, ∃ spawns, Event.attached sink id spawns ∈ l.history

/-- Besides, none has been told of an exit. -/
def Listening (l : Ledger) (id : JsString) (sinks : List Nat) : Prop :=
  sinks.Nodup ∧ l.AttachedTo id sinks ∧ ∀ sink ∈ sinks, l.toldTo sink = []

/-- An entry of the ledger is about what the ledger knows. -/
structure Sound (l : Ledger) : Prop extends l.Apart where
  attachedLt : ∀ sink id spawns, Event.attached sink id spawns ∈ l.history →
    sink < l.sinks ∧ spawns ≤ l.spawns
  attachedOnce : ∀ sink id id' spawns spawns', Event.attached sink id spawns ∈ l.history →
    Event.attached sink id' spawns' ∈ l.history → id = id'
  handedLt : ∀ sink p data, Event.handed sink p data ∈ l.history → sink < l.sinks
  toldLt : ∀ sink, l.toldTo sink ≠ [] → sink < l.sinks
  processLt : ∀ n process, l.processes.get n = some process → n < l.spawns
  currentIs : ∀ id n, l.current.get id = some n →
    ∃ stage, l.processes.get n = some ⟨id, stage⟩

theorem sound_create : Ledger.create.Sound where
  handed _ _ h := by cases h
  untold _ _ h := by cases h
  once _ := Nat.zero_le _
  attachedLt _ _ _ h := by cases h
  attachedOnce _ _ _ _ _ h := by cases h
  handedLt _ _ _ h := by cases h
  toldLt _ h := absurd rfl h
  processLt _ _ h := by cases h
  currentIs _ _ h := by cases h

theorem listening_nil : l.Listening id [] :=
  ⟨List.nodup_nil, fun _ h => (List.not_mem_nil h).elim, fun _ h => (List.not_mem_nil h).elim⟩

/-- A sink of another id is not among the sinks of this one. -/
theorem Sound.notMem (h : l.Sound) (hsinks : l.AttachedTo id sinks) (hne : id ≠ id') {spawns : Nat}
    (hsink : Event.attached sink id' spawns ∈ l.history) : sink ∉ sinks := fun hmem => by
  obtain ⟨spawns', hattached⟩ := hsinks sink hmem
  exact hne (h.attachedOnce sink id id' _ _ hattached hsink)

theorem Sound.lt (h : l.Sound) (hsinks : l.AttachedTo id sinks) (hsink : sink ∈ sinks) :
    sink < l.sinks := by
  obtain ⟨spawns, hattached⟩ := hsinks sink hsink
  exact (h.attachedLt sink id spawns hattached).1

theorem Sound.fresh (h : l.Sound) : l.processes.get l.spawns = none := by
  by_contra hne
  obtain ⟨process, hprocess⟩ := Option.ne_none_iff_exists'.1 hne
  exact Nat.lt_irrefl _ (h.processLt _ process hprocess)

/-- A process is current for its own id alone. -/
theorem Sound.id_eq (h : l.Sound) {st : Stage} (hp : l.processes.get p = some ⟨id, st⟩)
    (hcurrent : l.current.get id' = some p) : id = id' := by
  obtain ⟨st', hp'⟩ := h.currentIs id' p hcurrent
  exact congrArg Process.id (Option.some.inj (hp.symm.trans hp'))

/-- A ledger that has gone on keeps the sinks attached, and those it tells nothing listen. -/
theorem AttachedTo.of_append {l' : Ledger} {events : List Event} (h : l.AttachedTo id sinks)
    (hl : l'.history = l.history ++ events) : l'.AttachedTo id sinks := fun s hs => by
  obtain ⟨spawns, hmem⟩ := h s hs
  exact ⟨spawns, hl ▸ List.mem_append_left _ hmem⟩

theorem Listening.of_append {l' : Ledger} {events : List Event} (h : l.Listening id sinks)
    (hl : l'.history = l.history ++ events)
    (htold : ∀ sink ∈ sinks, l'.toldTo sink = l.toldTo sink) : l'.Listening id sinks :=
  ⟨h.1, h.2.1.of_append hl, fun s hs => (htold s hs).trans (h.2.2 s hs)⟩

theorem timely_iff : l.timely p id = true ↔ ∀ n, l.current.get id = some n → n = p := by
  unfold timely
  cases l.current.get id <;> simp

theorem attached_mem_delivered {spawns : Nat} :
    Event.attached sink id spawns ∈ (l.delivered p data sinks).history ↔
      Event.attached sink id spawns ∈ l.history := by
  simp [delivered]

theorem attached_mem_tell {spawns : Nat} :
    Event.attached sink id spawns ∈ (l.tell sinks exitCode).history ↔
      Event.attached sink id spawns ∈ l.history := by
  simp [tell]

theorem attached_mem_reported {spawns : Nat} :
    Event.attached sink id spawns ∈ (l.reported p id' exitCode sinks).history ↔
      Event.attached sink id spawns ∈ l.history := by
  simp [reported, tell]

theorem handed_mem_delivered {s q : Nat} {d : JsString} :
    Event.handed s q d ∈ (l.delivered p data sinks).history ↔
      Event.handed s q d ∈ l.history ∨ (s ∈ sinks ∧ q = p ∧ d = data) := by
  simp only [delivered, List.mem_append, List.mem_cons, List.mem_map, reduceCtorEq, false_or,
    Event.handed.injEq]
  constructor
  · rintro (h | ⟨a, ha, rfl, rfl, rfl⟩)
    · exact .inl h
    · exact .inr ⟨ha, rfl, rfl⟩
  · rintro (h | ⟨ha, rfl, rfl⟩)
    · exact .inl h
    · exact .inr ⟨s, ha, rfl, rfl, rfl⟩

theorem handed_mem_tell {s q : Nat} {d : JsString} :
    Event.handed s q d ∈ (l.tell sinks exitCode).history ↔ Event.handed s q d ∈ l.history := by
  simp [tell]

theorem handed_mem_reported {s q : Nat} {d : JsString} :
    Event.handed s q d ∈ (l.reported p id exitCode sinks).history ↔
      Event.handed s q d ∈ l.history := by
  simp [reported, tell]

/-! ### What an entry keeps -/

theorem Sound.delivered (h : l.Sound) (hsinks : l.AttachedTo id sinks) (htimely : l.timely p id) :
    (l.delivered p data sinks).Sound where
  handed id' n hn s spawns hs hlt q d hd := by
    rw [attached_mem_delivered] at hs
    rw [handed_mem_delivered] at hd
    rcases hd with hd | ⟨hmem, rfl, rfl⟩
    · exact h.handed id' n hn s spawns hs hlt q d hd
    · by_cases hid : id = id'
      · subst hid
        exact (timely_iff.1 htimely n hn).symm
      · exact absurd hmem (h.notMem hsinks hid hs)
  untold id' n hn s spawns hs hlt := by
    rw [attached_mem_delivered] at hs
    rw [toldTo_delivered]
    exact h.untold id' n hn s spawns hs hlt
  once s := by
    rw [toldTo_delivered]
    exact h.once s
  attachedLt s id' spawns hs := h.attachedLt s id' spawns (attached_mem_delivered.1 hs)
  attachedOnce s id' id'' _ _ hs hs' :=
    h.attachedOnce s id' id'' _ _ (attached_mem_delivered.1 hs) (attached_mem_delivered.1 hs')
  handedLt s q d hd := by
    rcases handed_mem_delivered.1 hd with hd | ⟨hmem, -, -⟩
    · exact h.handedLt s q d hd
    · exact h.lt hsinks hmem
  toldLt s hs := h.toldLt s (by rwa [toldTo_delivered] at hs)
  processLt := h.processLt
  currentIs := h.currentIs

/-- A sink that is told had not been, and was attached. -/
theorem Sound.toldTo_le (h : l.Sound) (hsinks : l.Listening id sinks) (s : Nat) :
    (l.toldTo s ++ if s ∈ sinks then [exitCode] else []).length ≤ 1 := by
  by_cases hs : s ∈ sinks
  · simp [hsinks.2.2 s hs, hs]
  · simpa [hs] using h.once s

theorem Sound.sink_lt (h : l.Sound) (hsinks : l.Listening id sinks) {s : Nat}
    (hs : l.toldTo s ++ (if s ∈ sinks then [exitCode] else []) ≠ []) : s < l.sinks := by
  by_cases hmem : s ∈ sinks
  · exact h.lt hsinks.2.1 hmem
  · exact h.toldLt s (by simpa [hmem] using hs)

/-- The id of a process that exits has none that is current any more. -/
theorem current_of_reported (htimely : l.timely p id)
    (hn : (l.reported p id exitCode sinks).current.get id' = some n) :
    id ≠ id' ∧ l.current.get id' = some n := by
  unfold Ledger.reported at hn
  split at hn
  · exact InsertionMap.get_of_delete hn
  · next hp => exact ⟨fun hid => hp (timely_iff.1 htimely n (hid ▸ hn) ▸ hid ▸ hn), hn⟩

/-- The sinks of another id are not told. -/
theorem Sound.listening_reported {sinks' : List Nat} (h : l.Sound) (hsinks : l.Listening id sinks)
    (hne : id ≠ id') (hother : l.Listening id' sinks') :
    (l.reported p id exitCode sinks).Listening id' sinks' :=
  hother.of_append (List.append_assoc _ _ _) fun sink hs => by
    obtain ⟨spawns, hmem⟩ := hother.2.1 sink hs
    rw [toldTo_reported hsinks.1, if_neg (h.notMem hsinks.2.1 hne hmem), List.append_nil]

theorem Sound.reported (h : l.Sound) (hsinks : l.Listening id sinks) (htimely : l.timely p id) :
    (l.reported p id exitCode sinks).Sound := by
  have hcurrent : ∀ id' n, (l.reported p id exitCode sinks).current.get id' = some n →
      id ≠ id' ∧ l.current.get id' = some n := fun _ _ => current_of_reported htimely
  exact {
    handed := fun id' n hn s spawns hs hlt q d hd =>
      h.handed id' n (hcurrent id' n hn).2 s spawns (attached_mem_reported.1 hs) hlt q d
        (handed_mem_reported.1 hd)
    untold := fun id' n hn s spawns hs hlt => by
      obtain ⟨hid, hn⟩ := hcurrent id' n hn
      rw [attached_mem_reported] at hs
      rw [toldTo_reported hsinks.1, if_neg (h.notMem hsinks.2.1 hid hs), List.append_nil]
      exact h.untold id' n hn s spawns hs hlt
    once := fun s => by
      rw [toldTo_reported hsinks.1]
      exact h.toldTo_le hsinks s
    attachedLt := fun s id' spawns hs => h.attachedLt s id' spawns (attached_mem_reported.1 hs)
    attachedOnce := fun s id' id'' _ _ hs hs' =>
      h.attachedOnce s id' id'' _ _ (attached_mem_reported.1 hs) (attached_mem_reported.1 hs')
    handedLt := fun s q d hd => h.handedLt s q d (handed_mem_reported.1 hd)
    toldLt := fun s hs => by
      rw [toldTo_reported hsinks.1] at hs
      exact h.sink_lt hsinks hs
    processLt := h.processLt
    currentIs := fun id' n hn => h.currentIs id' n (hcurrent id' n hn).2 }

/-- A new process is current, and no sink was attached after it was spawned. -/
theorem Sound.respawned (h : l.Sound) (hsinks : l.Listening id sinks) :
    ((l.tell sinks exitCode).spawned id).Sound := by
  have hcurrent : ∀ id' n, ((l.tell sinks exitCode).spawned id).current.get id' = some n →
      id = id' ∧ l.spawns = n ∨ id ≠ id' ∧ l.current.get id' = some n :=
    fun _ _ => InsertionMap.get_of_set
  have hprocess : ∀ n, n ≠ l.spawns →
      ((l.tell sinks exitCode).spawned id).processes.get n = l.processes.get n := fun n hn =>
    InsertionMap.get_set_ne _ _ (Ne.symm hn)
  exact {
    handed := fun id' n hn s spawns hs hlt q d hd => by
      have hs := attached_mem_tell.1 hs
      rcases hcurrent id' n hn with ⟨-, rfl⟩ | ⟨-, hn⟩
      · have := (h.attachedLt s id' spawns hs).2
        omega
      · exact h.handed id' n hn s spawns hs hlt q d (handed_mem_tell.1 hd)
    untold := fun id' n hn s spawns hs hlt => by
      have hs := attached_mem_tell.1 hs
      rcases hcurrent id' n hn with ⟨-, rfl⟩ | ⟨hid, hn⟩
      · have := (h.attachedLt s id' spawns hs).2
        omega
      · rw [toldTo_spawned, toldTo_tell hsinks.1, if_neg (h.notMem hsinks.2.1 hid hs),
          List.append_nil]
        exact h.untold id' n hn s spawns hs hlt
    once := fun s => by
      rw [toldTo_spawned, toldTo_tell hsinks.1]
      exact h.toldTo_le hsinks s
    attachedLt := fun s id' spawns hs => by
      obtain ⟨hsink, hspawns⟩ := h.attachedLt s id' spawns (attached_mem_tell.1 hs)
      exact ⟨hsink, Nat.le_succ_of_le hspawns⟩
    attachedOnce := fun s id' id'' _ _ hs hs' =>
      h.attachedOnce s id' id'' _ _ (attached_mem_tell.1 hs) (attached_mem_tell.1 hs')
    handedLt := fun s q d hd => h.handedLt s q d (handed_mem_tell.1 hd)
    toldLt := fun s hs => by
      rw [toldTo_spawned, toldTo_tell hsinks.1] at hs
      exact h.sink_lt hsinks hs
    processLt := fun n process hn => by
      by_cases heq : n = l.spawns
      · subst heq
        exact Nat.lt_succ_self _
      · rw [hprocess n heq] at hn
        exact Nat.lt_succ_of_lt (h.processLt n process hn)
    currentIs := fun id' n hn => by
      rcases hcurrent id' n hn with ⟨rfl, rfl⟩ | ⟨-, hn⟩
      · exact ⟨.launching, InsertionMap.get_set_self _ _ _⟩
      · obtain ⟨stage, hstage⟩ := h.currentIs id' n hn
        rw [hprocess n (Nat.ne_of_lt (h.processLt n _ hstage))]
        exact ⟨stage, hstage⟩ }

theorem Sound.spawned (h : l.Sound) : (l.spawned id).Sound := by
  have hspawned : l.spawned id = (l.tell [] 0).spawned id := by
    simp [Ledger.spawned, Ledger.tell]
  rw [hspawned]
  exact h.respawned listening_nil

theorem Sound.killed (h : l.Sound) : (l.killed id).Sound := by
  have hcurrent : ∀ id' n, (l.killed id).current.get id' = some n →
      l.current.get id' = some n := fun id' n hn => by
    change (l.current.delete id).get id' = some n at hn
    exact (InsertionMap.get_of_delete hn).2
  exact { h with
    handed := fun id' n hn => h.handed id' n (hcurrent id' n hn)
    untold := fun id' n hn => h.untold id' n (hcurrent id' n hn)
    currentIs := fun id' n hn => h.currentIs id' n (hcurrent id' n hn) }

theorem processes_stage (st : Stage) : (l.stage p id st).processes.get n =
    if p = n then some ⟨id, st⟩ else l.processes.get n :=
  InsertionMap.get_set _ _ _ _

/-- A process keeps its id at every stage. -/
theorem known_stage {st st' : Stage} (hp : l.processes.get p = some ⟨id, st⟩)
    (hn : ∃ stage, l.processes.get n = some ⟨id', stage⟩) :
    ∃ stage, (l.stage p id st').processes.get n = some ⟨id', stage⟩ := by
  obtain ⟨st'', hn⟩ := hn
  rw [processes_stage]
  split
  · next heq =>
    have hid : id = id' := congrArg Process.id (Option.some.inj (hp.symm.trans (heq ▸ hn)))
    exact ⟨st', by rw [hid]⟩
  · exact ⟨st'', hn⟩

theorem Sound.stage (h : l.Sound) {st st' : Stage} (hp : l.processes.get p = some ⟨id, st⟩) :
    (l.stage p id st').Sound :=
  { h with
    processLt := fun n process hn => by
      rw [processes_stage] at hn
      split at hn
      · next heq => exact heq ▸ h.processLt p _ hp
      · exact h.processLt n process hn
    currentIs := fun id' n hn => known_stage hp (h.currentIs id' n hn) }

theorem attached_mem_attached {s spawns : Nat} :
    Event.attached s id' spawns ∈ (l.attached id told).history ↔
      Event.attached s id' spawns ∈ l.history ∨ s = l.sinks ∧ id' = id ∧ spawns = l.spawns := by
  simp [attached]

theorem handed_mem_attached {s q : Nat} {d : JsString} :
    Event.handed s q d ∈ (l.attached id told).history ↔ Event.handed s q d ∈ l.history := by
  simp [attached]

/-- A sink is told as it attaches only when its id has no current process. -/
theorem Sound.attached (h : l.Sound) (htold : told.isSome → l.current.get id = none) :
    (l.attached id told).Sound where
  handed id' n hn s spawns hs hlt q d hd := by
    rw [handed_mem_attached] at hd
    rcases attached_mem_attached.1 hs with hs | ⟨rfl, -, -⟩
    · exact h.handed id' n hn s spawns hs hlt q d hd
    · exact absurd (h.handedLt _ q d hd) (Nat.lt_irrefl _)
  untold id' n hn s spawns hs hlt := by
    rw [toldTo_attached]
    rcases attached_mem_attached.1 hs with hs | ⟨rfl, rfl, -⟩
    · rw [if_neg (Nat.ne_of_gt (h.attachedLt s id' spawns hs).1), List.append_nil]
      exact h.untold id' n hn s spawns hs hlt
    have hnil : l.toldTo l.sinks = [] := by
      by_contra hne
      exact absurd (h.toldLt _ hne) (Nat.lt_irrefl _)
    cases told with
    | none => rw [hnil, if_pos rfl]; rfl
    | some exitCode =>
      have hn : l.current.get id' = some n := hn
      rw [htold rfl] at hn
      cases hn
  once s := by
    rw [toldTo_attached]
    by_cases hs : l.sinks = s
    · subst hs
      have hnil : l.toldTo l.sinks = [] := by
        by_contra hne
        exact absurd (h.toldLt _ hne) (Nat.lt_irrefl _)
      rw [hnil, if_pos rfl]
      cases told <;> simp
    · rw [if_neg hs, List.append_nil]
      exact h.once s
  attachedLt s id' spawns hs := by
    rcases attached_mem_attached.1 hs with hs | ⟨rfl, -, rfl⟩
    · obtain ⟨hlt, hle⟩ := h.attachedLt s id' spawns hs
      exact ⟨Nat.lt_succ_of_lt hlt, hle⟩
    · exact ⟨Nat.lt_succ_self _, Nat.le_refl _⟩
  attachedOnce s id' id'' _ _ hs hs' := by
    rcases attached_mem_attached.1 hs with hs | ⟨rfl, rfl, -⟩ <;>
      rcases attached_mem_attached.1 hs' with hs' | ⟨heq, hid, -⟩
    · exact h.attachedOnce s id' id'' _ _ hs hs'
    · exact absurd (heq ▸ (h.attachedLt s id' _ hs).1) (Nat.lt_irrefl _)
    · exact absurd (h.attachedLt _ id'' _ hs').1 (Nat.lt_irrefl _)
    · exact hid.symm
  handedLt s q d hd := Nat.lt_succ_of_lt (h.handedLt s q d (handed_mem_attached.1 hd))
  toldLt s hs := by
    rw [toldTo_attached] at hs
    by_cases heq : l.sinks = s
    · exact heq ▸ Nat.lt_succ_self _
    · rw [if_neg heq, List.append_nil] at hs
      exact Nat.lt_succ_of_lt (h.toldLt s hs)
  processLt := h.processLt
  currentIs := h.currentIs

/-- A sink that attaches tells the others nothing, -/
theorem Sound.listening_attached (h : l.Sound) (hsinks : l.Listening id' sinks) :
    (l.attached id told).Listening id' sinks :=
  hsinks.of_append rfl fun s hs => by
    rw [toldTo_attached, if_neg (Nat.ne_of_gt (h.lt hsinks.2.1 hs)), List.append_nil]

/-- and listens with them. -/
theorem Sound.listening_concat (h : l.Sound) (hsinks : l.Listening id sinks) :
    (l.attached id none).Listening id (sinks ++ [l.sinks]) := by
  have hlistening : (l.attached id none).Listening id sinks := h.listening_attached hsinks
  obtain ⟨hnodup, hattached, huntold⟩ := hlistening
  refine ⟨List.nodup_append.2 ⟨hnodup, List.nodup_singleton _, ?_⟩, ?_, ?_⟩
  · intro s hs s' hs' heq
    exact Nat.lt_irrefl _ (List.mem_singleton.1 hs' ▸ heq ▸ h.lt hsinks.2.1 hs)
  · intro s hs
    rcases List.mem_append.1 hs with hs | hs
    · exact hattached s hs
    · exact List.mem_singleton.1 hs ▸ ⟨l.spawns, by simp [Ledger.attached]⟩
  · intro s hs
    rcases List.mem_append.1 hs with hs | hs
    · exact huntold s hs
    · rw [List.mem_singleton.1 hs, toldTo_attached, if_pos rfl]
      by_contra hne
      exact Nat.lt_irrefl _ (h.toldLt l.sinks (by simpa using hne))

end Ledger

/-- A sink that is taken out at once was not there before. -/
theorem filter_concat_self {sinks : List Nat} {sink : Nat} (h : sink ∉ sinks) :
    (sinks ++ [sink]).filter (· ≠ sink) = sinks := by
  have hold : sinks.filter (· ≠ sink) = sinks :=
    List.filter_eq_self.2 fun s hs => decide_eq_true fun heq : s = sink => h (heq ▸ hs)
  rw [List.filter_append, hold]
  simp

/-! ### A spawn -/

/-- How a spawn ends: it is refused or fails, which is reported as an exit, or a process holds
the id. -/
theorem PtyCore.spawn_cases (core : PtyCore) (id : JsString) (helper : Option HelperIdentity)
    (p : Nat) (launched : Launch) :
    ((core.spawn id helper p launched).1.ptys = core.ptys ∧
      (core.spawn id helper p launched).1.sessions = core.sessions ∧
        ((core.spawn id helper p launched).2 = [.exit id 1] ∨
          ∃ message, (core.spawn id helper p launched).2 = [.error id message, .exit id 1])) ∨
      ((core.spawn id helper p launched).1.ptys = core.ptys.set id p ∧
        (core.spawn id helper p launched).1.sessions = core.sessions.set id .empty ∧
          ((core.spawn id helper p launched).2 = [] ∨
            ∃ data, (core.spawn id helper p launched).2 = [.data id data])) := by
  have hlaunch : ∀ helpers, ∀ r, r = PtyCore.launch { core with helpers := helpers } id p launched →
      (r.1.ptys = core.ptys ∧ r.1.sessions = core.sessions ∧
        (r.2 = [.exit id 1] ∨ ∃ message, r.2 = [.error id message, .exit id 1])) ∨
      (r.1.ptys = core.ptys.set id p ∧ r.1.sessions = core.sessions.set id .empty ∧
        (r.2 = [] ∨ ∃ data, r.2 = [.data id data])) := fun helpers r hr => by
    cases launched with
    | threw message => exact .inl (hr ▸ ⟨rfl, rfl, .inr ⟨message, rfl⟩⟩)
    | started cwdWarning =>
      cases cwdWarning with
      | none => exact .inr (hr ▸ ⟨rfl, rfl, .inl rfl⟩)
      | some warning => exact .inr (hr ▸ ⟨rfl, rfl, .inr ⟨_, rfl⟩⟩)
  cases helper with
  | none => exact hlaunch _ _ rfl
  | some helper =>
    unfold PtyCore.spawn
    dsimp only
    split
    · exact hlaunch _ _ rfl
    · exact .inl ⟨rfl, rfl, .inl rfl⟩

/-- What a spawn sends is of its id, and tells how far it got. -/
theorem PtyCore.spawn_sent (core : PtyCore) (id : JsString) (helper : Option HelperIdentity)
    (p : Nat) (launched : Launch) :
    (∀ id' data, Sent.data id' data ∈ (core.spawn id helper p launched).2 → id' = id) ∧
      (∀ id' exitCode, Sent.exit id' exitCode ∈ (core.spawn id helper p launched).2 → id' = id) ∧
        (core.spawn id helper p launched).2.filterMap Sent.exitCode? =
          (stageAfter (core.spawn id helper p launched).2).exitCode?.toList := by
  rcases core.spawn_cases id helper p launched with
    ⟨-, -, hsent | ⟨message, hsent⟩⟩ | ⟨-, -, hsent | ⟨data, hsent⟩⟩ <;> rw [hsent] <;>
    simp [stageAfter, List.filterMap_cons, Sent.exitCode?, Stage.exitCode?]

end Dormouse.Pty
