import Dormouse.Notepad.ArchiveFile
import Mathlib.Data.List.Chain

/-!
# Dormouse.Notepad.ArchiveFileSound

**The lock of the archive is never split, and no write is lost**: what each call of
`withArchiveFile` may rely on at each of its steps, whoever crashes in between.
-/

namespace Dormouse.Notepad

/-! ### What is written and answered -/

section Meaning

variable (platform : ArchivePlatform)

/-- What an operation writes, having read `bytes`, and then answers. -/
def Says (operation : ArchiveOperation) (bytes next : JsString) (answer : ArchiveAnswer) : Prop :=
  ∃ revision,
    match operation with
    | .load => False
    | .save json baseRevision =>
      baseRevision = platform.revisionOf bytes ∧
        next = platform.encode revision (some json) ∧ answer = .ok
    | .mutate mutation =>
      ∃ raw, platform.mutateRaw mutation (platform.rawOf bytes) = some raw ∧
        next = platform.encode revision (some raw) ∧ answer = .resolved
    | .resetUnreadable => next = platform.encode revision none ∧ answer = .resolved

/-- A write imports the legacy archive into a file that is not there, or is an operation's, on
what it found. -/
def ArchiveWrite.Means (write : ArchiveWrite) : Prop :=
  if write.imports then write.found = none
  else ∃ bytes answer, write.found = some bytes ∧
    Says platform write.operation bytes write.next answer

end Meaning

/-- An answer that a write has to stand for. -/
def ArchiveAnswer.claimsWrite (operation : ArchiveOperation) : ArchiveAnswer → Bool
  | .ok => true
  | .resolved => match operation with | .mutate _ => true | _ => false
  | _ => false

/-- Whoever answers that it has written, has. -/
def Earned (writes : List ArchiveWrite) (owner : LockOwner) (operation : ArchiveOperation)
    (answer : ArchiveAnswer) : Prop :=
  answer.claimsWrite operation = true →
    ∃ write ∈ writes, write.owner = owner ∧ write.operation = operation ∧ write.imports = false

theorem Earned.of_silent {writes : List ArchiveWrite} {owner : LockOwner}
    {operation : ArchiveOperation} {answer : ArchiveAnswer}
    (h : answer.claimsWrite operation = false) : Earned writes owner operation answer := by
  intro hclaims
  rw [h] at hclaims
  cases hclaims

theorem Earned.mono {writes writes' : List ArchiveWrite} {owner : LockOwner}
    {operation : ArchiveOperation} {answer : ArchiveAnswer}
    (h : Earned writes owner operation answer) (hsub : writes ⊆ writes') :
    Earned writes' owner operation answer := by
  intro hclaims
  obtain ⟨write, hmem, hwrite⟩ := h hclaims
  exact ⟨write, hsub hmem, hwrite⟩

/-- Writes that follow each other, up to what is stored. -/
structure Chained (writes : List ArchiveWrite) (stored : Option JsString) : Prop where
  links : writes.IsChain fun write later => later.found = some write.next
  last : ∀ write, writes.getLast? = some write → stored = some write.next

theorem Chained.append {writes : List ArchiveWrite} {stored : Option JsString}
    (h : Chained writes stored) {write : ArchiveWrite} (hfound : write.found = stored) :
    Chained (writes ++ [write]) (some write.next) where
  links := by
    refine List.isChain_append.2 ⟨h.links, List.isChain_singleton _, ?_⟩
    intro last hlast first hfirst
    cases hfirst
    rw [hfound]
    exact h.last last hlast
  last last hlast := by
    rw [List.getLast?_append, List.getLast?_singleton] at hlast
    cases hlast
    rfl

/-! ### The invariant -/

section Invariant

variable (platform : ArchivePlatform)

/-- What a call may rely on. -/
def CallOk (w : ArchiveWorld) (owner : LockOwner) (call : ArchiveCall) : Prop :=
  let candidate := LockPath.candidate owner
  let locked := w.dirs.readdir .lock = some [owner]
  match call.stage with
  | .makeCandidate => w.dirs.readdir candidate = none
  | .writeOwner => w.dirs.readdir candidate = some []
  | .take | .list | .sweep => w.dirs.readdir candidate = some [owner]
  | .probe names => w.dirs.readdir candidate = some [owner] ∧ names ⊆ w.drawn
  | .reap name names => w.dirs.readdir candidate = some [owner] ∧ names ⊆ w.drawn ∧
      name ∈ w.drawn ∧ w.calls.get name = none
  | .abandonFile | .abandon => True
  | .settle | .read => locked
  | .importing => locked ∧ w.stored = none
  | .operate bytes => locked ∧ w.stored = some bytes
  | .quarantine bytes => locked ∧ w.stored = some bytes ∧ call.operation = .resetUnreadable
  | .publish bytes next answer => locked ∧ w.stored = some bytes ∧
      Says platform call.operation bytes next answer
  | .published answer | .release answer => locked ∧ Earned w.writes owner call.operation answer
  | .releaseDir answer => Earned w.writes owner call.operation answer

/-- What holds of the archive, its lock, and every call that is not `spared`. -/
structure Kept (spared : LockOwner → Prop) (w : ArchiveWorld) : Prop where
  drawn : ∀ {owner call}, w.calls.get owner = some call → owner ∈ w.drawn
  running : ∀ {owner call}, w.calls.get owner = some call → owner.pid ∈ w.alive
  -- The lock has only names that were drawn, and a name has no candidate before.
  locked : ∀ {names}, w.dirs.readdir .lock = some names → names ⊆ w.drawn
  undrawn : ∀ {owner}, owner ∉ w.drawn → w.dirs.readdir (.candidate owner) = none
  chained : Chained w.writes w.stored
  means : ∀ write ∈ w.writes, write.Means platform
  earned : ∀ answered ∈ w.answers, Earned w.writes answered.1 answered.2.1 answered.2.2
  calls : ∀ {owner call}, w.calls.get owner = some call → ¬ spared owner → CallOk platform w owner call

end Invariant

theorem lock_ne_candidate (owner : LockOwner) : LockPath.lock ≠ .candidate owner := nofun

/-- Nobody is spared. -/
def nobody : LockOwner → Prop := fun _ => False

section Rules

variable {platform : ArchivePlatform} {w w' : ArchiveWorld} {owner other : LockOwner}
  {call : ArchiveCall} {stage : ArchiveStage} {spared : LockOwner → Prop}

/-- Who holds the lock has its name in it, alone. -/
theorem CallOk.locked (h : CallOk platform w owner call) (hholds : call.stage.holds = true) :
    w.dirs.readdir .lock = some [owner] := by
  unfold CallOk at h
  cases hstage : call.stage with
  | settle | read =>
    rw [hstage] at h
    exact h
  | importing | operate | quarantine | publish | published | release =>
    rw [hstage] at h
    exact h.1
  | _ =>
    rw [hstage] at hholds
    cases hholds

/-- What a call relies on survives what others do: they leave its lock and its candidate, what is
stored while it is inside, and what is gone stays gone. -/
theorem CallOk.frame (h : CallOk platform w owner call)
    (hlock : call.stage.holds = true → w'.dirs.readdir .lock = some [owner])
    (hcandidate : w'.dirs.readdir (.candidate owner) = w.dirs.readdir (.candidate owner))
    (hstored : call.stage.holds = true → w'.stored = w.stored)
    (hdrawn : w.drawn ⊆ w'.drawn) (hwrites : w.writes ⊆ w'.writes)
    (hgone : ∀ name ∈ w.drawn, w.calls.get name = none → w'.calls.get name = none) :
    CallOk platform w' owner call := by
  unfold CallOk at h ⊢
  cases hstage : call.stage with
  | makeCandidate | writeOwner | take | list | sweep =>
    rw [hstage] at h
    exact hcandidate.trans h
  | probe names =>
    rw [hstage] at h
    exact ⟨hcandidate.trans h.1, fun _ hmem => hdrawn (h.2 hmem)⟩
  | reap name names =>
    rw [hstage] at h
    obtain ⟨hcand, hnames, hname, hnone⟩ := h
    exact ⟨hcandidate.trans hcand, fun _ hmem => hdrawn (hnames hmem), hdrawn hname,
      hgone name hname hnone⟩
  | abandonFile | abandon => trivial
  | settle | read => exact hlock (by rw [hstage]; rfl)
  | importing | operate =>
    rw [hstage] at h
    exact ⟨hlock (by rw [hstage]; rfl), (hstored (by rw [hstage]; rfl)).trans h.2⟩
  | quarantine | publish =>
    rw [hstage] at h
    exact ⟨hlock (by rw [hstage]; rfl), (hstored (by rw [hstage]; rfl)).trans h.2.1, h.2.2⟩
  | published | release =>
    rw [hstage] at h
    exact ⟨hlock (by rw [hstage]; rfl), h.2.mono hwrites⟩
  | releaseDir =>
    rw [hstage] at h
    exact Earned.mono h hwrites

namespace Kept

theorem spare (h : Kept platform nobody w) (spared : LockOwner → Prop) : Kept platform spared w :=
  { h with
    calls hget _ := h.calls hget id }

/-- The call that was spared goes on. -/
theorem goOn (h : Kept platform (· = owner) w) (hget : w.calls.get owner = some call)
    (hok : CallOk platform w owner { call with stage := stage }) :
    Kept platform nobody (w.goOn owner call stage) := by
  have hsame : ∀ {other call'}, other ≠ owner →
      (w.calls.set owner { call with stage := stage }).get other = some call' →
        w.calls.get other = some call' := by
    intro other call' hne hcall
    rwa [InsertionMap.get_set_ne _ _ hne.symm] at hcall
  have hgone : ∀ name ∈ w.drawn, w.calls.get name = none →
      (w.calls.set owner { call with stage := stage }).get name = none := by
    intro name _ hnone
    have hne : owner ≠ name := by
      rintro rfl
      cases hget.symm.trans hnone
    rw [InsertionMap.get_set_ne _ _ hne, hnone]
  have hframe {other : LockOwner} {call' : ArchiveCall} (hcall : CallOk platform w other call') :
      CallOk platform (w.goOn owner call stage) other call' :=
    hcall.frame (fun hholds => hcall.locked hholds) rfl (fun _ => rfl) (fun _ hmem => hmem)
      (fun _ hmem => hmem) hgone
  have hlive : ∀ {other call'}, (w.goOn owner call stage).calls.get other = some call' →
      ∃ call', w.calls.get other = some call' := by
    intro other call' hcall
    by_cases hother : other = owner
    · exact ⟨call, hother ▸ hget⟩
    · exact ⟨call', hsame hother hcall⟩
  exact
    { drawn := fun hcall => h.drawn (hlive hcall).choose_spec
      running := fun hcall => h.running (hlive hcall).choose_spec
      locked := h.locked
      undrawn := h.undrawn
      chained := h.chained
      means := h.means
      earned := h.earned
      calls := fun {other call'} hcall _ => by
        by_cases hother : other = owner
        · subst hother
          cases (InsertionMap.get_set_self _ _ _).symm.trans hcall
          exact hframe hok
        · exact hframe (h.calls (hsame hother hcall) hother) }

/-- The call that was spared is done. -/
theorem finish (h : Kept platform (· = owner) w) {answer : ArchiveAnswer}
    (hearned : Earned w.writes owner call.operation answer) :
    Kept platform nobody (w.finish owner call answer) := by
  have hold : ∀ {other call'}, (w.calls.delete owner).get other = some call' →
      other ≠ owner ∧ w.calls.get other = some call' := by
    intro other call' hcall
    obtain ⟨hne, hcall⟩ := InsertionMap.get_of_delete hcall
    exact ⟨fun heq => hne heq.symm, hcall⟩
  exact
    { drawn := fun hcall => h.drawn (hold hcall).2
      running := fun hcall => h.running (hold hcall).2
      locked := h.locked
      undrawn := h.undrawn
      chained := h.chained
      means := h.means
      earned := fun answered hmem => by
        rcases List.mem_append.1 hmem with hbefore | hnow
        · exact h.earned answered hbefore
        · cases List.mem_singleton.1 hnow
          exact hearned
      calls := fun hcall _ => by
        obtain ⟨hne, hcall⟩ := hold hcall
        have hok := h.calls hcall hne
        refine hok.frame (fun hholds => hok.locked hholds) rfl (fun _ => rfl) (fun _ hmem => hmem)
          (fun _ hmem => hmem) fun name _ hnone => ?_
        change (w.calls.delete owner).get name = none
        rw [InsertionMap.get_delete]
        split
        · rfl
        · exact hnone }

/-- The call that is spared does something to the directories. -/
theorem withDirs (h : Kept platform (· = owner) w) (dirs : Directories LockPath LockOwner)
    (hlock : ∀ {other call}, w.calls.get other = some call → other ≠ owner →
      w.dirs.readdir .lock = some [other] → dirs.readdir .lock = some [other])
    (hcandidate : ∀ {other}, other ≠ owner →
      dirs.readdir (.candidate other) = w.dirs.readdir (.candidate other))
    (hnames : ∀ {names}, dirs.readdir .lock = some names → names ⊆ w.drawn)
    (howner : owner ∈ w.drawn) : Kept platform (· = owner) { w with dirs := dirs } :=
  { h with
    locked := hnames
    undrawn {other} hnot := by
      have hne : other ≠ owner := by
        rintro rfl
        exact hnot howner
      exact (hcandidate hne).trans (h.undrawn hnot)
    calls {other call} hcall hne := by
      have hok := h.calls hcall hne
      exact hok.frame (fun hholds => hlock hcall hne (hok.locked hholds)) (hcandidate hne)
        (fun _ => rfl) (fun _ hmem => hmem) (fun _ hmem => hmem) (fun _ _ hnone => hnone) }

/-- And only to its candidate. -/
theorem withCandidate (h : Kept platform (· = owner) w) (dirs : Directories LockPath LockOwner)
    (hother : ∀ path, path ≠ .candidate owner → dirs.readdir path = w.dirs.readdir path)
    (howner : owner ∈ w.drawn) : Kept platform (· = owner) { w with dirs := dirs } := by
  have hlock : dirs.readdir .lock = w.dirs.readdir .lock := hother _ nofun
  refine h.withDirs dirs (fun _ _ hholds => hlock.trans hholds) (fun hne => hother _ ?_)
    (fun hnames => h.locked (hlock.symm.trans hnames)) howner
  exact fun heq => hne (LockPath.candidate.inj heq)

/-- The call that is spared holds the lock, and writes the archive file. -/
theorem store (h : Kept platform (· = owner) w) (hlock : w.dirs.readdir .lock = some [owner])
    {imports : Bool} {next : JsString}
    (hmeans : ArchiveWrite.Means platform ⟨owner, call.operation, imports, w.stored, next⟩) :
    Kept platform (· = owner) (w.store owner call imports next) :=
  { h with
    chained := h.chained.append rfl
    means write hmem := by
      rcases List.mem_append.1 hmem with hbefore | hnow
      · exact h.means write hbefore
      · cases List.mem_singleton.1 hnow
        exact hmeans
    earned answered hmem := (h.earned answered hmem).mono (List.subset_append_left _ _)
    calls {other call'} hcall hne := by
      have hok := h.calls hcall hne
      have hnot : call'.stage.holds ≠ true := by
        intro hholds
        cases hlock.symm.trans (hok.locked hholds)
        exact hne rfl
      exact hok.frame (fun hholds => absurd hholds hnot) rfl (fun hholds => absurd hholds hnot)
        (fun _ hmem => hmem) (List.subset_append_left _ _) (fun _ _ hnone => hnone) }

/-! ### Steps -/

/-- The operation goes on with what it has read. -/
theorem operate (h : Kept platform nobody w) (hget : w.calls.get owner = some call)
    {bytes : JsString} (hlock : w.dirs.readdir .lock = some [owner])
    (hstored : w.stored = some bytes) (revision : JsString) :
    Kept platform nobody (w.operate platform owner call bytes revision) := by
  have hspared := h.spare (· = owner)
  have hsilent {answer : ArchiveAnswer} (hanswer : answer.claimsWrite call.operation = false) :
      Kept platform nobody (w.goOn owner call (.release answer)) :=
    hspared.goOn hget ⟨hlock, .of_silent hanswer⟩
  unfold ArchiveWorld.operate
  cases hoperation : call.operation with
  | load => exact hsilent rfl
  | save json baseRevision =>
    dsimp only
    split
    · exact hsilent rfl
    · next hbase =>
        refine hspared.goOn hget ⟨hlock, hstored, revision, ?_⟩
        rw [hoperation]
        exact ⟨not_not.1 hbase, rfl, rfl⟩
  | mutate mutation =>
    dsimp only
    split
    · exact hsilent rfl
    · next raw hraw =>
        refine hspared.goOn hget ⟨hlock, hstored, revision, ?_⟩
        rw [hoperation]
        exact ⟨raw, hraw, rfl, rfl⟩
  | resetUnreadable =>
    dsimp only
    split
    · exact hsilent (by rw [hoperation]; rfl)
    · exact hspared.goOn hget ⟨hlock, hstored, hoperation⟩

/-- A name that is out of the lock is none that a call has. -/
theorem reap (h : Kept platform nobody w) {name : LockOwner} (hnone : w.calls.get name = none)
    (howner : owner ∈ w.drawn) :
    Kept platform (· = owner) { w with dirs := w.dirs.unlink .lock name } := by
  refine (h.spare _).withDirs _ (fun {other call} hcall _ hlock => ?_)
    (fun _ => Directories.readdir_unlink_ne nofun) (fun {names} hnames => ?_) howner
  · rw [Directories.readdir_unlink_self hlock]
    have hne : other ≠ name := by
      rintro rfl
      cases hcall.symm.trans hnone
    simp [hne]
  · cases hlock : w.dirs.readdir .lock with
    | none =>
      unfold Directories.unlink at hnames
      rw [hlock] at hnames
      cases hlock.symm.trans hnames
    | some before =>
      rw [Directories.readdir_unlink_self hlock] at hnames
      cases hnames
      exact fun _ hmem => h.locked hlock (List.mem_filter.1 hmem).1

/-- Only an empty lock is removed. -/
theorem sweep (h : Kept platform nobody w) (howner : owner ∈ w.drawn) :
    Kept platform (· = owner) { w with dirs := w.dirs.rmdir .lock } := by
  refine (h.spare _).withDirs _ (fun _ _ hlock => Directories.readdir_rmdir_of_cons hlock)
    (fun _ => Directories.readdir_rmdir_ne nofun) (fun {names} hnames => ?_) howner
  cases hlock : w.dirs.readdir .lock with
  | none =>
    unfold Directories.rmdir at hnames
    rw [hlock] at hnames
    cases hlock.symm.trans hnames
  | some before =>
    cases before with
    | nil =>
      unfold Directories.rmdir at hnames
      rw [hlock] at hnames
      cases (InsertionMap.get_delete_self _ _).symm.trans hnames
    | cons name before =>
      rw [Directories.readdir_rmdir_of_cons hlock] at hnames
      exact h.locked (hlock.trans hnames)

/-- The holder takes its own name out. -/
theorem unlock (h : Kept platform nobody w) (hget : w.calls.get owner = some call)
    (hlock : w.dirs.readdir .lock = some [owner]) :
    Kept platform (· = owner) { w with dirs := w.dirs.unlink .lock owner } := by
  refine (h.spare _).withDirs _ (fun {other call} _ hne hother => ?_)
    (fun _ => Directories.readdir_unlink_ne nofun) (fun {names} hnames => ?_) (h.drawn hget)
  · cases hlock.symm.trans hother
    exact absurd rfl hne
  · rw [Directories.readdir_unlink_self hlock] at hnames
    cases hnames
    exact fun _ hmem => h.locked hlock (List.mem_filter.1 hmem).1

/-- The lock is taken while it is free, or empty: nobody holds it. -/
theorem take (h : Kept platform nobody w) (hget : w.calls.get owner = some call)
    {dirs : Directories LockPath LockOwner}
    (hrename : w.dirs.rename (.candidate owner) .lock = some dirs)
    (hcandidate : w.dirs.readdir (.candidate owner) = some [owner]) :
    Kept platform (· = owner) { w with dirs := dirs } := by
  have hfree := Directories.rename_target_free hrename
  have htarget : dirs.readdir .lock = some [owner] :=
    (Directories.readdir_rename_target hrename).trans hcandidate
  refine (h.spare _).withDirs dirs (fun {other call} _ _ hother => ?_) (fun {other} hne => ?_)
    (fun {names} hnames => ?_) (h.drawn hget)
  · rw [hother] at hfree
    rcases hfree with hfree | hfree <;> cases hfree
  · exact Directories.readdir_rename_ne hrename
      (fun heq => hne (LockPath.candidate.inj heq).symm) nofun
  · cases htarget.symm.trans hnames
    intro name hmem
    cases List.mem_singleton.1 hmem
    exact h.drawn hget

theorem step (h : Kept platform nobody w) (owner : LockOwner) (input : ArchiveInput) :
    Kept platform nobody (w.step platform owner input) := by
  unfold ArchiveWorld.step
  split
  · exact h
  next call hget =>
    have hok := h.calls hget id
    have howner := h.drawn hget
    have hspared := h.spare (· = owner)
    dsimp only
    unfold CallOk at hok
    split
    · next hstage =>
        rw [hstage] at hok
        exact (hspared.withCandidate _ (fun _ hne => Directories.readdir_mkdir_ne hne.symm)
          howner).goOn hget (Directories.readdir_mkdir_self hok)
    · next hstage =>
        rw [hstage] at hok
        exact (hspared.withCandidate _ (fun _ hne => Directories.readdir_create_ne hne.symm)
          howner).goOn hget (Directories.readdir_create_self hok)
    · next hstage =>
        rw [hstage] at hok
        split
        · next dirs hrename =>
            have hrenamed : w.dirs.rename (.candidate owner) .lock = some dirs := by
              split at hrename
              · exact hrename
              · cases hrename
            exact (h.take hget hrenamed hok).goOn hget
              ((Directories.readdir_rename_target hrenamed).trans hok)
        · exact hspared.goOn hget hok
    · next hstage =>
        rw [hstage] at hok
        refine hspared.goOn hget ⟨hok, ?_⟩
        cases hlock : w.dirs.readdir .lock with
        | none => exact List.nil_subset _
        | some names => exact h.locked hlock
    · next hstage =>
        rw [hstage] at hok
        exact hspared.goOn hget hok.1
    · next name names hstage =>
        rw [hstage] at hok
        obtain ⟨hcandidate, hnames⟩ := hok
        have hrest : names ⊆ w.drawn := fun _ hmem => hnames (List.mem_cons_of_mem _ hmem)
        split
        · exact hspared.goOn hget ⟨hcandidate, hrest⟩
        · next hdead =>
            refine hspared.goOn hget ⟨hcandidate, hrest, hnames List.mem_cons_self, ?_⟩
            cases hcall : w.calls.get name with
            | none => rfl
            | some call' => exact absurd (h.running hcall) hdead
    · next name names hstage =>
        rw [hstage] at hok
        obtain ⟨hcandidate, hnames, -, hnone⟩ := hok
        exact (h.reap hnone howner).goOn hget
          ⟨(Directories.readdir_unlink_ne (lock_ne_candidate owner)).trans hcandidate, hnames⟩
    · next hstage =>
        rw [hstage] at hok
        refine (h.sweep howner).goOn hget ?_
        split
        · trivial
        · exact (Directories.readdir_rmdir_ne (lock_ne_candidate owner)).trans hok
    · exact (hspared.withCandidate _ (fun _ hne => Directories.readdir_unlink_ne hne.symm)
        howner).goOn hget trivial
    · exact (hspared.withCandidate _ (fun _ hne => Directories.readdir_rmdir_ne hne.symm)
        howner).finish (.of_silent rfl)
    · next hstage =>
        rw [hstage] at hok
        exact hspared.goOn hget hok
    · next hstage =>
        rw [hstage] at hok
        split
        · next hstored => exact hspared.goOn hget ⟨hok, hstored⟩
        · next hstored => exact hspared.goOn hget ⟨hok, hstored⟩
    · next hstage =>
        rw [hstage] at hok
        have hmeans : ArchiveWrite.Means platform ⟨owner, call.operation, true, w.stored,
            platform.encode input.revision input.legacy⟩ := by
          unfold ArchiveWrite.Means
          rw [if_pos rfl]
          exact hok.2
        exact (hspared.store hok.1 hmeans).goOn hget ⟨hok.1, rfl⟩
    · next hstage =>
        rw [hstage] at hok
        exact h.operate hget hok.1 hok.2 _
    · next hstage =>
        rw [hstage] at hok
        refine hspared.goOn hget ⟨hok.1, hok.2.1, input.revision, ?_⟩
        rw [hok.2.2]
        exact ⟨rfl, rfl⟩
    · next bytes next answer hstage =>
        rw [hstage] at hok
        obtain ⟨hlock, hstored, hsays⟩ := hok
        have hmeans :
            ArchiveWrite.Means platform ⟨owner, call.operation, false, w.stored, next⟩ := by
          unfold ArchiveWrite.Means
          rw [if_neg Bool.false_ne_true]
          exact ⟨bytes, answer, hstored, hsays⟩
        refine (hspared.store hlock hmeans).goOn hget ⟨hlock, fun _ => ?_⟩
        exact ⟨_, List.mem_append_right _ (List.mem_singleton.2 rfl), rfl, rfl, rfl⟩
    · next hstage =>
        rw [hstage] at hok
        exact hspared.goOn hget hok
    · next hstage =>
        rw [hstage] at hok
        exact (h.unlock hget hok.1).goOn hget hok.2
    · next hstage =>
        rw [hstage] at hok
        exact (h.sweep howner).finish hok

theorem fail (h : Kept platform nobody w) (owner : LockOwner) :
    Kept platform nobody (w.fail owner) := by
  unfold ArchiveWorld.fail
  split
  · exact h
  next call hget =>
    have hok := h.calls hget id
    have hspared := h.spare (· = owner)
    have hrelease (hholds : call.stage.holds = true) :
        Kept platform nobody (w.goOn owner call (.release .rejected)) :=
      hspared.goOn hget ⟨hok.locked hholds, .of_silent rfl⟩
    split
    · exact hspared.goOn hget trivial
    · exact hspared.goOn hget trivial
    · exact hspared.goOn hget trivial
    · exact hspared.goOn hget trivial
    · exact hspared.goOn hget trivial
    · next hstage => exact hrelease (by rw [hstage]; rfl)
    · next hstage => exact hrelease (by rw [hstage]; rfl)
    · next hstage => exact hrelease (by rw [hstage]; rfl)
    · next hstage => exact hrelease (by rw [hstage]; rfl)
    · next hstage => exact hrelease (by rw [hstage]; rfl)
    · next hstage => exact hrelease (by rw [hstage]; rfl)
    · exact hspared.finish (.of_silent rfl)

theorem start (h : Kept platform nobody w) {operation : ArchiveOperation}
    (halive : owner.pid ∈ w.alive) (hfresh : owner ∉ w.drawn) :
    Kept platform nobody (w.start owner operation) where
  drawn {other call} hcall := by
    by_cases hother : other = owner
    · exact hother ▸ List.mem_cons_self
    · have hold : w.calls.get other = some call := by
        rwa [← InsertionMap.get_set_ne w.calls ⟨operation, .makeCandidate⟩ (Ne.symm hother)]
      exact List.mem_cons_of_mem _ (h.drawn hold)
  running {other call} hcall := by
    by_cases hother : other = owner
    · exact hother ▸ halive
    · have hold : w.calls.get other = some call := by
        rwa [← InsertionMap.get_set_ne w.calls ⟨operation, .makeCandidate⟩ (Ne.symm hother)]
      exact h.running hold
  locked hnames _ hmem := List.mem_cons_of_mem _ (h.locked hnames hmem)
  undrawn hnot := h.undrawn fun hmem => hnot (List.mem_cons_of_mem _ hmem)
  chained := h.chained
  means := h.means
  earned := h.earned
  calls {other call} hcall _ := by
    by_cases hother : other = owner
    · subst hother
      cases (InsertionMap.get_set_self _ _ _).symm.trans hcall
      exact h.undrawn hfresh
    have hold : w.calls.get other = some call := by
      rwa [← InsertionMap.get_set_ne w.calls ⟨operation, .makeCandidate⟩ (Ne.symm hother)]
    have hok := h.calls hold id
    refine hok.frame (fun hholds => hok.locked hholds) rfl (fun _ => rfl)
      (fun _ hmem => List.mem_cons_of_mem _ hmem) (fun _ hmem => hmem) fun name hname hnone => ?_
    have hne : owner ≠ name := by
      rintro rfl
      exact hfresh hname
    exact (InsertionMap.get_set_ne _ _ hne).trans hnone

theorem crash (h : Kept platform nobody w) (pid : Nat) : Kept platform nobody (w.crash pid) := by
  have hold : ∀ {owner call}, (w.crash pid).calls.get owner = some call →
      w.calls.get owner = some call ∧ owner.pid ≠ pid := by
    intro owner call hcall
    change (w.calls.filter _).get owner = some call at hcall
    rw [InsertionMap.get_filter] at hcall
    obtain ⟨hget, hne⟩ := Option.filter_eq_some_iff.1 hcall
    exact ⟨hget, of_decide_eq_true hne⟩
  exact
    { drawn := fun hcall => h.drawn (hold hcall).1
      running := fun hcall =>
        List.mem_filter.2 ⟨h.running (hold hcall).1, decide_eq_true (hold hcall).2⟩
      locked := h.locked
      undrawn := h.undrawn
      chained := h.chained
      means := h.means
      earned := h.earned
      calls := fun {owner call} hcall _ => by
        have hok := h.calls (hold hcall).1 id
        refine hok.frame (fun hholds => hok.locked hholds) rfl (fun _ => rfl) (fun _ hmem => hmem)
          (fun _ hmem => hmem) fun name _ hnone => ?_
        change (w.calls.filter _).get name = none
        rw [InsertionMap.get_filter, hnone]
        rfl }

theorem boot (h : Kept platform nobody w) (pid : Nat) : Kept platform nobody (w.boot pid) :=
  { h with
    running hcall := List.mem_cons_of_mem _ (h.running hcall)
    calls hcall _ := by
      have hok := h.calls hcall id
      exact hok.frame (fun hholds => hok.locked hholds) rfl (fun _ => rfl) (fun _ hmem => hmem)
        (fun _ hmem => hmem) fun _ _ hnone => hnone }

theorem fresh (stored : Option JsString) : Kept platform nobody (ArchiveWorld.fresh stored) where
  drawn := fun h => by cases h
  running := fun h => by cases h
  locked := fun h => by cases h
  undrawn _ := rfl
  chained := ⟨List.isChain_nil, nofun⟩
  means := List.forall_mem_nil _
  earned := List.forall_mem_nil _
  calls := fun h => by cases h

end Kept

theorem kept_inductive : (ArchiveWorld.archiveRuns platform).Inductive (Kept platform nobody) where
  init := by
    rintro w ⟨stored, rfl⟩
    exact .fresh stored
  step := by
    rintro w w' act h ⟨hpossible, rfl⟩
    cases act with
    | boot pid => exact h.boot pid
    | crash pid => exact h.crash pid
    | start owner operation => exact h.start hpossible.1 hpossible.2
    | step owner input => exact h.step owner input
    | fail owner => exact h.fail owner

/-! ### Whose lock it is -/

theorem get_goOn_ne (hne : other ≠ owner) :
    (w.goOn owner call stage).calls.get other = w.calls.get other :=
  InsertionMap.get_set_ne _ _ hne.symm

theorem get_finish_ne (hne : other ≠ owner) {answer : ArchiveAnswer} :
    (w.finish owner call answer).calls.get other = w.calls.get other :=
  InsertionMap.get_delete_ne _ hne.symm

theorem get_operate_ne (hne : other ≠ owner) (bytes revision : JsString) :
    (w.operate platform owner call bytes revision).calls.get other = w.calls.get other := by
  unfold ArchiveWorld.operate
  dsimp only
  repeat' split
  all_goals exact get_goOn_ne hne

/-- A call moves no other. -/
theorem get_step_ne (hne : other ≠ owner) (input : ArchiveInput) :
    (w.step platform owner input).calls.get other = w.calls.get other := by
  unfold ArchiveWorld.step
  split
  · rfl
  dsimp only
  split
  case _ => exact get_goOn_ne hne
  case _ => exact get_goOn_ne hne
  case _ => split <;> exact get_goOn_ne hne
  case _ => exact get_goOn_ne hne
  case _ => exact get_goOn_ne hne
  case _ => split <;> exact get_goOn_ne hne
  case _ => exact get_goOn_ne hne
  case _ => exact get_goOn_ne hne
  case _ => exact get_goOn_ne hne
  case _ => exact get_finish_ne hne
  case _ => exact get_goOn_ne hne
  case _ => split <;> exact get_goOn_ne hne
  case _ => exact get_goOn_ne hne
  case _ => exact get_operate_ne hne _ _
  case _ => exact get_goOn_ne hne
  case _ => exact get_goOn_ne hne
  case _ => exact get_goOn_ne hne
  case _ => exact get_goOn_ne hne
  case _ => exact get_finish_ne hne

theorem dirs_fail (owner : LockOwner) : (w.fail owner).dirs = w.dirs := by
  unfold ArchiveWorld.fail
  repeat' split
  all_goals rfl

theorem dirs_operate (bytes revision : JsString) :
    (w.operate platform owner call bytes revision).dirs = w.dirs := by
  unfold ArchiveWorld.operate
  dsimp only
  repeat' split
  all_goals rfl

/-- The holder leaves the lock alone until it gives it back. -/
theorem dirs_step_of_holds (hget : w.calls.get owner = some call)
    (hholds : call.stage.holds = true) (input : ArchiveInput) :
    (w.step platform owner input).dirs = w.dirs ∨ ∃ answer, call.stage = .release answer := by
  unfold ArchiveWorld.step
  rw [hget]
  dsimp only
  cases hstage : call.stage with
  | settle | importing | quarantine | publish | published => exact .inl rfl
  | read =>
    dsimp only
    split <;> exact .inl rfl
  | operate bytes => exact .inl (dirs_operate bytes _)
  | release answer => exact .inr ⟨answer, rfl⟩
  | _ =>
    rw [hstage] at hholds
    cases hholds

/-- A lock that a call holds stays its own until it gives it back, whoever else steps. -/
theorem Kept.lock_stays (h : Kept platform nobody w) (hget : w.calls.get owner = some call)
    (hholds : call.stage.holds = true) {act : ArchiveAct} (hpossible : w.Possible act) :
    (w.perform platform act).dirs.readdir .lock = some [owner] ∨
      ∃ input answer, act = .step owner input ∧ call.stage = .release answer := by
  have hlock := (h.calls hget id).locked hholds
  cases act with
  | boot | crash | start => exact .inl hlock
  | fail other =>
    refine .inl ?_
    change (w.fail other).dirs.readdir .lock = _
    rw [dirs_fail, hlock]
  | step other input =>
    by_cases hother : owner = other
    · subst hother
      have hstep : (w.step platform owner input).dirs = w.dirs ∨ _ :=
        dirs_step_of_holds hget hholds input
      rcases hstep with hsame | ⟨answer, hanswer⟩
      · refine .inl ?_
        change (w.step platform owner input).dirs.readdir .lock = _
        rw [hsame, hlock]
      · exact .inr ⟨input, answer, rfl, hanswer⟩
    · have hthere : (w.step platform other input).calls.get owner = some call :=
        (get_step_ne hother input).trans hget
      exact .inl (((h.step other input).calls hthere id).locked hholds)

theorem ArchiveStage.holds_of_inside {stage : ArchiveStage} (h : stage.inside = true) :
    stage.holds = true := by
  cases stage with
  | read | importing | operate | quarantine | publish | published => rfl
  | _ => cases h

/-! ### Main results -/

/-- **The lock of the archive file**: one live call at most is inside, a lock stays its holder's
until that gives it back, and writes follow each other: each finds what the last one left and
says what its operation makes of it. A save that answered ok was based on what it found, and a
mutation that resolved was applied to it. -/
theorem archive_lock_exclusive (hw : (ArchiveWorld.archiveRuns platform).Reachable w) :
    (∀ {owner other call call'}, w.calls.get owner = some call → w.calls.get other = some call' →
      call.stage.inside = true → call'.stage.inside = true → owner = other) ∧
    (∀ {owner call act w'}, w.calls.get owner = some call → call.stage.holds = true →
      (ArchiveWorld.archiveRuns platform).step w act w' →
      w'.dirs.readdir .lock = some [owner] ∨
        ∃ input answer, act = .step owner input ∧ call.stage = .release answer) ∧
    (w.writes.IsChain fun write later => later.found = some write.next) ∧
    (∀ write, w.writes.getLast? = some write → w.stored = some write.next) ∧
    (∀ write ∈ w.writes, write.Means platform) ∧
    (∀ {owner json baseRevision}, (owner, .save json baseRevision, .ok) ∈ w.answers →
      ∃ write ∈ w.writes, ∃ bytes revision, write.owner = owner ∧ write.found = some bytes ∧
        baseRevision = platform.revisionOf bytes ∧
        write.next = platform.encode revision (some json)) ∧
    ∀ {owner mutation}, (owner, .mutate mutation, .resolved) ∈ w.answers →
      ∃ write ∈ w.writes, ∃ bytes revision raw, write.owner = owner ∧ write.found = some bytes ∧
        platform.mutateRaw mutation (platform.rawOf bytes) = some raw ∧
        write.next = platform.encode revision (some raw) := by
  have h : Kept platform nobody w := kept_inductive.reachable hw
  have hwritten {owner : LockOwner} {operation : ArchiveOperation} {answer : ArchiveAnswer}
      (hmem : (owner, operation, answer) ∈ w.answers)
      (hclaims : answer.claimsWrite operation = true) :
      ∃ write ∈ w.writes, write.owner = owner ∧ ∃ bytes answer, write.found = some bytes ∧
        Says platform operation bytes write.next answer := by
    obtain ⟨write, hwrite, howner, hoperation, himports⟩ := h.earned _ hmem hclaims
    have hmeans := h.means write hwrite
    unfold ArchiveWrite.Means at hmeans
    rw [himports, if_neg Bool.false_ne_true, hoperation] at hmeans
    exact ⟨write, hwrite, howner, hmeans⟩
  refine ⟨fun {owner other _ _} hget hget' hinside hinside' => ?_,
    fun hget hholds hstep => ?_, h.chained.links, h.chained.last, h.means, fun hmem => ?_,
    fun hmem => ?_⟩
  · have hlock := (h.calls hget id).locked (ArchiveStage.holds_of_inside hinside)
    have hlock' := (h.calls hget' id).locked (ArchiveStage.holds_of_inside hinside')
    exact (List.cons.inj (Option.some.inj (hlock.symm.trans hlock'))).1
  · obtain ⟨hpossible, rfl⟩ := hstep
    exact h.lock_stays hget hholds hpossible
  · obtain ⟨write, hwrite, howner, bytes, _, hfound, revision, hbase, hnext, -⟩ := hwritten hmem rfl
    exact ⟨write, hwrite, bytes, revision, howner, hfound, hbase, hnext⟩
  · obtain ⟨write, hwrite, howner, bytes, _, hfound, revision, raw, hraw, hnext, -⟩ :=
      hwritten hmem rfl
    exact ⟨write, hwrite, bytes, revision, raw, howner, hfound, hraw, hnext⟩

end Rules

/-! ### A save -/

namespace OneSave

def bytes : JsString := js "envelope"

/-- `JSON` as it is on what the run writes. -/
def platform : ArchivePlatform where
  parseJson text :=
    if text = bytes then
      some (.object [(js "revision", .string (js "1")), (js "raw", .null)])
    else none
  stringify value :=
    match value.field (js "raw") with
    | some .null => bytes
    | _ => js "saved"
  sha256Hex text := text

def owner : LockOwner := ⟨7, js "a1"⟩

def input : ArchiveInput := ⟨true, false, none, js "1"⟩

def performAll (w : ArchiveWorld) (acts : List ArchiveAct) : ArchiveWorld :=
  acts.foldl (fun w act => w.perform platform act) w

/-- Another process crashes with the lock in its hands. -/
def crashed : ArchiveWorld :=
  performAll (((ArchiveWorld.fresh none).boot 6).start ⟨6, js "b2"⟩ .load)
    (List.replicate 3 (.step ⟨6, js "b2"⟩ input) ++ [.crash 6, .boot 7])

def after : ArchiveWorld :=
  performAll (crashed.start owner (.save (js "json") none)) (List.replicate 20 (.step owner input))

/-- Whether acts that start no call are all there are. -/
def startsNone : ArchiveAct → Bool
  | .start .. => false
  | _ => true

theorem reachable_foldl : ∀ (acts : List ArchiveAct) {w : ArchiveWorld},
    acts.all startsNone = true → (ArchiveWorld.archiveRuns platform).Reachable w →
      (ArchiveWorld.archiveRuns platform).Reachable (performAll w acts)
  | [], _, _, h => h
  | act :: acts, w, hnone, h => by
    rw [List.all_cons, Bool.and_eq_true] at hnone
    have hpossible : w.Possible act := by
      cases act with
      | start => cases hnone.1
      | _ => trivial
    exact reachable_foldl acts hnone.2 (.next h ⟨hpossible, rfl⟩)

theorem reachable_start {w : ArchiveWorld} (h : (ArchiveWorld.archiveRuns platform).Reachable w)
    {owner : LockOwner} (operation : ArchiveOperation) (halive : owner.pid ∈ w.alive)
    (hfresh : owner ∉ w.drawn) :
    (ArchiveWorld.archiveRuns platform).Reachable (w.start owner operation) :=
  .next h (show w.Possible (.start owner operation) ∧ _ from ⟨⟨halive, hfresh⟩, rfl⟩)

theorem reachable_after : (ArchiveWorld.archiveRuns platform).Reachable after := by
  have hboot : (ArchiveWorld.archiveRuns platform).Reachable ((ArchiveWorld.fresh none).boot 6) :=
    reachable_foldl [.boot 6] rfl (.start ⟨none, rfl⟩)
  have hload : (ArchiveWorld.archiveRuns platform).Reachable
      (((ArchiveWorld.fresh none).boot 6).start ⟨6, js "b2"⟩ .load) :=
    reachable_start hboot _ (by decide) (by decide)
  have hcrashed : (ArchiveWorld.archiveRuns platform).Reachable crashed :=
    reachable_foldl _ (by decide) hload
  exact reachable_foldl _ (by decide)
    (reachable_start hcrashed _ (by decide +kernel) (by decide +kernel))

end OneSave

/-- A save after a crash reaps the lock, and is based on what it finds. -/
theorem archive_lock_exclusive_one :
    (OneSave.owner, .save (js "json") none, .ok) ∈ OneSave.after.answers ∧
    ∃ write ∈ OneSave.after.writes, ∃ bytes revision, write.owner = OneSave.owner ∧
      write.found = some bytes ∧ none = OneSave.platform.revisionOf bytes ∧
      write.next = OneSave.platform.encode revision (some (js "json")) := by
  have hmem : (OneSave.owner, .save (js "json") none, .ok) ∈ OneSave.after.answers := by
    decide +kernel
  exact ⟨hmem, (archive_lock_exclusive OneSave.reachable_after).2.2.2.2.2.1 hmem⟩

end Dormouse.Notepad
