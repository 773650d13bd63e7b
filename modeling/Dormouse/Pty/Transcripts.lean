import Dormouse.Lib.Transition
import Dormouse.Pty.Helpers
import Dormouse.Pty.Manager
import Mathlib.Logic.Function.Basic

/-!
# Dormouse.Pty.Transcripts

**Terminal transcripts**: the extension host's scrollback, its marks, and the replay text of
`pty-core`, over every sequence of spawns, chunks, exits and kills.

The extension host files a chunk under the bare id, so a chunk of an earlier process of the id is
in the transcript of the one that is current. `pty-core` keeps only what the process prints that
holds the id.
-/

namespace Dormouse.Pty

/-! ### The extension host -/

structure Transcripts where
  manager : PtyManager
  /-- The ids of the generations, in the order of their spawns. -/
  generations : List JsString
  current : JsString → Option Nat
  /-- All that came in of a generation. -/
  printed : Nat → JsString

inductive TranscriptEvent
  | spawn (id : JsString) (shell : Option JsString)
  /-- A chunk of generation `n` comes in. -/
  | data (n : Nat) (data : JsString)
  | exit (n : Nat) (exitCode : Int)
  | kill (id : JsString)
  | getReplayData (id : JsString)

namespace Transcripts

def create : Transcripts := ⟨.create, [], fun _ => none, fun _ => []⟩

def step (s : Transcripts) : TranscriptEvent → Option Transcripts
  | .spawn id shell => some
      { manager := s.manager.spawn id shell
        generations := s.generations ++ [id]
        current := Function.update s.current id (some s.generations.length)
        printed := s.printed }
  | .data n data => (s.generations[n]?).map fun id =>
    { s with
      manager := s.manager.bufferData id data
      printed := Function.update s.printed n (s.printed n ++ data) }
  | .exit n exitCode => (s.generations[n]?).map fun id =>
    { s with manager := s.manager.bufferExit id exitCode }
  | .kill id => some
      { s with manager := s.manager.kill id, current := Function.update s.current id none }
  | .getReplayData id => some { s with manager := (s.manager.getReplayData id).2 }

/-- No chunk of an earlier generation comes in while a later one of its id is current. -/
def Meets (s : Transcripts) : TranscriptEvent → Prop
  | .data n _ => ∀ id, s.generations[n]? = some id → ∀ current, s.current id = some current →
      current = n
  | _ => True

def serving : System Transcripts TranscriptEvent where
  init s := s = create
  step s e t := s.step e = some t

/-- The runs whose steps all meet the condition. -/
def metServing : System Transcripts TranscriptEvent where
  init s := s = create
  step s e t := s.Meets e ∧ s.step e = some t

/-- The scrollback of an id, against all that its generation printed. -/
structure Transcript (m : PtyManager) (id printed : JsString) : Prop where
  suffix : (m.getScrollback id).getD [] <:+ printed
  bounded : ((m.getScrollback id).getD []).length ≤ MAX_BUFFER_CHARS
  counted : ∃ entry, m.ptyBuffers.get id = some entry ∧
    entry.scrollback.chars = ((m.getScrollback id).getD []).length ∧
    entry.receivedChars = printed.length
  received : m.getScrollbackReceived id = printed.length
  /-- For every mark, the part after it that is still held. -/
  since : ∀ mark, m.getScrollbackSince id mark =
    printed.drop (max mark (printed.length - ((m.getScrollback id).getD []).length))

/-- The transcripts of all ids. -/
def Exact (s : Transcripts) : Prop :=
  ∀ id n, s.current id = some n → Transcript s.manager id (s.printed n)

variable {s t : Transcripts} {id id' : JsString} {n : Nat} {m m' : PtyManager} {printed : JsString}

/-- What is filed under an id: the end of all that came in. -/
structure Files (m : PtyManager) (id printed : JsString) : Prop where
  notKilled : id ∉ m.killedPtyIds
  entry : ∃ entry, m.ptyBuffers.get id = some entry ∧ entry.Holds printed ∧
    entry.scrollback.chars ≤ MAX_BUFFER_CHARS

structure Sound (s : Transcripts) : Prop where
  known : ∀ id n, s.current id = some n → s.generations[n]? = some id
  unprinted : ∀ n, s.generations.length ≤ n → s.printed n = []
  files : ∀ id n, s.current id = some n → Files s.manager id (s.printed n)

theorem Files.transcript (h : Files m id printed) : Transcript m id printed := by
  obtain ⟨entry, hget, hholds, hchars⟩ := h.entry
  have hscrollback : (m.getScrollback id).getD [] = entry.scrollback.joined := by
    unfold PtyManager.getScrollback
    rw [hget]
    dsimp only
    split
    · rename_i hempty
      rw [ChunkBuffer.joined, List.isEmpty_iff.1 hempty]
      rfl
    · rfl
  refine ⟨?_, ?_, ⟨entry, hget, ?_, hholds.receivedChars⟩, ?_, fun mark => ?_⟩
  · rw [hscrollback]
    exact hholds.scrollback
  · rw [hscrollback, ChunkBuffer.length_joined]
    exact hchars
  · rw [hscrollback, ChunkBuffer.length_joined]
  · unfold PtyManager.getScrollbackReceived
    rw [hget]
    exact hholds.receivedChars
  · unfold PtyManager.getScrollbackSince
    rw [hget, hscrollback, ChunkBuffer.length_joined]
    exact hholds.since_eq mark

/-- Another id's entry is left alone. -/
theorem Files.of_eq (h : Files m id printed)
    (hget : m'.ptyBuffers.get id = m.ptyBuffers.get id)
    (hkilled : id ∈ m'.killedPtyIds → id ∈ m.killedPtyIds) : Files m' id printed where
  notKilled hmem := h.notKilled (hkilled hmem)
  entry := by
    rw [hget]
    exact h.entry

theorem files_spawn (shell : Option JsString) : Files (m.spawn id shell) id [] where
  notKilled := by simp [PtyManager.spawn]
  entry := ⟨createBufferEntry true none shell, InsertionMap.get_set_self ..,
    PtyBufferEntry.holds_create .., Nat.zero_le _⟩

theorem Files.data (h : Files m id printed) (data : JsString) :
    Files (m.bufferData id data) id (printed ++ data) := by
  obtain ⟨entry, hget, hholds, -⟩ := h.entry
  have hbuffered : m.bufferData id data =
      { m with ptyBuffers := m.ptyBuffers.set id (entry.buffer data) } := by
    unfold PtyManager.bufferData
    rw [if_neg h.notKilled, hget]
    rfl
  rw [hbuffered]
  exact {
    notKilled := h.notKilled
    entry := ⟨entry.buffer data, InsertionMap.get_set_self .., hholds.buffer data,
      chars_trimChunks_le _⟩ }

theorem Files.data_ne (h : Files m id printed) {data : JsString} (hne : id' ≠ id) :
    Files (m.bufferData id' data) id printed := by
  unfold PtyManager.bufferData
  split
  · exact h
  · exact h.of_eq (InsertionMap.get_set_ne _ _ hne) fun hmem => hmem

theorem Files.exit (h : Files m id printed) (exitCode : Int) :
    Files (m.bufferExit id' exitCode) id printed := by
  by_cases hne : id' = id
  · subst hne
    obtain ⟨entry, hget, hholds, hchars⟩ := h.entry
    have hexited : m.bufferExit id' exitCode = { m with
        ptyBuffers := m.ptyBuffers.set id' { entry with alive := false, exitCode := exitCode } } := by
      unfold PtyManager.bufferExit
      rw [if_neg h.notKilled, hget]
    rw [hexited]
    exact {
      notKilled := h.notKilled
      entry := ⟨_, InsertionMap.get_set_self ..,
        ⟨hholds.replay, hholds.scrollback, hholds.receivedChars⟩, hchars⟩ }
  · unfold PtyManager.bufferExit
    split
    · exact h
    · split <;> exact h.of_eq (InsertionMap.get_set_ne _ _ hne) fun hmem => hmem

theorem Files.getReplayData (h : Files m id printed) :
    Files (m.getReplayData id').2 id printed := by
  unfold PtyManager.getReplayData
  split
  · exact h
  rename_i entry hget
  split
  · exact h
  by_cases hne : id' = id
  · subst hne
    obtain ⟨entry', hget', hholds, hchars⟩ := h.entry
    obtain rfl := Option.some.inj (hget.symm.trans hget')
    exact {
      notKilled := h.notKilled
      entry := ⟨_, InsertionMap.get_set_self ..,
        ⟨List.nil_suffix, hholds.scrollback, hholds.receivedChars⟩, hchars⟩ }
  · exact h.of_eq (InsertionMap.get_set_ne _ _ hne) fun hmem => hmem

theorem sound_create : create.Sound where
  known := nofun
  unprinted _ _ := rfl
  files := nofun

theorem Sound.step (h : s.Sound) {e : TranscriptEvent} (hmeets : s.Meets e)
    (hstep : s.step e = some t) : t.Sound := by
  cases e with
  | spawn id shell =>
    cases hstep
    have hcases : ∀ id' n, Function.update s.current id (some s.generations.length) id' = some n →
        id' = id ∧ n = s.generations.length ∨ id' ≠ id ∧ s.current id' = some n := by
      intro id' n hn
      by_cases heq : id' = id
      · subst heq
        rw [Function.update_self] at hn
        exact .inl ⟨rfl, (Option.some.inj hn).symm⟩
      · rw [Function.update_of_ne heq] at hn
        exact .inr ⟨heq, hn⟩
    exact {
      known := fun id' n hn => by
        rcases hcases id' n hn with ⟨rfl, rfl⟩ | ⟨-, hn⟩
        · simp
        · have hget := h.known id' n hn
          exact (List.getElem?_append_left (List.getElem?_eq_some_iff.1 hget).1).trans hget
      unprinted := fun n hn => h.unprinted n (le_trans (by simp) hn)
      files := fun id' n hn => by
        rcases hcases id' n hn with ⟨rfl, rfl⟩ | ⟨hne, hn⟩
        · rw [h.unprinted _ (Nat.le_refl _)]
          exact files_spawn shell
        · refine (h.files id' n hn).of_eq (InsertionMap.get_set_ne _ _ hne.symm) fun hmem => ?_
          exact List.mem_of_mem_filter hmem }
  | data n data =>
    obtain ⟨id, hid, rfl⟩ := Option.map_eq_some_iff.1 hstep
    exact {
      known := h.known
      unprinted := fun n' hn' => by
        have hne : n' ≠ n := by
          rintro rfl
          exact absurd (List.getElem?_eq_some_iff.1 hid).1 (not_lt.2 hn')
        exact (Function.update_of_ne hne ..).trans (h.unprinted n' hn')
      files := fun id' n' hn' => by
        by_cases heq : id = id'
        · subst heq
          obtain rfl := hmeets id hid n' hn'
          show Files _ id (Function.update s.printed n' (s.printed n' ++ data) n')
          rw [Function.update_self]
          exact (h.files id n' hn').data data
        have hne : n' ≠ n := by
          rintro rfl
          exact heq (Option.some.inj (hid.symm.trans (h.known id' n' hn')))
        show Files _ id' (Function.update s.printed n (s.printed n ++ data) n')
        rw [Function.update_of_ne hne]
        exact (h.files id' n' hn').data_ne heq }
  | exit n exitCode =>
    obtain ⟨id, -, rfl⟩ := Option.map_eq_some_iff.1 hstep
    exact ⟨h.known, h.unprinted, fun id' n' hn' => (h.files id' n' hn').exit exitCode⟩
  | kill id =>
    cases hstep
    have hother : ∀ id' n, Function.update s.current id none id' = some n →
        id' ≠ id ∧ s.current id' = some n := by
      intro id' n hn
      have hne : id' ≠ id := by
        rintro rfl
        rw [Function.update_self] at hn
        exact absurd hn nofun
      rw [Function.update_of_ne hne] at hn
      exact ⟨hne, hn⟩
    exact {
      known := fun id' n hn => h.known id' n (hother id' n hn).2
      unprinted := h.unprinted
      files := fun id' n hn => by
        obtain ⟨hne, hn⟩ := hother id' n hn
        refine (h.files id' n hn).of_eq (InsertionMap.get_delete_ne _ hne.symm) fun hmem => ?_
        exact (List.mem_cons.1 hmem).resolve_left hne }
  | getReplayData id =>
    cases hstep
    exact ⟨h.known, h.unprinted, fun id' n' hn' => (h.files id' n' hn').getReplayData⟩

theorem inductive_sound : metServing.Inductive Sound where
  init h := h ▸ sound_create
  step h hstep := h.step hstep.1 hstep.2

end Transcripts

/-! ### The replay text -/

/-- `pty-core` for a host that asks for replay. -/
structure Replays where
  core : PtyCore
  /-- The ids of the processes, in the order of their launches. -/
  processes : List JsString
  printed : Nat → JsString

inductive ReplayEvent
  | spawn (id : JsString) (helper : HelperOption) (launched : Launch)
  | data (p : Nat) (data : JsString)
  | exit (p : Nat)
  | kill (id : JsString)
  | killAll

namespace Replays

def create : Replays := ⟨.create true, [], fun _ => []⟩

def step (s : Replays) : ReplayEvent → Option Replays
  | .spawn id helper launched =>
    let core := (s.core.spawnOption id helper s.processes.length launched).1
    match s.core.accepts id helper, launched with
    | true, .started _ => some { s with core, processes := s.processes ++ [id] }
    | _, _ => some { s with core }
  | .data p data => (s.processes[p]?).map fun id =>
    { s with
      core := s.core.onData id p data
      printed := Function.update s.printed p (s.printed p ++ data) }
  | .exit p => (s.processes[p]?).map fun id => { s with core := s.core.onExit id p }
  | .kill id => some { s with core := s.core.kill id }
  | .killAll => some { s with core := s.core.killAll }

def serving : System Replays ReplayEvent where
  init s := s = create
  step s e t := s.step e = some t

/-- Every process that holds an id is replayed, with the last of what it printed. -/
def Exact (s : Replays) : Prop :=
  ∀ id data, (id, data) ∈ s.core.replays ↔
    ∃ p, s.core.ptys.get id = some p ∧ data = (s.printed p).rtake REPLAY_CHARS

variable {s t : Replays} {id id' : JsString} {p : Nat} {core : PtyCore}

structure Sound (s : Replays) : Prop where
  replay : s.core.replay = true
  known : ∀ id p, s.core.ptys.get id = some p → s.processes[p]? = some id
  unprinted : ∀ p, s.processes.length ≤ p → s.printed p = []
  session : ∀ id p, s.core.ptys.get id = some p →
    ∃ session, s.core.sessions.get id = some session ∧
      session.joined = (s.printed p).rtake REPLAY_CHARS

theorem sound_create : create.Sound where
  replay := rfl
  known := nofun
  unprinted _ _ := rfl
  session := nofun

/-- Processes go, with or without their sessions. -/
theorem Sound.fewer (h : s.Sound) (hreplay : core.replay = true)
    (hget : ∀ id p, core.ptys.get id = some p →
      s.core.ptys.get id = some p ∧ core.sessions.get id = s.core.sessions.get id) :
    { s with core }.Sound where
  replay := hreplay
  known id p hp := h.known id p (hget id p hp).1
  unprinted := h.unprinted
  session id p hp := by
    obtain ⟨hp, hsession⟩ := hget id p hp
    show ∃ session, core.sessions.get id = some session ∧ _
    rw [hsession]
    exact h.session id p hp

theorem Sound.spawn (h : s.Sound) {helper : HelperOption} {launched : Launch}
    (hstep : s.step (.spawn id helper launched) = some t) : t.Sound := by
  obtain ⟨hreplay, ⟨haccepts, ⟨cwdWarning, rfl⟩, hptys, hsessions⟩ | ⟨hnot, hptys, hsessions⟩⟩ :=
    s.core.spawnOption_cases id helper s.processes.length launched
  · have ht : t = { s with
        core := (s.core.spawnOption id helper s.processes.length (.started cwdWarning)).1
        processes := s.processes ++ [id] } := by
      unfold step at hstep
      dsimp only at hstep
      rw [haccepts] at hstep
      exact (Option.some.inj hstep).symm
    subst ht
    have hcases : ∀ id' p, (s.core.ptys.set id s.processes.length).get id' = some p →
        id' = id ∧ p = s.processes.length ∨ id ≠ id' ∧ s.core.ptys.get id' = some p := by
      intro id' p hp
      rw [InsertionMap.get_set] at hp
      split at hp
      · rename_i heq
        exact .inl ⟨heq.symm, (Option.some.inj hp).symm⟩
      · rename_i hne
        exact .inr ⟨hne, hp⟩
    refine ⟨hreplay.trans h.replay, fun id' p hp => ?_,
      fun p hp => h.unprinted p (le_trans (by simp) hp), fun id' p hp => ?_⟩
    · dsimp only at hp
      rw [hptys] at hp
      rcases hcases id' p hp with ⟨rfl, rfl⟩ | ⟨-, hp⟩
      · simp
      · have hget := h.known id' p hp
        exact (List.getElem?_append_left (List.getElem?_eq_some_iff.1 hget).1).trans hget
    · dsimp only at hp ⊢
      rw [hptys] at hp
      rw [hsessions]
      rcases hcases id' p hp with ⟨rfl, rfl⟩ | ⟨hne, hp⟩
      · refine ⟨.empty, InsertionMap.get_set_self .., ?_⟩
        rw [h.unprinted _ (Nat.le_refl _)]
        rfl
      · rw [InsertionMap.get_set_ne _ _ hne]
        exact h.session id' p hp
  · have ht : t =
        { s with core := (s.core.spawnOption id helper s.processes.length launched).1 } := by
      unfold step at hstep
      dsimp only at hstep
      split at hstep
      · rename_i cwdWarning haccepts
        exact absurd ⟨haccepts, cwdWarning, rfl⟩ hnot
      · exact (Option.some.inj hstep).symm
    subst ht
    refine h.fewer (hreplay.trans h.replay) fun id' p hp => ?_
    rw [hptys] at hp
    exact ⟨hp, by rw [hsessions]⟩

theorem Sound.data (h : s.Sound) (hid : s.processes[p]? = some id) (data : JsString) :
    { s with
      core := s.core.onData id p data
      printed := Function.update s.printed p (s.printed p ++ data) }.Sound := by
  have hunprinted : ∀ p', s.processes.length ≤ p' →
      Function.update s.printed p (s.printed p ++ data) p' = [] := fun p' hp' => by
    have hne : p' ≠ p := by
      rintro rfl
      exact absurd (List.getElem?_eq_some_iff.1 hid).1 (not_lt.2 hp')
    rw [Function.update_of_ne hne]
    exact h.unprinted p' hp'
  by_cases hcurrent : s.core.ptys.get id = some p
  · obtain ⟨session, hsession, hjoined⟩ := h.session id p hcurrent
    have honData : s.core.onData id p data = { s.core with
        sessions := s.core.sessions.set id (PtyCore.trimSession (session.push data)) } := by
      unfold PtyCore.onData
      rw [if_pos (by simp [h.replay, hcurrent]), hsession]
    rw [honData]
    refine ⟨h.replay, h.known, hunprinted, fun id' p' hp' => ?_⟩
    by_cases heq : id = id'
    · subst heq
      obtain rfl := Option.some.inj (hcurrent.symm.trans hp')
      refine ⟨_, InsertionMap.get_set_self .., ?_⟩
      dsimp only
      rw [PtyCore.joined_trimSession, ChunkBuffer.joined_push, hjoined, Function.update_self]
      exact ChunkBuffer.rtake_rtake_append ..
    have hne : p' ≠ p := by
      rintro rfl
      exact heq (Option.some.inj (hid.symm.trans (h.known id' p' hp')))
    dsimp only
    rw [InsertionMap.get_set_ne _ _ heq, Function.update_of_ne hne]
    exact h.session id' p' hp'
  · have honData : s.core.onData id p data = s.core := by
      unfold PtyCore.onData
      rw [if_neg]
      simp [hcurrent]
    rw [honData]
    refine ⟨h.replay, h.known, hunprinted, fun id' p' hp' => ?_⟩
    have hne : p' ≠ p := by
      rintro rfl
      have heq := Option.some.inj (hid.symm.trans (h.known id' p' hp'))
      exact hcurrent (heq ▸ hp')
    dsimp only
    rw [Function.update_of_ne hne]
    exact h.session id' p' hp'

theorem Sound.step (h : s.Sound) {e : ReplayEvent} (hstep : s.step e = some t) : t.Sound := by
  cases e with
  | spawn id helper launched => exact h.spawn hstep
  | data p data =>
    obtain ⟨id, hid, rfl⟩ := Option.map_eq_some_iff.1 hstep
    exact h.data hid data
  | exit p =>
    obtain ⟨id, -, rfl⟩ := Option.map_eq_some_iff.1 hstep
    unfold PtyCore.onExit
    split
    · refine h.fewer h.replay fun id' p' hp' => ?_
      have hp' : (s.core.ptys.delete id).get id' = some p' := hp'
      rw [InsertionMap.get_delete] at hp'
      split at hp'
      · cases hp'
      · exact ⟨hp', rfl⟩
    · exact h
  | kill id =>
    cases hstep
    refine h.fewer h.replay fun id' p' hp' => ?_
    have hp' : (s.core.ptys.delete id).get id' = some p' := hp'
    rw [InsertionMap.get_delete] at hp'
    split at hp'
    · cases hp'
    · rename_i hne
      exact ⟨hp', InsertionMap.get_delete_ne _ hne⟩
  | killAll =>
    cases hstep
    exact h.fewer h.replay (fun _ _ h => by cases h)

theorem inductive_sound : serving.Inductive Sound where
  init h := h ▸ sound_create
  step h hstep := h.step hstep

theorem Sound.exact (h : s.Sound) : s.Exact := by
  intro id data
  unfold PtyCore.replays
  rw [List.mem_filterMap]
  constructor
  · rintro ⟨id', hid', hmap⟩
    obtain ⟨session, hsession, heq⟩ := Option.map_eq_some_iff.1 hmap
    obtain ⟨rfl, rfl⟩ := Prod.mk.inj heq
    cases hp : s.core.ptys.get id' with
    | none => exact absurd hid' (InsertionMap.get_eq_none.1 hp)
    | some p =>
      obtain ⟨session', hsession', hjoined⟩ := h.session id' p hp
      obtain rfl := Option.some.inj (hsession.symm.trans hsession')
      exact ⟨p, rfl, hjoined⟩
  · rintro ⟨p, hp, hdata⟩
    obtain ⟨session, hsession, hjoined⟩ := h.session id p hp
    refine ⟨id, InsertionMap.has_iff.1 (by rw [InsertionMap.has, hp]; rfl), ?_⟩
    rw [hsession, Option.map_some, hjoined, hdata]

end Replays

/-! ### Both -/

/-- In every run in which no chunk of an earlier generation comes while a later one is current, the
extension host's transcripts are exact; and in every run the replay texts are. -/
theorem transcripts_exact {s : Transcripts} {r : Replays} (hs : Transcripts.metServing.Reachable s)
    (hr : Replays.serving.Reachable r) : s.Exact ∧ r.Exact :=
  ⟨fun id n hn => ((Transcripts.inductive_sound.reachable hs).files id n hn).transcript,
    (Replays.inductive_sound.reachable hr).exact⟩

/-- Two chunks and a mark between them. -/
theorem transcripts_exact_chunks : ∃ s, Transcripts.metServing.Reachable s ∧ s.Exact ∧
    s.manager.getScrollback (js "a") = some (js "xyz") ∧
    s.manager.getScrollbackSince (js "a") 2 = js "z" := by
  let s₁ : Transcripts :=
    ⟨PtyManager.create.spawn (js "a") none, [js "a"],
      Function.update (fun _ => none) (js "a") (some 0), fun _ => []⟩
  let s₂ : Transcripts :=
    { s₁ with
      manager := s₁.manager.bufferData (js "a") (js "xy")
      printed := Function.update s₁.printed 0 (s₁.printed 0 ++ js "xy") }
  let s₃ : Transcripts :=
    { s₂ with
      manager := s₂.manager.bufferData (js "a") (js "z")
      printed := Function.update s₂.printed 0 (s₂.printed 0 ++ js "z") }
  have hmeets : ∀ s : Transcripts, s.generations = [js "a"] →
      s.current (js "a") = some 0 → ∀ data, s.Meets (.data 0 data) := by
    intro s hgenerations hcurrent data id hid current hsome
    rw [hgenerations] at hid
    cases hid
    exact Option.some.inj (hsome.symm.trans hcurrent)
  have h₁ : Transcripts.metServing.Reachable s₁ :=
    .next (a := .spawn (js "a") none) (.start rfl) ⟨trivial, rfl⟩
  have h₂ : Transcripts.metServing.Reachable s₂ :=
    .next (a := .data 0 (js "xy")) h₁ ⟨hmeets s₁ rfl rfl _, rfl⟩
  have h₃ : Transcripts.metServing.Reachable s₃ :=
    .next (a := .data 0 (js "z")) h₂ ⟨hmeets s₂ rfl rfl _, rfl⟩
  exact ⟨s₃, h₃, (transcripts_exact h₃ (.start rfl)).1, by decide, by decide⟩

/-- A killed process still prints when its id has been spawned again. -/
theorem killed_in_transcript : ∃ s, Transcripts.serving.Reachable s ∧
    s.current (js "a") = some 1 ∧ s.printed 1 = [] ∧
    s.manager.getScrollback (js "a") = some (js "x") ∧ ¬s.Exact := by
  let s₁ : Transcripts :=
    ⟨PtyManager.create.spawn (js "a") none, [js "a"],
      Function.update (fun _ => none) (js "a") (some 0), fun _ => []⟩
  let s₂ : Transcripts :=
    { s₁ with manager := s₁.manager.kill (js "a"), current := Function.update s₁.current (js "a") none }
  let s₃ : Transcripts :=
    ⟨s₂.manager.spawn (js "a") none, [js "a", js "a"],
      Function.update s₂.current (js "a") (some 1), s₂.printed⟩
  let s₄ : Transcripts :=
    { s₃ with
      manager := s₃.manager.bufferData (js "a") (js "x")
      printed := Function.update s₃.printed 0 (s₃.printed 0 ++ js "x") }
  have h₁ : Transcripts.serving.Reachable s₁ :=
    .next (a := .spawn (js "a") none) (.start rfl) rfl
  have h₂ : Transcripts.serving.Reachable s₂ := .next (a := .kill (js "a")) h₁ rfl
  have h₃ : Transcripts.serving.Reachable s₃ := .next (a := .spawn (js "a") none) h₂ rfl
  have h₄ : Transcripts.serving.Reachable s₄ := .next (a := .data 0 (js "x")) h₃ rfl
  have hscrollback : s₄.manager.getScrollback (js "a") = some (js "x") := by decide
  refine ⟨s₄, h₄, by decide, by decide, hscrollback, fun hexact => ?_⟩
  have hsuffix := (hexact (js "a") 1 (by decide)).suffix
  rw [hscrollback] at hsuffix
  exact absurd (List.suffix_nil.1 hsuffix) (by decide)

end Dormouse.Pty
