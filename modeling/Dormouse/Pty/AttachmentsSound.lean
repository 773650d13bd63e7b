import Dormouse.Pty.Attachments
import Dormouse.Pty.AttachmentSides

/-!
# Dormouse.Pty.AttachmentsSound

**Both hosts serve attachments alike**, as long as nobody is attached to what is spawned over.
-/

namespace Dormouse.Pty

variable {id id' : JsString} {sink p : Nat}

/-! ### Both hosts -/

namespace Hosts

variable {s t : Hosts}

/-- What both hosts keep of an id is what the service has of it. -/
structure Agrees (s : Hosts) (id : JsString) : Prop where
  running : ∀ p, s.service.current id = some p → s.running? p = some id
  pty : s.core.ptys.get id = s.service.alive id
  /-- A record is kept of an id that has had a process, unless it was killed. -/
  heard : id ∈ s.processes → (s.window.side id).killed = false →
    (s.window.side id).status ≠ none
  live : ∀ p, s.service.alive id = some p →
    s.window.side id = ⟨some ⟨true, none⟩, false, ⟨s.service.printed p, s.service.attached id⟩,
      s.service.attached id⟩ ∧
    (s.bridge.side id).stream = ⟨s.service.printed p, s.service.attached id⟩
  dead : s.service.alive id = none → (s.window.side id).registered = s.service.attached id ∧
    (s.window.side id).stream.sinks = [] ∧ (s.bridge.side id).stream.sinks = s.service.attached id ∧
    ∀ status, (s.window.side id).status = some status → status.alive = false
  unattached : s.service.current id = none → s.service.attached id = []

/-- An event of another id leaves it alone. -/
theorem Agrees.other (h : s.Agrees id) (hwindow : t.window.side id = s.window.side id)
    (hbridge : (t.bridge.side id).stream = (s.bridge.side id).stream)
    (hpty : t.core.ptys.get id = s.core.ptys.get id)
    (hcurrent : t.service.current id = s.service.current id)
    (halive : t.service.alive id = s.service.alive id)
    (hattached : t.service.attached id = s.service.attached id)
    (hprocesses : id ∈ t.processes → id ∈ s.processes)
    (hrunning : ∀ p, s.running? p = some id →
      t.running? p = some id ∧ t.service.printed p = s.service.printed p) : t.Agrees id where
  running p hp := (hrunning p (h.running p (hcurrent ▸ hp))).1
  pty := by rw [hpty, halive, h.pty]
  heard hid := by
    rw [hwindow]
    exact h.heard (hprocesses hid)
  live p hp := by
    rw [halive] at hp
    have hprinted := (hrunning p (h.running p (AttachmentService.alive_eq_some.1 hp).1)).2
    rw [hwindow, hbridge, hattached, hprinted]
    exact h.live p hp
  dead hnone := by
    rw [hwindow, hbridge, hattached]
    exact h.dead (halive ▸ hnone)
  unattached hnone := by
    rw [hattached]
    exact h.unattached (hcurrent ▸ hnone)

/-- Both hosts have the sinks of an id that are attached to it. -/
theorem Agrees.sinks (h : s.Agrees id) : (s.window.side id).registered = s.service.attached id ∧
    (s.bridge.side id).stream.sinks = s.service.attached id := by
  cases halive : s.service.alive id with
  | none =>
    obtain ⟨hregistered, -, hbridge, -⟩ := h.dead halive
    exact ⟨hregistered, hbridge⟩
  | some p =>
    obtain ⟨hside, hstream⟩ := h.live p halive
    rw [hside, hstream]
    exact ⟨rfl, rfl⟩

structure Sound (s : Hosts) : Prop where
  agrees : ∀ id, s.Agrees id
  service : s.service.Sound s.subscriptions
  exited : ∀ p ∈ s.exited, p < s.processes.length
  killed : ∀ p ∈ s.service.killed, p < s.processes.length
  unprinted : ∀ p, s.processes.length ≤ p → s.service.printed p = []
  same : s.windowSeen = s.bridgeSeen
  served : s.windowSeen.map (fun o => (o.1, o.2.seen)) = s.service.seen

theorem sound_create : create.Sound where
  agrees _ := {
    running := nofun
    pty := rfl
    heard := nofun
    live := nofun
    dead := fun _ => ⟨rfl, rfl, rfl, nofun⟩
    unattached := fun _ => rfl }
  service := AttachmentService.sound_create
  exited := nofun
  killed := nofun
  unprinted _ _ := rfl
  same := rfl
  served := rfl

theorem running_eq_some : s.running? p = some id ↔ p ∉ s.exited ∧ s.processes[p]? = some id := by
  unfold running?
  split <;> simp_all

theorem seen_told (exitCode : Int) (sinks : List Nat) :
    (told exitCode sinks).map (fun o => (o.1, o.2.seen)) = sinks.map fun sink => (sink, .ended) :=
  List.map_map ..

theorem seen_handed (stream : OwnerStream) (sinks : List Nat) :
    (handed stream sinks).map (fun o => (o.1, o.2.seen)) =
      sinks.map fun sink => (sink, .chunk stream.fed) :=
  List.map_map ..

theorem ptys_onData {core : PtyCore} (data : JsString) :
    (core.onData id p data).ptys = core.ptys := by
  unfold PtyCore.onData
  split
  · split <;> rfl
  · rfl

/-! ### Each event -/

theorem Sound.spawn (h : s.Sound) (shell : Option JsString) (hnobody : s.service.attached id = []) :
    (s.spawn id shell).Sound := by
  have hrunning : (s.spawn id shell).running? s.processes.length = some id :=
    running_eq_some.2 ⟨fun hmem => (h.exited _ hmem).ne rfl, by simp [Hosts.spawn]⟩
  have hcurrent : (s.spawn id shell).service.current id = some s.processes.length :=
    Function.update_self ..
  have halive : (s.spawn id shell).service.alive id = some s.processes.length :=
    AttachmentService.alive_eq_some.2 ⟨hcurrent, fun hmem => (h.killed _ hmem).ne rfl⟩
  obtain ⟨hregistered, hsinks⟩ := (h.agrees id).sinks
  rw [hnobody] at hregistered hsinks
  exact {
    agrees := fun id' => by
      by_cases heq : id = id'
      · subst heq
        exact {
          running := fun p hp => by
            obtain rfl := Option.some.inj (hcurrent.symm.trans hp)
            exact hrunning
          pty := by
            rw [halive]
            simp [Hosts.spawn, PtyCore.spawn, PtyCore.launch]
          heard := fun _ _ => by
            show ((s.window.spawn id shell).side id).status ≠ none
            rw [ExtensionHost.side_spawn, if_pos rfl]
            exact Option.some_ne_none _
          live := fun p hp => by
            obtain rfl := Option.some.inj (halive.symm.trans hp)
            have hprinted := h.unprinted _ (Nat.le_refl _)
            refine ⟨?_, ?_⟩
            · show (s.window.spawn id shell).side id = _
              rw [ExtensionHost.side_spawn, if_pos rfl, hregistered]
              simp [Hosts.spawn, AttachmentService.finish, hprinted, OwnerStream.create]
            · show ((s.bridge.onPtySpawn id).1.side id).stream = _
              rw [SurfaceBridge.side_onPtySpawn, if_pos rfl]
              simp [Hosts.spawn, AttachmentService.finish, hprinted, OwnerStream.create]
          dead := fun hnone => absurd (halive.symm.trans hnone) nofun
          unattached := fun hnone => absurd (hcurrent.symm.trans hnone) nofun }
      · have hne : id' ≠ id := fun h => heq h.symm
        have hcurrent' : (s.spawn id shell).service.current id' = s.service.current id' :=
          Function.update_of_ne hne ..
        refine (h.agrees id').other ?_ ?_ ?_ hcurrent' ?_ ?_ ?_ fun p hp => ⟨?_, rfl⟩
        · exact (ExtensionHost.side_spawn shell).trans (if_neg heq)
        · exact congrArg (·.stream) (SurfaceBridge.side_onPtySpawn.trans (if_neg heq))
        · simp [Hosts.spawn, PtyCore.spawn, PtyCore.launch, InsertionMap.get_set, heq]
        · exact congrArg (Option.filter _) hcurrent'
        · exact Function.update_of_ne hne ..
        · simp [Hosts.spawn, hne]
        · obtain ⟨hlive, hp⟩ := running_eq_some.1 hp
          refine running_eq_some.2 ⟨hlive, ?_⟩
          exact (List.getElem?_append_left (List.getElem?_eq_some_iff.1 hp).1).trans hp
    service := h.service.finish _
    exited := fun p hp => (h.exited p hp).trans (by simp [Hosts.spawn])
    killed := fun p hp => (h.killed p hp).trans (by simp [Hosts.spawn])
    unprinted := fun p hp => h.unprinted p (le_trans (by simp [Hosts.spawn]) hp)
    same := by
      show s.windowSeen = s.bridgeSeen ++ told _ (s.bridge.sinksOf id)
      rw [SurfaceBridge.sinksOf_eq, hsinks, told, List.map_nil, List.append_nil, h.same]
    served := by
      show s.windowSeen.map _ = s.service.seen ++ _
      rw [hnobody, List.map_nil, List.append_nil, h.served] }

theorem Sound.kill (h : s.Sound) : (s.kill id).Sound := by
  have halive : (s.kill id).service.alive id = none := by
    cases hcurrent : s.service.current id with
    | none => exact AttachmentService.alive_of_none hcurrent
    | some p => simp [Hosts.kill, AttachmentService.kill, AttachmentService.alive, hcurrent]
  exact {
    agrees := fun id' => by
      by_cases heq : id = id'
      · subst heq
        exact {
          running := (h.agrees id).running
          pty := by
            rw [halive]
            exact InsertionMap.get_delete_self ..
          heard := fun _ hkilled => by
            have hkilled : ((s.window.kill id).side id).killed = false := hkilled
            rw [ExtensionHost.side_kill, if_pos rfl] at hkilled
            exact absurd hkilled Bool.noConfusion
          live := fun p hp => by cases halive.symm.trans hp
          dead := fun _ => by
            obtain ⟨hregistered, hsinks⟩ := (h.agrees id).sinks
            simp only [Hosts.kill, ExtensionHost.side_kill, if_pos]
            exact ⟨hregistered, rfl, hsinks, (fun _ h => by cases h)⟩
          unattached := (h.agrees id).unattached }
      · -- The process that was killed is not the one of another id.
        have hother : s.service.current id' = none ∨
            ∃ p, s.service.current id' = some p ∧ p ∉ (s.service.current id).toList := by
          cases hcurrent : s.service.current id' with
          | none => exact .inl rfl
          | some p =>
            refine .inr ⟨p, rfl, fun hmem => heq ?_⟩
            have hp := (h.agrees id).running p (Option.mem_toList.1 hmem)
            have hp' := (h.agrees id').running p hcurrent
            exact Option.some.inj (hp.symm.trans hp')
        refine (h.agrees id').other ?_ rfl ?_ rfl ?_ rfl (fun hid => hid) fun p hp => ⟨hp, rfl⟩
        · exact ExtensionHost.side_kill.trans (if_neg heq)
        · exact InsertionMap.get_delete_ne _ heq
        · rcases hother with hnone | ⟨p, hp, hne⟩
          · exact (AttachmentService.alive_of_none (a := (s.kill id).service) hnone).trans
              (AttachmentService.alive_of_none hnone).symm
          · simp only [Option.mem_toList] at hne
            simp [Hosts.kill, AttachmentService.kill, AttachmentService.alive, hp, Option.filter_some,
              hne]
    service := h.service.kill
    exited := h.exited
    killed := fun p hp => by
      rcases List.mem_append.1 hp with hp | hp
      · have hp := (h.agrees id).running p (Option.mem_toList.1 hp)
        exact (List.getElem?_eq_some_iff.1 (running_eq_some.1 hp).2).1
      · exact h.killed p hp
    unprinted := h.unprinted
    same := h.same
    served := h.served }

theorem Sound.data (h : s.Sound) {data : JsString} (hp : s.running? p = some id)
    (htimely : s.Timely p) (hquiet : s.Quiet p) : (s.data p id data).Sound := by
  have hmem : id ∈ s.processes := List.mem_of_getElem? (running_eq_some.1 hp).2
  have hwindow := @ExtensionHost.side_onData id id s.window data
  have hbridge := @SurfaceBridge.side_onData id id s.bridge data
  rw [if_pos rfl] at hwindow hbridge
  -- Either this is the process that is alive, or nobody listens.
  have hheard : s.service.alive id = some p ∨
      s.service.alive id = none ∧ s.service.attached id = [] := by
    rcases hcurrent : s.service.current id with _ | current
    · exact .inr ⟨AttachmentService.alive_of_none hcurrent, (h.agrees id).unattached hcurrent⟩
    by_cases hkilled : current ∈ s.service.killed
    · refine .inr ⟨by simp [AttachmentService.alive, hcurrent, hkilled], ?_⟩
      rcases htimely id hp current hcurrent with rfl | ⟨-, hnobody⟩
      · exact hquiet id hp hcurrent hkilled
      · exact hnobody
    · rcases htimely id hp current hcurrent with rfl | ⟨hmem, -⟩
      · exact .inl (AttachmentService.alive_eq_some.2 ⟨hcurrent, hkilled⟩)
      · exact absurd hmem hkilled
  have halive : ∀ q, s.service.alive id = some q → q = p := fun q hq => by
    rcases hheard with hheard | ⟨hnone, -⟩
    · exact Option.some.inj (hq.symm.trans hheard)
    · cases hq.symm.trans hnone
  have hseen : ∃ new,
      handed ((s.window.onData id data).1.getOwnerPtyStream id) (s.window.onData id data).2 = new ∧
      handed ((s.bridge.onData id data).1.ownerStream id) (s.bridge.onData id data).2 = new ∧
      (s.data p id data).service.seen = s.service.seen ++ new.map fun o => (o.1, o.2.seen) := by
    have hstream : (s.window.onData id data).1.getOwnerPtyStream id =
        (s.window.side id).stream.write data := congrArg (·.stream) hwindow
    have hstream' : (s.bridge.onData id data).1.ownerStream id =
        (s.bridge.side id).stream.write data := congrArg (·.stream) hbridge
    rw [hstream, hstream']
    rcases hheard with hheard | ⟨hnone, hnobody⟩
    · obtain ⟨hside, hside'⟩ := (h.agrees id).live p hheard
      refine ⟨_, rfl, ?_, ?_⟩
      · show handed _ (s.bridge.side id).stream.sinks = handed _ (s.window.side id).stream.sinks
        simp only [hside, hside']
      · show (if _ then _ else _) = s.service.seen ++ (handed _ (s.window.side id).stream.sinks).map _
        rw [if_pos hheard, seen_handed]
        simp only [hside, OwnerStream.write]
    · obtain ⟨-, hsinks, hsinks', -⟩ := (h.agrees id).dead hnone
      refine ⟨[], ?_, ?_, ?_⟩
      · show handed _ (s.window.side id).stream.sinks = []
        rw [hsinks, handed, List.map_nil]
      · show handed _ (s.bridge.side id).stream.sinks = []
        rw [hsinks', hnobody, handed, List.map_nil]
      · show (if _ then _ else _) = _
        rw [if_neg (by rw [hnone]; exact (fun h => by cases h)), List.map_nil, List.append_nil]
  obtain ⟨new, hwindowNew, hbridgeNew, hnew⟩ := hseen
  exact {
    agrees := fun id' => by
      by_cases heq : id = id'
      · subst heq
        exact {
          running := (h.agrees id).running
          pty := by
            show (s.core.onData id p data).ptys.get id = _
            rw [ptys_onData]
            exact (h.agrees id).pty
          heard := fun _ hkilled => by
            show ((s.window.onData id data).1.side id).status ≠ none
            have hkilled : ((s.window.onData id data).1.side id).killed = false := hkilled
            rw [hwindow] at hkilled ⊢
            simp [show (s.window.side id).killed = false from hkilled]
          live := fun current hcurrent => by
            have hcurrent : s.service.alive id = some current := hcurrent
            obtain rfl := halive current hcurrent
            obtain ⟨hside, hstream⟩ := (h.agrees id).live current hcurrent
            refine ⟨?_, ?_⟩
            · show (s.window.onData id data).1.side id = _
              rw [hwindow, hside]
              simp [Hosts.data, AttachmentService.print, OwnerStream.write]
            · show ((s.bridge.onData id data).1.side id).stream = _
              rw [hbridge, hstream]
              simp [Hosts.data, AttachmentService.print, OwnerStream.write]
          dead := fun hnone => by
            have hnone : s.service.alive id = none := hnone
            obtain ⟨hregistered, hsinks, hsinks', hdead⟩ := (h.agrees id).dead hnone
            refine ⟨?_, ?_, ?_, ?_⟩
            · exact (congrArg (·.registered) hwindow).trans hregistered
            · exact (congrArg (·.stream.sinks) hwindow).trans hsinks
            · exact (congrArg (·.stream.sinks) hbridge).trans hsinks'
            · intro status hstatus
              have hstatus : ((s.window.onData id data).1.side id).status = some status := hstatus
              rw [hwindow] at hstatus
              by_cases hkilled : (s.window.side id).killed
              · rw [if_pos hkilled] at hstatus
                exact hdead status hstatus
              rw [if_neg hkilled] at hstatus
              cases hbefore : (s.window.side id).status with
              | none => exact absurd hbefore ((h.agrees id).heard hmem (by simpa using hkilled))
              | some before =>
                rw [hbefore, Option.getD_some] at hstatus
                exact hdead status (hbefore.trans hstatus)
          unattached := (h.agrees id).unattached }
      · have hother : ∀ p', s.running? p' = some id' → p' ≠ p := fun p' hp' hpp => by
          rw [hpp, hp] at hp'
          exact heq (Option.some.inj hp')
        refine (h.agrees id').other ?_ ?_ ?_ rfl rfl rfl (fun hid => hid) fun p' hp' => ⟨hp', ?_⟩
        · exact (ExtensionHost.side_onData data).trans (if_neg heq)
        · exact congrArg (·.stream) ((SurfaceBridge.side_onData data).trans (if_neg heq))
        · exact congrArg (·.get id') (ptys_onData data)
        · simp [Hosts.data, AttachmentService.print, hother p' hp']
    service := h.service.print data
    exited := h.exited
    killed := h.killed
    unprinted := fun p' hp' => by
      have hne : p' ≠ p := by
        rintro rfl
        exact absurd (List.getElem?_eq_some_iff.1 (running_eq_some.1 hp).2).1 (not_lt.2 hp')
      simpa [Hosts.data, AttachmentService.print, hne] using h.unprinted p' hp'
    same := congrArg₂ (· ++ ·) h.same (hwindowNew.trans hbridgeNew.symm)
    served := by
      have hwindowSeen : (s.data p id data).windowSeen = s.windowSeen ++ new :=
        congrArg (s.windowSeen ++ ·) hwindowNew
      rw [hwindowSeen, hnew, List.map_append, h.served] }

theorem Sound.exit (h : s.Sound) {exitCode : Int} (hp : s.running? p = some id)
    (htimely : s.Timely p) : (s.exit p id exitCode).Sound := by
  obtain ⟨hregistered, hsinks⟩ := (h.agrees id).sinks
  have hlt : p < s.processes.length := (List.getElem?_eq_some_iff.1 (running_eq_some.1 hp).2).1
  have hwindow := @ExtensionHost.side_onExit id id s.window exitCode
  have hbridge := @SurfaceBridge.side_onExit id id s.bridge exitCode
  rw [if_pos rfl] at hwindow hbridge
  -- Either the id's process ends, or there is nobody to be told.
  have hservice : (s.service.exit p id).current id = none ∨
      s.service.exit p id = s.service ∧ s.service.current id ≠ some p ∧
        s.service.alive id = none ∧ s.service.attached id = [] := by
    unfold AttachmentService.exit
    rcases hcurrent : s.service.current id with _ | current
    · refine .inr ⟨if_neg nofun, nofun, AttachmentService.alive_of_none hcurrent, ?_⟩
      exact (h.agrees id).unattached hcurrent
    by_cases heq : current = p
    · subst heq
      rw [if_pos rfl]
      exact .inl (Function.update_self ..)
    · rcases htimely id hp current hcurrent with heq' | ⟨hkilled, hnobody⟩
      · exact absurd heq' heq
      · have hne : some current ≠ some p := fun hsome => heq (Option.some.inj hsome)
        exact .inr ⟨if_neg hne, hne, by simp [AttachmentService.alive, hcurrent, hkilled], hnobody⟩
  have hattached : (s.service.exit p id).attached id = [] ∧
      (s.service.exit p id).seen =
        s.service.seen ++ (s.service.attached id).map fun sink => (sink, .ended) := by
    rcases hservice with hover | ⟨hsame, -, -, hnobody⟩
    · unfold AttachmentService.exit at hover ⊢
      split
      · exact ⟨Function.update_self .., rfl⟩
      · rename_i hother
        rw [if_neg hother] at hover
        rw [(h.agrees id).unattached hover]
        exact ⟨rfl, (List.append_nil _).symm⟩
    · rw [hsame, hnobody]
      exact ⟨rfl, (List.append_nil _).symm⟩
  have hprinted : (s.service.exit p id).printed = s.service.printed ∧
      (s.service.exit p id).killed = s.service.killed := by
    unfold AttachmentService.exit
    split <;> exact ⟨rfl, rfl⟩
  have halive : (s.service.exit p id).alive id = none := by
    rcases hservice with hover | ⟨hsame, -, hnone, -⟩
    · exact AttachmentService.alive_of_none hover
    · rw [hsame, hnone]
  exact {
    agrees := fun id' => by
      by_cases heq : id = id'
      · subst heq
        exact {
          running := fun q hq => by
            rcases hservice with hover | ⟨hsame, hne, -, -⟩
            · exact absurd (hover.symm.trans hq) nofun
            have hq : (s.service.exit p id).current id = some q := hq
            rw [hsame] at hq
            obtain ⟨hlive, hget⟩ := running_eq_some.1 ((h.agrees id).running q hq)
            refine running_eq_some.2 ⟨fun hmem => ?_, hget⟩
            rcases List.mem_append.1 hmem with hmem | hmem
            · exact hlive hmem
            · exact hne (List.mem_singleton.1 hmem ▸ hq)
          pty := by
            show (s.core.onExit id p).ptys.get id = (s.service.exit p id).alive id
            rw [halive]
            unfold PtyCore.onExit
            split
            · exact InsertionMap.get_delete_self ..
            rename_i hother
            rw [(h.agrees id).pty] at hother ⊢
            cases hbefore : s.service.alive id with
            | none => rfl
            | some current =>
              obtain ⟨hcurrent, hkilled⟩ := AttachmentService.alive_eq_some.1 hbefore
              rcases htimely id hp current hcurrent with rfl | ⟨hmem, -⟩
              · exact absurd hbefore hother
              · exact absurd hmem hkilled
          heard := fun _ hkilled => by
            show ((s.window.onExit id exitCode).1.side id).status ≠ none
            have hkilled : ((s.window.onExit id exitCode).1.side id).killed = false := hkilled
            rw [hwindow] at hkilled ⊢
            simp [show (s.window.side id).killed = false from hkilled]
          live := fun current hsome => absurd (halive.symm.trans hsome) nofun
          dead := fun _ => by
            refine ⟨(congrArg (·.registered) hwindow).trans hattached.1.symm,
              congrArg (·.stream.sinks) hwindow,
              (congrArg (·.stream.sinks) hbridge).trans hattached.1.symm, fun status hstatus => ?_⟩
            have hstatus : ((s.window.onExit id exitCode).1.side id).status = some status := hstatus
            rw [hwindow] at hstatus
            by_cases hkilled : (s.window.side id).killed
            · rw [if_pos hkilled] at hstatus
              cases hbefore : s.service.alive id with
              | none => exact ((h.agrees id).dead hbefore).2.2.2 status hstatus
              | some current =>
                rw [((h.agrees id).live current hbefore).1] at hkilled
                exact absurd hkilled Bool.false_ne_true
            · rw [if_neg hkilled] at hstatus
              rw [← Option.some.inj hstatus]
          unattached := fun _ => hattached.1 }
      · have hne : id' ≠ id := fun h => heq h.symm
        have hcurrent' : (s.service.exit p id).current id' = s.service.current id' ∧
            (s.service.exit p id).attached id' = s.service.attached id' := by
          unfold AttachmentService.exit
          split
          · exact ⟨Function.update_of_ne hne .., Function.update_of_ne hne ..⟩
          · exact ⟨rfl, rfl⟩
        refine (h.agrees id').other ?_ ?_ ?_ hcurrent'.1 ?_ hcurrent'.2 (fun hid => hid)
          fun p' hp' => ⟨?_, congrFun hprinted.1 p'⟩
        · exact (ExtensionHost.side_onExit exitCode).trans (if_neg heq)
        · exact congrArg (·.stream) ((SurfaceBridge.side_onExit exitCode).trans (if_neg heq))
        · show (s.core.onExit id p).ptys.get id' = _
          unfold PtyCore.onExit
          split
          · exact InsertionMap.get_delete_ne _ heq
          · rfl
        · show (s.service.exit p id).alive id' = s.service.alive id'
          unfold AttachmentService.alive
          rw [hcurrent'.1, hprinted.2]
        · obtain ⟨hlive, hget⟩ := running_eq_some.1 hp'
          refine running_eq_some.2 ⟨fun hmem => ?_, hget⟩
          rcases List.mem_append.1 hmem with hmem | hmem
          · exact hlive hmem
          · rw [List.mem_singleton.1 hmem, (running_eq_some.1 hp).2] at hget
            exact heq (Option.some.inj hget)
    service := h.service.exit
    exited := fun p' hp' => by
      rcases List.mem_append.1 hp' with hp' | hp'
      · exact h.exited p' hp'
      · rw [List.mem_singleton.1 hp']
        exact hlt
    killed := fun p' hp' => h.killed p' (hprinted.2 ▸ hp')
    unprinted := fun p' hp' => (congrFun hprinted.1 p').trans (h.unprinted p' hp')
    same := by
      show s.windowSeen ++ told exitCode (s.window.side id).registered =
        s.bridgeSeen ++ told exitCode (s.bridge.sinksOf id)
      rw [SurfaceBridge.sinksOf_eq, hregistered, hsinks, h.same]
    served := by
      show (s.windowSeen ++ told exitCode (s.window.side id).registered).map _ =
        (s.service.exit p id).seen
      rw [hattached.2, hregistered, List.map_append, seen_told, h.served] }

/-- What a new sink observes, and what is kept of its id after that. -/
theorem Sound.attach (h : s.Sound)
    (hlate : s.service.alive id = none → (s.bridge.exits.get id).getD 0 = s.recorded id) :
    (s.streamPty id).Agrees id ∧
      ∃ observed, (s.streamPty id).windowSeen = s.windowSeen ++ [observed] ∧
        (s.streamPty id).bridgeSeen = s.bridgeSeen ++ [observed] ∧
        (s.streamPty id).service.seen = s.service.seen ++ [(observed.1, observed.2.seen)] := by
  have hagrees := h.agrees id
  have hfresh : s.subscriptions.length ∉ s.service.attached id := fun hmem => (h.service.lt hmem).ne rfl
  cases halive : s.service.alive id with
  | none =>
    obtain ⟨hregistered, hsinks, hsinks', hdead⟩ := hagrees.dead halive
    have hpty : s.core.hasPty id = false := by
      unfold PtyCore.hasPty InsertionMap.has
      rw [hagrees.pty, halive]
      rfl
    have hwindow := @ExtensionHost.streamPty_dead id s.subscriptions.length s.window hdead
    have hside := @ExtensionHost.side_streamPty_dead id id s.subscriptions.length s.window hdead
      hsinks (hregistered ▸ hfresh)
    obtain ⟨htold, hbridge⟩ := @SurfaceBridge.streamPty_dead id s.subscriptions.length s.bridge
      (hsinks' ▸ hfresh)
    rw [if_pos rfl] at hside
    have hservice : (s.streamPty id).service =
        { s.service with seen := s.service.seen ++ [(s.subscriptions.length, .ended)] } := by
      simp only [Hosts.streamPty, AttachmentService.attach, halive]
    refine ⟨?_, (s.subscriptions.length, .exit (s.recorded id)), ?_, ?_, ?_⟩
    · exact {
        running := by
          rw [hservice]
          exact hagrees.running
        pty := by
          rw [hservice]
          exact hagrees.pty
        heard := by
          simp only [Hosts.streamPty, hwindow, hside]
          exact hagrees.heard
        live := fun p hp => by
          rw [hservice] at hp
          cases halive.symm.trans hp
        dead := fun _ => by
          rw [hservice]
          simp only [Hosts.streamPty, hwindow, hside, hpty]
          exact ⟨hregistered, rfl, hbridge.trans hsinks', hdead⟩
        unattached := by
          rw [hservice]
          exact hagrees.unattached }
    · simp only [Hosts.streamPty, hwindow]
      rfl
    · simp only [Hosts.streamPty, hpty, htold]
      exact congrArg (fun code => s.bridgeSeen ++ [(_, .exit code)]) (hlate halive)
    · rw [hservice]
      rfl
  | some p =>
    obtain ⟨hside, hstream⟩ := hagrees.live p halive
    have hpty : s.core.hasPty id = true := by
      unfold PtyCore.hasPty InsertionMap.has
      rw [hagrees.pty, halive]
      rfl
    have hwindow := @ExtensionHost.streamPty_alive id s.subscriptions.length s.window none
      (congrArg (·.status) hside)
    have hside' := @ExtensionHost.side_subscribe id id s.subscriptions.length s.window
    obtain ⟨htold, hbridge⟩ := @SurfaceBridge.streamPty_alive id s.subscriptions.length s.bridge
    have hbridge := hbridge id
    have hfed : (s.window.getOwnerPtyStream id).fed = s.service.printed p :=
      congrArg (·.stream.fed) hside
    have hfed' : (s.bridge.ownerStream id).fed = s.service.printed p :=
      congrArg OwnerStream.fed hstream
    rw [if_pos rfl] at hside' hbridge
    have hservice : (s.streamPty id).service =
        { s.service with
          attached := Function.update s.service.attached id
            (s.service.attached id ++ [s.subscriptions.length])
          seen := s.service.seen ++ [(s.subscriptions.length, .subscribed (s.service.printed p))] } := by
      simp only [Hosts.streamPty, AttachmentService.attach, halive]
    refine ⟨?_, (s.subscriptions.length, .subscribed (s.service.printed p)), ?_, ?_, ?_⟩
    · exact {
        running := by
          rw [hservice]
          exact hagrees.running
        pty := by
          rw [hservice]
          exact hagrees.pty
        heard := by
          simp only [Hosts.streamPty, hwindow, hside']
          exact hagrees.heard
        live := fun p' hp' => by
          rw [hservice] at hp' ⊢
          obtain rfl := Option.some.inj (halive.symm.trans hp')
          refine ⟨?_, ?_⟩
          · simp [Hosts.streamPty, hwindow, hside', hside, OwnerStream.subscribe]
          · simp [Hosts.streamPty, hpty, hbridge, hstream, OwnerStream.subscribe]
        dead := fun hnone => by
          rw [hservice] at hnone
          cases halive.symm.trans hnone
        unattached := fun hnone => by
          rw [hservice] at hnone
          have hcurrent := (AttachmentService.alive_eq_some.1 halive).1
          cases hcurrent.symm.trans hnone }
    · simp only [Hosts.streamPty, hwindow, subscribed, hfed]
    · simp only [Hosts.streamPty, hpty, htold, subscribed, hfed']
    · rw [hservice]
      rfl

theorem Sound.streamPty (h : s.Sound)
    (hlate : s.service.alive id = none → (s.bridge.exits.get id).getD 0 = s.recorded id) :
    (s.streamPty id).Sound := by
  obtain ⟨hagrees, observed, hwindowSeen, hbridgeSeen, hseen⟩ := h.attach hlate
  have hservice : (s.streamPty id).service.printed = s.service.printed ∧
      (s.streamPty id).service.killed = s.service.killed ∧
      (s.streamPty id).service.current = s.service.current := by
    simp only [Hosts.streamPty, AttachmentService.attach]
    split <;> exact ⟨rfl, rfl, rfl⟩
  obtain ⟨hprinted, hkilled, hcurrent⟩ := hservice
  exact {
    agrees := fun id' => by
      by_cases heq : id = id'
      · exact heq ▸ hagrees
      have hne : id' ≠ id := fun h => heq h.symm
      refine (h.agrees id').other ?_ ?_ rfl (congrFun hcurrent id') ?_ ?_ (fun hid => hid)
        fun p' hp' => ⟨hp', congrFun hprinted p'⟩
      · exact ExtensionHost.side_streamPty_ne heq
      · exact congrArg (·.stream) (SurfaceBridge.side_streamPty_ne heq)
      · unfold AttachmentService.alive
        rw [hcurrent, hkilled]
      · simp only [Hosts.streamPty, AttachmentService.attach]
        split
        · rfl
        · exact Function.update_of_ne hne ..
    service := h.service.attach
    exited := h.exited
    killed := fun p' hp' => h.killed p' (hkilled ▸ hp')
    unprinted := fun p' hp' => (congrFun hprinted p').trans (h.unprinted p' hp')
    same := by rw [hwindowSeen, hbridgeSeen, h.same]
    served := by
      rw [hwindowSeen, hseen, List.map_append, h.served]
      rfl }

theorem Sound.unsubscribe (h : s.Sound) (hid : s.subscriptions[sink]? = some id) :
    (s.unsubscribe id sink).Sound where
  agrees id' := by
    by_cases heq : id = id'
    · subst heq
      have hagrees := h.agrees id
      have hwindow := @ExtensionHost.side_unsubscribe id id sink s.window
      have hbridge := @SurfaceBridge.side_unsubscribe id id sink s.bridge
      rw [if_pos rfl] at hbridge
      have hattached : (s.unsubscribe id sink).service.attached id =
          (s.service.attached id).filter (· ≠ sink) := Function.update_self ..
      have hfilter : sink ∉ s.service.attached id →
          (s.service.attached id).filter (· ≠ sink) = s.service.attached id := fun hmem =>
        List.filter_eq_self.2 fun sink' hsink' => decide_eq_true fun hs => hmem (hs ▸ hsink')
      exact {
        running := hagrees.running
        pty := hagrees.pty
        heard := by
          simp only [Hosts.unsubscribe, hwindow]
          split <;> exact hagrees.heard
        live := fun p hp => by
          have hp : s.service.alive id = some p := hp
          obtain ⟨hside, hstream⟩ := hagrees.live p hp
          rw [hattached]
          refine ⟨?_, ?_⟩
          · show (s.window.unsubscribe id sink).side id = _
            rw [hwindow, hside]
            by_cases hmem : sink ∈ s.service.attached id
            · simp [hmem, WindowSide.stopChunks, OwnerStream.unsubscribe, Hosts.unsubscribe,
                AttachmentService.detach]
            · rw [if_neg fun hboth => hmem hboth.2, hfilter hmem]
              rfl
          · show ((s.bridge.unsubscribe id sink).side id).stream = _
            rw [hbridge, hstream]
            rfl
        dead := fun hnone => by
          have hnone : s.service.alive id = none := hnone
          obtain ⟨hregistered, hsinks, hsinks', hdead⟩ := hagrees.dead hnone
          rw [hattached]
          refine ⟨?_, ?_, ?_, ?_⟩
          · show ((s.window.unsubscribe id sink).side id).registered = _
            rw [hwindow, hregistered]
            by_cases hmem : sink ∈ s.service.attached id
            · rw [if_pos ⟨rfl, hmem⟩]
            · rw [if_neg fun hboth => hmem hboth.2, hregistered, hfilter hmem]
          · show ((s.window.unsubscribe id sink).side id).stream.sinks = []
            rw [hwindow]
            split
            · simp [WindowSide.stopChunks, hsinks]
            · exact hsinks
          · show ((s.bridge.unsubscribe id sink).side id).stream.sinks = _
            rw [hbridge]
            exact congrArg (List.filter _) hsinks'
          · show ∀ status, ((s.window.unsubscribe id sink).side id).status = some status → _
            rw [hwindow]
            split <;> exact hdead
        unattached := fun hnone => by
          rw [hattached, hagrees.unattached hnone]
          rfl }
    · have hne : id' ≠ id := fun h => heq h.symm
      refine (h.agrees id').other ?_ ?_ rfl rfl rfl ?_ (fun hid => hid) fun p hp => ⟨hp, rfl⟩
      · exact ExtensionHost.side_unsubscribe.trans (if_neg fun hboth => heq hboth.1)
      · exact congrArg (·.stream) (SurfaceBridge.side_unsubscribe.trans (if_neg heq))
      · exact Function.update_of_ne hne ..
  service := h.service.detach hid
  exited := h.exited
  killed := h.killed
  unprinted := h.unprinted
  same := congrArg (· ++ [(sink, Observed.stopped)]) h.same
  served := by
    show (s.windowSeen ++ [(sink, Observed.stopped)]).map _ = s.service.seen ++ [(sink, .stopped)]
    rw [List.map_append, h.served]
    rfl

/-! ### Every run -/

theorem Sound.step (h : s.Sound) {e : HostEvent} (hmeets : s.Meets e) (hstep : s.step e = some t) :
    t.Sound := by
  cases e with
  | spawn id shell =>
    cases hstep
    exact h.spawn shell hmeets
  | data p data =>
    obtain ⟨id, hp, rfl⟩ := Option.map_eq_some_iff.1 hstep
    exact h.data hp hmeets.1 hmeets.2
  | exit p exitCode =>
    obtain ⟨id, hp, rfl⟩ := Option.map_eq_some_iff.1 hstep
    exact h.exit hp hmeets
  | kill id =>
    cases hstep
    exact h.kill
  | streamPty id =>
    cases hstep
    exact h.streamPty hmeets
  | unsubscribe sink =>
    obtain ⟨id, hid, rfl⟩ := Option.map_eq_some_iff.1 hstep
    exact h.unsubscribe hid

theorem inductive_sound : metServing.Inductive Sound where
  init h := h ▸ sound_create
  step h hstep := h.step hstep.1 hstep.2

/-- Whoever is attached is attached to a process. -/
theorem Sound.attachedTo (h : s.Sound) (hsink : sink ∈ s.service.attached id) :
    ∃ p, s.service.current id = some p ∧
      (p ∈ s.service.killed ∨ s.service.alive id = some p) := by
  cases hcurrent : s.service.current id with
  | none =>
    rw [(h.agrees id).unattached hcurrent] at hsink
    exact absurd hsink List.not_mem_nil
  | some p =>
    by_cases hkilled : p ∈ s.service.killed
    · exact ⟨p, rfl, .inl hkilled⟩
    · exact ⟨p, rfl, .inr (AttachmentService.alive_eq_some.2 ⟨hcurrent, hkilled⟩)⟩

theorem Sound.alike (h : s.Sound) : s.Alike where
  same := h.same
  served := h.served
  once := by
    have honce := h.service.once
    unfold AttachmentService.Once at honce
    rw [← h.served, List.pairwise_map] at honce
    refine honce.imp fun {o o'} hafterwards heq hfinal => ?_
    have hstopped : o'.2.seen = .stopped := hafterwards heq hfinal
    cases hobserved : o'.2 with
    | stopped => rfl
    | subscribed | chunk | exit =>
      rw [hobserved] at hstopped
      exact absurd hstopped nofun
  accounted sink id hid := by
    obtain ⟨hregistered, hsinks⟩ := (h.agrees id).sinks
    rcases h.service.accounted sink id hid with hsink | ⟨o, ho, hos, hfinal⟩
    · refine .inl ⟨?_, ?_⟩
      · rwa [← hregistered] at hsink
      · rwa [SurfaceBridge.sinksOf_eq, hsinks]
    · rw [← h.served] at ho
      obtain ⟨o', ho', rfl⟩ := List.mem_map.1 ho
      exact .inr ⟨o', ho', hos, hfinal⟩
  fed id sink hsink := by
    have hsink : sink ∈ s.service.attached id := (h.agrees id).sinks.1 ▸ hsink
    obtain ⟨p, hp, hlive⟩ := h.attachedTo hsink
    refine ⟨p, hp, (h.agrees id).running p hp, hlive.imp_right fun halive => ?_⟩
    have hside := ((h.agrees id).live p halive).1
    have hsinks : (s.window.side id).stream.sinks = s.service.attached id := by rw [hside]
    exact ⟨hsinks ▸ hsink, congrArg (·.stream.fed) hside⟩
  bridged id sink hsink := by
    rw [SurfaceBridge.sinksOf_eq, (h.agrees id).sinks.2] at hsink
    obtain ⟨p, hp, hlive⟩ := h.attachedTo hsink
    refine ⟨p, hp, (h.agrees id).running p hp, hlive.imp_right fun halive => ?_⟩
    exact congrArg OwnerStream.fed ((h.agrees id).live p halive).2

end Hosts

end Dormouse.Pty
