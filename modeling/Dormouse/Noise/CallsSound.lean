import Dormouse.Noise.Calls

/-!
# Dormouse.Noise.CallsSound

**The error latch of a handshake object**: however the calls on one object interleave, a
session is there exactly when the two messages of the role have succeeded, and a rejection
before that leaves an object that never exposes one.

At most one call is ever inside its message (`Calls.Inv`), so all that the others can do
to it between its stretches is to set `failed`.
-/

namespace Dormouse.Noise

variable {Key : Type}

/-! ### What a message does to the flags -/

/-- The messages of a role, in order. -/
def methodsOf : Role → List Method
  | .initiator => [.write, .read]
  | .responder => [.read, .write]

namespace NoiseHandshake

/-- `n` messages of the handshake are through. -/
def Progress (h : NoiseHandshake Key) : Nat → Prop
  | 0 => h.firstMessageDone = false ∧ h.session = none
  | 1 => h.firstMessageDone = true ∧ h.session = none
  | _ => h.firstMessageDone = true ∧ h.session.isSome = true

theorem Progress.unique {h : NoiseHandshake Key} {n m : Nat} (hn : h.Progress n)
    (hm : h.Progress m) (hn2 : n ≤ 2) (hm2 : m ≤ 2) : n = m := by
  match n, m with
  | 0, 0 | 1, 1 | 2, 2 => rfl
  | 0, 1 | 0, 2 => exact absurd (hn.1.symm.trans hm.1) (by decide)
  | 1, 0 | 2, 0 => exact absurd (hn.1.symm.trans hm.1) (by decide)
  | 1, 2 => exact absurd hm.2 (by rw [hn.2]; decide)
  | 2, 1 => exact absurd hn.2 (by rw [hm.2]; decide)

/-- What holds while message `n` is under way. -/
structure Under (r : Role) (n : Nat) (h : NoiseHandshake Key) : Prop where
  role : h.role = r
  progress : h.Progress n

/-- What message `n` leaves, when this method ran it. -/
def Ends (r : Role) (n : Nat) (method : Method) : Except Exn Bytes → NoiseHandshake Key → Prop
  | .ok _, h => h.Under r (n + 1) ∧ (methodsOf r)[n]? = some method
  | .error _, h => h.Under r n

/-- What is `#step`'s alone to write. -/
def latches (h : NoiseHandshake Key) : Bool × Bool := (h.inFlight, h.failed)

end NoiseHandshake

namespace Awaited

open NoiseHandshake (Under Ends latches)

variable (suite : Suite Key) {r : Role} {n : Nat} {α : Type}

theorem keeps_mixHash (data : Bytes) :
    (mixHash suite data : HandshakeA Key Unit).Keeps latches (Under r n) :=
  .bind .read fun _ => .bind (.settle _) fun _ => .write (fun _ => rfl) fun _ h => ⟨h.1, h.2⟩

theorem keeps_mixDh (privateKey : Key) (publicKey : Bytes) :
    (mixDh suite privateKey publicKey).Keeps latches (Under r n) :=
  .bind (.settle _) fun _ => .bind .read fun _ => .bind (.settle _) fun _ =>
    .bind (.ofExcept _) fun _ => .write (fun _ => rfl) fun _ h => ⟨h.1, h.2⟩

theorem keeps_encryptAndHash (plaintext : Bytes) :
    (encryptAndHash suite plaintext : HandshakeA Key Bytes).Keeps latches (Under r n) :=
  .bind .read fun _ => .bind (.write (fun _ => rfl) fun _ h => ⟨h.1, h.2⟩) fun _ =>
    .bind (.ofExcept _) fun _ => .bind (keeps_mixHash suite _) fun _ => .pure _

theorem keeps_decryptAndHash (ciphertext : Bytes) :
    (decryptAndHash suite ciphertext : HandshakeA Key Bytes).Keeps latches (Under r n) :=
  .bind .read fun _ => .bind (.write (fun _ => rfl) fun _ h => ⟨h.1, h.2⟩) fun _ =>
    .bind (.ofExcept _) fun _ => .bind (keeps_mixHash suite _) fun _ => .pure _

theorem keeps_present (o : Option α) :
    (present o : HandshakeA Key α).Keeps latches (Under r n) := by
  cases o with
  | none => exact fun _ h => h
  | some a => exact .pure a

theorem keeps_useEphemeral (generated : Option (NoiseKeyPair Key)) :
    (useEphemeral generated).Keeps latches (Under r n) := by
  refine .bind .read fun h => ?_
  cases h.ephemeral with
  | some ephemeral => exact .settle _
  | none =>
    exact .bind (.settle _) fun _ =>
      .bind (.write (fun _ => rfl) fun _ h => ⟨h.1, h.2⟩) fun _ => .pure _

variable {h : NoiseHandshake Key} {method : Method}

/-- What a call inside `#step` keeps, and what it ends in. -/
def Runs (r : Role) (n : Nat) (method : Method) (message : HandshakeA Key Bytes) : Prop :=
  ∀ h, h.Under r n → message.Holds latches (Under r n) (Ends r n method) h

/-- One more thing done before the rest of a message. -/
theorem Runs.after {x : HandshakeA Key α} {f : α → HandshakeA Key Bytes}
    (hx : x.Keeps latches (Under r n)) (hf : ∀ a, Runs r n method (f a)) :
    Runs r n method (x >>= f) := fun _ hh =>
  hx.andThen (fun a h hh => hf a h hh) (fun _ _ hh => hh) hh

/-- `#firstMessageDone = true` is the last thing a first message does. -/
theorem runs_firstDone (hmethod : (methodsOf r)[0]? = some method) (out : Bytes) :
    Runs r 0 method (do
      Async.write fun h : NoiseHandshake Key => { h with firstMessageDone := true }
      return out) := fun _ hh =>
  ⟨rfl, ⟨hh.role, rfl, hh.progress.2⟩, hmethod⟩

/-- The session is the last thing a second message sets. -/
theorem runs_split (hmethod : (methodsOf r)[1]? = some method) (out : Bytes) :
    Runs r 1 method (do
      split suite
      return out : HandshakeA Key Bytes) := by
  intro h hh
  refine ⟨rfl, hh, fun h' hh' => ?_⟩
  cases h.symmetric.split suite (decide (h.role = .initiator)) with
  | error e => exact hh'
  | ok session => exact ⟨rfl, ⟨hh'.role, hh'.progress.1, rfl⟩, hmethod⟩

theorem runs_writeMessage1 (generated : Option (NoiseKeyPair Key)) (payload : Bytes) :
    Runs .initiator 0 .write (writeMessage1 suite generated payload) :=
  .after (.ofExcept _) fun _ => .after (keeps_useEphemeral _) fun _ =>
    .after (keeps_mixHash suite _) fun _ => .after .read fun _ =>
      .after (keeps_present _) fun _ => .after (keeps_mixDh suite _ _) fun _ =>
        .after (keeps_encryptAndHash suite _) fun _ =>
          .after (keeps_mixDh suite _ _) fun _ =>
            .after (keeps_encryptAndHash suite _) fun _ => runs_firstDone rfl _

theorem runs_readMessage1 (message : Bytes) :
    Runs .responder 0 .read (readMessage1 suite message : HandshakeA Key Bytes) :=
  .after (.ofExcept _) fun _ =>
    .after (.write (fun _ => rfl) fun _ h => ⟨h.1, h.2⟩) fun _ =>
      .after (keeps_mixHash suite _) fun _ => .after .read fun _ =>
        .after (keeps_mixDh suite _ _) fun _ =>
          .after (keeps_decryptAndHash suite _) fun _ =>
            .after (.ofExcept _) fun _ =>
              .after (.write (fun _ => rfl) fun _ h => ⟨h.1, h.2⟩) fun _ =>
                .after (keeps_mixDh suite _ _) fun _ =>
                  .after (keeps_decryptAndHash suite _) fun _ => runs_firstDone rfl _

theorem runs_writeMessage2 (generated : Option (NoiseKeyPair Key)) (payload : Bytes) :
    Runs .responder 1 .write (writeMessage2 suite generated payload) :=
  .after (.ofExcept _) fun _ => .after (keeps_useEphemeral _) fun _ =>
    .after (keeps_mixHash suite _) fun _ => .after .read fun _ =>
      .after (keeps_present _) fun _ => .after (keeps_mixDh suite _ _) fun _ =>
        .after (keeps_present _) fun _ => .after (keeps_mixDh suite _ _) fun _ =>
          .after (keeps_encryptAndHash suite _) fun _ => runs_split suite rfl _

theorem runs_readMessage2 (message : Bytes) :
    Runs .initiator 1 .read (readMessage2 suite message : HandshakeA Key Bytes) :=
  .after (.ofExcept _) fun _ => .after (keeps_mixHash suite _) fun _ =>
    .after .read fun _ => .after (keeps_present _) fun _ =>
      .after (keeps_mixDh suite _ _) fun _ => .after (keeps_mixDh suite _ _) fun _ =>
        .after (keeps_decryptAndHash suite _) fun _ => runs_split suite rfl _

theorem runs_writeMessage (hn : n < 2) (generated : Option (NoiseKeyPair Key)) (payload : Bytes) :
    Runs r n .write (writeMessage suite generated payload) := by
  intro h hh
  refine ⟨rfl, ?_⟩
  dsimp only [Async.bind, id]
  rw [hh.role]
  obtain rfl | rfl : n = 0 ∨ n = 1 := by omega
  · rw [hh.progress.1]
    cases r with
    | initiator => exact runs_writeMessage1 suite generated payload h hh
    | responder => exact hh
  · rw [hh.progress.1]
    cases r with
    | initiator => exact hh
    | responder => exact runs_writeMessage2 suite generated payload h hh

theorem runs_readMessage (hn : n < 2) (message : Bytes) :
    Runs r n .read (readMessage suite message : HandshakeA Key Bytes) := by
  intro h hh
  refine ⟨rfl, ?_⟩
  dsimp only [Async.bind, id]
  rw [hh.role]
  obtain rfl | rfl : n = 0 ∨ n = 1 := by omega
  · rw [hh.progress.1]
    cases r with
    | initiator => exact hh
    | responder => exact runs_readMessage1 suite message h hh
  · rw [hh.progress.1]
    cases r with
    | initiator => exact runs_readMessage2 suite message h hh
    | responder => exact hh

end Awaited

/-! ### The invariant -/

/-- The three ways into `#step`. -/
theorem NoiseHandshake.beginStep_cases (h : NoiseHandshake Key) :
    ((h.failed = true ∨ h.session.isSome = true) ∧ ∃ e, h.beginStep = (h, .error e)) ∨
      (h.session = none ∧ ∃ e, h.beginStep = ({ h with failed := true }, .error e)) ∨
      (h.failed = false ∧ h.session = none ∧ h.inFlight = false ∧
        h.beginStep = ({ h with inFlight := true }, .ok ())) := by
  unfold beginStep
  split
  · next hfailed => exact .inl ⟨.inl hfailed, _, rfl⟩
  next hfailed =>
    split
    · next hsession => exact .inl ⟨.inr hsession, _, rfl⟩
    next hsession =>
      have hnone := Option.not_isSome_iff_eq_none.1 hsession
      split
      · exact .inr (.inl ⟨hnone, _, rfl⟩)
      · next hflight =>
          rw [Bool.not_eq_true] at hfailed hflight
          exact .inr (.inr ⟨hfailed, hnone, hflight, rfl⟩)

namespace Calls

open NoiseHandshake (Under Ends latches)
open Awaited (Runs)

/-- The calls that resolved. -/
def resolved (settled : List (Method × Bool)) : List Method :=
  settled.filterMap fun c => if c.2 then some c.1 else none

/-- The methods whose message has gone through: of the calls that resolved, and of one
that is about to. -/
def succeeded (s : Calls Key) : List Method :=
  resolved s.settled ++ s.inside.filterMap fun c =>
    match c.rest with
    | .done (.ok _) => some c.method
    | _ => none

/-- What a call inside `#step` is doing, when `n` messages are through. -/
inductive Inside (r : Role) (n : Nat) : Call Key → Prop
  | through {method : Method} (result : Except Exn Bytes) : Inside r n ⟨method, .done result⟩
  | running {method : Method} {rest : HandshakeA Key Bytes} (hn : n < 2)
      (hrest : ∀ result, rest ≠ .done result) (hruns : Runs r n method rest) :
      Inside r n ⟨method, rest⟩

/-- `n` messages are through, and at most one call is inside. -/
structure At (r : Role) (n : Nat) (s : Calls Key) : Prop where
  le : n ≤ 2
  role : s.handshake.role = r
  progress : s.handshake.Progress n
  succeeded : s.succeeded = (methodsOf r).take n
  inside : s.inside = [] ∧ s.handshake.inFlight = false ∨
    ∃ c, s.inside = [c] ∧ s.handshake.inFlight = true ∧ Inside r n c

variable {r : Role} {n : Nat} {s : Calls Key} {method : Method}

theorem resolved_append (settled : List (Method × Bool)) (c : Method × Bool) :
    resolved (settled ++ [c]) = resolved settled ++ (if c.2 then some c.1 else none).toList := by
  obtain ⟨method, resolves⟩ := c
  rw [resolved, List.filterMap_append]
  cases resolves <;> rfl

/-- A call that runs one stretch of its message, alone inside. -/
theorem At.of_advance {x : HandshakeA Key Bytes} {h : NoiseHandshake Key}
    {settled : List (Method × Bool)} (hn : n < 2) (hx : Runs r n method x) (hh : h.Under r n)
    (hflight : h.inFlight = true) (hsettled : resolved settled = (methodsOf r).take n) :
    ∃ m, At r m ⟨(x.advance h).2, [⟨method, (x.advance h).1⟩], settled⟩ := by
  have hinflight : (x.advance h).2.inFlight = true :=
    (congrArg Prod.fst (hx h hh).frame_advance).trans hflight
  rcases hr : x.advance h with ⟨rest, h'⟩
  have hstretch := (hx h hh).advance
  rw [hr] at hinflight hstretch
  -- What is left of a message that ended without its success changes nothing yet.
  have herror : ∀ e, rest = .done (.error e) → h'.Under r n →
      ∃ m, At r m ⟨h', [⟨method, rest⟩], settled⟩ := by
    intro e hrest hh'
    refine ⟨n, Nat.le_of_lt hn, hh'.role, hh'.progress, ?_, .inr ⟨_, rfl, hinflight, ?_⟩⟩
    · rw [hrest, Calls.succeeded, hsettled]
      exact List.append_nil _
    · rw [hrest]
      exact .through _
  rcases hstretch with ⟨result, hrest, hends⟩ | ⟨hh', hruns⟩
  · cases result with
    | error e => exact herror e hrest hends
    | ok out =>
      obtain ⟨hh', hmethod⟩ := hends
      refine ⟨n + 1, hn, hh'.role, hh'.progress, ?_, .inr ⟨_, rfl, hinflight, ?_⟩⟩
      · cases hrest
        rw [Calls.succeeded, hsettled, List.take_add_one, hmethod]
        rfl
      · cases hrest
        exact .through _
  · by_cases hdone : ∃ result, rest = .done result
    · obtain ⟨result, hrest⟩ := hdone
      cases result with
      | error e => exact herror e hrest hh'
      | ok out =>
        cases hrest
        have hnext : h'.Under r (n + 1) := (hruns h' hh').1
        exact absurd (hh'.progress.unique hnext.progress (Nat.le_of_lt hn) hn) (Nat.ne_of_lt n.lt_succ_self)
    · refine ⟨n, Nat.le_of_lt hn, hh'.role, hh'.progress, ?_, .inr ⟨_, rfl, hinflight, ?_⟩⟩
      · rw [Calls.succeeded, hsettled]
        have hnot : ∀ result, rest ≠ .done result := fun result h => hdone ⟨result, h⟩
        cases rest with
        | done result => exact absurd rfl (hnot result)
        | touch write rest => exact List.append_nil _
        | await rest => exact List.append_nil _
      · exact .running hn (fun result h => hdone ⟨result, h⟩) hruns

/-- A call that is refused: at most it latches the object. -/
theorem At.refused (hs : At r n s) {h : NoiseHandshake Key}
    (hh : h = s.handshake ∨ h = { s.handshake with failed := true }) :
    At r n { s with handshake := h, settled := s.settled ++ [(method, false)] } := by
  have hsucceeded : ({ s with settled := s.settled ++ [(method, false)] } : Calls Key).succeeded =
      s.succeeded := by
    rw [Calls.succeeded, resolved_append]
    exact congrArg (· ++ _) (List.append_nil _)
  rcases hh with rfl | rfl
  · exact ⟨hs.le, hs.role, hs.progress, hsucceeded.trans hs.succeeded, hs.inside⟩
  · have hprogress : ({ s.handshake with failed := true } : NoiseHandshake Key).Progress n := by
      match n with
      | 0 | 1 | 2 => exact hs.progress
      | n + 3 => exact hs.progress
    exact ⟨hs.le, hs.role, hprogress, hsucceeded.trans hs.succeeded, hs.inside⟩

theorem At.call (hs : At r n s) {message : HandshakeA Key Bytes}
    (hmessage : n < 2 → Runs r n method message) : ∃ m, At r m (s.call method message) := by
  unfold Calls.call
  rcases s.handshake.beginStep_cases with ⟨-, e, hbegin⟩ | ⟨-, e, hbegin⟩ |
    ⟨-, hsession, hflight, hbegin⟩
  · rw [hbegin]
    exact ⟨n, hs.refused (.inl rfl)⟩
  · rw [hbegin]
    exact ⟨n, hs.refused (.inr rfl)⟩
  rw [hbegin]
  have hn : n < 2 := by
    have hle := hs.le
    have hprogress := hs.progress
    match n with
    | 0 | 1 => decide
    | 2 => exact absurd hprogress.2 (by rw [hsession]; decide)
  have hprogress : ({ s.handshake with inFlight := true } : NoiseHandshake Key).Progress n := by
    have hprogress := hs.progress
    match n with
    | 0 | 1 => exact hprogress
  have hinside : s.inside = [] := by
    rcases hs.inside with h | ⟨c, -, h, -⟩
    · exact h.1
    · rw [hflight] at h
      cases h
  have hsettled : resolved s.settled = (methodsOf r).take n := by
    rw [← hs.succeeded, Calls.succeeded, hinside]
    exact (List.append_nil _).symm
  rw [hinside]
  exact At.of_advance hn (hmessage hn) ⟨hs.role, hprogress⟩ rfl hsettled

/-- A call whose message is through leaves `#step`. -/
theorem At.leaves {h : NoiseHandshake Key} {settled : List (Method × Bool)}
    {result : Except Exn Bytes} (hs : At r n ⟨h, [⟨method, .done result⟩], settled⟩) :
    At r n ⟨(NoiseHandshake.endStep (result, h)).1, [],
      settled ++ [(method, (NoiseHandshake.endStep (result, h)).2.toBool)]⟩ := by
  have hsucceeded := hs.succeeded
  cases result with
  | ok out =>
    refine ⟨hs.le, hs.role, ?_, ?_, .inl ⟨rfl, rfl⟩⟩
    · match n with
      | 0 | 1 | 2 => exact hs.progress
      | n + 3 => exact hs.progress
    · rw [Calls.succeeded, resolved_append] at *
      exact (List.append_nil _).trans hsucceeded
  | error e =>
    refine ⟨hs.le, hs.role, ?_, ?_, .inl ⟨rfl, rfl⟩⟩
    · match n with
      | 0 | 1 | 2 => exact hs.progress
      | n + 3 => exact hs.progress
    · rw [Calls.succeeded, resolved_append] at *
      exact (List.append_nil _).trans hsucceeded

theorem At.resume (hs : At r n s) (index : Nat) : ∃ m, At r m (s.resume index) := by
  obtain ⟨h, inside, settled⟩ := s
  rcases hs.inside with ⟨hnone, -⟩ | ⟨c, hone, hflight, hinside⟩
  · dsimp only at hnone
    subst hnone
    exact ⟨n, hs⟩
  subst hone
  cases index with
  | succ index => exact ⟨n, hs⟩
  | zero =>
    cases hinside with
    | through result => exact ⟨n, hs.leaves⟩
    | running hn hrest hruns =>
      rename_i method rest
      have hsettled : resolved settled = (methodsOf r).take n := by
        rw [← hs.succeeded, Calls.succeeded]
        cases rest with
        | done result => exact absurd rfl (hrest result)
        | touch write rest => exact (List.append_nil _).symm
        | await rest => exact (List.append_nil _).symm
      cases rest with
      | done result => exact absurd rfl (hrest result)
      | touch write rest =>
        exact At.of_advance hn hruns ⟨hs.role, hs.progress⟩ hflight hsettled
      | await rest =>
        exact At.of_advance hn hruns ⟨hs.role, hs.progress⟩ hflight hsettled

variable (suite : Suite Key)

theorem At.next (hs : At r n s) (move : Move Key) : ∃ m, At r m (s.next suite move) := by
  cases move with
  | write generated payload =>
    exact hs.call fun hn => Awaited.runs_writeMessage suite hn generated payload
  | read message => exact hs.call fun hn => Awaited.runs_readMessage suite hn message
  | resume index => exact hs.resume index

variable {suite}

theorem At.start {prologue : Bytes} {staticKeyPair : NoiseKeyPair Key}
    {ephemeral : Option (NoiseKeyPair Key)} {remoteStatic : Option Bytes} {h : NoiseHandshake Key}
    (hh : NoiseHandshake.start suite prologue staticKeyPair ephemeral remoteStatic = .ok h) :
    At h.role 0 ⟨h, [], []⟩ := by
  have hfresh : h.firstMessageDone = false ∧ h.session = none ∧ h.inFlight = false := by
    simp only [NoiseHandshake.start, bind, Except.bind, pure, Except.pure] at hh
    repeat' split at hh
    all_goals cases hh
    all_goals exact ⟨rfl, rfl, rfl⟩
  exact ⟨by decide, rfl, ⟨hfresh.1, hfresh.2.1⟩, rfl, .inl ⟨rfl, hfresh.2.2⟩⟩

/-- **Whatever interleaves, the messages go through one at a time and in order.** -/
theorem at_reachable {s : Calls Key} (hs : (interleavings suite).Reachable s) :
    ∃ n, At s.handshake.role n s := by
  induction hs with
  | start hinit =>
    obtain ⟨_, _, _, _, h, hh, rfl⟩ := hinit
    exact ⟨0, .start hh⟩
  | next _ hstep ih =>
    obtain ⟨n, hn⟩ := ih
    obtain ⟨m, hm⟩ := hn.next suite _
    rw [← hstep] at hm
    exact ⟨m, hm.role ▸ hm⟩

/-! ### The latch -/

/-- The call of the role's second message is inside, and has not failed. -/
def SecondInside (s : Calls Key) : Prop :=
  ∃ c ∈ s.inside, (methodsOf s.handshake.role)[1]? = some c.method ∧
    ∀ e, c.rest ≠ .done (.error e)

/-- A call has been rejected in this step. -/
def Rejects (s t : Calls Key) : Prop := ∃ method, t.settled = s.settled ++ [(method, false)]

/-- An object no session will come of. -/
structure Latched (s : Calls Key) : Prop where
  failed : s.handshake.failed = true
  session : s.handshake.session = none
  alone : ¬ s.SecondInside

theorem Latched.call (hs : s.Latched) (message : HandshakeA Key Bytes) :
    (s.call method message).Latched := by
  unfold Calls.call
  rcases s.handshake.beginStep_cases with ⟨-, e, hbegin⟩ | ⟨-, e, hbegin⟩ | ⟨hfailed, -⟩
  · rw [hbegin]
    exact ⟨hs.failed, hs.session, hs.alone⟩
  · rw [hbegin]
    exact ⟨rfl, hs.session, hs.alone⟩
  · rw [hs.failed] at hfailed
    cases hfailed

/-- A message that goes on, on a latched object: it is the first. -/
theorem Latched.of_advance {h : NoiseHandshake Key} {x : HandshakeA Key Bytes}
    {settled : List (Method × Bool)} (hs : Latched ⟨h, [⟨method, x⟩], settled⟩)
    (hx : ∀ result, x ≠ .done result) (hruns : Runs h.role n method x) (hn : n < 2)
    (hprogress : h.Progress n) :
    Latched ⟨(x.advance h).2, [⟨method, (x.advance h).1⟩], settled⟩ := by
  have hh := hruns h ⟨rfl, hprogress⟩
  have hsecond : (methodsOf h.role)[1]? ≠ some method := fun hmethod =>
    hs.alone ⟨_, List.mem_singleton_self _, hmethod, fun e he => hx _ he⟩
  have hfailed : (x.advance h).2.failed = true :=
    (congrArg Prod.snd hh.frame_advance).trans hs.failed
  have hunder : ∀ m, m < 2 → (x.advance h).2.Under h.role m →
      Latched ⟨(x.advance h).2, [⟨method, (x.advance h).1⟩], settled⟩ := by
    intro m hm hunder
    refine ⟨hfailed, ?_, ?_⟩
    · match m with
      | 0 | 1 => exact hunder.progress.2
    · rintro ⟨c, hc, hmethod, -⟩
      rw [List.mem_singleton.1 hc] at hmethod
      exact hsecond ((congrArg (fun r => (methodsOf r)[1]?) hunder.role.symm).trans hmethod)
  rcases hh.advance with ⟨result, hrest, hends⟩ | ⟨hunder', -⟩
  · cases result with
    | error e => exact hunder n hn hends
    | ok out =>
      have hzero : n = 0 := by
        match n with
        | 0 => rfl
        | 1 => exact absurd hends.2 hsecond
      subst hzero
      exact hunder 1 (by decide) hends.1
  · exact hunder n hn hunder'

theorem Latched.resume (hs : s.Latched) (hat : At s.handshake.role n s) (index : Nat) :
    (s.resume index).Latched := by
  obtain ⟨h, inside, settled⟩ := s
  rcases hat.inside with ⟨hnone, -⟩ | ⟨c, hone, -, hinside⟩
  · dsimp only at hnone
    subst hnone
    exact hs
  subst hone
  cases index with
  | succ index => exact hs
  | zero =>
    cases hinside with
    | through result =>
      have hempty : ∀ {h : NoiseHandshake Key} {settled},
          ¬ SecondInside ⟨h, [], settled⟩ := fun ⟨_, hc, _⟩ => by cases hc
      cases result with
      | ok out => exact ⟨hs.failed, hs.session, hempty⟩
      | error e => exact ⟨rfl, hs.session, hempty⟩
    | running hn hrest hruns =>
      rename_i method rest
      cases rest with
      | done result => exact absurd rfl (hrest result)
      | touch write rest => exact hs.of_advance hrest hruns hn hat.progress
      | await rest => exact hs.of_advance hrest hruns hn hat.progress

theorem Latched.next (hs : s.Latched) (hat : At s.handshake.role n s) (move : Move Key) :
    (s.next suite move).Latched := by
  cases move with
  | write generated payload => exact hs.call _
  | read message => exact hs.call _
  | resume index => exact hs.resume hat index

/-- Once latched, always. -/
theorem Latched.run {t : Calls Key} (hs : s.Latched) (hat : At s.handshake.role n s)
    (ht : ((interleavings suite).startingAt s).Reachable t) :
    t.Latched ∧ ∃ m, At t.handshake.role m t := by
  induction ht with
  | start hinit =>
    cases hinit
    exact ⟨hs, n, hat⟩
  | next _ hstep ih =>
    obtain ⟨hlatched, m, hm⟩ := ih
    obtain ⟨k, hk⟩ := hm.next suite _
    refine ⟨hstep ▸ hlatched.next hm _, k, ?_⟩
    rw [← hstep] at hk
    exact hk.role ▸ hk

theorem not_rejects_self {s t : Calls Key} (h : t.settled = s.settled) : ¬ Rejects s t := by
  rintro ⟨method, hrejects⟩
  rw [h] at hrejects
  exact absurd (congrArg List.length hrejects) (by rw [List.length_append]; simp)

/-- A rejection latches an object that has no session and none coming. -/
theorem Latched.of_rejects {move : Move Key} (hrejects : Rejects s (s.next suite move))
    (hsession : s.handshake.session = none) (halone : ¬ (s.next suite move).SecondInside) :
    (s.next suite move).Latched := by
  have hcall : ∀ method message, Rejects s (s.call method message) →
      ¬ (s.call method message).SecondInside → (s.call method message).Latched := by
    intro method message hrejects halone
    unfold Calls.call at hrejects halone ⊢
    rcases s.handshake.beginStep_cases with ⟨hwhy, e, hbegin⟩ | ⟨-, e, hbegin⟩ |
      ⟨-, -, -, hbegin⟩
    · rw [hbegin] at hrejects halone ⊢
      rcases hwhy with hfailed | hsome
      · exact ⟨hfailed, hsession, halone⟩
      · rw [hsession] at hsome
        cases hsome
    · rw [hbegin] at hrejects halone ⊢
      exact ⟨rfl, hsession, halone⟩
    · rw [hbegin] at hrejects
      exact absurd hrejects (not_rejects_self rfl)
  cases move with
  | write generated payload => exact hcall _ _ hrejects halone
  | read message => exact hcall _ _ hrejects halone
  | resume index =>
    have hnext : s.next suite (.resume index) = s.resume index := rfl
    rw [hnext] at hrejects halone ⊢
    unfold Calls.resume at hrejects halone ⊢
    rcases hc : s.inside[index]? with _ | c
    · rw [hc] at hrejects
      exact absurd hrejects (not_rejects_self rfl)
    obtain ⟨method, rest⟩ := c
    rw [hc] at hrejects halone
    cases rest with
    | done result =>
      cases result with
      | error e => exact ⟨rfl, hsession, halone⟩
      | ok out =>
        obtain ⟨method, hrejects⟩ := hrejects
        cases List.append_cancel_left hrejects
    | touch write rest => exact absurd hrejects (not_rejects_self rfl)
    | await rest => exact absurd hrejects (not_rejects_self rfl)

/-- A session is there when both messages have succeeded, in the order of the role. -/
theorem At.session_iff (hs : At s.handshake.role n s) :
    s.handshake.session.isSome = true ↔ s.succeeded = methodsOf s.handshake.role := by
  have hle := hs.le
  have hprogress := hs.progress
  rw [hs.succeeded]
  cases s.handshake.role <;> match n with
    | 0 | 1 =>
      rw [hprogress.2]
      decide
    | 2 =>
      rw [hprogress.2]
      decide

end Calls

/-- **The error latch.** However calls interleave: a session is there exactly when one
write and one read have succeeded, in the order of the role; after a rejection without a
session, and without the second message under way, there never is one; and on a complete
handshake a call is rejected and changes nothing. -/
theorem handshake_latches {suite : Suite Key} {s : Calls Key}
    (hs : (interleavings suite).Reachable s) :
    (s.handshake.session.isSome = true ↔ s.succeeded = methodsOf s.handshake.role) ∧
      (∀ move, s.Rejects (s.next suite move) → s.handshake.session = none →
        ¬ (s.next suite move).SecondInside →
          ∀ t, ((interleavings suite).startingAt (s.next suite move)).Reachable t →
            t.handshake.session = none) ∧
      (s.handshake.session.isSome = true → ∀ method message,
        s.call method message = { s with settled := s.settled ++ [(method, false)] }) := by
  obtain ⟨n, hat⟩ := Calls.at_reachable hs
  refine ⟨hat.session_iff, ?_, ?_⟩
  · intro move hrejects hsession halone t ht
    obtain ⟨m, hm⟩ := hat.next suite move
    have hlatched := Calls.Latched.of_rejects hrejects hsession halone
    exact (hlatched.run (hm.role ▸ hm) ht).1.session
  · intro hsession method message
    unfold Calls.call
    rcases s.handshake.beginStep_cases with ⟨-, e, hbegin⟩ | ⟨hnone, -⟩ | ⟨-, hnone, -⟩
    · rw [hbegin]
    · rw [hnone] at hsession
      cases hsession
    · rw [hnone] at hsession
      cases hsession

/-! ### Rejections that do not latch -/

/-- A suite that hides nothing, whose every secret is the same. -/
def plainSuite : Suite Unit where
  sha256 := fun _ => List.replicate 32 7
  hmacSha256 := fun _ _ => List.replicate 32 7
  deriveBits := fun _ _ => some (List.replicate 32 7)
  aead := {
    encrypt := fun _ _ _ plaintext => plaintext ++ List.replicate noiseTagLength 0
    decrypt := fun _ _ _ ciphertext =>
      some (ciphertext.take (ciphertext.length - noiseTagLength)) }

def plainKeyPair : NoiseKeyPair Unit := ⟨(), List.replicate noiseKeyLength 7⟩

/-- A run of calls on a new initiator. -/
def plainRun (moves : List (Move Unit)) : Option (Calls Unit) :=
  match NoiseHandshake.start plainSuite [] plainKeyPair none (some plainKeyPair.publicKey) with
  | .error _ => none
  | .ok h => some (moves.foldl (Calls.next plainSuite) ⟨h, [], []⟩)

theorem plainRun_reachable (moves : List (Move Unit)) {s : Calls Unit}
    (hs : plainRun moves = some s) : (interleavings plainSuite).Reachable s := by
  unfold plainRun at hs
  split at hs
  · cases hs
  next h hh =>
    cases hs
    have hinit : (interleavings plainSuite).Reachable ⟨h, [], []⟩ :=
      .start ⟨[], plainKeyPair, none, some plainKeyPair.publicKey, h, hh, rfl⟩
    generalize (⟨h, [], []⟩ : Calls Unit) = s at hinit
    induction moves generalizing s with
    | nil => exact hinit
    | cons move moves ih => exact ih _ (.next hinit rfl)

/-- The whole of message 1, then message 2 up to its first await. -/
def plainMessages : List (Move Unit) :=
  .write (some plainKeyPair) [] :: List.replicate 12 (.resume 0) ++ [.read (List.replicate 48 7)]

/-- What a run leaves to see. -/
def Calls.shown (s : Calls Unit) : List (Method × Bool) × Bool :=
  (s.settled, s.handshake.session.isSome)

theorem plainRun_shown (moves : List (Move Unit)) {shown : List (Method × Bool) × Bool}
    (h : (plainRun moves).map Calls.shown = some shown) :
    ∃ s, (interleavings plainSuite).Reachable s ∧ s.shown = shown := by
  obtain ⟨s, hs, hshown⟩ := Option.map_eq_some_iff.1 h
  exact ⟨s, plainRun_reachable moves hs, hshown⟩

/-- A call on a complete handshake is rejected, and its session stays; so does the session
of a second message under way when the rejection came. -/
theorem rejected_with_session :
    (∃ s, (interleavings plainSuite).Reachable s ∧
        s.shown = ([(.write, true), (.read, true), (.write, false)], true)) ∧
      ∃ s, (interleavings plainSuite).Reachable s ∧
        s.shown = ([(.write, true), (.write, false), (.read, true)], true) := by
  constructor
  · exact plainRun_shown (plainMessages ++ List.replicate 12 (.resume 0) ++ [.write none []])
      (by decide +kernel)
  · exact plainRun_shown (plainMessages ++ .write none [] :: List.replicate 12 (.resume 0))
      (by decide +kernel)

theorem handshake_latches_complete :
    ∃ s : Calls Unit, (interleavings plainSuite).Reachable s ∧
      s.succeeded = methodsOf s.handshake.role := by
  obtain ⟨s, hs, hshown⟩ := plainRun_shown (plainMessages ++ List.replicate 12 (.resume 0))
    (show _ = some ([(.write, true), (.read, true)], true) by decide +kernel)
  exact ⟨s, hs, (handshake_latches hs).1.1 (congrArg Prod.snd hshown)⟩

end Dormouse.Noise
