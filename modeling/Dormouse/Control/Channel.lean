import Mathlib.Logic.Equiv.Basic
import Dormouse.Control.Client
import Dormouse.Control.ServerSound

/-!
# Dormouse.Control.Channel

**The control channel in hostile hands**: a server and any number of clients of one token, whose
frames all go through someone who does not hold it. It hands any chunk to any connection, but a
proof only if it has heard it (`Unforgeable`).

With a MAC and a hash without collisions, and nonces that are fresh, a client writes its request
only after a server has proved the token over the nonce of this client, and the server forwards a
request only from a connection over whose own challenge a client has proved it
(`channel_authenticated`). What is written depends on the token through the proofs alone.
-/

namespace Dormouse.Control

/-! ### The proofs -/

def proofDomain : ProofRole → JsString
  | .client => CLIENT_PROOF_DOMAIN
  | .server => SERVER_PROOF_DOMAIN

/-- The proof of a role over a nonce. -/
def ControlOptions.prove (opts : ControlOptions) (role : ProofRole) (nonce : JsString) : JsString :=
  opts.platform.proveToken opts.token (proofDomain role) nonce

/-- The proof that a line carries. -/
def ControlOptions.proofOf (opts : ControlOptions) (line : JsString) : Option JsString :=
  (opts.platform.parseJson line).bind fun frame => frame.stringField (js "proof")

variable {opts : ControlOptions}

/-- The domains have one length, so that no nonce makes up for the difference. -/
theorem collisionless_prove
    (hmac : ∀ a b, opts.platform.hmacSha256 opts.token a = opts.platform.hmacSha256 opts.token b →
      a = b) : Collisionless opts.prove := by
  have hlength : (proofDomain .client ++ js " ").length =
      (proofDomain .server ++ js " ").length := by decide +kernel
  have hdomains : proofDomain .client ++ js " " ≠ proofDomain .server ++ js " " := by
    decide +kernel
  intro role nonce role' nonce' heq
  exact Collisionless.of_tags (fun role => proofDomain role ++ js " ") hlength hdomains hmac
    role nonce role' nonce' heq

theorem proofMatches_string {platform : ControlPlatform}
    (hsha : ∀ a b, platform.sha256 a = platform.sha256 b → a = b) {frame : Json}
    {proof expected : JsString} (hproof : frame.stringField (js "proof") = some proof)
    (hmatches : platform.proofMatches (frame.field (js "proof")) expected) : proof = expected := by
  obtain ⟨value, hfield, hstring⟩ := Option.bind_eq_some_iff.1 hproof
  rw [hfield] at hmatches
  cases value with
  | string text =>
    cases hstring
    exact hsha _ _ (of_decide_eq_true hmatches)
  | _ => cases hstring

/-- A hello that is accepted carries the proof over the challenge. -/
theorem acceptHello_proof
    (hsha : ∀ a b, opts.platform.sha256 a = opts.platform.sha256 b → a = b)
    {line challenge nonce proof : JsString}
    (h : ControlServer.acceptHello opts line challenge = some (nonce, proof)) :
    opts.proofOf line = some proof ∧ proof = opts.prove .client challenge := by
  obtain ⟨hello, hparsed, h⟩ := Option.bind_eq_some_iff.1 h
  obtain ⟨nonce', -, h⟩ := Option.bind_eq_some_iff.1 h
  obtain ⟨proof', hproof, h⟩ := Option.bind_eq_some_iff.1 h
  split at h
  · rename_i haccepted
    cases h
    refine ⟨?_, proofMatches_string hsha hproof haccepted.2.2⟩
    rw [ControlOptions.proofOf, hparsed]
    exact hproof
  · cases h

/-- A welcome that is accepted carries the proof over the nonce of the client. -/
theorem welcomeProof_proof
    (hsha : ∀ a b, opts.platform.sha256 a = opts.platform.sha256 b → a = b)
    {line nonce proof : JsString}
    (h : (opts.platform.parseJson line).bind
      (ClientSession.welcomeProof opts.platform opts.token nonce) = some proof) :
    opts.proofOf line = some proof ∧ proof = opts.prove .server nonce := by
  obtain ⟨frame, hparsed, h⟩ := Option.bind_eq_some_iff.1 h
  obtain ⟨proof', hproof, h⟩ := Option.bind_eq_some_iff.1 h
  split at h
  · rename_i haccepted
    cases h
    refine ⟨?_, proofMatches_string hsha hproof haccepted.2⟩
    rw [ControlOptions.proofOf, hparsed]
    exact hproof
  · cases h

/-! ### What a step of the server writes -/

namespace ControlServer

variable {s s' s'' : ControlServer} {lines : List JsString} {socket : Nat}

/-- The challenges of the connections. -/
def challenges (s : ControlServer) : List JsString := s.sockets.map ControlSocket.challenge

/-- A hello is accepted that is among the lines and proves the token over the challenge of its
connection; a welcome carries the proof over the nonce that it answers. -/
def Greets (opts : ControlOptions) (challenges lines : List JsString) : ControlEvent → Prop
  | .helloAccepted socket proof =>
    ∃ challenge line nonce, challenges[socket]? = some challenge ∧ line ∈ lines ∧
      acceptHello opts line challenge = some (nonce, proof)
  | .welcomed _ nonce proof => proof = opts.prove .server nonce
  | _ => True

/-- The server has read the lines: the challenges stay, and it has greeted as it should. -/
structure Follows (opts : ControlOptions) (lines : List JsString) (s s' : ControlServer) :
    Prop where
  challenges : s'.challenges = s.challenges
  events : ∃ news, s'.events = s.events ++ news ∧ ∀ e ∈ news, Greets opts s.challenges lines e

namespace Follows

theorem refl (s : ControlServer) : Follows opts lines s s :=
  ⟨rfl, [], (List.append_nil _).symm, fun _ he => nomatch he⟩

theorem trans (h : Follows opts lines s s') (h' : Follows opts lines s' s'') :
    Follows opts lines s s'' := by
  obtain ⟨hchallenges, news, hevents, hnews⟩ := h
  obtain ⟨hchallenges', news', hevents', hnews'⟩ := h'
  refine ⟨hchallenges'.trans hchallenges, news ++ news', ?_, fun e he => ?_⟩
  · rw [hevents', hevents, List.append_assoc]
  · rcases List.mem_append.1 he with he | he
    · exact hnews e he
    · exact hchallenges ▸ hnews' e he

theorem of_events (hsockets : s'.sockets = s.sockets) (hevents : s'.events = s.events) :
    Follows opts lines s s' :=
  ⟨congrArg (List.map ControlSocket.challenge) hsockets, [], by rw [hevents, List.append_nil], fun _ he => nomatch he⟩

theorem emit (h : Follows opts lines s s') {event : ControlEvent}
    (hevent : Greets opts s.challenges lines event) : Follows opts lines s (s'.emit event) := by
  obtain ⟨hchallenges, news, hevents, hnews⟩ := h
  refine ⟨hchallenges, news ++ [event], ?_, fun e he => ?_⟩
  · rw [emit_events, hevents, List.append_assoc]
  · rcases List.mem_append.1 he with he | he
    · exact hnews e he
    · exact List.mem_singleton.1 he ▸ hevent

theorem modifySocket (h : Follows opts lines s s') {f : ControlSocket → ControlSocket}
    (hf : ∀ conn, (f conn).challenge = conn.challenge) :
    Follows opts lines s (s'.modifySocket socket f) := by
  refine ⟨?_, h.events⟩
  rw [← h.challenges]
  unfold ControlServer.challenges
  refine List.ext_getElem? fun i => ?_
  rw [List.getElem?_map, List.getElem?_map, modifySocket_get]
  split
  · rw [Option.map_map]
    exact congrArg (Option.map · _) (funext hf)
  · rfl

theorem writeResponse (h : Follows opts lines s s') (request : Option Nat) (response : Json) :
    Follows opts lines s (s'.writeResponse socket request response) := by
  rcases writeResponse_cases s' socket request response with heq | ⟨heq, -⟩
  · rw [heq]
    refine Follows.emit (h.modifySocket ?_) ?_
    · exact fun _ => rfl
    · exact trivial
  · exact heq.symm ▸ h

theorem reap (h : Follows opts lines s s') (requestId : JsString) :
    Follows opts lines s (s'.reap requestId).2 := by
  refine h.trans (of_events ?_ ?_)
  · unfold ControlServer.reap
    split <;> rfl
  · unfold ControlServer.reap
    split <;> rfl

theorem handleRequest (h : Follows opts lines s s') (line : JsString) :
    Follows opts lines s (s'.handleRequest opts socket line) := by
  unfold ControlServer.handleRequest
  split
  · exact h.writeResponse _ _
  · exact h.trans (of_events rfl rfl)
  split
  · exact h.writeResponse _ _
  · refine Follows.emit (h.trans (of_events ?_ ?_)) ?_
    · rfl
    · rfl
    · exact trivial

/-- Induction on the lines that are left. -/
theorem readLines (left : List JsString) (h : Follows opts lines s s')
    (hleft : ∀ line ∈ left, line ∈ lines) :
    Follows opts lines s (s'.readLines opts socket left) := by
  induction left generalizing s' with
  | nil => exact h
  | cons line left ih =>
    have hrest : ∀ line' ∈ left, line' ∈ lines :=
      fun line' hmem => hleft line' (List.mem_cons_of_mem _ hmem)
    unfold ControlServer.readLines
    split
    · exact h
    rename_i conn hconn
    split
    · dsimp only
      split
      · exact h.handleRequest line
      · exact ih (h.handleRequest line) hrest
    split
    · refine h.modifySocket ?_
      exact fun _ => rfl
    rename_i nonce proof haccepted
    refine ih (Follows.modifySocket (Follows.emit (h.emit ?_) ?_) ?_) hrest
    · refine ⟨conn.challenge, line, nonce, ?_, hleft line List.mem_cons_self, haccepted⟩
      rw [← h.challenges, ControlServer.challenges, List.getElem?_map, hconn]
      rfl
    · exact rfl
    · exact fun _ => rfl

theorem cancelAll (es : List (JsString × PendingRequest)) (h : Follows opts lines s s') :
    Follows opts lines s (es.foldl cancel s') := by
  induction es generalizing s' with
  | nil => exact h
  | cons e es ih => exact ih ((h.reap e.1).emit trivial)

end Follows

/-- The lines that a step completes. -/
def completed (s : ControlServer) : ControlOp → List JsString
  | .data socket chunk =>
    match s.sockets[socket]? with
    | none => []
    | some conn => (splitLines (conn.buffer ++ chunk)).1
  | _ => []

/-- A step draws a challenge, or reads lines, and greets as it should. -/
theorem step_greets (opts : ControlOptions) (s : ControlServer) (op : ControlOp) :
    ((s.step opts op).challenges = s.challenges ∨ ∃ challenge, op = .connection challenge ∧
        (s.step opts op).challenges = s.challenges ++ [challenge]) ∧
      ∃ news, (s.step opts op).events = s.events ++ news ∧
        ∀ e ∈ news, Greets opts s.challenges (s.completed op) e := by
  have hfollows : ∀ {s'}, Follows opts (s.completed op) s s' →
      (s'.challenges = s.challenges ∨ ∃ challenge, op = .connection challenge ∧
          s'.challenges = s.challenges ++ [challenge]) ∧
        ∃ news, s'.events = s.events ++ news ∧
          ∀ e ∈ news, Greets opts s.challenges (s.completed op) e :=
    fun h => ⟨.inl h.challenges, h.events⟩
  unfold step
  split
  · exact hfollows (.refl s)
  cases op with
  | connection challenge =>
    refine ⟨.inr ⟨challenge, rfl, ?_⟩, [_], rfl, fun e he => ?_⟩
    · show (s.sockets ++ [_]).map ControlSocket.challenge = _
      exact List.map_append
    · rw [List.mem_singleton.1 he]
      exact trivial
  | data socket chunk =>
    refine hfollows ?_
    unfold handle onData completed
    dsimp only
    cases hconn : s.sockets[socket]? with
    | none => exact .refl s
    | some conn =>
      dsimp only
      split
      · exact .refl s
      · refine Follows.readLines _ ((Follows.refl s).modifySocket ?_) fun _ => id
        exact fun _ => rfl
  | error socket =>
    refine hfollows ((Follows.refl s).modifySocket ?_)
    exact fun _ => rfl
  | close socket =>
    refine hfollows ?_
    unfold handle onClose
    dsimp only
    split
    · refine Follows.cancelAll _ ((Follows.refl s).modifySocket ?_)
      exact fun _ => rfl
    · exact .refl s
  | handshakeTimeout socket =>
    refine hfollows ?_
    unfold handle onHandshakeTimeout
    dsimp only
    split
    · refine Follows.modifySocket ((Follows.refl s).modifySocket ?_) ?_
      · exact fun _ => rfl
      · exact fun _ => rfl
    · exact .refl s
  | requestTimeout timer =>
    refine hfollows ?_
    unfold handle onRequestTimeout
    dsimp only
    split
    · exact .refl s
    · refine Follows.emit (Follows.writeResponse (Follows.reap (Follows.of_events ?_ ?_) _)
        _ _) ?_
      · rfl
      · rfl
      · exact trivial
  | respond asked response =>
    refine hfollows ?_
    unfold handle respond
    dsimp only
    split
    · exact .refl s
    rename_i requestId _
    cases hentry : s.pending.get requestId with
    | none =>
      rw [reap_none hentry]
      exact .refl s
    | some entry =>
      rw [reap_some hentry]
      refine Follows.writeResponse (Follows.emit (Follows.of_events ?_ ?_) ?_) _ _
      · rfl
      · rfl
      · exact trivial

end ControlServer

/-! ### What a client writes -/

namespace ClientSession

variable {c c' c'' : ClientSession} {lines : List JsString}

/-- The client has read the lines: its hello carries its own proof, and the welcome that it
accepts is among the lines. -/
def Answers (opts : ControlOptions) (call : ClientCall) (lines : List JsString) :
    ClientEvent → Prop
  | .hello challenge nonce proof => nonce = call.nonce ∧ proof = opts.prove .client challenge
  | .welcomeAccepted proof =>
    ∃ line ∈ lines, (opts.platform.parseJson line).bind
      (welcomeProof opts.platform opts.token call.nonce) = some proof
  | .request .. => True

/-- The request is behind a welcome. -/
def Welcomed (before : List ClientEvent) : ClientEvent → Prop
  | .request .. => ∃ proof, .welcomeAccepted proof ∈ before
  | _ => True

structure Follows (opts : ControlOptions) (lines : List JsString) (c c' : ClientSession) :
    Prop where
  call : c'.call = c.call
  events : ∃ news, c'.events = c.events ++ news ∧ ∀ e ∈ news, Answers opts c.call lines e
  welcomed : Preceded Welcomed c.events → Preceded Welcomed c'.events

namespace Follows

theorem of_events (hcall : c'.call = c.call) (hevents : c'.events = c.events) :
    Follows opts lines c c' where
  call := hcall
  events := ⟨[], by rw [hevents, List.append_nil], fun _ he => nomatch he⟩
  welcomed h := hevents ▸ h

theorem trans (h : Follows opts lines c c') (h' : Follows opts lines c' c'') :
    Follows opts lines c c'' := by
  obtain ⟨hcall, ⟨news, hevents, hnews⟩, hwelcomed⟩ := h
  obtain ⟨hcall', ⟨news', hevents', hnews'⟩, hwelcomed'⟩ := h'
  refine ⟨hcall'.trans hcall, ⟨news ++ news', ?_, fun e he => ?_⟩, hwelcomed' ∘ hwelcomed⟩
  · rw [hevents', hevents, List.append_assoc]
  · rcases List.mem_append.1 he with he | he
    · exact hnews e he
    · exact hcall ▸ hnews' e he

theorem emit {event : ClientEvent} (hevent : Answers opts c.call lines event)
    (hwelcomed : Welcomed c.events event) : Follows opts lines c (c.emit event) where
  call := rfl
  events := ⟨[event], rfl, fun _ he => List.mem_singleton.1 he ▸ hevent⟩
  welcomed h := h.concat hwelcomed

theorem settle (c : ClientSession) (outcome : ClientOutcome) :
    Follows opts lines c (c.settle outcome) := by
  unfold ClientSession.settle
  split
  · exact of_events rfl rfl
  · exact of_events rfl rfl

theorem readLine (c : ClientSession) {line : JsString} (hline : line ∈ lines) :
    Follows opts lines c (c.readLine opts.platform opts.token line) := by
  unfold ClientSession.readLine
  split
  · exact settle c _
  · split
    · exact settle c _
    · rename_i nonce _
      have hhello : Follows opts lines c
          (c.emit (.hello nonce c.call.nonce (opts.prove .client nonce))) :=
        emit ⟨rfl, rfl⟩ trivial
      exact hhello.trans (of_events rfl rfl)
  · split
    · exact settle c _
    · rename_i proof haccepted
      have hwelcome : Follows opts lines c (c.emit (.welcomeAccepted proof)) :=
        emit ⟨line, hline, haccepted⟩ trivial
      have hrequest : Follows opts lines (c.emit (.welcomeAccepted proof))
          ((c.emit (.welcomeAccepted proof)).emit (.request c.call.requestId c.call.surfaceId
            c.call.method c.call.params c.call.timeoutMs)) :=
        emit trivial ⟨proof, List.mem_append_right _ (List.mem_singleton.2 rfl)⟩
      exact (hwelcome.trans hrequest).trans (of_events rfl rfl)

/-- Induction on the lines that are left. -/
theorem readLines (left : List JsString) (c : ClientSession)
    (hleft : ∀ line ∈ left, line ∈ lines) :
    Follows opts lines c (c.readLines opts.platform opts.token left) := by
  induction left generalizing c with
  | nil => exact of_events rfl rfl
  | cons line left ih =>
    unfold ClientSession.readLines
    split
    · exact of_events rfl rfl
    · exact (readLine c (hleft line List.mem_cons_self)).trans
        (ih _ fun line' hmem => hleft line' (List.mem_cons_of_mem _ hmem))

end Follows

end ClientSession

/-! ### The channel -/

/-- The server, and the clients in the order in which they started. -/
structure Channel where
  server : ControlServer
  clients : List ClientSession

inductive ChannelOp
  | server (op : ControlServer.ControlOp)
  | request (call : ClientCall)
  | data (client : Nat) (chunk : JsString)
  | timeout (client : Nat)
  | error (client : Nat)
  | ended (client : Nat)

namespace Channel

variable {w : Channel}

def idle : Channel := ⟨.create, []⟩

/-- The nonces drawn so far. -/
def nonces (w : Channel) : List JsString :=
  w.server.challenges ++ w.clients.map fun c => c.call.nonce

/-- A token holder has written the proof of the role over the nonce. -/
def Made (w : Channel) : ProofRole → JsString → Prop
  | .server, nonce => ∃ socket proof, .welcomed socket nonce proof ∈ w.server.events
  | .client, challenge => ∃ c ∈ w.clients, ∃ nonce proof, .hello challenge nonce proof ∈ c.events

/-- The proof is in a frame that has been written. -/
def Heard (w : Channel) (proof : JsString) : Prop :=
  (∃ socket nonce, .welcomed socket nonce proof ∈ w.server.events) ∨
    ∃ c ∈ w.clients, ∃ challenge nonce, .hello challenge nonce proof ∈ c.events

/-- A line whose proof, if it is one at all, has been heard. -/
def Unforgeable (opts : ControlOptions) (w : Channel) (line : JsString) : Prop :=
  ∀ proof, opts.proofOf line = some proof → (∃ role nonce, proof = opts.prove role nonce) →
    w.Heard proof

/-- What can happen: any chunk comes on any connection, as long as no line that it completes has
a forged proof, and what is drawn is fresh. -/
def Admits (opts : ControlOptions) (w : Channel) : ChannelOp → Prop
  | .server op =>
    (∀ line ∈ w.server.completed op, w.Unforgeable opts line) ∧
      ∀ challenge, op = .connection challenge → challenge ∉ w.nonces
  | .request call => call.nonce ∉ w.nonces
  | .data client chunk =>
    ∀ c, w.clients[client]? = some c →
      ∀ line ∈ (splitLines (c.responseBuffer ++ chunk)).1, w.Unforgeable opts line
  | _ => True

def modifyClient (w : Channel) (client : Nat) (f : ClientSession → ClientSession) : Channel :=
  { w with clients := w.clients.modify client f }

def step (opts : ControlOptions) (w : Channel) : ChannelOp → Channel
  | .server op => { w with server := w.server.step opts op }
  | .request call => { w with clients := w.clients ++ [.request call] }
  | .data client chunk =>
    w.modifyClient client fun c => c.onData opts.platform opts.token chunk
  | .timeout client => w.modifyClient client .onTimeout
  | .error client => w.modifyClient client .onError
  | .ended client => w.modifyClient client .onEnd

end Channel

/-- The runs of a channel. -/
def channel (opts : ControlOptions) : System Channel ChannelOp where
  init w := w = .idle
  step w op w' := w.Admits opts op ∧ w' = w.step opts op

namespace Channel

variable {w w' : Channel}

/-! ### Agreement -/

/-- A client whose proofs are its own, and that has accepted none but the server's over its own
nonce. -/
structure HonestClient (opts : ControlOptions) (w : Channel) (c : ClientSession) : Prop where
  hello : ∀ challenge nonce proof, .hello challenge nonce proof ∈ c.events →
    nonce = c.call.nonce ∧ proof = opts.prove .client challenge
  welcome : ∀ proof, .welcomeAccepted proof ∈ c.events →
    proof = opts.prove .server c.call.nonce ∧ w.Made .server c.call.nonce
  welcomed : Preceded ClientSession.Welcomed c.events

structure Honest (opts : ControlOptions) (w : Channel) : Prop where
  distinct : w.nonces.Nodup
  traced : w.server.Traced
  welcomes : ∀ socket nonce proof, .welcomed socket nonce proof ∈ w.server.events →
    proof = opts.prove .server nonce
  hellos : ∀ socket proof, .helloAccepted socket proof ∈ w.server.events →
    ∃ challenge, w.server.challenges[socket]? = some challenge ∧
      proof = opts.prove .client challenge ∧ w.Made .client challenge
  clients : ∀ c ∈ w.clients, HonestClient opts w c

/-- The channel has gone on: what has been written stays written. -/
structure Extends (w w' : Channel) : Prop where
  server : ∀ e ∈ w.server.events, e ∈ w'.server.events
  clients : ∀ c ∈ w.clients, ∃ c' ∈ w'.clients, ∀ e ∈ c.events, e ∈ c'.events

theorem Made.extend {role : ProofRole} {nonce : JsString} (h : w.Made role nonce)
    (hextends : Extends w w') : w'.Made role nonce := by
  cases role with
  | server =>
    obtain ⟨socket, proof, hmem⟩ := h
    exact ⟨socket, proof, hextends.server _ hmem⟩
  | client =>
    obtain ⟨c, hc, nonce', proof, hmem⟩ := h
    obtain ⟨c', hc', hevents⟩ := hextends.clients c hc
    exact ⟨c', hc', nonce', proof, hevents _ hmem⟩

theorem HonestClient.extend {c : ClientSession} (h : HonestClient opts w c)
    (hextends : Extends w w') : HonestClient opts w' c :=
  { h with
    welcome proof hmem := (h.welcome proof hmem).imp_right (·.extend hextends) }

/-- What the adversary hands over has been made. -/
theorem Honest.unforged (h : Honest opts w) (hcollision : Collisionless opts.prove)
    {line proof : JsString} (hline : w.Unforgeable opts line)
    (hproof : opts.proofOf line = some proof) : Unforged opts.prove w.Made proof := by
  refine hcollision.unforged (fun p hheard => ?_) (hline proof hproof)
  rcases hheard with ⟨socket, nonce, hmem⟩ | ⟨c, hc, challenge, nonce, hmem⟩
  · exact ⟨.server, nonce, h.welcomes _ _ _ hmem, socket, p, hmem⟩
  · exact ⟨.client, challenge, ((h.clients c hc).hello _ _ _ hmem).2, c, hc, nonce, p, hmem⟩

/-- The server takes a step. -/
theorem Honest.server (h : Honest opts w) (hcollision : Collisionless opts.prove)
    (hsha : ∀ a b, opts.platform.sha256 a = opts.platform.sha256 b → a = b)
    {op : ControlServer.ControlOp} (hadmits : w.Admits opts (.server op)) : Honest opts (w.step opts (.server op)) := by
  obtain ⟨hchallenges, news, hevents, hnews⟩ := ControlServer.step_greets opts w.server op
  have hextends : Extends w (w.step opts (.server op)) :=
    ⟨fun e he => by
      show e ∈ (w.server.step opts op).events
      rw [hevents]
      exact List.mem_append_left _ he, fun c hc => ⟨c, hc, fun _ => id⟩⟩
  have hkept : ∀ {i : Nat} {challenge : JsString}, w.server.challenges[i]? = some challenge →
      (w.server.step opts op).challenges[i]? = some challenge := fun hi => by
    rcases hchallenges with heq | ⟨challenge, -, heq⟩
    · rw [heq]
      exact hi
    · rw [heq, List.getElem?_append_left (List.getElem?_eq_some_iff.1 hi).1]
      exact hi
  constructor
  · show ((w.server.step opts op).challenges ++ w.clients.map fun c => c.call.nonce).Nodup
    rcases hchallenges with heq | ⟨challenge, hop, heq⟩
    · rw [heq]
      exact h.distinct
    · rw [heq, List.append_assoc, List.singleton_append]
      exact List.nodup_middle.2 (List.nodup_cons.2 ⟨hadmits.2 challenge hop, h.distinct⟩)
  · exact h.traced.step op
  · intro socket nonce proof hmem
    rw [show (w.step opts (.server op)).server.events = _ from hevents] at hmem
    rcases List.mem_append.1 hmem with hmem | hmem
    · exact h.welcomes socket nonce proof hmem
    · exact hnews _ hmem
  · intro socket proof hmem
    rw [show (w.step opts (.server op)).server.events = _ from hevents] at hmem
    rcases List.mem_append.1 hmem with hmem | hmem
    · obtain ⟨challenge, hchallenge, hproof, hmade⟩ := h.hellos socket proof hmem
      exact ⟨challenge, hkept hchallenge, hproof, hmade.extend hextends⟩
    · obtain ⟨challenge, line, nonce, hchallenge, hline, haccepted⟩ := hnews _ hmem
      obtain ⟨hof, hproof⟩ := acceptHello_proof hsha haccepted
      have hunforged := h.unforged hcollision (hadmits.1 line hline) hof
      exact ⟨challenge, hkept hchallenge, hproof, (hunforged _ _ hproof).extend hextends⟩
  · exact fun c hc => (h.clients c hc).extend hextends

/-- A client takes a step. -/
theorem Honest.modifyClient (h : Honest opts w) (hcollision : Collisionless opts.prove)
    (hsha : ∀ a b, opts.platform.sha256 a = opts.platform.sha256 b → a = b) {client : Nat}
    (lines : List JsString) {f : ClientSession → ClientSession}
    (hlines : ∀ line ∈ lines, w.Unforgeable opts line)
    (hf : ∀ c, w.clients[client]? = some c → ClientSession.Follows opts lines c (f c)) :
    Honest opts (w.modifyClient client f) := by
  have hget : ∀ i, (w.modifyClient client f).clients[i]? =
      if client = i then (w.clients[i]?).map f else w.clients[i]? := fun i => by
    rw [Channel.modifyClient, List.getElem?_modify]
    split
    · rfl
    · exact congrFun Option.map_id _
  have hextends : Extends w (w.modifyClient client f) := by
    refine ⟨fun _ => id, fun c hc => ?_⟩
    obtain ⟨i, hi⟩ := List.mem_iff_getElem?.1 hc
    by_cases heq : client = i
    · obtain ⟨-, ⟨news, hevents, -⟩, -⟩ := hf c (heq ▸ hi)
      refine ⟨f c, List.mem_iff_getElem?.2 ⟨i, ?_⟩, fun e he => ?_⟩
      · rw [hget, if_pos heq, hi]
        rfl
      · rw [hevents]
        exact List.mem_append_left _ he
    · refine ⟨c, List.mem_iff_getElem?.2 ⟨i, ?_⟩, fun _ => id⟩
      rw [hget, if_neg heq, hi]
  constructor
  · have hnonces : (w.modifyClient client f).nonces = w.nonces := by
      refine congrArg (w.server.challenges ++ ·) (List.ext_getElem? fun i => ?_)
      rw [List.getElem?_map, List.getElem?_map, hget]
      split
      · rename_i heq
        rw [Option.map_map]
        cases hi : w.clients[i]? with
        | none => rfl
        | some c => exact congrArg (fun call => some call.nonce) (hf c (heq ▸ hi)).call
      · rfl
    rw [hnonces]
    exact h.distinct
  · exact h.traced
  · exact h.welcomes
  · intro socket proof hmem
    obtain ⟨challenge, hchallenge, hproof, hmade⟩ := h.hellos socket proof hmem
    exact ⟨challenge, hchallenge, hproof, hmade.extend hextends⟩
  · intro c' hc'
    obtain ⟨i, hi⟩ := List.mem_iff_getElem?.1 hc'
    rw [hget] at hi
    split at hi
    · rename_i heq
      obtain ⟨c, hold, rfl⟩ := Option.map_eq_some_iff.1 hi
      have hc := h.clients c (List.mem_of_getElem? hold)
      obtain ⟨hcall, ⟨news, hevents, hnews⟩, hwelcomed⟩ := hf c (heq ▸ hold)
      constructor
      · intro challenge nonce proof hmem
        rw [hevents] at hmem
        rw [hcall]
        rcases List.mem_append.1 hmem with hmem | hmem
        · exact hc.hello challenge nonce proof hmem
        · exact hnews _ hmem
      · intro proof hmem
        rw [hevents] at hmem
        rw [hcall]
        rcases List.mem_append.1 hmem with hmem | hmem
        · exact (hc.welcome proof hmem).imp_right (·.extend hextends)
        · obtain ⟨line, hline, haccepted⟩ := hnews _ hmem
          obtain ⟨hof, hproof⟩ := welcomeProof_proof hsha haccepted
          have hunforged := h.unforged hcollision (hlines line hline) hof
          exact ⟨hproof, (hunforged _ _ hproof).extend hextends⟩
      · exact hwelcomed hc.welcomed
    · exact (h.clients c' (List.mem_of_getElem? hi)).extend hextends

/-- A client starts. -/
theorem Honest.request (h : Honest opts w) {call : ClientCall} (hfresh : call.nonce ∉ w.nonces) :
    Honest opts (w.step opts (.request call)) := by
  have hextends : Extends w (w.step opts (.request call)) :=
    ⟨fun _ => id, fun c hc => ⟨c, List.mem_append_left _ hc, fun _ => id⟩⟩
  constructor
  · show (w.server.challenges ++
      (w.clients ++ [ClientSession.request call]).map fun c => c.call.nonce).Nodup
    rw [List.map_append, ← List.append_assoc]
    refine List.nodup_append.2 ⟨h.distinct, List.nodup_cons.2 ⟨nofun, List.nodup_nil⟩, ?_⟩
    intro a ha b hb heq
    rw [heq, List.mem_singleton.1 hb] at ha
    exact hfresh ha
  · exact h.traced
  · exact h.welcomes
  · intro socket proof hmem
    obtain ⟨challenge, hchallenge, hproof, hmade⟩ := h.hellos socket proof hmem
    exact ⟨challenge, hchallenge, hproof, hmade.extend hextends⟩
  · intro c hc
    rcases List.mem_append.1 hc with hc | hc
    · exact (h.clients c hc).extend hextends
    · rw [List.mem_singleton.1 hc]
      exact ⟨nofun, nofun, Preceded.nil⟩

theorem Honest.step (h : Honest opts w) (hcollision : Collisionless opts.prove)
    (hsha : ∀ a b, opts.platform.sha256 a = opts.platform.sha256 b → a = b) {op : ChannelOp}
    (hadmits : w.Admits opts op) : Honest opts (w.step opts op) := by
  have hsettle : ∀ {client : Nat} {f : ClientSession → ClientSession},
      (∀ c, ∃ outcome, f c = c.settle outcome) → Honest opts (w.modifyClient client f) :=
    fun hf => h.modifyClient hcollision hsha [] nofun fun c _ => by
      obtain ⟨outcome, heq⟩ := hf c
      rw [heq]
      exact ClientSession.Follows.settle c outcome
  cases op with
  | server op => exact h.server hcollision hsha hadmits
  | request call => exact h.request hadmits
  | data client chunk =>
    cases hclient : w.clients[client]? with
    | none =>
      refine h.modifyClient hcollision hsha [] nofun fun c hc => ?_
      rw [hclient] at hc
      cases hc
    | some c =>
      refine h.modifyClient hcollision hsha (splitLines (c.responseBuffer ++ chunk)).1
        (hadmits c hclient) fun c' hc' => ?_
      rw [hclient] at hc'
      cases hc'
      refine ClientSession.Follows.trans ?_ (ClientSession.Follows.readLines _ _ fun _ => id)
      exact ClientSession.Follows.of_events rfl rfl
  | timeout client => exact hsettle fun c => ⟨_, rfl⟩
  | error client => exact hsettle fun c => ⟨_, rfl⟩
  | ended client => exact hsettle fun c => ⟨_, rfl⟩

theorem honest_idle (opts : ControlOptions) : Honest opts idle where
  distinct := List.nodup_nil
  traced := ControlServer.Traced.create
  welcomes _ _ _ hmem := nomatch hmem
  hellos _ _ hmem := nomatch hmem
  clients _ hc := nomatch hc

theorem inductive_honest (hcollision : Collisionless opts.prove)
    (hsha : ∀ a b, opts.platform.sha256 a = opts.platform.sha256 b → a = b) :
    (channel opts).Inductive (Honest opts) where
  init h := h ▸ honest_idle opts
  step := by
    rintro w _ op h ⟨hadmits, rfl⟩
    exact h.step hcollision hsha hadmits

/-- What both sides can count on. -/
structure Authenticated (opts : ControlOptions) (w : Channel) : Prop where
  /-- A client has written its request only if the server has proved the token over its nonce. -/
  requests : ∀ c ∈ w.clients, ∀ requestId surfaceId method params timeoutMs,
    .request requestId surfaceId method params timeoutMs ∈ c.events → w.Made .server c.call.nonce
  /-- The server has forwarded requests only from a connection over whose challenge a client has
  proved the token. -/
  forwards : ∀ request socket requestId,
    (request, socket, requestId) ∈ forwarded w.server.events →
      ∃ challenge, w.server.challenges[socket]? = some challenge ∧ w.Made .client challenge
  /-- The server accepts a proof in no other role, and over no other nonce. -/
  hellos : ∀ socket proof, .helloAccepted socket proof ∈ w.server.events →
    ∀ role nonce, proof = opts.prove role nonce →
      role = .client ∧ w.server.challenges[socket]? = some nonce
  /-- Nor does a client. -/
  welcomes : ∀ c ∈ w.clients, ∀ proof, .welcomeAccepted proof ∈ c.events →
    ∀ role nonce, proof = opts.prove role nonce → role = .server ∧ nonce = c.call.nonce
  /-- No two connections share a nonce. -/
  distinct : w.nonces.Nodup

theorem Honest.authenticated (h : Honest opts w) (hcollision : Collisionless opts.prove) :
    Authenticated opts w where
  requests c hc requestId surfaceId method params timeoutMs hmem := by
    have hclient := h.clients c hc
    obtain ⟨before, after, heq, proof, hwelcome⟩ := hclient.welcomed.of_mem hmem
    have hmem' : .welcomeAccepted proof ∈ c.events := heq ▸ List.mem_append_left _ hwelcome
    exact (hclient.welcome proof hmem').2
  forwards request socket requestId hmem := by
    obtain ⟨proof, hgreeted⟩ := Preceded.greeted h.traced.justified hmem
    obtain ⟨challenge, hchallenge, -, hmade⟩ := h.hellos socket proof hgreeted
    exact ⟨challenge, hchallenge, hmade⟩
  hellos socket proof hmem role nonce hproof := by
    obtain ⟨challenge, hchallenge, hproof', -⟩ := h.hellos socket proof hmem
    obtain ⟨rfl, rfl⟩ := hcollision.accepted hproof hproof'
    exact ⟨rfl, hchallenge⟩
  welcomes c hc proof hmem role nonce hproof :=
    hcollision.accepted hproof ((h.clients c hc).welcome proof hmem).1
  distinct := h.distinct

end Channel

/-! ### The token -/

/-- Another token, under a MAC that makes the same proofs of it. -/
def ControlOptions.keyed (opts : ControlOptions) (token : JsString) : ControlOptions :=
  { opts with
    platform := { opts.platform with hmacSha256 := fun _ => opts.platform.hmacSha256 opts.token }
    token := token }

variable (opts) (token : JsString)

theorem ControlServer.readLines_keyed (lines : List JsString) (s : ControlServer) (socket : Nat) :
    s.readLines (opts.keyed token) socket lines = s.readLines opts socket lines := by
  induction lines generalizing s with
  | nil => rfl
  | cons line lines ih =>
    have hhandle : s.handleRequest (opts.keyed token) socket line =
        s.handleRequest opts socket line := rfl
    have haccept : ∀ challenge, acceptHello (opts.keyed token) line challenge =
        acceptHello opts line challenge := fun _ => rfl
    have hwelcome : ∀ nonce, (opts.keyed token).platform.proveToken (opts.keyed token).token
        SERVER_PROOF_DOMAIN nonce =
          opts.platform.proveToken opts.token SERVER_PROOF_DOMAIN nonce := fun _ => rfl
    unfold readLines
    simp only [hhandle, haccept, hwelcome, ih]

theorem ControlServer.step_keyed (s : ControlServer) (op : ControlOp) :
    s.step (opts.keyed token) op = s.step opts op := by
  cases op with
  | data socket chunk =>
    simp only [step, handle, onData, readLines_keyed]
  | _ => rfl

theorem ClientSession.readLines_keyed (lines : List JsString) (c : ClientSession) :
    c.readLines (opts.keyed token).platform (opts.keyed token).token lines =
      c.readLines opts.platform opts.token lines := by
  induction lines generalizing c with
  | nil => rfl
  | cons line lines ih =>
    have hline : c.readLine (opts.keyed token).platform (opts.keyed token).token line =
        c.readLine opts.platform opts.token line := rfl
    unfold readLines
    rw [hline, ih]

/-- The runs of a channel depend on the token through the proofs alone. -/
theorem channel_keyed : channel (opts.keyed token) = channel opts := by
  have hadmits : ∀ (w : Channel) (op : ChannelOp),
      w.Admits (opts.keyed token) op = w.Admits opts op := by
    intro w op
    cases op <;> rfl
  have hstep : ∀ (w : Channel) (op : ChannelOp),
      w.step (opts.keyed token) op = w.step opts op := by
    intro w op
    cases op with
    | server op => simp only [Channel.step, ControlServer.step_keyed]
    | data client chunk =>
      simp only [Channel.step, ClientSession.onData, ClientSession.readLines_keyed]
    | _ => rfl
  unfold channel
  simp only [hadmits, hstep]

/-- Whatever the adversary does, both sides are authenticated, and what is written is the same
whatever token makes these proofs. -/
theorem channel_authenticated {w : Channel}
    (hmac : ∀ a b, opts.platform.hmacSha256 opts.token a = opts.platform.hmacSha256 opts.token b →
      a = b)
    (hsha : ∀ a b, opts.platform.sha256 a = opts.platform.sha256 b → a = b)
    (hw : (channel opts).Reachable w) :
    Channel.Authenticated opts w ∧ ∀ token, (channel (opts.keyed token)).Reachable w := by
  have hcollision := collisionless_prove hmac
  have hhonest := (Channel.inductive_honest hcollision hsha).reachable hw
  exact ⟨hhonest.authenticated hcollision, fun token => by rw [channel_keyed]; exact hw⟩

/-! ### A request goes through -/

/-- A MAC and a hash that have no collisions, and are what the platform computes over the frames of
the connection. -/
def idealPlatform : ControlPlatform where
  hmacSha256 _ message :=
    Equiv.swap (CLIENT_PROOF_DOMAIN ++ js " " ++ exampleChallenge) exampleClientProof
      (Equiv.swap (SERVER_PROOF_DOMAIN ++ js " " ++ js "a1") exampleServerProof message)
  sha256 := Equiv.swap exampleClientProof
    (js "f118d4989885f1b5f8244b39041abfd95df65f161a0aef967db9c0802f2714ff")
  parseJson := exampleParse

def idealOptions : ControlOptions := ⟨idealPlatform, js "d0r", 65000⟩

def exampleCall : ClientCall := ⟨js "r1", none, js "surface.list", .object [], 10000, js "a1"⟩

/-- A connection, and a client that has got its challenge. -/
def exampleGreeted : Channel :=
  [ChannelOp.server (.connection exampleChallenge), .request exampleCall,
    .data 0 (exampleChallengeLine ++ js "\n")].foldl (Channel.step idealOptions) .idle

/-- Its hello has come to the server. -/
def exampleAccepted : Channel :=
  exampleGreeted.step idealOptions (.server (.data 0 (exampleHello ++ js "\n")))

/-- The welcome has come back to it, and its request has come to the server. -/
def exampleForwarded : Channel :=
  (exampleAccepted.step idealOptions (.data 0 (exampleWelcome ++ js "\n"))).step idealOptions
    (.server (.data 0 (exampleRequest ++ js "\n")))

theorem reachable_step {w : Channel} (hw : (channel opts).Reachable w) (op : ChannelOp)
    (hadmits : w.Admits opts op) : (channel opts).Reachable (w.step opts op) :=
  .next hw ⟨hadmits, rfl⟩

/-- A request goes through, and each side has the other's proof. -/
theorem channel_authenticated_request :
    (exampleForwarded.clients.map fun c => c.phase) = [.response] ∧
      forwarded exampleForwarded.server.events = [(0, 0, js "r1")] ∧
      Channel.Authenticated idealOptions exampleForwarded := by
  have hplain : ∀ (w : Channel) {line : JsString}, idealOptions.proofOf line = none →
      w.Unforgeable idealOptions line := fun w line hnone proof hproof => by
    rw [hnone] at hproof
    cases hproof
  have hheard : ∀ {w : Channel} {line proof : JsString}, idealOptions.proofOf line = some proof →
      w.Heard proof → w.Unforgeable idealOptions line := fun hof hheard proof hproof _ => by
    rw [hof] at hproof
    cases hproof
    exact hheard
  have hgreeted : (channel idealOptions).Reachable exampleGreeted := by
    refine reachable_step _ (reachable_step _ (reachable_step _ (.start rfl)
      (.server (.connection exampleChallenge)) ?_) (.request exampleCall) ?_)
      (.data 0 (exampleChallengeLine ++ js "\n")) ?_
    · exact ⟨nofun, fun challenge _ => nofun⟩
    · show js "a1" ∉ [exampleChallenge]
      decide +kernel
    · rintro c hc line hline
      cases hc
      have hlines : (splitLines ([] ++ (exampleChallengeLine ++ js "\n"))).1 =
          [exampleChallengeLine] := by decide +kernel
      have hline' : line ∈ [exampleChallengeLine] := hlines ▸ hline
      rw [List.mem_singleton.1 hline']
      exact hplain _ (by decide +kernel)
  have hclients : exampleGreeted.clients = [⟨exampleCall, [], none, .welcome,
      [.hello exampleChallenge (js "a1") exampleClientProof]⟩] := rfl
  have haccepted : (channel idealOptions).Reachable exampleAccepted := by
    refine reachable_step _ hgreeted (.server (.data 0 (exampleHello ++ js "\n")))
      ⟨fun line hline => ?_, fun challenge heq => nomatch heq⟩
    have hlines : exampleGreeted.server.completed (.data 0 (exampleHello ++ js "\n")) =
        [exampleHello] := by decide +kernel
    rw [hlines] at hline
    rw [List.mem_singleton.1 hline]
    have hproof : idealOptions.proofOf exampleHello = some exampleClientProof := by decide +kernel
    refine hheard hproof (.inr ?_)
    rw [hclients]
    exact ⟨_, List.mem_cons_self, exampleChallenge, js "a1", List.mem_cons_self⟩
  have hevents : exampleAccepted.server.events =
      [.challenged 0 exampleChallenge, .helloAccepted 0 exampleClientProof,
        .welcomed 0 (js "a1") exampleServerProof] := rfl
  have hforwarded : (channel idealOptions).Reachable exampleForwarded := by
    refine reachable_step _ (reachable_step _ haccepted
      (.data 0 (exampleWelcome ++ js "\n")) fun c hc line hline => ?_)
      (.server (.data 0 (exampleRequest ++ js "\n")))
      ⟨fun line hline => ?_, fun challenge heq => nomatch heq⟩
    · rw [show exampleAccepted.clients = _ from hclients] at hc
      cases hc
      have hlines : (splitLines ([] ++ (exampleWelcome ++ js "\n"))).1 = [exampleWelcome] := by
        decide +kernel
      have hline' : line ∈ [exampleWelcome] := hlines ▸ hline
      rw [List.mem_singleton.1 hline']
      have hproof : idealOptions.proofOf exampleWelcome = some exampleServerProof := by
        decide +kernel
      refine hheard hproof (.inl ⟨0, js "a1", ?_⟩)
      rw [hevents]
      simp
    · have hlines : (exampleAccepted.step idealOptions
          (.data 0 (exampleWelcome ++ js "\n"))).server.completed
            (.data 0 (exampleRequest ++ js "\n")) = [exampleRequest] := by decide +kernel
      rw [hlines] at hline
      rw [List.mem_singleton.1 hline]
      exact hplain _ (by decide +kernel)
  refine ⟨by decide +kernel, by decide +kernel, ?_⟩
  exact (channel_authenticated idealOptions (fun a b heq => (Equiv.swap _ _).injective
    ((Equiv.swap _ _).injective heq)) (fun a b heq => (Equiv.swap _ _).injective heq) hforwarded).1

end Dormouse.Control
