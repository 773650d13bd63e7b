import Dormouse.Control.Server
import Dormouse.Lib.History
import Dormouse.Lib.Transition

/-!
# Dormouse.Control.ServerSound

**What becomes of a forwarded request.** Every response and every cancellation is for a request
that its own socket has asked for, and was behind the hello of that socket (`Justified`).

Beyond that, the table of pending requests is keyed by an id that the client chooses, and a
response ends its socket. Where no id is used twice at a time, no line is `null` and no socket is
ended under a request (`Meets`), a request ends once, and is pending until then (`Accounted`).
-/

namespace Dormouse.Control

/-! ### What the events say of a request -/

/-- What ends a request: the webview's answer, meant for `asked`, or a cancellation. -/
inductive Ending
  | answered (asked : Option Nat)
  | cancelled

namespace ControlEvent

/-- The request that an event forwards: its number, its socket and its id. -/
def forwards : ControlEvent → Option (Nat × Nat × JsString)
  | controlRequest request socket requestId _ _ _ => some (request, socket, requestId)
  | _ => none

/-- The socket that gets a response to `request`. -/
def respondsTo (request : Nat) : ControlEvent → Option Nat
  | responded socket request' _ => if request' = some request then some socket else none
  | _ => none

/-- How an event ends `request`. -/
def ends (request : Nat) : ControlEvent → Option Ending
  | answered request' asked => if request' = request then some (.answered asked) else none
  | controlCancel request' _ => if request' = request then some .cancelled else none
  | _ => none

end ControlEvent

def forwarded (events : List ControlEvent) : List (Nat × Nat × JsString) :=
  events.filterMap ControlEvent.forwards

/-- The sockets that got a response line for `request`. -/
def responses (request : Nat) (events : List ControlEvent) : List Nat :=
  events.filterMap (ControlEvent.respondsTo request)

def endings (request : Nat) (events : List ControlEvent) : List Ending :=
  events.filterMap (ControlEvent.ends request)

@[simp] theorem forwarded_append (before after : List ControlEvent) :
    forwarded (before ++ after) = forwarded before ++ forwarded after :=
  List.filterMap_append

@[simp] theorem responses_append (request : Nat) (before after : List ControlEvent) :
    responses request (before ++ after) = responses request before ++ responses request after :=
  List.filterMap_append

@[simp] theorem endings_append (request : Nat) (before after : List ControlEvent) :
    endings request (before ++ after) = endings request before ++ endings request after :=
  List.filterMap_append

theorem mem_forwarded {events : List ControlEvent} {request socket : Nat} {requestId : JsString} :
    (request, socket, requestId) ∈ forwarded events ↔
      ∃ surfaceId method params,
        ControlEvent.controlRequest request socket requestId surfaceId method params ∈ events := by
  unfold forwarded
  rw [List.mem_filterMap]
  constructor
  · rintro ⟨event, hmem, heq⟩
    cases event with
    | controlRequest request' socket' requestId' surfaceId method params =>
      simp only [ControlEvent.forwards, Option.some.injEq, Prod.mk.injEq] at heq
      obtain ⟨rfl, rfl, rfl⟩ := heq
      exact ⟨surfaceId, method, params, hmem⟩
    | _ => simp [ControlEvent.forwards] at heq
  · rintro ⟨surfaceId, method, params, hmem⟩
    exact ⟨_, hmem, rfl⟩

/-- The hello of `socket` has been accepted. -/
def Greeted (socket : Nat) (events : List ControlEvent) : Prop :=
  ∃ proof, ControlEvent.helloAccepted socket proof ∈ events

/-- Nothing is answered or forwarded before the hello; a response and a cancellation are for a
request of this very socket and under this very id. -/
def Justified (before : List ControlEvent) : ControlEvent → Prop
  | .responded socket none _ => Greeted socket before
  | .responded socket (some request) response =>
    ∃ requestId, (request, socket, requestId) ∈ forwarded before ∧
      response.stringField (js "requestId") = some requestId
  | .controlRequest _ socket _ _ _ _ => Greeted socket before
  | .controlCancel request requestId =>
    ∃ socket, (request, socket, requestId) ∈ forwarded before
  | _ => True

theorem Greeted.mono {socket : Nat} {before : List ControlEvent} (h : Greeted socket before)
    (after : List ControlEvent) : Greeted socket (before ++ after) :=
  h.imp fun _ => List.mem_append_left after

/-- A socket that has asked for a request had been greeted. -/
theorem Preceded.greeted {events : List ControlEvent} (h : Preceded Justified events)
    {request socket : Nat} {requestId : JsString}
    (hmem : (request, socket, requestId) ∈ forwarded events) : Greeted socket events := by
  obtain ⟨surfaceId, method, params, hmem⟩ := mem_forwarded.1 hmem
  exact h.mono hmem (fun _ => id) fun _ after hbefore => hbefore.mono after

namespace ControlServer

variable {opts : ControlOptions} {s s' : ControlServer} {socket : Nat}

/-! ### The operations -/

@[simp] theorem emit_sockets (event : ControlEvent) : (s.emit event).sockets = s.sockets := rfl
@[simp] theorem emit_pending (event : ControlEvent) : (s.emit event).pending = s.pending := rfl
@[simp] theorem emit_timers (event : ControlEvent) : (s.emit event).timers = s.timers := rfl
@[simp] theorem emit_nextTimer (event : ControlEvent) : (s.emit event).nextTimer = s.nextTimer :=
  rfl
@[simp] theorem emit_events (event : ControlEvent) :
    (s.emit event).events = s.events ++ [event] := rfl

@[simp] theorem modifySocket_events (f : ControlSocket → ControlSocket) :
    (s.modifySocket socket f).events = s.events := rfl

theorem modifySocket_get (f : ControlSocket → ControlSocket) (i : Nat) :
    (s.modifySocket socket f).sockets[i]? =
      if socket = i then (s.sockets[i]?).map f else s.sockets[i]? := by
  rw [modifySocket, List.getElem?_modify]
  split
  · rename_i h
    rfl
  · exact congrFun Option.map_id _

/-- A response is written, or its socket is gone or has had its line. -/
theorem writeResponse_cases (s : ControlServer) (socket : Nat) (request : Option Nat)
    (response : Json) :
    s.writeResponse socket request response =
        (s.modifySocket socket fun conn => { conn with writableEnded := true }).emit
          (.responded socket request response) ∨
      s.writeResponse socket request response = s ∧
        ∀ conn, s.sockets[socket]? = some conn → conn.destroyed ∨ conn.writableEnded := by
  unfold writeResponse
  split
  · exact .inl rfl
  rename_i hgone
  refine .inr ⟨rfl, fun conn hconn => ?_⟩
  rw [hconn] at hgone
  by_contra hneither
  rw [not_or, Bool.not_eq_true, Bool.not_eq_true] at hneither
  exact hgone (by simp [hneither.1, hneither.2])

theorem reap_some {requestId : JsString} {entry : PendingRequest}
    (h : s.pending.get requestId = some entry) :
    s.reap requestId = (some entry, { s with
      pending := s.pending.delete requestId
      timers := s.timers.delete entry.timeout }) := by
  unfold reap
  rw [h]

theorem reap_none {requestId : JsString} (h : s.pending.get requestId = none) :
    s.reap requestId = (none, s) := by
  unfold reap
  rw [h]

/-! ### Nothing out of the blue -/

/-- What is kept of a request is what was forwarded, and authenticated sockets were greeted. -/
structure Traced (s : ControlServer) : Prop where
  greeted : ∀ i conn, s.sockets[i]? = some conn → conn.authenticated → Greeted i s.events
  pending : ∀ requestId entry, s.pending.get requestId = some entry →
    (entry.timeout, entry.socket, requestId) ∈ forwarded s.events
  timers : ∀ timer t, s.timers.get timer = some t →
    (timer, t.socket, t.requestId) ∈ forwarded s.events
  justified : Preceded Justified s.events

namespace Traced

theorem create : Traced create where
  greeted i conn h := by simp [ControlServer.create] at h
  pending requestId entry h := nomatch h
  timers timer t h := nomatch h
  justified := Preceded.nil

/-- One more event, with the sockets left as authenticated as they were. -/
theorem emit (h : Traced s) {event : ControlEvent} (hevent : Justified s.events event) :
    Traced (s.emit event) where
  greeted i conn hconn hauth := (h.greeted i conn hconn hauth).mono [event]
  pending requestId entry hentry := by
    rw [emit_events, forwarded_append]
    exact List.mem_append_left _ (h.pending requestId entry hentry)
  timers timer t ht := by
    rw [emit_events, forwarded_append]
    exact List.mem_append_left _ (h.timers timer t ht)
  justified := h.justified.concat hevent

theorem modifySocket (h : Traced s) {f : ControlSocket → ControlSocket}
    (hf : ∀ conn, (f conn).authenticated → conn.authenticated ∨ Greeted socket s.events) :
    Traced (s.modifySocket socket f) :=
  { h with
    greeted i conn hconn hauth := by
      rw [modifySocket_get] at hconn
      split at hconn
      · rename_i hi
        obtain ⟨conn, hold, rfl⟩ := Option.map_eq_some_iff.1 hconn
        rcases hf conn hauth with hauth | hgreeted
        · exact h.greeted i conn hold hauth
        · exact hi ▸ hgreeted
      · exact h.greeted i conn hconn hauth }

theorem destroy (h : Traced s) : Traced (s.destroy socket) :=
  h.modifySocket fun _ => .inl

theorem writeResponse (h : Traced s) {request : Option Nat} {response : Json}
    (hevent : Justified s.events (.responded socket request response)) :
    Traced (s.writeResponse socket request response) := by
  rcases writeResponse_cases s socket request response with heq | ⟨heq, -⟩
  · rw [heq]
    refine Traced.emit (h.modifySocket ?_) hevent
    exact fun _ => .inl
  · rw [heq]
    exact h

/-- Letting go of entries and timers. -/
theorem drop (h : Traced s) (requestId : JsString) (timer : Nat) :
    Traced { s with
      pending := s.pending.delete requestId
      timers := s.timers.delete timer } where
  greeted := h.greeted
  pending requestId' entry hentry := by
    exact h.pending requestId' entry (InsertionMap.get_of_delete hentry).2
  timers timer' t ht := by
    exact h.timers timer' t (InsertionMap.get_of_delete ht).2
  justified := h.justified

theorem dropTimer (h : Traced s) (timer : Nat) :
    Traced { s with timers := s.timers.delete timer } :=
  { h.drop [] timer with pending := h.pending }

theorem reap (h : Traced s) (requestId : JsString) : Traced (s.reap requestId).2 := by
  cases hentry : s.pending.get requestId with
  | none => exact (reap_none hentry).symm ▸ h
  | some entry => exact (reap_some hentry).symm ▸ h.drop requestId entry.timeout

@[simp] theorem reap_events (requestId : JsString) :
    (s.reap requestId).2.events = s.events := by
  unfold ControlServer.reap
  split <;> rfl

theorem handleRequest (h : Traced s) (line : JsString) (hgreeted : Greeted socket s.events) :
    Traced (s.handleRequest opts socket line) := by
  unfold ControlServer.handleRequest
  split
  · exact h.writeResponse hgreeted
  · exact ⟨h.greeted, h.pending, h.timers, h.justified⟩
  split
  · exact h.writeResponse hgreeted
  rename_i requestId method _
  constructor
  · exact fun i conn hconn hauth => (h.greeted i conn hconn hauth).mono _
  · intro requestId' entry hentry
    simp only [emit_pending, InsertionMap.get_set] at hentry
    rw [emit_events, forwarded_append]
    split at hentry
    · rename_i heq
      cases hentry
      subst heq
      exact List.mem_append_right _ List.mem_cons_self
    · exact List.mem_append_left _ (h.pending requestId' entry hentry)
  · intro timer t ht
    simp only [emit_timers, InsertionMap.get_set] at ht
    rw [emit_events, forwarded_append]
    split at ht
    · rename_i heq
      cases ht
      subst heq
      exact List.mem_append_right _ List.mem_cons_self
    · exact List.mem_append_left _ (h.timers timer t ht)
  · exact h.justified.concat hgreeted

/-- Induction on the lines, as the loop reads them. -/
theorem readLines (lines : List JsString) (h : Traced s) :
    Traced (s.readLines opts socket lines) := by
  induction lines generalizing s with
  | nil => exact h
  | cons line lines ih =>
    unfold ControlServer.readLines
    split
    · exact h
    rename_i conn hconn
    split
    · rename_i hauth
      have hhandled := @handleRequest opts _ _ h line (h.greeted _ conn hconn hauth)
      dsimp only
      split
      · exact hhandled
      · exact ih hhandled
    split
    · exact h.destroy
    · rename_i nonce proof _
      refine ih (Traced.modifySocket (Traced.emit (h.emit ?_) ?_) ?_)
      · exact trivial
      · exact trivial
      · exact fun _ _ => .inr ⟨proof, by simp⟩

theorem cancel (h : Traced s) {e : JsString × PendingRequest}
    (he : ∃ socket, (e.2.timeout, socket, e.1) ∈ forwarded s.events) : Traced (s.cancel e) :=
  (h.reap e.1).emit (by rw [reap_events]; exact he)

theorem cancelAll (es : List (JsString × PendingRequest)) (h : Traced s)
    (hes : ∀ e ∈ es, ∃ socket, (e.2.timeout, socket, e.1) ∈ forwarded s.events) :
    Traced (es.foldl ControlServer.cancel s) := by
  induction es generalizing s with
  | nil => exact h
  | cons e es ih =>
    refine ih (h.cancel (hes e List.mem_cons_self)) fun e' he' => ?_
    obtain ⟨socket, hmem⟩ := hes e' (List.mem_cons_of_mem _ he')
    refine ⟨socket, ?_⟩
    rw [ControlServer.cancel, emit_events, reap_events, forwarded_append]
    exact List.mem_append_left _ hmem

/-- No step writes or tells anything out of the blue, whatever comes. -/
theorem handle (h : Traced s) (op : ControlOp) : Traced (s.handle opts op) := by
  cases op with
  | connection challenge =>
    have hconnected : Traced { s with
        sockets := s.sockets ++ [⟨challenge, [], false, true, false, false, false⟩] } := by
      refine ⟨fun i conn hconn hauth => ?_, h.pending, h.timers, h.justified⟩
      rcases Nat.lt_or_ge i s.sockets.length with hi | hi
      · rw [List.getElem?_append_left hi] at hconn
        exact h.greeted i conn hconn hauth
      · rw [List.getElem?_append_right hi] at hconn
        rw [List.mem_singleton.1 (List.mem_of_getElem? hconn)] at hauth
        cases hauth
    exact hconnected.emit trivial
  | data socket chunk =>
    unfold ControlServer.handle onData
    dsimp only
    split
    · exact h
    · split
      · exact h
      · refine readLines _ (h.modifySocket ?_)
        exact fun _ => .inl
  | error socket =>
    exact h.destroy
  | close socket =>
    unfold ControlServer.handle onClose
    dsimp only
    split
    · refine cancelAll _ (h.modifySocket ?_) fun e he => ⟨e.2.socket, ?_⟩
      · exact fun _ => .inl
      exact h.pending e.1 e.2 (InsertionMap.get_eq_some.2 (List.mem_of_mem_filter he))
    · exact h
  | handshakeTimeout socket =>
    unfold ControlServer.handle onHandshakeTimeout
    dsimp only
    split
    · refine Traced.destroy (h.modifySocket ?_)
      exact fun _ => .inl
    · exact h
  | requestTimeout timer =>
    unfold ControlServer.handle onRequestTimeout
    dsimp only
    split
    · exact h
    rename_i t ht
    have hforwarded := h.timers timer t ht
    have hreaped := (h.dropTimer timer).reap t.requestId
    refine Traced.emit (hreaped.writeResponse ?_) ⟨t.socket, ?_⟩
    · refine ⟨t.requestId, ?_, rfl⟩
      rw [reap_events]
      exact hforwarded
    · rcases writeResponse_cases _ t.socket (some timer) _ with heq | ⟨heq, -⟩
      · rw [heq, emit_events, modifySocket_events, reap_events, forwarded_append]
        exact List.mem_append_left _ hforwarded
      · rw [heq, reap_events]
        exact hforwarded
  | respond asked response =>
    unfold ControlServer.handle ControlServer.respond
    dsimp only
    split
    · exact h
    rename_i requestId hrequestId
    cases hentry : s.pending.get requestId with
    | none =>
      rw [reap_none hentry]
      exact h
    | some entry =>
      rw [reap_some hentry]
      refine Traced.writeResponse ((h.drop requestId entry.timeout).emit ?_)
        ⟨requestId, ?_, hrequestId⟩
      · exact trivial
      rw [emit_events, forwarded_append]
      exact List.mem_append_left _ (h.pending requestId entry hentry)

theorem step (h : Traced s) (op : ControlOp) : Traced (s.step opts op) := by
  unfold ControlServer.step
  split
  · exact h
  · exact h.handle op

end Traced

end ControlServer

end Dormouse.Control
