import Dormouse.Control.ServerSound

/-!
# Dormouse.Control.Accounting

**A request ends once.** The table of pending requests is keyed by an id that the client chooses,
and a response ends its socket; a line that is `null` throws. Where no id is used twice at a time,
no line is `null`, no late answer meets a newer request of its id and no socket has been ended
under a request (`Meets`), every forwarded request is pending until it ends, and ends in one way
(`Accounted`).
-/

namespace Dormouse.Control

namespace ControlServer

variable {opts : ControlOptions} {s s' : ControlServer} {socket : Nat}
  {closing closing' : Option Nat}

/-! ### The condition -/

/-- The lines that a chunk hands to the request handler: all of an authenticated connection, and
those behind an accepted hello. -/
def handed (opts : ControlOptions) (s : ControlServer) (socket : Nat) (chunk : JsString) :
    List JsString :=
  match s.sockets[socket]? with
  | none => []
  | some conn =>
    if conn.destroyed || conn.closed then []
    else
      match conn.authenticated, (splitLines (conn.buffer ++ chunk)).1 with
      | true, lines => lines
      | false, [] => []
      | false, hello :: lines => if (acceptHello opts hello conn.challenge).isSome then lines else []

/-- The ids of the requests among the lines. -/
def requestIds (opts : ControlOptions) (lines : List JsString) : List JsString :=
  lines.filterMap fun line => ((opts.platform.parseJson line).bind requestOf).map Prod.fst

/-- Lines that are not `null`, and whose requests have ids of their own. -/
structure Readable (opts : ControlOptions) (s : ControlServer) (lines : List JsString) : Prop where
  notNull : ∀ line ∈ lines, opts.platform.parseJson line ≠ some .null
  distinct : (requestIds opts lines).Nodup
  unused : ∀ requestId ∈ requestIds opts lines, s.pending.get requestId = none

/-- A response to the socket is written, or it is gone. -/
def Delivers (s : ControlServer) (socket : Nat) : Prop :=
  ∀ conn, s.sockets[socket]? = some conn → conn.writableEnded → conn.destroyed

/-- The condition on a step: the lines are readable, an answer is for the request that is pending
under its id, and the socket of a request that ends has not been ended before. -/
def Meets (opts : ControlOptions) (s : ControlServer) : ControlOp → Prop
  | .data socket chunk => Readable opts s (handed opts s socket chunk)
  | .requestTimeout timer => ∀ t, s.timers.get timer = some t → Delivers s t.socket
  | .respond asked response =>
    ∀ requestId entry, response.stringField (js "requestId") = some requestId →
      s.pending.get requestId = some entry →
        asked = some entry.timeout ∧ Delivers s entry.socket
  | _ => True

/-! ### The invariant -/

def Gone (s : ControlServer) (socket : Nat) : Prop :=
  ∃ conn, s.sockets[socket]? = some conn ∧ conn.destroyed

/-- A socket that may have pending requests; the one whose `close` is being handled may. -/
def Live (closing : Option Nat) (s : ControlServer) (socket : Nat) : Prop :=
  closing = some socket ∨ ∃ conn, s.sockets[socket]? = some conn ∧ conn.closed = false

/-- A request has ended in one way, and its socket got its line or was gone first. -/
structure Ended (s : ControlServer) (request socket : Nat) : Prop where
  once : endings request s.events = [.answered (some request)] ∨
    endings request s.events = [.cancelled]
  line : responses request s.events = [socket] ∨
    responses request s.events = [] ∧ Gone s socket

structure Sound (closing : Option Nat) (s : ControlServer) : Prop where
  fresh : ∀ f ∈ forwarded s.events, f.1 < s.nextTimer
  nodup : ((forwarded s.events).map Prod.fst).Nodup
  unknown : ∀ request, request ∉ (forwarded s.events).map Prod.fst →
    responses request s.events = [] ∧ endings request s.events = []
  held : ∀ requestId entry, s.pending.get requestId = some entry →
    (entry.timeout, entry.socket, requestId) ∈ forwarded s.events
  timed : ∀ request socket requestId,
    (∃ t, s.timers.get request = some t ∧ t.socket = socket ∧ t.requestId = requestId) ↔
      s.pending.get requestId = some ⟨socket, request⟩
  live : ∀ requestId entry, s.pending.get requestId = some entry → Live closing s entry.socket
  waiting : ∀ requestId entry, s.pending.get requestId = some entry →
    responses entry.timeout s.events = [] ∧ endings entry.timeout s.events = []
  ended : ∀ request socket requestId, (request, socket, requestId) ∈ forwarded s.events →
    s.pending.get requestId ≠ some ⟨socket, request⟩ → Ended s request socket

namespace Sound

theorem create : Sound none create where
  fresh f hf := nomatch hf
  nodup := List.nodup_nil
  unknown request _ := ⟨rfl, rfl⟩
  held requestId entry h := nomatch h
  timed request socket requestId := by simp [ControlServer.create]
  live requestId entry h := nomatch h
  waiting requestId entry h := nomatch h
  ended request socket requestId h := nomatch h

/-- A number stands for one request. -/
theorem same (h : Sound closing s) {request socket socket' : Nat} {requestId requestId' : JsString}
    (hmem : (request, socket, requestId) ∈ forwarded s.events)
    (hmem' : (request, socket', requestId') ∈ forwarded s.events) :
    socket = socket' ∧ requestId = requestId' := by
  have heq := List.inj_on_of_nodup_map h.nodup hmem hmem' rfl
  simpa using heq

/-- Steps that concern no request. -/
theorem quiet (h : Sound closing s) (hpending : s'.pending = s.pending)
    (htimers : s'.timers = s.timers) (hnext : s'.nextTimer = s.nextTimer)
    (hforwarded : forwarded s'.events = forwarded s.events)
    (hresponses : ∀ request, responses request s'.events = responses request s.events)
    (hendings : ∀ request, endings request s'.events = endings request s.events)
    (hlive : ∀ i, Live closing s i → Live closing' s' i) (hgone : ∀ i, Gone s i → Gone s' i) :
    Sound closing' s' where
  fresh := by rw [hforwarded, hnext]; exact h.fresh
  nodup := by rw [hforwarded]; exact h.nodup
  unknown request := by rw [hforwarded, hresponses, hendings]; exact h.unknown request
  held := by rw [hpending, hforwarded]; exact h.held
  timed := by rw [hpending, htimers]; exact h.timed
  live requestId entry hentry := hlive _ (h.live requestId entry (hpending ▸ hentry))
  waiting := by
    intro requestId entry hentry
    rw [hresponses, hendings]
    exact h.waiting requestId entry (hpending ▸ hentry)
  ended request socket requestId := by
    rw [hpending, hforwarded]
    intro hmem hnot
    obtain ⟨honce, hline⟩ := h.ended request socket requestId hmem hnot
    constructor
    · rw [hendings]
      exact honce
    · rw [hresponses]
      exact hline.imp_right fun hgone' => ⟨hgone'.1, hgone _ hgone'.2⟩

/-- A socket changes, and is no less gone or closed than before. -/
theorem modifySocket (h : Sound closing s) {f : ControlSocket → ControlSocket}
    (hclosed : ∀ conn, (f conn).closed = conn.closed)
    (hdestroyed : ∀ conn, conn.destroyed → (f conn).destroyed) :
    Sound closing (s.modifySocket socket f) := by
  refine h.quiet rfl rfl rfl rfl (fun _ => rfl) (fun _ => rfl) ?_ ?_
  · rintro i (heq | ⟨conn, hconn, hopen⟩)
    · exact .inl heq
    · refine .inr ?_
      rw [modifySocket_get, hconn]
      split
      · exact ⟨_, rfl, (hclosed conn).trans hopen⟩
      · exact ⟨_, rfl, hopen⟩
  · rintro i ⟨conn, hconn, hgone⟩
    unfold Gone
    rw [modifySocket_get, hconn]
    split
    · exact ⟨_, rfl, hdestroyed conn hgone⟩
    · exact ⟨_, rfl, hgone⟩

end Sound

/-- A socket that is destroyed stays so, whatever becomes of the rest of it. -/
theorem Gone.modifySocket {i : Nat} (h : Gone s i) {f : ControlSocket → ControlSocket}
    (hf : ∀ conn, conn.destroyed → (f conn).destroyed) : Gone (s.modifySocket socket f) i := by
  obtain ⟨conn, hconn, hgone⟩ := h
  unfold Gone
  rw [modifySocket_get, hconn]
  split
  · exact ⟨_, rfl, hf conn hgone⟩
  · exact ⟨_, rfl, hgone⟩

namespace Sound

/-- Events that concern no request. -/
theorem emit (h : Sound closing s) {event : ControlEvent} (hforwards : event.forwards = none)
    (hresponds : ∀ request, event.respondsTo request = none)
    (hends : ∀ request, event.ends request = none) : Sound closing (s.emit event) := by
  refine h.quiet rfl rfl rfl ?_ ?_ ?_ (fun _ => id) fun _ => id
  · simp [forwarded, hforwards]
  · simp [responses, hresponds]
  · simp [endings, hends]

theorem destroy (h : Sound closing s) : Sound closing (s.destroy socket) :=
  h.modifySocket (fun _ => rfl) fun _ _ => rfl

/-- A line that answers no request. -/
theorem writeInvalid (h : Sound closing s) (response : Json) :
    Sound closing (s.writeResponse socket none response) := by
  rcases writeResponse_cases s socket none response with heq | ⟨heq, -⟩
  · rw [heq]
    refine Sound.emit (h.modifySocket ?_ ?_) rfl (fun _ => rfl) fun _ => rfl
    · exact fun _ => rfl
    · exact fun _ => id
  · exact heq.symm ▸ h

/-- A request is forwarded, under an id that none that is pending has. -/
theorem forward (h : Sound closing s) {requestId : JsString} {t : RequestTimer}
    {event : ControlEvent}
    (hunused : s.pending.get requestId = none) (hlive : Live closing s socket)
    (hsocket : t.socket = socket) (hrequestId : t.requestId = requestId)
    (hforwards : event.forwards = some (s.nextTimer, socket, requestId))
    (hresponds : ∀ request, event.respondsTo request = none)
    (hends : ∀ request, event.ends request = none) :
    Sound closing (ControlServer.emit { s with
      pending := s.pending.set requestId ⟨socket, s.nextTimer⟩
      timers := s.timers.set s.nextTimer t
      nextTimer := s.nextTimer + 1 } event) := by
  have hforwarded : forwarded (s.events ++ [event]) =
      forwarded s.events ++ [(s.nextTimer, socket, requestId)] := by simp [forwarded, hforwards]
  have hresponses : ∀ request, responses request (s.events ++ [event]) =
      responses request s.events := by simp [responses, hresponds]
  have hendings : ∀ request, endings request (s.events ++ [event]) =
      endings request s.events := by simp [endings, hends]
  have hnew : s.nextTimer ∉ (forwarded s.events).map Prod.fst := fun hmem => by
    obtain ⟨f, hf, heq⟩ := List.mem_map.1 hmem
    exact absurd (h.fresh f hf) (heq ▸ Nat.lt_irrefl _)
  constructor
  · intro f hf
    rw [emit_events, hforwarded, List.mem_append, List.mem_singleton] at hf
    rcases hf with hf | rfl
    · exact Nat.lt_succ_of_lt (h.fresh f hf)
    · exact Nat.lt_succ_self _
  · rw [emit_events, hforwarded, List.map_append, List.map_singleton, List.nodup_append]
    refine ⟨h.nodup, List.nodup_singleton _, fun a ha b hb heq => ?_⟩
    rw [heq, List.mem_singleton.1 hb] at ha
    exact hnew ha
  · intro request hnot
    rw [emit_events, hforwarded, List.map_append, List.mem_append, not_or] at hnot
    rw [emit_events, hresponses, hendings]
    exact h.unknown request hnot.1
  · intro requestId' entry hentry
    rw [emit_pending, InsertionMap.get_set] at hentry
    rw [emit_events, hforwarded, List.mem_append]
    split at hentry
    · rename_i heq
      cases hentry
      exact .inr (heq ▸ List.mem_singleton.2 rfl)
    · exact .inl (h.held requestId' entry hentry)
  · intro request socket' requestId'
    rw [emit_timers, emit_pending, InsertionMap.get_set, InsertionMap.get_set]
    by_cases hrequest : s.nextTimer = request
    · rw [if_pos hrequest]
      by_cases hid : requestId = requestId'
      · rw [if_pos hid]
        subst hrequest hid
        simp [hsocket, hrequestId]
      rw [if_neg hid]
      constructor
      · rintro ⟨t', ht', -, hid'⟩
        cases ht'
        exact absurd (hrequestId.symm.trans hid') hid
      · intro hentry
        exact absurd (h.fresh _ (h.held requestId' _ hentry)) (hrequest ▸ Nat.lt_irrefl _)
    · rw [if_neg hrequest, h.timed]
      by_cases hid : requestId = requestId'
      · rw [if_pos hid, ← hid, hunused]
        simp [hrequest]
      · rw [if_neg hid]
  · intro requestId' entry hentry
    rw [emit_pending, InsertionMap.get_set] at hentry
    split at hentry
    · cases hentry
      exact hlive
    · exact h.live requestId' entry hentry
  · intro requestId' entry hentry
    rw [emit_pending, InsertionMap.get_set] at hentry
    rw [emit_events, hresponses, hendings]
    split at hentry
    · cases hentry
      exact h.unknown _ hnew
    · exact h.waiting requestId' entry hentry
  · intro request socket' requestId' hmem hnot
    rw [emit_events, hforwarded, List.mem_append, List.mem_singleton] at hmem
    rw [emit_pending, InsertionMap.get_set] at hnot
    rcases hmem with hmem | heq
    · have hpending : s.pending.get requestId' ≠ some ⟨socket', request⟩ := by
        split at hnot
        · rename_i hid
          rw [← hid, hunused]
          exact fun h => by cases h
        · exact hnot
      obtain ⟨honce, hline⟩ := h.ended request socket' requestId' hmem hpending
      constructor
      · rw [emit_events, hendings]
        exact honce
      · rw [emit_events, hresponses]
        exact hline
    · cases heq
      exact absurd (if_pos rfl) hnot

/-- A pending request ends: its entry and its timer go, and at most one line is written. -/
theorem finish (h : Sound closing s) {request : Nat} {requestId : JsString} (ending : Ending)
    (lines : List Nat) (hentry : s.pending.get requestId = some ⟨socket, request⟩)
    (hpending : ∀ requestId', s'.pending.get requestId' =
      if requestId = requestId' then none else s.pending.get requestId')
    (htimers : ∀ request', s'.timers.get request' =
      if request = request' then none else s.timers.get request')
    (hnext : s'.nextTimer = s.nextTimer)
    (hforwarded : forwarded s'.events = forwarded s.events)
    (hresponses : ∀ request', responses request' s'.events =
      responses request' s.events ++ if request = request' then lines else [])
    (hendings : ∀ request', endings request' s'.events =
      endings request' s.events ++ if request = request' then [ending] else [])
    (hending : ending = .answered (some request) ∨ ending = .cancelled)
    (hlines : lines = [socket] ∨ lines = [] ∧ Gone s' socket)
    (hlive : ∀ i, Live closing s i → Live closing s' i) (hgone : ∀ i, Gone s i → Gone s' i) :
    Sound closing s' := by
  have hmem := h.held requestId _ hentry
  have hwaiting := h.waiting requestId _ hentry
  -- What else is pending is another request.
  have hother : ∀ {requestId' entry}, s'.pending.get requestId' = some entry →
      s.pending.get requestId' = some entry ∧ request ≠ entry.timeout := by
    intro requestId' entry hentry'
    rw [hpending] at hentry'
    split at hentry'
    · cases hentry'
    · rename_i hne
      refine ⟨hentry', fun heq => hne ?_⟩
      have hmem' := h.held requestId' entry hentry'
      rw [← heq] at hmem'
      exact (h.same hmem hmem').2
  constructor
  · rw [hforwarded, hnext]
    exact h.fresh
  · rw [hforwarded]
    exact h.nodup
  · intro request' hnot
    rw [hforwarded] at hnot
    have hne : request ≠ request' := fun heq => hnot (heq ▸ List.mem_map_of_mem hmem)
    rw [hresponses, hendings, if_neg hne, if_neg hne, List.append_nil, List.append_nil]
    exact h.unknown request' hnot
  · intro requestId' entry hentry'
    rw [hforwarded]
    exact h.held requestId' entry (hother hentry').1
  · intro request' socket' requestId'
    rw [htimers, hpending]
    by_cases hrequest : request = request'
    · rw [if_pos hrequest]
      split
      · simp
      · rename_i hid
        refine ⟨fun htimer => ?_, fun hentry' => absurd ?_ hid⟩
        · obtain ⟨t, ht, -⟩ := htimer
          cases ht
        · subst hrequest
          exact (h.same hmem (h.held requestId' ⟨socket', _⟩ hentry')).2
    · rw [if_neg hrequest, h.timed]
      split
      · rename_i hid
        rw [← hid, hentry]
        simp [hrequest]
      · exact Iff.rfl
  · intro requestId' entry hentry'
    exact hlive _ (h.live requestId' entry (hother hentry').1)
  · intro requestId' entry hentry'
    obtain ⟨hold, hne⟩ := hother hentry'
    rw [hresponses, hendings, if_neg hne, if_neg hne, List.append_nil, List.append_nil]
    exact h.waiting requestId' entry hold
  · intro request' socket' requestId' hmem' hnot
    rw [hforwarded] at hmem'
    by_cases hrequest : request = request'
    · subst hrequest
      obtain ⟨rfl, -⟩ := h.same hmem hmem'
      constructor
      · rw [hendings, if_pos rfl, hwaiting.2, List.nil_append]
        exact hending.imp (congrArg ([·])) (congrArg ([·]))
      · rw [hresponses, if_pos rfl, hwaiting.1, List.nil_append]
        exact hlines
    · have hpending' : s.pending.get requestId' ≠ some ⟨socket', request'⟩ := fun hentry' => by
        rw [hpending] at hnot
        split at hnot
        · rename_i hid
          rw [← hid, hentry] at hentry'
          cases hentry'
          exact hrequest rfl
        · exact hnot hentry'
      obtain ⟨honce, hline⟩ := h.ended request' socket' requestId' hmem' hpending'
      constructor
      · rw [hendings, if_neg hrequest, List.append_nil]
        exact honce
      · rw [hresponses, if_neg hrequest, List.append_nil]
        exact hline.imp_right fun hgone' => ⟨hgone'.1, hgone _ hgone'.2⟩

end Sound

/-! ### The ends of a request -/

/-- The lines that a response to the socket comes to. -/
def written (s : ControlServer) (socket : Nat) : List Nat :=
  if (s.sockets[socket]?).any fun conn => !conn.destroyed && !conn.writableEnded then [socket]
  else []

section WriteResponse

variable (s s') (socket : Nat) (request : Option Nat) (response : Json)

@[simp] theorem writeResponse_pending :
    (s.writeResponse socket request response).pending = s.pending := by
  unfold writeResponse
  split <;> rfl

@[simp] theorem writeResponse_timers :
    (s.writeResponse socket request response).timers = s.timers := by
  unfold writeResponse
  split <;> rfl

@[simp] theorem writeResponse_threw :
    (s.writeResponse socket request response).threw = s.threw := by
  unfold writeResponse
  split <;> rfl

@[simp] theorem writeResponse_nextTimer :
    (s.writeResponse socket request response).nextTimer = s.nextTimer := by
  unfold writeResponse
  split <;> rfl

@[simp] theorem forwarded_writeResponse :
    forwarded (s.writeResponse socket request response).events = forwarded s.events := by
  unfold writeResponse
  split
  · rw [emit_events, modifySocket_events, forwarded_append]
    exact List.append_nil _
  · rfl

@[simp] theorem endings_writeResponse (ended : Nat) :
    endings ended (s.writeResponse socket request response).events = endings ended s.events := by
  unfold writeResponse
  split
  · rw [emit_events, modifySocket_events, endings_append]
    exact List.append_nil _
  · rfl

theorem responses_writeResponse (request answered : Nat) :
    responses answered (s.writeResponse socket (some request) response).events =
      responses answered s.events ++ if request = answered then s.written socket else [] := by
  unfold writeResponse written
  split
  · rw [emit_events, modifySocket_events, responses_append]
    by_cases h : request = answered <;> simp [responses, ControlEvent.respondsTo, h]
  · simp

theorem Live.writeResponse {i : Nat} (h : Live closing s i) (hsockets : s'.sockets = s.sockets) :
    Live closing (s'.writeResponse socket request response) i := by
  rcases h with heq | ⟨conn, hconn, hopen⟩
  · exact .inl heq
  rw [← hsockets] at hconn
  refine .inr ?_
  unfold ControlServer.writeResponse
  split
  · rw [emit_sockets, modifySocket_get, hconn]
    split
    · exact ⟨_, rfl, hopen⟩
    · exact ⟨_, rfl, hopen⟩
  · exact ⟨conn, hconn, hopen⟩

theorem Gone.writeResponse {i : Nat} (h : Gone s i) (hsockets : s'.sockets = s.sockets) :
    Gone (s'.writeResponse socket request response) i := by
  have h' : Gone s' i := by
    unfold Gone
    rw [hsockets]
    exact h
  unfold ControlServer.writeResponse
  split
  · exact h'.modifySocket fun _ => id
  · exact h'

end WriteResponse

/-- Where a response is due, it is written, or the socket is gone. -/
theorem Delivers.written (h : Delivers s socket) (hlive : Live none s socket) :
    s.written socket = [socket] ∨ s.written socket = [] ∧ Gone s socket := by
  obtain heq | ⟨conn, hconn, -⟩ := hlive
  · cases heq
  unfold ControlServer.written Gone
  rw [hconn]
  cases hdestroyed : conn.destroyed with
  | true => exact .inr ⟨by simp [hdestroyed], conn, rfl, hdestroyed⟩
  | false =>
    have hopen : conn.writableEnded = false := Bool.eq_false_iff.2 fun hended => by
      have := h conn hconn hended
      rw [hdestroyed] at this
      cases this
    exact .inl (by simp [hdestroyed, hopen])

namespace Sound

/-- A timer that is armed is that of a pending request. -/
theorem entry (h : Sound closing s) {timer : Nat} {t : RequestTimer}
    (ht : s.timers.get timer = some t) : s.pending.get t.requestId = some ⟨t.socket, timer⟩ :=
  (h.timed timer t.socket t.requestId).1 ⟨t, ht, rfl, rfl⟩

theorem onRequestTimeout (h : Sound none s) (timer : Nat)
    (hmeets : Meets opts s (.requestTimeout timer)) : Sound none (s.onRequestTimeout timer) := by
  unfold ControlServer.onRequestTimeout
  split
  · exact h
  rename_i t ht
  have hentry := h.entry ht
  have hreap : ({ s with timers := s.timers.delete timer }.reap t.requestId).2 = { s with
      pending := s.pending.delete t.requestId
      timers := (s.timers.delete timer).delete timer } := by
    have hentry' : ({ s with timers := s.timers.delete timer } : ControlServer).pending.get
        t.requestId = some ⟨t.socket, timer⟩ := hentry
    rw [reap_some hentry']
  rw [hreap]
  refine h.finish .cancelled (s.written t.socket) hentry ?_ ?_ ?_ ?_ ?_ ?_ (.inr rfl)
    ?_ ?_ ?_
  · intro requestId'
    rw [emit_pending, writeResponse_pending]
    exact InsertionMap.get_delete _ _ _
  · intro request'
    rw [emit_timers, writeResponse_timers, InsertionMap.get_delete, InsertionMap.get_delete]
    split <;> rfl
  · rw [emit_nextTimer, writeResponse_nextTimer]
  · rw [emit_events, forwarded_append, forwarded_writeResponse]
    exact List.append_nil _
  · intro request'
    rw [emit_events, responses_append, responses_writeResponse]
    exact List.append_nil _
  · intro request'
    rw [emit_events, endings_append, endings_writeResponse]
    by_cases heq : timer = request' <;> simp [endings, ControlEvent.ends, heq]
  · exact ((hmeets t ht).written (h.live _ _ hentry)).imp_right fun hgone =>
      ⟨hgone.1, hgone.2.writeResponse _ _ _ _ _ rfl⟩
  · exact fun i hi => hi.writeResponse _ _ _ _ _ rfl
  · exact fun i hi => hi.writeResponse _ _ _ _ _ rfl

theorem respond (h : Sound none s) (asked : Option Nat) (response : Json)
    (hmeets : Meets opts s (.respond asked response)) : Sound none (s.respond asked response) := by
  unfold ControlServer.respond
  split
  · exact h
  rename_i requestId hrequestId
  rcases hentry : s.pending.get requestId with _ | entry
  · rw [reap_none hentry]
    exact h
  rw [reap_some hentry]
  obtain ⟨rfl, hdelivers⟩ := hmeets requestId entry hrequestId hentry
  refine h.finish (.answered (some entry.timeout)) (s.written entry.socket) hentry ?_ ?_ ?_
    ?_ ?_ ?_ (.inl rfl) ?_ ?_ ?_
  · intro requestId'
    rw [writeResponse_pending, emit_pending]
    exact InsertionMap.get_delete _ _ _
  · intro request'
    rw [writeResponse_timers, emit_timers]
    exact InsertionMap.get_delete _ _ _
  · rw [writeResponse_nextTimer, emit_nextTimer]
  · rw [forwarded_writeResponse, emit_events, forwarded_append]
    exact List.append_nil _
  · intro request'
    rw [responses_writeResponse, emit_events, responses_append]
    exact congrArg (· ++ _) (List.append_nil _)
  · intro request'
    rw [endings_writeResponse, emit_events, endings_append]
    by_cases heq : entry.timeout = request' <;> simp [endings, ControlEvent.ends, heq]
  · exact (hdelivers.written (h.live _ _ hentry)).imp_right fun hgone =>
      ⟨hgone.1, hgone.2.writeResponse _ _ _ _ _ rfl⟩
  · exact fun i hi => hi.writeResponse _ _ _ _ _ rfl
  · exact fun i hi => hi.writeResponse _ _ _ _ _ rfl

/-! ### A socket closes -/

theorem cancel (h : Sound closing s) {e : JsString × PendingRequest}
    (hentry : s.pending.get e.1 = some e.2) (hgone : Gone s e.2.socket) :
    Sound closing (s.cancel e) := by
  unfold ControlServer.cancel
  rw [reap_some hentry]
  refine h.finish .cancelled [] hentry (fun _ => InsertionMap.get_delete _ _ _)
    (fun _ => InsertionMap.get_delete _ _ _) rfl ?_ ?_ ?_ (.inr rfl)
    (.inr ⟨rfl, hgone⟩) (fun _ => id) fun _ => id
  · rw [emit_events, forwarded_append]
    exact List.append_nil _
  · intro request'
    rw [emit_events, responses_append]
    simp [responses, ControlEvent.respondsTo]
  · intro request'
    rw [emit_events, endings_append]
    by_cases heq : e.2.timeout = request' <;> simp [endings, ControlEvent.ends, heq]

/-- The sweep over the requests of a socket leaves those of the others. Induction on the entries
that are still to be let go. -/
theorem cancelAll (es : List (JsString × PendingRequest)) (h : Sound closing s)
    (hkeys : (es.map Prod.fst).Nodup)
    (hes : ∀ e ∈ es, s.pending.get e.1 = some e.2 ∧ Gone s e.2.socket) :
    Sound closing (es.foldl ControlServer.cancel s) ∧
      ∀ requestId, (es.foldl ControlServer.cancel s).pending.get requestId =
        if requestId ∈ es.map Prod.fst then none else s.pending.get requestId := by
  induction es generalizing s with
  | nil => exact ⟨h, fun requestId => by simp⟩
  | cons e es ih =>
    rw [List.map_cons, List.nodup_cons] at hkeys
    obtain ⟨hentry, hgone⟩ := hes e List.mem_cons_self
    have hpending : ∀ requestId, (s.cancel e).pending.get requestId =
        if e.1 = requestId then none else s.pending.get requestId := fun requestId => by
      unfold ControlServer.cancel
      rw [reap_some hentry]
      exact InsertionMap.get_delete _ _ _
    have hsockets : (s.cancel e).sockets = s.sockets := by
      unfold ControlServer.cancel
      rw [reap_some hentry]
      rfl
    obtain ⟨hsound, hget⟩ := ih (h.cancel hentry hgone) hkeys.2 fun e' he' => by
      have hne : e.1 ≠ e'.1 := fun heq => hkeys.1 (heq ▸ List.mem_map_of_mem he')
      rw [hpending, if_neg hne]
      unfold Gone
      rw [hsockets]
      exact hes e' (List.mem_cons_of_mem _ he')
    refine ⟨hsound, fun requestId => ?_⟩
    have hcons : requestId ∈ (e :: es).map Prod.fst ↔
        requestId = e.1 ∨ requestId ∈ es.map Prod.fst := by rw [List.map_cons, List.mem_cons]
    rw [List.foldl_cons, hget, hpending]
    by_cases hmem : requestId ∈ es.map Prod.fst
    · rw [if_pos hmem, if_pos (hcons.2 (.inr hmem))]
    · rw [if_neg hmem]
      by_cases heq : e.1 = requestId
      · rw [if_pos heq, if_pos (hcons.2 (.inl heq.symm))]
      · rw [if_neg heq, if_neg fun h => (hcons.1 h).elim (fun h => heq h.symm) hmem]

theorem onClose (h : Sound none s) (socket : Nat) : Sound none (s.onClose socket) := by
  unfold ControlServer.onClose
  split
  · rename_i hopen
    obtain ⟨conn, hconn⟩ : ∃ conn, s.sockets[socket]? = some conn := by
      cases hsocket : s.sockets[socket]? with
      | none => rw [hsocket] at hopen; cases hopen
      | some conn => exact ⟨conn, rfl⟩
    generalize hclosed : s.modifySocket socket (fun conn =>
      { conn with closed := true, destroyed := true, handshakeTimer := false }) = s₁
    have hpending : s₁.pending = s.pending := hclosed ▸ rfl
    have hgone : Gone s₁ socket := by
      unfold Gone
      rw [← hclosed, modifySocket_get, if_pos rfl, hconn]
      exact ⟨_, rfl, rfl⟩
    have hsound : Sound (some socket) s₁ := by
      subst hclosed
      refine h.quiet rfl rfl rfl rfl (fun _ => rfl) (fun _ => rfl) ?_ ?_
      · rintro i (heq | ⟨conn, hconn, hopen⟩)
        · cases heq
        · by_cases hi : socket = i
          · exact .inl (congrArg some hi)
          · refine .inr ⟨conn, ?_, hopen⟩
            rw [modifySocket_get, if_neg hi]
            exact hconn
      · exact fun i hi => hi.modifySocket fun _ _ => rfl
    obtain ⟨hswept, hget⟩ := hsound.cancelAll
      (s.pending.entries.filter fun e => e.2.socket = socket)
      ((List.filter_sublist.map Prod.fst).nodup s.pending.nodup) fun e he => by
        obtain ⟨he, hsocket⟩ := List.mem_filter.1 he
        rw [hpending, of_decide_eq_true hsocket]
        exact ⟨InsertionMap.get_eq_some.2 he, hgone⟩
    refine { hswept with live := fun requestId entry hentry => ?_ }
    have hlive := hswept.live requestId entry hentry
    rcases hlive with heq | hlive
    · -- Its entries are among those that were swept.
      rw [hget, hpending] at hentry
      split at hentry
      · cases hentry
      · rename_i hnot
        refine absurd (List.mem_map.2 ⟨(requestId, entry), List.mem_filter.2 ⟨?_, ?_⟩, rfl⟩) hnot
        · exact InsertionMap.get_eq_some.1 hentry
        · exact decide_eq_true (Option.some.inj heq).symm
    · exact .inr hlive
  · exact h

end Sound

/-! ### The lines of a chunk -/

/-- An authenticated connection that has not closed. -/
def Serving (s : ControlServer) (socket : Nat) : Prop :=
  ∃ conn, s.sockets[socket]? = some conn ∧ conn.authenticated ∧ conn.closed = false

theorem Serving.live (h : Serving s socket) : Live closing s socket := by
  obtain ⟨conn, hconn, -, hopen⟩ := h
  exact .inr ⟨conn, hconn, hopen⟩

theorem Serving.writeResponse (h : Serving s socket) (request : Option Nat) (response : Json) :
    Serving (s.writeResponse socket request response) socket := by
  obtain ⟨conn, hconn, hauth, hopen⟩ := h
  unfold ControlServer.writeResponse
  split
  · refine ⟨{ conn with writableEnded := true }, ?_, hauth, hopen⟩
    rw [emit_sockets, modifySocket_get, if_pos rfl, hconn]
    rfl
  · exact ⟨conn, hconn, hauth, hopen⟩

theorem requestIds_cons (line : JsString) (lines : List JsString) :
    requestIds opts (line :: lines) = requestIds opts [line] ++ requestIds opts lines := by
  rw [← List.singleton_append]
  exact List.filterMap_append

/-- What is behind a line is readable, if only the id of the line has come to be pending. -/
theorem Readable.tail {line : JsString} {lines : List JsString}
    (h : Readable opts s (line :: lines))
    (hpending : ∀ requestId ∉ requestIds opts [line],
      s'.pending.get requestId = s.pending.get requestId) : Readable opts s' lines where
  notNull line' hline' := h.notNull line' (List.mem_cons_of_mem _ hline')
  distinct := by
    have hdistinct := h.distinct
    rw [requestIds_cons] at hdistinct
    exact (List.nodup_append.1 hdistinct).2.1
  unused requestId hmem := by
    have hdistinct := h.distinct
    rw [requestIds_cons] at hdistinct
    rw [hpending requestId fun hmem' => (List.nodup_append.1 hdistinct).2.2 _ hmem' _ hmem rfl]
    exact h.unused requestId (by rw [requestIds_cons]; exact List.mem_append_right _ hmem)

namespace Sound

/-- A readable line does not throw, and leaves the next ones readable. -/
theorem handleRequest (h : Sound none s) {line : JsString} {lines : List JsString}
    (hread : Readable opts s (line :: lines)) (hserving : Serving s socket) :
    Sound none (s.handleRequest opts socket line) ∧
      Readable opts (s.handleRequest opts socket line) lines ∧
      Serving (s.handleRequest opts socket line) socket ∧
      (s.handleRequest opts socket line).threw = s.threw := by
  unfold ControlServer.handleRequest
  split
  · exact ⟨h.writeInvalid _, hread.tail fun _ _ => by rw [writeResponse_pending],
      hserving.writeResponse _ _, writeResponse_threw _ _ _ _⟩
  · rename_i hnull
    exact absurd hnull (hread.notNull line List.mem_cons_self)
  rename_i request _ hparsed
  split
  · exact ⟨h.writeInvalid _, hread.tail fun _ _ => by rw [writeResponse_pending],
      hserving.writeResponse _ _, writeResponse_threw _ _ _ _⟩
  rename_i requestId method hrequest
  have hid : requestIds opts [line] = [requestId] := by
    simp [requestIds, hparsed, hrequest]
  have hunused : s.pending.get requestId = none :=
    hread.unused requestId (by rw [requestIds_cons, hid]; exact List.mem_cons_self)
  refine ⟨h.forward hunused hserving.live rfl rfl rfl (fun _ => rfl) fun _ => rfl,
    hread.tail fun requestId' hnot => ?_, hserving, rfl⟩
  rw [hid, List.mem_singleton] at hnot
  rw [emit_pending]
  exact InsertionMap.get_set_ne _ _ (Ne.symm hnot)

/-- The loop over the lines of an authenticated connection. -/
theorem readLines (lines : List JsString) (h : Sound none s) (hup : s.threw = false)
    (hread : Readable opts s lines) (hserving : Serving s socket) :
    Sound none (s.readLines opts socket lines) ∧
      (s.readLines opts socket lines).threw = false := by
  induction lines generalizing s with
  | nil => exact ⟨h, hup⟩
  | cons line lines ih =>
    obtain ⟨hs', hread', hserving', hthrew⟩ := h.handleRequest hread hserving
    have hup' := hthrew.trans hup
    obtain ⟨conn, hconn, hauth, -⟩ := hserving
    unfold ControlServer.readLines
    rw [hconn]
    dsimp only
    rw [if_pos hauth, hup', if_neg Bool.false_ne_true]
    exact ih hs' hup' hread' hserving'

theorem onData (h : Sound none s) (hup : s.threw = false) {chunk : JsString}
    (hread : Readable opts s (handed opts s socket chunk)) :
    Sound none (s.onData opts socket chunk) ∧ (s.onData opts socket chunk).threw = false := by
  unfold ControlServer.onData
  unfold handed at hread
  rcases hconn : s.sockets[socket]? with _ | conn
  · exact ⟨h, hup⟩
  rw [hconn] at hread
  dsimp only at hread ⊢
  split at hread
  · rename_i hgone
    rw [if_pos hgone]
    exact ⟨h, hup⟩
  rename_i hopen
  rw [if_neg hopen]
  have hclosed : conn.closed = false := by
    rw [Bool.or_eq_true, not_or, Bool.not_eq_true, Bool.not_eq_true] at hopen
    exact hopen.2
  generalize hbuffered : s.modifySocket socket (fun conn =>
    { conn with buffer := (splitLines (conn.buffer ++ chunk)).2 }) = s₁
  have hs₁ : Sound none s₁ := by
    subst hbuffered
    exact h.modifySocket (fun _ => rfl) fun _ => id
  have hpending : s₁.pending = s.pending := hbuffered ▸ rfl
  have hup₁ : s₁.threw = false := hbuffered ▸ hup
  have hconn₁ : s₁.sockets[socket]? =
      some { conn with buffer := (splitLines (conn.buffer ++ chunk)).2 } := by
    rw [← hbuffered, modifySocket_get, if_pos rfl, hconn]
    rfl
  have hread₁ : ∀ {lines s'}, Readable opts s lines → s'.pending = s.pending →
      Readable opts s' lines := fun hlines heq =>
    ⟨hlines.notNull, hlines.distinct, fun requestId hmem => by
      rw [heq]
      exact hlines.unused requestId hmem⟩
  split at hread
  · rename_i hauth
    exact hs₁.readLines _ hup₁ (hread₁ hread hpending) ⟨_, hconn₁, hauth, hclosed⟩
  · rename_i hauth hlines
    rw [hlines]
    exact ⟨hs₁, hup₁⟩
  -- The hello is accepted, and the lines behind it are requests; or it ends the socket.
  rename_i hello lines hauth hlines
  rw [hlines]
  unfold ControlServer.readLines
  rw [hconn₁]
  dsimp only
  rw [hauth, if_neg Bool.false_ne_true]
  rcases haccepted : acceptHello opts hello conn.challenge with _ | accepted
  · exact ⟨hs₁.destroy, hup₁⟩
  rw [haccepted, if_pos Option.isSome_some] at hread
  refine Sound.readLines lines ?_ hup₁ (hread₁ hread hpending) ?_
  · refine Sound.modifySocket (Sound.emit (Sound.emit hs₁ ?_ ?_ ?_) ?_ ?_ ?_) ?_ ?_
    all_goals first | rfl | exact fun _ => rfl | exact fun _ => id
  · refine ⟨{ conn with
      buffer := (splitLines (conn.buffer ++ chunk)).2
      authenticated := true
      handshakeTimer := false }, ?_, rfl, hclosed⟩
    rw [modifySocket_get, if_pos rfl, emit_sockets, emit_sockets, hconn₁]
    rfl

theorem onConnection (h : Sound none s) (challenge : JsString) :
    Sound none (s.onConnection challenge) := by
  have hold : ∀ {i conn}, s.sockets[i]? = some conn →
      (s.onConnection challenge).sockets[i]? = some conn := fun hconn => by
    unfold ControlServer.onConnection
    rw [emit_sockets, List.getElem?_append_left (List.getElem?_eq_some_iff.1 hconn).1]
    exact hconn
  refine h.quiet rfl rfl rfl ?_ ?_ ?_ ?_ ?_
  · unfold ControlServer.onConnection
    rw [emit_events, forwarded_append]
    exact List.append_nil _
  · intro request
    unfold ControlServer.onConnection
    rw [emit_events, responses_append]
    exact List.append_nil _
  · intro request
    unfold ControlServer.onConnection
    rw [emit_events, endings_append]
    exact List.append_nil _
  · rintro i (heq | ⟨conn, hconn, hopen⟩)
    · cases heq
    · exact .inr ⟨conn, hold hconn, hopen⟩
  · exact fun i ⟨conn, hconn, hgone⟩ => ⟨conn, hold hconn, hgone⟩

theorem onHandshakeTimeout (h : Sound none s) (socket : Nat) :
    Sound none (s.onHandshakeTimeout socket) := by
  unfold ControlServer.onHandshakeTimeout
  split
  · refine Sound.destroy (h.modifySocket ?_ ?_)
    · exact fun _ => rfl
    · exact fun _ => id
  · exact h

end Sound

/-! ### Nothing but a line throws -/

theorem reap_threw (requestId : JsString) : (s.reap requestId).2.threw = s.threw := by
  unfold reap
  split <;> rfl

theorem cancelAll_threw (es : List (JsString × PendingRequest)) :
    (es.foldl cancel s).threw = s.threw := by
  induction es generalizing s with
  | nil => rfl
  | cons e es ih => exact ih.trans (reap_threw e.1)

theorem onClose_threw (socket : Nat) : (s.onClose socket).threw = s.threw := by
  unfold onClose
  split
  · exact cancelAll_threw _
  · rfl

theorem onHandshakeTimeout_threw (socket : Nat) :
    (s.onHandshakeTimeout socket).threw = s.threw := by
  unfold onHandshakeTimeout
  split <;> rfl

theorem onRequestTimeout_threw (timer : Nat) : (s.onRequestTimeout timer).threw = s.threw := by
  unfold onRequestTimeout
  split
  · rfl
  · exact (writeResponse_threw _ _ _ _).trans (reap_threw _)

theorem respond_threw (asked : Option Nat) (response : Json) :
    (s.respond asked response).threw = s.threw := by
  unfold respond
  split
  · rfl
  rename_i requestId _
  cases hentry : s.pending.get requestId with
  | none => rw [reap_none hentry]
  | some entry =>
    rw [reap_some hentry]
    exact writeResponse_threw _ _ _ _

/-- A step that meets the condition does not throw, and accounts for every request. -/
theorem Sound.step (h : Sound none s) (hup : s.threw = false) (op : ControlOp)
    (hmeets : Meets opts s op) :
    Sound none (s.step opts op) ∧ (s.step opts op).threw = false := by
  unfold ControlServer.step
  rw [hup, if_neg Bool.false_ne_true]
  cases op with
  | connection challenge => exact ⟨h.onConnection challenge, hup⟩
  | data socket chunk => exact h.onData hup hmeets
  | error socket => exact ⟨h.destroy, hup⟩
  | close socket => exact ⟨h.onClose socket, (onClose_threw socket).trans hup⟩
  | handshakeTimeout socket =>
    exact ⟨h.onHandshakeTimeout socket, (onHandshakeTimeout_threw socket).trans hup⟩
  | requestTimeout timer =>
    exact ⟨h.onRequestTimeout timer hmeets, (onRequestTimeout_threw timer).trans hup⟩
  | respond asked response =>
    exact ⟨h.respond asked response hmeets, (respond_threw asked response).trans hup⟩

/-! ### Runs -/

/-- The runs of which every step meets the condition. -/
def accounting (opts : ControlOptions) : System ControlServer ControlOp where
  init s := s = create
  step s op s' := Meets opts s op ∧ s' = s.step opts op

/-- What there is to say of the requests of a server. -/
structure Accounted (s : ControlServer) : Prop where
  /-- No handler has thrown. -/
  up : s.threw = false
  /-- Nothing is written or told out of the blue. -/
  justified : Preceded Justified s.events
  /-- A number stands for one request. -/
  distinct : ((forwarded s.events).map Prod.fst).Nodup
  /-- What is pending was forwarded. -/
  held : ∀ requestId entry, s.pending.get requestId = some entry →
    (entry.timeout, entry.socket, requestId) ∈ forwarded s.events
  /-- A forwarded request is pending as long as it has not ended, and unanswered. -/
  pending : ∀ request socket requestId, (request, socket, requestId) ∈ forwarded s.events →
    (s.pending.get requestId = some ⟨socket, request⟩ ↔ endings request s.events = []) ∧
      (endings request s.events = [] → responses request s.events = [])
  /-- One that has ended has ended in one way. -/
  ended : ∀ request socket requestId, (request, socket, requestId) ∈ forwarded s.events →
    endings request s.events ≠ [] → Ended s request socket

theorem Sound.accounted (h : Sound none s) (hup : s.threw = false) (htraced : Traced s) :
    Accounted s := by
  have hpending : ∀ request socket requestId, (request, socket, requestId) ∈ forwarded s.events →
      (s.pending.get requestId = some ⟨socket, request⟩ ↔ endings request s.events = []) := by
    intro request socket requestId hmem
    refine ⟨fun hentry => (h.waiting _ _ hentry).2, fun hnone => ?_⟩
    by_contra hnot
    rcases (h.ended request socket requestId hmem hnot).once with honce | honce
    · rw [hnone] at honce
      cases honce
    · rw [hnone] at honce
      cases honce
  refine ⟨hup, htraced.justified, h.nodup, h.held, fun request socket requestId hmem => ?_,
    fun request socket requestId hmem hended => ?_⟩
  · have hiff := hpending request socket requestId hmem
    exact ⟨hiff, fun hnone => (h.waiting _ _ (hiff.2 hnone)).1⟩
  · exact h.ended request socket requestId hmem
      (mt (hpending request socket requestId hmem).1 hended)

theorem inductive_sound (opts : ControlOptions) :
    (accounting opts).Inductive fun s => Sound none s ∧ s.threw = false ∧ Traced s where
  init h := h ▸ ⟨Sound.create, rfl, Traced.create⟩
  step := by
    rintro s _ op ⟨hsound, hup, htraced⟩ ⟨hmeets, rfl⟩
    obtain ⟨hsound', hup'⟩ := hsound.step hup op hmeets
    exact ⟨hsound', hup', htraced.step op⟩

/-- In a run whose steps all meet the condition, no handler throws and every request is accounted
for at any time. -/
theorem requests_accounted (hs : (accounting opts).Reachable s) : Accounted s := by
  obtain ⟨hsound, hup, htraced⟩ := (inductive_sound opts).reachable hs
  exact hsound.accounted hup htraced

/-! ### A connection -/

/-- What the platform computes for the token over the frames of the connection. -/
def examplePlatform : ControlPlatform where
  hmacSha256 _ message :=
    if message = CLIENT_PROOF_DOMAIN ++ js " " ++ exampleChallenge then exampleClientProof
    else exampleServerProof
  sha256 text :=
    if text = exampleClientProof then
      js "f118d4989885f1b5f8244b39041abfd95df65f161a0aef967db9c0802f2714ff"
    else []
  parseJson := exampleParse

def exampleOptions : ControlOptions := ⟨examplePlatform, js "d0r", 65000⟩

/-- Runs of any steps. -/
def run (opts : ControlOptions) (ops : List ControlOp) : ControlServer :=
  ops.foldl (step opts) create

/-- A request behind its hello, in one chunk. -/
theorem requests_accounted_forwarding :
    forwarded ((create.onConnection exampleChallenge).step exampleOptions
      (.data 0 (exampleHello ++ js "\n" ++ exampleRequest ++ js "\n"))).events =
        [(0, 0, js "r1")] ∧
    Accounted ((create.onConnection exampleChallenge).step exampleOptions
      (.data 0 (exampleHello ++ js "\n" ++ exampleRequest ++ js "\n"))) := by
  have hhanded : handed exampleOptions (create.onConnection exampleChallenge) 0
      (exampleHello ++ js "\n" ++ exampleRequest ++ js "\n") = [exampleRequest] := by
    decide +kernel
  have hids : requestIds exampleOptions [exampleRequest] = [js "r1"] := by decide +kernel
  have hmeets : Meets exampleOptions (create.onConnection exampleChallenge)
      (.data 0 (exampleHello ++ js "\n" ++ exampleRequest ++ js "\n")) := by
    unfold Meets
    dsimp only
    rw [hhanded]
    refine ⟨fun line hline => ?_, ?_, fun requestId _ => rfl⟩
    · rw [List.mem_singleton.1 hline]
      have hparsed : exampleOptions.platform.parseJson exampleRequest =
          some (.object [(js "requestId", .string (js "r1")),
            (js "method", .string (js "surface.list"))]) := rfl
      rw [hparsed]
      exact nofun
    · rw [hids]
      exact List.pairwise_singleton _ _
  have hstart : (accounting exampleOptions).step create (.connection exampleChallenge)
      (create.onConnection exampleChallenge) := ⟨trivial, rfl⟩
  have hconnected : (accounting exampleOptions).Reachable (create.onConnection exampleChallenge) :=
    .next (.start rfl) hstart
  exact ⟨by decide +kernel, requests_accounted (.next hconnected ⟨hmeets, rfl⟩)⟩

/-- The line `null` throws. -/
theorem null_line_throws :
    ¬ ∀ (opts : ControlOptions) (ops : List ControlOp), (run opts ops).threw = false := by
  intro h
  have hthrows : (run exampleOptions [.connection exampleChallenge,
      .data 0 (exampleHello ++ js "\nnull\n")]).threw = true := rfl
  rw [h] at hthrows
  cases hthrows

end ControlServer

end Dormouse.Control
