import Dormouse.Lib.JsString
import Mathlib.Data.List.Nodup
import Mathlib.Logic.Function.Basic
import Mathlib.Order.Nat

/-!
# Dormouse.Pty.AttachmentService

**What a remote attachment is for**: the processed chunks of the process it attached to, one end,
and nothing after that or after its unsubscribe.

The chunks that a sink is handed are those its parser lets through. They are determined by what the
parser has been fed, at the subscription and since; so that is what is recorded of them.
-/

namespace Dormouse.Pty

variable {id id' : JsString} {sink p : Nat}

/-- What a sink observes. -/
inductive Observed
  /-- It is subscribed to a parser that has been fed this. -/
  | subscribed (fed : List JsString)
  /-- Its parser has been fed one more chunk. -/
  | chunk (fed : List JsString)
  | exit (exitCode : Int)
  /-- Its unsubscribe has been called. -/
  | stopped
  deriving DecidableEq

/-- The same without the exit code, which is the host's to tell. -/
inductive Seen
  | subscribed (fed : List JsString)
  | chunk (fed : List JsString)
  | ended
  | stopped

/-- There is nothing more to observe. -/
def Seen.Final : Seen → Prop
  | .ended | .stopped => True
  | .subscribed _ | .chunk _ => False

def Observed.seen : Observed → Seen
  | .subscribed fed => .subscribed fed
  | .chunk fed => .chunk fed
  | .exit _ => .ended
  | .stopped => .stopped

/-! ### The service -/

/-- What an attachment is for: an id has a process until that has ended, and a sink is attached to
the process that the id had. -/
structure AttachmentService where
  current : JsString → Option Nat
  /-- A process that was killed is heard no more, and its end is to come. -/
  killed : List Nat
  printed : Nat → List JsString
  attached : JsString → List Nat
  seen : List (Nat × Seen)

namespace AttachmentService

def create : AttachmentService := ⟨fun _ => none, [], fun _ => [], fun _ => [], []⟩

/-- The process of the id that is alive. -/
def alive (a : AttachmentService) (id : JsString) : Option Nat :=
  (a.current id).filter (· ∉ a.killed)

/-- The process of the id has ended: whoever is attached is told. -/
def finish (a : AttachmentService) (id : JsString) (next : Option Nat) : AttachmentService :=
  { a with
    current := Function.update a.current id next
    attached := Function.update a.attached id []
    seen := a.seen ++ (a.attached id).map fun sink => (sink, .ended) }

def kill (a : AttachmentService) (id : JsString) : AttachmentService :=
  { a with killed := (a.current id).toList ++ a.killed }

/-- Only the process that the id has is heard. -/
def print (a : AttachmentService) (p : Nat) (id data : JsString) : AttachmentService :=
  let printed := a.printed p ++ [data]
  { a with
    printed := Function.update a.printed p printed
    seen :=
      if a.alive id = some p then
        a.seen ++ (a.attached id).map fun sink => (sink, .chunk printed)
      else a.seen }

def exit (a : AttachmentService) (p : Nat) (id : JsString) : AttachmentService :=
  if a.current id = some p then a.finish id none else a

def attach (a : AttachmentService) (id : JsString) (sink : Nat) : AttachmentService :=
  match a.alive id with
  | none => { a with seen := a.seen ++ [(sink, .ended)] }
  | some p =>
    { a with
      attached := Function.update a.attached id (a.attached id ++ [sink])
      seen := a.seen ++ [(sink, .subscribed (a.printed p))] }

def detach (a : AttachmentService) (id : JsString) (sink : Nat) : AttachmentService :=
  { a with
    attached := Function.update a.attached id ((a.attached id).filter (· ≠ sink))
    seen := a.seen ++ [(sink, .stopped)] }

theorem alive_eq_some {a : AttachmentService} :
    a.alive id = some p ↔ a.current id = some p ∧ p ∉ a.killed := by
  simp [alive, Option.filter_eq_some_iff]

theorem alive_of_none {a : AttachmentService} (h : a.current id = none) : a.alive id = none := by
  rw [alive, h, Option.filter_none]

end AttachmentService

/-! ### Every attachment is accounted for -/

namespace AttachmentService

variable {a : AttachmentService} {subscriptions : List JsString} {seen new : List (Nat × Seen)}

/-- Nothing follows what is final but the unsubscribe. -/
def Once (seen : List (Nat × Seen)) : Prop :=
  seen.Pairwise fun o o' => o.1 = o'.1 → o.2.Final → o'.2 = .stopped

theorem Once.append (h : Once seen) (hnew : Once new)
    (hfree : ∀ o' ∈ new, o'.2 = .stopped ∨ ∀ o ∈ seen, o.1 = o'.1 → ¬o.2.Final) :
    Once (seen ++ new) := by
  refine List.pairwise_append.2 ⟨h, hnew, fun o ho o' ho' heq hfinal => ?_⟩
  rcases hfree o' ho' with hstopped | hfree
  · exact hstopped
  · exact absurd hfinal (hfree o ho heq)

theorem once_map {sinks : List Nat} (h : sinks.Nodup) (e : Seen) :
    Once (sinks.map fun sink => (sink, e)) := by
  refine List.pairwise_map.2 (h.imp fun hne heq => absurd heq hne)

theorem once_singleton (o : Nat × Seen) : Once [o] := List.pairwise_singleton _ _

/-- Whoever is attached goes on, and everybody else has been told an end or been stopped. -/
structure Sound (a : AttachmentService) (subscriptions : List JsString) : Prop where
  going : ∀ id sink, sink ∈ a.attached id →
    subscriptions[sink]? = some id ∧ ∀ o ∈ a.seen, o.1 = sink → ¬o.2.Final
  nodup : ∀ id, (a.attached id).Nodup
  known : ∀ o ∈ a.seen, o.1 < subscriptions.length
  once : Once a.seen
  accounted : ∀ sink id, subscriptions[sink]? = some id →
    sink ∈ a.attached id ∨ ∃ o ∈ a.seen, o.1 = sink ∧ o.2.Final

theorem sound_create : create.Sound [] where
  going := nofun
  nodup _ := List.nodup_nil
  known := nofun
  once := List.Pairwise.nil
  accounted := nofun

theorem Sound.lt (h : a.Sound subscriptions) (hsink : sink ∈ a.attached id) :
    sink < subscriptions.length :=
  (List.getElem?_eq_some_iff.1 (h.going id sink hsink).1).1

/-- Nobody is attached twice. -/
theorem Sound.unique (h : a.Sound subscriptions) (hsink : sink ∈ a.attached id)
    (hsink' : sink ∈ a.attached id') : id = id' :=
  Option.some.inj ((h.going id sink hsink).1.symm.trans (h.going id' sink hsink').1)

theorem Sound.finish (h : a.Sound subscriptions) (next : Option Nat) :
    (a.finish id next).Sound subscriptions where
  going id' sink hsink := by
    unfold AttachmentService.finish at hsink ⊢
    by_cases heq : id' = id
    · simp [heq] at hsink
    have hsink : sink ∈ a.attached id' := by simpa [heq] using hsink
    refine ⟨(h.going id' sink hsink).1, fun o ho hos => ?_⟩
    rcases List.mem_append.1 ho with ho | ho
    · exact (h.going id' sink hsink).2 o ho hos
    · obtain ⟨sink', hsink', rfl⟩ := List.mem_map.1 ho
      have hos : sink' = sink := hos
      subst hos
      exact absurd (h.unique hsink hsink') heq
  nodup id' := by
    unfold AttachmentService.finish
    by_cases heq : id' = id
    · simp [heq]
    · simpa [heq] using h.nodup id'
  known o ho := by
    rcases List.mem_append.1 ho with ho | ho
    · exact h.known o ho
    · obtain ⟨sink', hsink', rfl⟩ := List.mem_map.1 ho
      exact h.lt hsink'
  once := by
    refine h.once.append (once_map (h.nodup id) _) fun o' ho' => Or.inr fun o ho heq => ?_
    obtain ⟨sink', hsink', rfl⟩ := List.mem_map.1 ho'
    exact (h.going id sink' hsink').2 o ho heq
  accounted sink id' hid' := by
    unfold AttachmentService.finish
    rcases h.accounted sink id' hid' with hsink | ⟨o, ho, hos, hfinal⟩
    · by_cases heq : id' = id
      · subst heq
        exact .inr ⟨(sink, .ended), List.mem_append_right _ (List.mem_map.2 ⟨sink, hsink, rfl⟩),
          rfl, trivial⟩
      · exact .inl (by simpa [heq] using hsink)
    · exact .inr ⟨o, List.mem_append_left _ ho, hos, hfinal⟩

theorem Sound.print (h : a.Sound subscriptions) (data : JsString) :
    (a.print p id data).Sound subscriptions := by
  unfold AttachmentService.print
  by_cases halive : a.alive id = some p
  · simp only [if_pos halive]
    exact {
      going := fun id' sink hsink => by
        refine ⟨(h.going id' sink hsink).1, fun o ho hos => ?_⟩
        rcases List.mem_append.1 ho with ho | ho
        · exact (h.going id' sink hsink).2 o ho hos
        · obtain ⟨sink', -, rfl⟩ := List.mem_map.1 ho
          exact fun hfinal => hfinal
      nodup := h.nodup
      known := fun o ho => by
        rcases List.mem_append.1 ho with ho | ho
        · exact h.known o ho
        · obtain ⟨sink', hsink', rfl⟩ := List.mem_map.1 ho
          exact h.lt hsink'
      once := by
        refine h.once.append (once_map (h.nodup id) _) fun o' ho' => Or.inr fun o ho heq => ?_
        obtain ⟨sink', hsink', rfl⟩ := List.mem_map.1 ho'
        exact (h.going id sink' hsink').2 o ho heq
      accounted := fun sink id' hid' => by
        rcases h.accounted sink id' hid' with hsink | ⟨o, ho, hos, hfinal⟩
        · exact .inl hsink
        · exact .inr ⟨o, List.mem_append_left _ ho, hos, hfinal⟩ }
  · simp only [if_neg halive]
    exact ⟨h.going, h.nodup, h.known, h.once, h.accounted⟩

theorem Sound.kill (h : a.Sound subscriptions) : (a.kill id).Sound subscriptions :=
  ⟨h.going, h.nodup, h.known, h.once, h.accounted⟩

theorem Sound.exit (h : a.Sound subscriptions) : (a.exit p id).Sound subscriptions := by
  unfold AttachmentService.exit
  split
  · exact h.finish none
  · exact h

/-- The attachment that comes next. -/
theorem Sound.attach (h : a.Sound subscriptions) :
    (a.attach id subscriptions.length).Sound (subscriptions ++ [id]) := by
  have hold : ∀ id' sink, sink ∈ a.attached id' → (subscriptions ++ [id])[sink]? = some id' :=
    fun id' sink hsink =>
      (List.getElem?_append_left (h.lt hsink)).trans (h.going id' sink hsink).1
  have hnew : ∀ o ∈ a.seen, o.1 ≠ subscriptions.length := fun o ho => (h.known o ho).ne
  have hknown : ∀ o ∈ a.seen, o.1 < (subscriptions ++ [id]).length := fun o ho =>
    (h.known o ho).trans (by simp)
  have hcases : ∀ sink id', (subscriptions ++ [id])[sink]? = some id' →
      subscriptions[sink]? = some id' ∨ sink = subscriptions.length ∧ id' = id := by
    intro sink id' hid'
    rcases lt_or_ge sink subscriptions.length with hlt | hge
    · exact .inl ((List.getElem?_append_left hlt).symm.trans hid')
    · rw [List.getElem?_append_right hge, List.getElem?_singleton] at hid'
      split at hid'
      · exact .inr ⟨by omega, (Option.some.inj hid').symm⟩
      · exact absurd hid' nofun
  have honce : ∀ e, Once (a.seen ++ [(subscriptions.length, e)]) := fun e =>
    h.once.append (once_singleton _) fun o' ho' => Or.inr fun o ho heq => by
      rw [List.mem_singleton.1 ho'] at heq
      exact absurd heq (hnew o ho)
  unfold AttachmentService.attach
  cases a.alive id with
  | none => exact {
      going := fun id' sink hsink => by
        refine ⟨hold id' sink hsink, fun o ho hos => ?_⟩
        rcases List.mem_append.1 ho with ho | ho
        · exact (h.going id' sink hsink).2 o ho hos
        · rw [List.mem_singleton.1 ho] at hos
          exact absurd hos (h.lt hsink).ne'
      nodup := h.nodup
      known := fun o ho => by
        rcases List.mem_append.1 ho with ho | ho
        · exact hknown o ho
        · simp [List.mem_singleton.1 ho]
      once := honce _
      accounted := fun sink id' hid' => by
        rcases hcases sink id' hid' with hid' | ⟨rfl, rfl⟩
        · rcases h.accounted sink id' hid' with hsink | ⟨o, ho, hos, hfinal⟩
          · exact .inl hsink
          · exact .inr ⟨o, List.mem_append_left _ ho, hos, hfinal⟩
        · exact .inr ⟨_, List.mem_append_right _ (List.mem_singleton_self _), rfl, trivial⟩ }
  | some p => exact {
      going := fun id' sink hsink => by
        have hsink : sink ∈ a.attached id' ∨ sink = subscriptions.length ∧ id' = id := by
          by_cases heq : id' = id
          · subst heq
            simpa using hsink
          · exact .inl (by simpa [heq] using hsink)
        rcases hsink with hsink | ⟨rfl, rfl⟩
        · refine ⟨hold id' sink hsink, fun o ho hos => ?_⟩
          rcases List.mem_append.1 ho with ho | ho
          · exact (h.going id' sink hsink).2 o ho hos
          · rw [List.mem_singleton.1 ho]
            exact fun hfinal => hfinal
        · refine ⟨by simp, fun o ho hos => ?_⟩
          rcases List.mem_append.1 ho with ho | ho
          · exact absurd hos (hnew o ho)
          · rw [List.mem_singleton.1 ho]
            exact fun hfinal => hfinal
      nodup := fun id' => by
        by_cases heq : id' = id
        · subst heq
          have hfresh : subscriptions.length ∉ a.attached id' := fun hmem => (h.lt hmem).ne rfl
          simpa [List.nodup_append] using ⟨h.nodup id', fun sink hsink heq =>
            hfresh (heq ▸ hsink)⟩
        · simpa [heq] using h.nodup id'
      known := fun o ho => by
        rcases List.mem_append.1 ho with ho | ho
        · exact hknown o ho
        · simp [List.mem_singleton.1 ho]
      once := honce _
      accounted := fun sink id' hid' => by
        rcases hcases sink id' hid' with hid' | ⟨rfl, rfl⟩
        · rcases h.accounted sink id' hid' with hsink | ⟨o, ho, hos, hfinal⟩
          · refine .inl ?_
            by_cases heq : id' = id
            · subst heq
              simpa using Or.inl hsink
            · simpa [heq] using hsink
          · exact .inr ⟨o, List.mem_append_left _ ho, hos, hfinal⟩
        · exact .inl (by simp) }

theorem Sound.detach (h : a.Sound subscriptions) (hid : subscriptions[sink]? = some id) :
    (a.detach id sink).Sound subscriptions := by
  have hattached : ∀ id' sink', sink' ∈ (a.detach id sink).attached id' →
      sink' ∈ a.attached id' ∧ sink' ≠ sink := fun id' sink' hsink' => by
    unfold AttachmentService.detach at hsink'
    by_cases heq : id' = id
    · subst heq
      simpa using hsink'
    · have hsink' : sink' ∈ a.attached id' := by simpa [heq] using hsink'
      refine ⟨hsink', fun hsink => ?_⟩
      rw [hsink] at hsink'
      exact heq (Option.some.inj ((h.going id' sink hsink').1.symm.trans hid))
  exact {
    going := fun id' sink' hsink' => by
      obtain ⟨hsink', hne⟩ := hattached id' sink' hsink'
      refine ⟨(h.going id' sink' hsink').1, fun o ho hos => ?_⟩
      rcases List.mem_append.1 ho with ho | ho
      · exact (h.going id' sink' hsink').2 o ho hos
      · rw [List.mem_singleton.1 ho] at hos
        exact absurd hos.symm hne
    nodup := fun id' => by
      unfold AttachmentService.detach
      by_cases heq : id' = id
      · subst heq
        simpa using (h.nodup id').filter _
      · simpa [heq] using h.nodup id'
    known := fun o ho => by
      rcases List.mem_append.1 ho with ho | ho
      · exact h.known o ho
      · rw [List.mem_singleton.1 ho]
        exact (List.getElem?_eq_some_iff.1 hid).1
    once := h.once.append (once_singleton _) fun o' ho' => .inl (by rw [List.mem_singleton.1 ho'])
    accounted := fun sink' id' hid' => by
      by_cases hsink : sink' = sink
      · exact .inr ⟨_, List.mem_append_right _ (List.mem_singleton_self _), hsink.symm, trivial⟩
      rcases h.accounted sink' id' hid' with hsink' | ⟨o, ho, hos, hfinal⟩
      · refine .inl ?_
        unfold AttachmentService.detach
        by_cases heq : id' = id
        · subst heq
          simpa using ⟨hsink', hsink⟩
        · simpa [heq] using hsink'
      · exact .inr ⟨o, List.mem_append_left _ ho, hos, hfinal⟩ }

end AttachmentService

end Dormouse.Pty
