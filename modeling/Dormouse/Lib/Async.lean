import Mathlib.Logic.Basic

/-!
# Dormouse.Lib.Async

**Suspendable computations**: what an `async` function does to the object it runs on,
stretch by stretch, with its awaits in place. Between two stretches anyone else may
write to the object.

`advance` runs one stretch, `finish` runs to the end with nobody in between, and
`Holds` is the rule to reason by: a predicate the computation keeps at each await and
that the others keep while it waits.
-/

namespace Dormouse

/-- A computation on an object `σ` that answers an `α` or throws an `ε`. -/
inductive Async (σ ε α : Type)
  | done (result : Except ε α)
  /-- Read and write the object, then go on. -/
  | touch (write : σ → σ) (rest : σ → Async σ ε α)
  /-- Suspend; the rest runs when it is resumed. -/
  | await (rest : Async σ ε α)

namespace Async

variable {σ ε α β : Type}

protected def bind : Async σ ε α → (α → Async σ ε β) → Async σ ε β
  | done (.ok a), f => f a
  | done (.error e), _ => done (.error e)
  | touch write rest, f => touch write fun s => (rest s).bind f
  | await rest, f => await (rest.bind f)

instance : Monad (Async σ ε) where
  pure a := done (.ok a)
  bind := Async.bind

/-! ### Primitives -/

/-- The object as it is now. -/
def read : Async σ ε σ := touch id fun s => done (.ok s)

def write (f : σ → σ) : Async σ ε Unit := touch f fun _ => done (.ok ())

def throw (e : ε) : Async σ ε α := done (.error e)

/-- A result that may be an exception. -/
def ofExcept (r : Except ε α) : Async σ ε α := done r

/-- `await`, of a promise that settles with `r`. -/
def settle (r : Except ε α) : Async σ ε α := await (done r)

/-! ### Running -/

/-- Run one stretch: up to the next await, or to the end. -/
def advance : Async σ ε α → σ → Async σ ε α × σ
  | done r, s => (done r, s)
  | touch write rest, s => (rest s).advance (write s)
  | await rest, s => (rest, s)

/-- Run to the end, with nobody else in between. -/
def finish : Async σ ε α → σ → Except ε α × σ
  | done r, s => (r, s)
  | touch write rest, s => (rest s).finish (write s)
  | await rest, s => rest.finish s

@[simp] theorem finish_pure (a : α) (s : σ) :
    (pure a : Async σ ε α).finish s = (.ok a, s) := rfl

@[simp] theorem finish_read (s : σ) : (read : Async σ ε σ).finish s = (.ok s, s) := rfl

@[simp] theorem finish_write (f : σ → σ) (s : σ) :
    (write f : Async σ ε Unit).finish s = (.ok (), f s) := rfl

@[simp] theorem finish_throw (e : ε) (s : σ) :
    (throw e : Async σ ε α).finish s = (.error e, s) := rfl

@[simp] theorem finish_ofExcept (r : Except ε α) (s : σ) :
    (ofExcept r : Async σ ε α).finish s = (r, s) := rfl

@[simp] theorem finish_settle (r : Except ε α) (s : σ) :
    (settle r : Async σ ε α).finish s = (r, s) := rfl

/-- Uninterrupted, a sequence is one computation after the other. -/
@[simp] theorem finish_bind (x : Async σ ε α) (f : α → Async σ ε β) (s : σ) :
    (x >>= f).finish s =
      match x.finish s with
      | (.ok a, s') => (f a).finish s'
      | (.error e, s') => (.error e, s') := by
  show (x.bind f).finish s = _
  induction x generalizing s with
  | done r => cases r <;> rfl
  | touch write rest ih => exact ih s (write s)
  | await rest ih => exact ih s

/-! ### Reasoning -/

section Reasoning

variable {φ : Type} (frame : σ → φ)

/-- From `s`, with everybody else keeping `I`, the computation keeps `I` at its awaits and
ends in `Q`; of what `frame` shows it changes nothing. -/
def Holds (I : σ → Prop) (Q : Except ε α → σ → Prop) : Async σ ε α → σ → Prop
  | done r, s => Q r s
  | touch write rest, s => frame (write s) = frame s ∧ (rest s).Holds I Q (write s)
  | await rest, s => I s ∧ ∀ s', I s' → rest.Holds I Q s'

/-- `I` holds throughout, and at the end. -/
def Keeps (I : σ → Prop) (x : Async σ ε α) : Prop :=
  ∀ s, I s → x.Holds frame I (fun _ => I) s

variable {frame} {I : σ → Prop} {Q : Except ε α → σ → Prop} {R : Except ε β → σ → Prop}

/-- The rule of sequence; an exception is passed on. -/
theorem Holds.bind {x : Async σ ε α} {f : α → Async σ ε β} {s : σ} (hx : x.Holds frame I Q s)
    (hok : ∀ a s, Q (.ok a) s → (f a).Holds frame I R s)
    (herror : ∀ e s, Q (.error e) s → R (.error e) s) : (x >>= f).Holds frame I R s := by
  show (x.bind f).Holds frame I R s
  induction x generalizing s with
  | done r =>
    cases r with
    | ok a => exact hok a s hx
    | error e => exact herror e s hx
  | touch write rest ih => exact ⟨hx.1, ih s hx.2⟩
  | await rest ih => exact ⟨hx.1, fun s' hs' => ih (hx.2 s' hs')⟩

/-- After one stretch the computation is through, in `Q`, or suspended, in `I`. -/
theorem Holds.advance {x : Async σ ε α} {s : σ} (hx : x.Holds frame I Q s) :
    (∃ r, (x.advance s).1 = .done r ∧ Q r (x.advance s).2) ∨
      I (x.advance s).2 ∧ ∀ s', I s' → (x.advance s).1.Holds frame I Q s' := by
  induction x generalizing s with
  | done r => exact .inl ⟨r, rfl, hx⟩
  | touch write rest ih => exact ih s hx.2
  | await rest ih => exact .inr hx

theorem Holds.frame_advance {x : Async σ ε α} {s : σ} (hx : x.Holds frame I Q s) :
    frame (x.advance s).2 = frame s := by
  induction x generalizing s with
  | done r => rfl
  | touch write rest ih => exact (ih s hx.2).trans hx.1
  | await rest ih => rfl

/-- Run to the end with nobody in between, the computation ends in `Q`. -/
theorem Holds.finish {x : Async σ ε α} {s : σ} (hx : x.Holds frame I Q s) :
    Q (x.finish s).1 (x.finish s).2 := by
  induction x generalizing s with
  | done r => exact hx
  | touch write rest ih => exact ih s hx.2
  | await rest ih => exact ih (hx.2 s hx.1)

theorem Keeps.bind {x : Async σ ε α} {f : α → Async σ ε β} (hx : x.Keeps frame I)
    (hf : ∀ a, (f a).Keeps frame I) : (x >>= f).Keeps frame I := fun s hs =>
  (hx s hs).bind (fun a s hs => hf a s hs) (fun _ _ hs => hs)

theorem Keeps.pure (a : α) : (Pure.pure a : Async σ ε α).Keeps frame I := fun _ hs => hs

theorem Keeps.read : (read : Async σ ε σ).Keeps frame I := fun _ hs => ⟨rfl, hs⟩

theorem Keeps.write {f : σ → σ} (hframe : ∀ s, frame (f s) = frame s) (hf : ∀ s, I s → I (f s)) :
    (write f : Async σ ε Unit).Keeps frame I := fun s hs => ⟨hframe s, hf s hs⟩

theorem Keeps.ofExcept (r : Except ε α) : (ofExcept r : Async σ ε α).Keeps frame I :=
  fun _ hs => hs

theorem Keeps.settle (r : Except ε α) : (settle r : Async σ ε α).Keeps frame I := fun _ hs =>
  ⟨hs, fun _ hs' => hs'⟩

/-- What is kept for a while, then ends in `R`. -/
theorem Keeps.andThen {x : Async σ ε α} {f : α → Async σ ε β} (hx : x.Keeps frame I)
    (hok : ∀ a s, I s → (f a).Holds frame I R s) (herror : ∀ e s, I s → R (.error e) s) {s : σ}
    (hs : I s) : (x >>= f).Holds frame I R s :=
  (hx s hs).bind hok herror

end Reasoning

end Async

end Dormouse
