import Mathlib.Data.List.Basic

/-!
# Dormouse.Lib.Transducer

**Sequential transducers**: a machine that reads one item at a time and writes a list
of items at each step. What it writes for a stream does not depend on how the stream
is cut, which is what a scanner that is fed pieces is measured against.
-/

namespace Dormouse

structure Transducer (σ α β : Type*) where
  step : σ → α → σ × List β

namespace Transducer

variable {σ τ α β : Type*} (T : Transducer σ α β)

/-- The state after the stream, and what was written on the way. -/
def run (s : σ) : List α → σ × List β
  | [] => (s, [])
  | a :: as =>
    let first := T.step s a
    let later := run first.1 as
    (later.1, first.2 ++ later.2)

def state (s : σ) (as : List α) : σ := (T.run s as).1

def output (s : σ) (as : List α) : List β := (T.run s as).2

@[simp] theorem run_nil (s : σ) : T.run s [] = (s, []) := rfl

@[simp] theorem state_nil (s : σ) : T.state s [] = s := rfl

@[simp] theorem output_nil (s : σ) : T.output s [] = [] := rfl

theorem state_cons (s : σ) (a : α) (as : List α) :
    T.state s (a :: as) = T.state (T.step s a).1 as := rfl

theorem output_cons (s : σ) (a : α) (as : List α) :
    T.output s (a :: as) = (T.step s a).2 ++ T.output (T.step s a).1 as := rfl

theorem run_cons (s : σ) (a : α) (as : List α) :
    T.run s (a :: as) =
      ((T.run (T.step s a).1 as).1, (T.step s a).2 ++ (T.run (T.step s a).1 as).2) := rfl

theorem run_eq (s : σ) (as : List α) : T.run s as = (T.state s as, T.output s as) := rfl

theorem state_append (s : σ) (as bs : List α) :
    T.state s (as ++ bs) = T.state (T.state s as) bs := by
  induction as generalizing s with
  | nil => rfl
  | cons a as ih => exact ih _

theorem output_append (s : σ) (as bs : List α) :
    T.output s (as ++ bs) = T.output s as ++ T.output (T.state s as) bs := by
  induction as generalizing s with
  | nil => rfl
  | cons a as ih =>
    rw [List.cons_append, output_cons, output_cons, ih, List.append_assoc]
    rfl

end Transducer

end Dormouse
