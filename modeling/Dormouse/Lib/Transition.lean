import Mathlib.Order.Basic

/-!
# Dormouse.Lib.Transition

**Labelled transition systems**: reachability, and the rule by which a predicate
that holds at the start and is preserved by every step holds of every reachable
state.
-/

namespace Dormouse

/-- A system over states `σ` whose steps carry a label `α`. -/
structure System (σ α : Type*) where
  init : σ → Prop
  step : σ → α → σ → Prop

namespace System

variable {σ α : Type*} {S : System σ α}

/-- States that some run from an initial state ends in. -/
inductive Reachable (S : System σ α) : σ → Prop
  | start {s : σ} : S.init s → S.Reachable s
  | next {s t : σ} {a : α} : S.Reachable s → S.step s a t → S.Reachable t

/-- `I` holds at the start and every step from a state that satisfies it keeps it. -/
structure Inductive (S : System σ α) (I : σ → Prop) : Prop where
  init : ∀ {s}, S.init s → I s
  step : ∀ {s t a}, I s → S.step s a t → I t

theorem Inductive.reachable {I : σ → Prop} (h : S.Inductive I) {s : σ} (hs : S.Reachable s) :
    I s := by
  induction hs with
  | start hinit => exact h.init hinit
  | next _ hstep ih => exact h.step ih hstep

/-- A run of a function that takes the steps of `S`. -/
theorem Reachable.foldl {f : σ → α → σ} (hf : ∀ s a, S.step s a (f s a)) (as : List α) {s : σ}
    (hs : S.Reachable s) : S.Reachable (as.foldl f s) := by
  induction as generalizing s with
  | nil => exact hs
  | cons a as ih => exact ih (hs.next (hf s a))

/-- The runs of `S` that start from `s`. -/
def startingAt (S : System σ α) (s : σ) : System σ α := { S with init := (· = s) }

end System

end Dormouse
