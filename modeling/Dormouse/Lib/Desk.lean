import Mathlib.Data.List.Induction
import Mathlib.Logic.Function.Basic

/-!
# Dormouse.Lib.Desk

An **information desk**: askers ask under an id, walk away when they like, and an answer that comes
in goes to the one who asked, if he is still there. It is a fold over the events, so that a program
that answers requests can be compared with it event by event.
-/

namespace Dormouse

/-- What happens at a desk. -/
inductive DeskEvent (κ α ρ : Type*)
  | asked (id : κ) (asker : α)
  | left (asker : α)
  | answered (id : κ) (answer : ρ)

/-- Who asked what, who has left, and what was handed to whom. -/
structure Desk (κ α ρ : Type*) where
  askers : κ → Option α
  gone : List α
  delivered : List (α × κ × ρ)

namespace Desk

variable {κ α ρ : Type*} [DecidableEq α]

def empty : Desk κ α ρ := ⟨fun _ => none, [], []⟩

/-- Who an answer is for: the asker of its id, unless he has left. -/
def due (d : Desk κ α ρ) (id : κ) : Option α := (d.askers id).filter fun asker => asker ∉ d.gone

theorem due_eq_some {d : Desk κ α ρ} {id : κ} {asker : α} :
    d.due id = some asker ↔ d.askers id = some asker ∧ asker ∉ d.gone := by
  simp [due, Option.filter_eq_some_iff]

variable [DecidableEq κ]

def step (d : Desk κ α ρ) : DeskEvent κ α ρ → Desk κ α ρ
  | .asked id asker => { d with askers := Function.update d.askers id (some asker) }
  | .left asker => { d with gone := d.gone ++ [asker] }
  | .answered id answer =>
    { d with delivered := d.delivered ++ (d.due id).toList.map fun asker => (asker, id, answer) }

def run (events : List (DeskEvent κ α ρ)) : Desk κ α ρ := events.foldl step empty

theorem run_concat (events : List (DeskEvent κ α ρ)) (e : DeskEvent κ α ρ) :
    run (events ++ [e]) = (run events).step e := by
  simp [run]

/-- The ids that have been answered. -/
def answered (events : List (DeskEvent κ α ρ)) : List κ :=
  events.filterMap fun
    | .answered id _ => some id
    | _ => none

/-- Nothing is handed out but answers, each at most as often as it came in. -/
theorem delivered_sublist (events : List (DeskEvent κ α ρ)) :
    ((run events).delivered.map fun d => d.2.1).Sublist (answered events) := by
  induction events using List.reverseRecOn with
  | nil => exact List.Sublist.refl _
  | append_singleton events e ih =>
    rw [run_concat, answered, List.filterMap_append]
    cases e with
    | asked id asker => exact ih.trans (List.sublist_append_left _ _)
    | left asker => exact ih.trans (List.sublist_append_left _ _)
    | answered id answer =>
      rw [step, List.map_append]
      refine ih.append ?_
      cases (run events).due id with
      | none => exact List.nil_sublist _
      | some asker => exact List.Sublist.refl _

end Desk

end Dormouse
