import Mathlib.Data.List.Nodup
import Mathlib.Logic.Function.Basic

/-!
# Dormouse.Lib.Tickets

**Tickets**: numbers issued in order, each held at one place until it is closed, once.

`Kept` is the invariant; a ticket that is just issued is pending until it is put
somewhere or closed.
-/

namespace Dormouse

/-- The numbers issued, those each place holds, and the closed ones in order. -/
structure Tickets (Place : Type) where
  issued : Nat
  held : Place → List Nat
  closed : List Nat

namespace Tickets

variable {Place : Type} [DecidableEq Place]

/-- Every issued ticket but a pending one is held at one place or closed once. -/
structure Kept (pending : Option Nat) (t : Tickets Place) : Prop where
  held : ∀ place, (t.held place).Nodup
  apart : ∀ place place' n, n ∈ t.held place → n ∈ t.held place' → place = place'
  closed : t.closed.Nodup
  disjoint : ∀ place, ∀ n ∈ t.held place, n ∉ t.closed
  issued : ∀ n, n < t.issued ↔ pending = some n ∨ n ∈ t.closed ∨ ∃ place, n ∈ t.held place
  pending : ∀ n, pending = some n → n ∉ t.closed ∧ ∀ place, n ∉ t.held place

def issue (t : Tickets Place) : Tickets Place := { t with issued := t.issued + 1 }

/-- Put a ticket at a place. -/
def hold (t : Tickets Place) (place : Place) (n : Nat) : Tickets Place :=
  { t with held := Function.update t.held place (t.held place ++ [n]) }

def close (t : Tickets Place) (place : Place) (n : Nat) : Tickets Place :=
  { t with
    held := Function.update t.held place ((t.held place).filter (· ≠ n))
    closed := t.closed ++ [n] }

/-- Close a ticket that no place holds. -/
def refuse (t : Tickets Place) (n : Nat) : Tickets Place := { t with closed := t.closed ++ [n] }

variable {t : Tickets Place} {pending : Option Nat} {place : Place} {n : Nat}

omit [DecidableEq Place] in
theorem Kept.issue (kept : t.Kept none) : t.issue.Kept (some t.issued) := by
  have hnew : t.issued ∉ t.closed ∧ ∀ place, t.issued ∉ t.held place := by
    constructor
    · intro hmem
      exact absurd ((kept.issued _).2 (.inr (.inl hmem))) (Nat.lt_irrefl _)
    · intro place hmem
      exact absurd ((kept.issued _).2 (.inr (.inr ⟨place, hmem⟩))) (Nat.lt_irrefl _)
  refine ⟨kept.held, kept.apart, kept.closed, kept.disjoint, ?_, ?_⟩
  · intro n
    show n < t.issued + 1 ↔ _
    rw [Nat.lt_succ_iff_lt_or_eq, kept.issued]
    constructor
    · rintro ((h | h) | rfl)
      · cases h
      · exact .inr h
      · exact .inl rfl
    · rintro (h | h)
      · exact .inr (Option.some.inj h).symm
      · exact .inl (.inr h)
  · intro n hn
    cases hn
    exact hnew

theorem mem_held_hold {place' : Place} {n' : Nat} :
    n' ∈ (t.hold place n).held place' ↔ n' ∈ t.held place' ∨ place' = place ∧ n' = n := by
  show n' ∈ Function.update t.held place _ place' ↔ _
  by_cases hplace : place' = place
  · subst hplace
    rw [Function.update_self, List.mem_append, List.mem_singleton]
    simp
  · rw [Function.update_of_ne hplace]
    simp [hplace]

theorem Kept.hold (kept : t.Kept (some n)) : (t.hold place n).Kept none := by
  obtain ⟨hclosed, hheld⟩ := kept.pending n rfl
  refine ⟨?_, ?_, kept.closed, ?_, ?_, ?_⟩
  · intro place'
    by_cases hplace : place' = place
    · subst hplace
      show (Function.update t.held place' _ place').Nodup
      rw [Function.update_self, List.nodup_append]
      refine ⟨kept.held _, List.nodup_singleton _, ?_⟩
      intro a ha b hb hab
      rw [List.mem_singleton] at hb
      exact hheld place' (hb ▸ hab ▸ ha)
    · show (Function.update t.held place _ place').Nodup
      rw [Function.update_of_ne hplace]
      exact kept.held _
  · intro p p' n' hn hn'
    rcases mem_held_hold.1 hn with hp | ⟨rfl, rfl⟩
    · rcases mem_held_hold.1 hn' with hp' | ⟨rfl, rfl⟩
      · exact kept.apart p p' n' hp hp'
      · exact absurd hp (hheld p)
    · rcases mem_held_hold.1 hn' with hp' | ⟨rfl, -⟩
      · exact absurd hp' (hheld p')
      · rfl
  · intro p n' hn
    rcases mem_held_hold.1 hn with hp | ⟨rfl, rfl⟩
    · exact kept.disjoint p n' hp
    · exact hclosed
  · intro n'
    show n' < t.issued ↔ _
    rw [kept.issued]
    constructor
    · rintro (h | h | ⟨p, h⟩)
      · cases h
        exact .inr (.inr ⟨place, mem_held_hold.2 (.inr ⟨rfl, rfl⟩)⟩)
      · exact .inr (.inl h)
      · exact .inr (.inr ⟨p, mem_held_hold.2 (.inl h)⟩)
    · rintro (h | h | ⟨p, h⟩)
      · cases h
      · exact .inr (.inl h)
      · rcases mem_held_hold.1 h with h | ⟨-, rfl⟩
        · exact .inr (.inr ⟨p, h⟩)
        · exact .inl rfl
  · intro n' h
    cases h

theorem mem_held_close {place' : Place} {n' : Nat} :
    n' ∈ (t.close place n).held place' ↔ n' ∈ t.held place' ∧ ¬ (place' = place ∧ n' = n) := by
  show n' ∈ Function.update t.held place _ place' ↔ _
  by_cases hplace : place' = place
  · subst hplace
    rw [Function.update_self, List.mem_filter]
    simp
  · rw [Function.update_of_ne hplace]
    simp [hplace]

theorem nodup_concat {l : List Nat} (hl : l.Nodup) (hn : n ∉ l) : (l ++ [n]).Nodup :=
  List.nodup_append.2 ⟨hl, List.nodup_singleton _, fun a ha b hb hab => by
    rw [List.mem_singleton] at hb
    exact hn (hb ▸ hab ▸ ha)⟩

theorem Kept.close (kept : t.Kept pending) (hmem : n ∈ t.held place) :
    (t.close place n).Kept pending := by
  refine ⟨?_, ?_, nodup_concat kept.closed (kept.disjoint place n hmem), ?_, ?_, ?_⟩
  · intro place'
    by_cases hplace : place' = place
    · subst hplace
      show (Function.update t.held place' _ place').Nodup
      rw [Function.update_self]
      exact (kept.held _).filter _
    · show (Function.update t.held place _ place').Nodup
      rw [Function.update_of_ne hplace]
      exact kept.held _
  · intro p p' n' hn hn'
    exact kept.apart p p' n' (mem_held_close.1 hn).1 (mem_held_close.1 hn').1
  · intro p n' hn hclosed
    obtain ⟨hp, hother⟩ := mem_held_close.1 hn
    rcases List.mem_append.1 hclosed with hold | hnew
    · exact kept.disjoint p n' hp hold
    · rw [List.mem_singleton] at hnew
      subst hnew
      exact hother ⟨kept.apart p place n' hp hmem, rfl⟩
  · intro n'
    show n' < t.issued ↔ _
    rw [kept.issued]
    constructor
    · rintro (h | h | ⟨p, h⟩)
      · exact .inl h
      · exact .inr (.inl (List.mem_append_left _ h))
      · by_cases hother : p = place ∧ n' = n
        · exact .inr (.inl (List.mem_append_right _ (List.mem_singleton.2 hother.2)))
        · exact .inr (.inr ⟨p, mem_held_close.2 ⟨h, hother⟩⟩)
    · rintro (h | h | ⟨p, h⟩)
      · exact .inl h
      · rcases List.mem_append.1 h with h | h
        · exact .inr (.inl h)
        · rw [List.mem_singleton] at h
          exact .inr (.inr ⟨place, h ▸ hmem⟩)
      · exact .inr (.inr ⟨p, (mem_held_close.1 h).1⟩)
  · intro n' hn'
    obtain ⟨hclosed, hheld⟩ := kept.pending n' hn'
    refine ⟨?_, fun p h => hheld p (mem_held_close.1 h).1⟩
    intro h
    rcases List.mem_append.1 h with h | h
    · exact hclosed h
    · rw [List.mem_singleton] at h
      exact hheld place (h ▸ hmem)

omit [DecidableEq Place] in
theorem Kept.refuse (kept : t.Kept (some n)) : (t.refuse n).Kept none := by
  obtain ⟨hclosed, hheld⟩ := kept.pending n rfl
  refine ⟨kept.held, kept.apart, nodup_concat kept.closed hclosed, ?_, ?_, ?_⟩
  · intro p n' hn hmem
    rcases List.mem_append.1 hmem with h | h
    · exact kept.disjoint p n' hn h
    · rw [List.mem_singleton] at h
      exact hheld p (h ▸ hn)
  · intro n'
    show n' < t.issued ↔ none = some n' ∨ n' ∈ t.closed ++ [n] ∨ ∃ place, n' ∈ t.held place
    rw [kept.issued, List.mem_append, List.mem_singleton]
    constructor
    · rintro (h | h | h)
      · exact .inr (.inl (.inr (Option.some.inj h).symm))
      · exact .inr (.inl (.inl h))
      · exact .inr (.inr h)
    · rintro (h | (h | h) | h)
      · cases h
      · exact .inr (.inl h)
      · exact .inl (congrArg some h.symm)
      · exact .inr (.inr h)
  · intro n' h
    cases h

end Tickets

end Dormouse
