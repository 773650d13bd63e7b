import Mathlib.Order.CompletePartialOrder
import Mathlib.Data.Set.Lattice
import Mathlib.Logic.Pairwise

/-!
# Dormouse.Lib.Holdings

**Things that holders hold**, each thing by at most one of them, and a register of all that is held.
What is free may be taken; a holder may give back what it holds, or hand all of it over.
-/

namespace Dormouse

variable {η ι : Type*} {held : η → Set ι} {all : Set ι} {h h' : η} {i : ι}

/-- The register lists what is held, and nothing is held twice. -/
structure Divides (held : η → Set ι) (all : Set ι) : Prop where
  covers : all = ⋃ h, held h
  disjoint : Pairwise fun h h' => Disjoint (held h) (held h')

namespace Divides

theorem mem_all (d : Divides held all) : i ∈ all ↔ ∃ h, i ∈ held h := by
  rw [d.covers, Set.mem_iUnion]

theorem eq_of_mem (d : Divides held all) (hi : i ∈ held h) (hi' : i ∈ held h') : h = h' := by
  by_contra hne
  exact Set.disjoint_left.1 (d.disjoint hne) hi hi'

theorem of_mem (hall : ∀ i, i ∈ all ↔ ∃ h, i ∈ held h)
    (hunique : ∀ i h h', i ∈ held h → i ∈ held h' → h = h') : Divides held all where
  covers := Set.ext fun i => (hall i).trans Set.mem_iUnion.symm
  disjoint h h' hne := Set.disjoint_left.2 fun i hi hi' => hne (hunique i h h' hi hi')

theorem empty : Divides (fun _ : η => (∅ : Set ι)) ∅ :=
  of_mem (fun _ => by simp) fun _ _ _ hi => absurd hi (Set.notMem_empty _)

/-- Nobody but `h` holds `i`. -/
theorem only (d : Divides held all) (hfree : i ∈ held h ∨ i ∉ all) (hi : i ∈ held h') : h' = h :=
  hfree.elim (fun hmem => d.eq_of_mem hi hmem) fun hnot => absurd (d.mem_all.2 ⟨h', hi⟩) hnot

variable [DecidableEq η]

theorem mem_update {s : Set ι} : i ∈ Function.update held h s h' ↔
    if h' = h then i ∈ s else i ∈ held h' := by
  by_cases heq : h' = h
  · subst heq
    rw [Function.update_self, if_pos rfl]
  · rw [Function.update_of_ne heq, if_neg heq]

/-- A holder takes what is free, or its own. -/
theorem take (d : Divides held all) (hfree : i ∈ held h ∨ i ∉ all) :
    Divides (Function.update held h (insert i (held h))) (insert i all) := by
  refine of_mem (fun j => ?_) fun j k k' hk hk' => ?_
  · rw [Set.mem_insert_iff, d.mem_all]
    constructor
    · rintro (rfl | ⟨k, hk⟩)
      · exact ⟨h, mem_update.2 (by simp)⟩
      · refine ⟨k, mem_update.2 ?_⟩
        split
        · rename_i heq
          exact .inr (heq ▸ hk)
        · exact hk
    · rintro ⟨k, hk⟩
      rw [mem_update] at hk
      split at hk
      · exact hk.imp_right fun hk => ⟨h, hk⟩
      · exact .inr ⟨k, hk⟩
  · rw [mem_update] at hk hk'
    split at hk <;> split at hk'
    · rename_i heq heq'
      exact heq.trans heq'.symm
    · rename_i heq hne
      rcases hk with rfl | hk
      · exact absurd (d.only hfree hk') hne
      · exact heq.trans (d.eq_of_mem hk hk')
    · rename_i hne heq
      rcases hk' with rfl | hk'
      · exact absurd (d.only hfree hk) hne
      · exact (d.eq_of_mem hk hk').trans heq.symm
    · exact d.eq_of_mem hk hk'

/-- A holder gives back some of what it holds; what nobody holds may be taken off the register. -/
theorem drop (d : Divides held all) {s : Set ι} (hfree : ∀ i ∈ s, i ∈ held h ∨ i ∉ all) :
    Divides (Function.update held h (held h \ s)) (all \ s) := by
  refine of_mem (fun j => ?_) fun j k k' hk hk' => ?_
  · rw [Set.mem_sdiff, d.mem_all]
    constructor
    · rintro ⟨⟨k, hk⟩, hj⟩
      refine ⟨k, mem_update.2 ?_⟩
      split
      · rename_i heq
        exact ⟨heq ▸ hk, hj⟩
      · exact hk
    · rintro ⟨k, hk⟩
      rw [mem_update] at hk
      split at hk
      · exact ⟨⟨h, hk.1⟩, hk.2⟩
      · rename_i hne
        exact ⟨⟨k, hk⟩, fun hj => hne (d.only (hfree j hj) hk)⟩
  · have hold : ∀ k, j ∈ Function.update held h (held h \ s) k → j ∈ held k := by
      intro k hk
      rw [mem_update] at hk
      split at hk
      · rename_i heq
        exact heq ▸ hk.1
      · exact hk
    exact d.eq_of_mem (hold k hk) (hold k' hk')

/-- All that `h` holds goes to `h'`, which holds nothing yet. -/
theorem move (d : Divides held all) (hne : h ≠ h') (hempty : held h' = ∅) :
    Divides (Function.update (Function.update held h ∅) h' (held h)) all := by
  -- Each new holder of a thing stands for an old one.
  have hold : ∀ {j k}, j ∈ Function.update (Function.update held h ∅) h' (held h) k →
      ∃ k', j ∈ held k' ∧ k = if k' = h then h' else k' := by
    intro j k hk
    rw [mem_update] at hk
    split at hk
    · rename_i heq
      exact ⟨h, hk, by rw [if_pos rfl]; exact heq⟩
    · rw [mem_update] at hk
      split at hk
      · exact absurd hk (Set.notMem_empty _)
      · rename_i hk'
        exact ⟨k, hk, by rw [if_neg hk']⟩
  refine of_mem (fun j => d.mem_all.trans ⟨?_, ?_⟩) fun j k k' hk hk' => ?_
  · rintro ⟨k, hk⟩
    by_cases heq : k = h
    · exact ⟨h', mem_update.2 (by rw [if_pos rfl]; exact heq ▸ hk)⟩
    · have hother : k ≠ h' := by
        rintro rfl
        rw [hempty] at hk
        exact hk
      exact ⟨k, mem_update.2 (by rw [if_neg hother]; exact mem_update.2 (by rw [if_neg heq]; exact hk))⟩
  · rintro ⟨k, hk⟩
    obtain ⟨k', hk', -⟩ := hold hk
    exact ⟨k', hk'⟩
  · obtain ⟨l, hl, rfl⟩ := hold hk
    obtain ⟨l', hl', rfl⟩ := hold hk'
    rw [d.eq_of_mem hl hl']

end Divides

end Dormouse
