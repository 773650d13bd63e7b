import Mathlib.Order.CompletePartialOrder
import Mathlib.Data.Set.Lattice
import Mathlib.Algebra.BigOperators.Group.List.Basic

/-!
# Dormouse.Lib.Tiling

**Tilings.** A list of pieces tiles a whole when the pieces are pairwise disjoint,
cover exactly the whole and their sizes sum to its size. A piece that is itself
tiled can be replaced by its tiles, which is how a hierarchical subdivision is
shown to be a tiling.

A piece is any value with a region (a set of points) and a size in an additive
monoid.
-/

namespace Dormouse

variable {α P M : Type*} [AddCommMonoid M]

structure Tiles (region : α → Set P) (size : α → M) (whole : α) (parts : List α) : Prop where
  disjoint : parts.Pairwise fun a b => Disjoint (region a) (region b)
  cover : ∀ p, p ∈ region whole ↔ ∃ a ∈ parts, p ∈ region a
  size_sum : (parts.map size).sum = size whole

namespace Tiles

variable {region : α → Set P} {size : α → M} {whole a : α} {parts rest tiles : List α}

theorem single (region : α → Set P) (size : α → M) (whole : α) :
    Tiles region size whole [whole] where
  disjoint := List.pairwise_singleton _ _
  cover := by simp
  size_sum := by simp

theorem perm (h : Tiles region size whole parts) (hp : parts.Perm rest) :
    Tiles region size whole rest where
  disjoint := (hp.pairwise_iff fun hab => hab.symm).1 h.disjoint
  cover p := by
    rw [h.cover]
    simp only [hp.mem_iff]
  size_sum := by rw [← h.size_sum, (hp.map size).sum_eq]

/-- A tile is part of the whole. -/
theorem subset (h : Tiles region size whole parts) (ha : a ∈ parts) :
    region a ⊆ region whole :=
  fun p hp => (h.cover p).2 ⟨a, ha, hp⟩

/-- Replace the first piece by its own tiles. -/
theorem refine_head (h : Tiles region size whole (a :: rest))
    (ha : Tiles region size a tiles) : Tiles region size whole (tiles ++ rest) where
  disjoint := by
    obtain ⟨hhead, htail⟩ := List.pairwise_cons.1 h.disjoint
    refine List.pairwise_append.2 ⟨ha.disjoint, htail, fun t ht r hr => ?_⟩
    exact (hhead r hr).mono_left (ha.subset ht)
  cover p := by
    rw [h.cover]
    simp only [List.mem_cons, List.mem_append, or_and_right, exists_or, exists_eq_left, ha.cover]
  size_sum := by
    rw [List.map_append, List.sum_append, ha.size_sum, ← h.size_sum, List.map_cons, List.sum_cons]

/-- Cut the whole in two. -/
theorem cut {b : α} (hdisj : Disjoint (region a) (region b))
    (hcover : region whole = region a ∪ region b) (hsize : size a + size b = size whole) :
    Tiles region size whole [a, b] where
  disjoint := by simpa using hdisj
  cover p := by
    rw [hcover]
    simp
  size_sum := by simpa using hsize

end Tiles

end Dormouse
