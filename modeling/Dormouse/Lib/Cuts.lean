import Mathlib.Tactic.Linarith
import Mathlib.Algebra.Order.Group.Defs
import Mathlib.Data.List.Pairwise

/-!
# Dormouse.Lib.Cuts

**Boxes cut again and again** across one axis or another, a gap left at each cut. However the cuts
nest, any two parts are a gap apart along some axis, and a part that does not reach a side of the
whole has a neighbor towards that side: one whose facing side is a gap away and which lies next to
it along every other axis.

The axes are an arbitrary type, so the facts hold in any dimension.
-/

namespace Dormouse

/-- An axis-parallel box. -/
structure Box (ι K : Type*) where
  lo : ι → K
  hi : ι → K

namespace Box

variable {ι K : Type*} [LinearOrder K]

/-- Two boxes share more than a boundary along an axis. -/
def Overlaps (a b : Box ι K) (i : ι) : Prop := a.lo i < b.hi i ∧ b.lo i < a.hi i

/-- `a` lies within `b`. -/
structure Within (a b : Box ι K) : Prop where
  lo : ∀ i, b.lo i ≤ a.lo i
  hi : ∀ i, a.hi i ≤ b.hi i

theorem Within.refl (a : Box ι K) : a.Within a := ⟨fun _ => le_rfl, fun _ => le_rfl⟩

theorem Within.trans {a b c : Box ι K} (hab : a.Within b) (hbc : b.Within c) : a.Within c :=
  ⟨fun i => (hbc.lo i).trans (hab.lo i), fun i => (hab.hi i).trans (hbc.hi i)⟩

variable [AddCommGroup K]

/-- Longer than the gap along every axis. -/
def Wide (gap : K) (a : Box ι K) : Prop := ∀ i, a.lo i + gap < a.hi i

/-- A gap lies between two boxes along some axis. -/
def Apart (gap : K) (a b : Box ι K) : Prop := ∃ i, a.hi i + gap ≤ b.lo i ∨ b.hi i + gap ≤ a.lo i

/-- `first` and `second` are what a cut across `axis` leaves of `whole`. -/
structure Halves (gap : K) (axis : ι) (whole first second : Box ι K) : Prop where
  first_lo : ∀ i, first.lo i = whole.lo i
  first_hi : ∀ i, i ≠ axis → first.hi i = whole.hi i
  second_lo : ∀ i, i ≠ axis → second.lo i = whole.lo i
  second_hi : ∀ i, second.hi i = whole.hi i
  between : second.lo axis = first.hi axis + gap

end Box

open Box

variable {ι K : Type*} [AddCommGroup K] [LinearOrder K]

/-- What the parts of a box that was cut again and again have in common. -/
structure Cutting (gap : K) (whole : Box ι K) (parts : List (Box ι K)) : Prop where
  ne_nil : parts ≠ []
  wide : ∀ a ∈ parts, a.Wide gap
  within : ∀ a ∈ parts, a.Within whole
  apart : parts.Pairwise (Apart gap)
  /-- Whatever is wider than the gap and lies in front of the low side finds a part there. -/
  reach_lo : ∀ axis (probe : Box ι K), probe.Wide gap →
    (∀ i, i ≠ axis → probe.Overlaps whole i) →
      ∃ a ∈ parts, a.lo axis = whole.lo axis ∧ ∀ i, i ≠ axis → probe.Overlaps a i
  reach_hi : ∀ axis (probe : Box ι K), probe.Wide gap →
    (∀ i, i ≠ axis → probe.Overlaps whole i) →
      ∃ a ∈ parts, a.hi axis = whole.hi axis ∧ ∀ i, i ≠ axis → probe.Overlaps a i
  next_hi : ∀ a ∈ parts, ∀ axis, a.hi axis = whole.hi axis ∨
    ∃ b ∈ parts, b.lo axis = a.hi axis + gap ∧ ∀ i, i ≠ axis → a.Overlaps b i
  next_lo : ∀ a ∈ parts, ∀ axis, a.lo axis = whole.lo axis ∨
    ∃ b ∈ parts, b.hi axis + gap = a.lo axis ∧ ∀ i, i ≠ axis → a.Overlaps b i

/-- An uncut box. -/
theorem Cutting.single {gap : K} {whole : Box ι K} (h : whole.Wide gap) : Cutting gap whole [whole] where
  ne_nil := List.cons_ne_nil _ _
  wide := List.forall_mem_singleton.2 h
  within := List.forall_mem_singleton.2 (.refl whole)
  apart := List.pairwise_singleton _ _
  reach_lo _ _ _ hprobe := ⟨whole, List.mem_singleton_self _, rfl, hprobe⟩
  reach_hi _ _ _ hprobe := ⟨whole, List.mem_singleton_self _, rfl, hprobe⟩
  next_hi := List.forall_mem_singleton.2 fun _ => .inl rfl
  next_lo := List.forall_mem_singleton.2 fun _ => .inl rfl

namespace Cutting

variable [IsOrderedAddMonoid K] {gap : K} {whole first second : Box ι K} {as bs : List (Box ι K)}

/-- A box whose parts are wide is wide itself. -/
theorem wide_whole (h : Cutting gap whole as) : whole.Wide gap := by
  obtain ⟨a, ha⟩ := List.exists_mem_of_ne_nil as h.ne_nil
  intro i
  calc whole.lo i + gap ≤ a.lo i + gap := add_le_add_left ((h.within a ha).lo i) gap
    _ < a.hi i := h.wide a ha i
    _ ≤ whole.hi i := (h.within a ha).hi i

/-- A part lies across from whatever spans the whole. -/
theorem overlaps_of_mem (hgap : 0 ≤ gap) (h : Cutting gap whole as) {a other : Box ι K}
    (ha : a ∈ as) {i : ι} (hlo : other.lo i = whole.lo i) (hhi : other.hi i = whole.hi i) :
    a.Overlaps other i := by
  have hwide := h.wide a ha i
  have hpos : a.lo i < a.hi i := (le_add_of_nonneg_right hgap).trans_lt hwide
  refine ⟨?_, ?_⟩
  · rw [hhi]
    exact hpos.trans_le ((h.within a ha).hi i)
  · rw [hlo]
    exact ((h.within a ha).lo i).trans_lt hpos

section Cut

variable {axis : ι}

/-- What is wider than the gap cannot lie in it: it overlaps one half or the other. -/
theorem overlaps_half (hcut : Halves gap axis whole first second) {probe : Box ι K}
    (hwide : probe.Wide gap) (h : probe.Overlaps whole axis) :
    probe.Overlaps first axis ∨ probe.Overlaps second axis := by
  rcases lt_or_ge (probe.lo axis) (first.hi axis) with hlt | hge
  · refine .inl ⟨hlt, ?_⟩
    rw [hcut.first_lo]
    exact h.2
  · refine .inr ⟨?_, ?_⟩
    · rw [hcut.second_hi]
      exact h.1
    · rw [hcut.between]
      exact (add_le_add_left hge gap).trans_lt (hwide axis)

/-- A probe across from the whole is across from one of the halves, on every axis but `i`. -/
theorem across_half (hcut : Halves gap axis whole first second) {probe : Box ι K} {i : ι}
    (hi : i ≠ axis) (hwide : probe.Wide gap) (h : ∀ j, j ≠ i → probe.Overlaps whole j) :
    (∀ j, j ≠ i → probe.Overlaps first j) ∨ ∀ j, j ≠ i → probe.Overlaps second j := by
  rcases overlaps_half hcut hwide (h axis hi.symm) with hfirst | hsecond
  · refine .inl fun j hj => ?_
    by_cases hja : j = axis
    · rw [hja]
      exact hfirst
    · obtain ⟨hlo, hhi⟩ := h j hj
      exact ⟨by rw [hcut.first_hi j hja]; exact hlo, by rw [hcut.first_lo]; exact hhi⟩
  refine .inr fun j hj => ?_
  by_cases hja : j = axis
  · rw [hja]
    exact hsecond
  · obtain ⟨hlo, hhi⟩ := h j hj
    exact ⟨by rw [hcut.second_hi]; exact hlo, by rw [hcut.second_lo j hja]; exact hhi⟩

/-- **A cut**: the parts of the halves are the parts of the whole. -/
theorem cut (hgap : 0 ≤ gap) (hcut : Halves gap axis whole first second)
    (ha : Cutting gap first as) (hb : Cutting gap second bs) : Cutting gap whole (as ++ bs) := by
  have hmid : first.hi axis ≤ whole.hi axis := by
    have hwide := hb.wide_whole axis
    have hle : first.hi axis ≤ second.lo axis := by
      rw [hcut.between]
      exact le_add_of_nonneg_right hgap
    rw [← hcut.second_hi]
    exact hle.trans ((le_add_of_nonneg_right hgap).trans hwide.le)
  have hmid' : whole.lo axis ≤ second.lo axis := by
    have hwide := ha.wide_whole axis
    rw [← hcut.first_lo, hcut.between]
    exact ((le_add_of_nonneg_right hgap).trans hwide.le).trans (le_add_of_nonneg_right hgap)
  have hfirst : first.Within whole := by
    refine ⟨fun i => (hcut.first_lo i).ge, fun i => ?_⟩
    by_cases hi : i = axis
    · rw [hi]
      exact hmid
    · exact (hcut.first_hi i hi).le
  have hsecond : second.Within whole := by
    refine ⟨fun i => ?_, fun i => (hcut.second_hi i).le⟩
    by_cases hi : i = axis
    · rw [hi]
      exact hmid'
    · exact (hcut.second_lo i hi).ge
  refine ⟨fun hnil => ha.ne_nil (List.append_eq_nil_iff.1 hnil).1,
    List.forall_mem_append.2 ⟨ha.wide, hb.wide⟩,
    List.forall_mem_append.2 ⟨fun a h => (ha.within a h).trans hfirst,
      fun b h => (hb.within b h).trans hsecond⟩, ?_, ?_, ?_, ?_, ?_⟩
  · -- A part of the first half ends a gap before one of the second begins.
    refine List.pairwise_append.2 ⟨ha.apart, hb.apart, fun a h b h' => ⟨axis, .inl ?_⟩⟩
    calc a.hi axis + gap ≤ first.hi axis + gap := add_le_add_left ((ha.within a h).hi axis) gap
      _ = second.lo axis := hcut.between.symm
      _ ≤ b.lo axis := (hb.within b h').lo axis
  · intro i probe hwide hprobe
    by_cases hi : i = axis
    · -- The low side along the axis of the cut is the first half's.
      subst hi
      obtain ⟨a, hmem, hlo, hacross⟩ := ha.reach_lo i probe hwide fun j hj => by
        rw [Overlaps, hcut.first_hi j hj, hcut.first_lo]
        exact hprobe j hj
      exact ⟨a, List.mem_append_left _ hmem, hlo.trans (hcut.first_lo i), hacross⟩
    · rcases across_half hcut hi hwide hprobe with h | h
      · obtain ⟨a, hmem, hlo, hacross⟩ := ha.reach_lo i probe hwide h
        exact ⟨a, List.mem_append_left _ hmem, hlo.trans (hcut.first_lo i), hacross⟩
      · obtain ⟨b, hmem, hlo, hacross⟩ := hb.reach_lo i probe hwide h
        exact ⟨b, List.mem_append_right _ hmem, hlo.trans (hcut.second_lo i hi), hacross⟩
  · intro i probe hwide hprobe
    by_cases hi : i = axis
    · subst hi
      obtain ⟨b, hmem, hhi, hacross⟩ := hb.reach_hi i probe hwide fun j hj => by
        rw [Overlaps, hcut.second_hi, hcut.second_lo j hj]
        exact hprobe j hj
      exact ⟨b, List.mem_append_right _ hmem, hhi.trans (hcut.second_hi i), hacross⟩
    · rcases across_half hcut hi hwide hprobe with h | h
      · obtain ⟨a, hmem, hhi, hacross⟩ := ha.reach_hi i probe hwide h
        exact ⟨a, List.mem_append_left _ hmem, hhi.trans (hcut.first_hi i hi), hacross⟩
      · obtain ⟨b, hmem, hhi, hacross⟩ := hb.reach_hi i probe hwide h
        exact ⟨b, List.mem_append_right _ hmem, hhi.trans (hcut.second_hi i), hacross⟩
  · refine List.forall_mem_append.2 ⟨fun a hmem i => ?_, fun b hmem i => ?_⟩
    · rcases ha.next_hi a hmem i with hside | ⟨c, hc, hnext, hacross⟩
      · by_cases hi : i = axis
        · -- The part ends at the cut: its neighbor is on the second half's low side.
          subst hi
          obtain ⟨b, hb', hlo, hacross⟩ := hb.reach_lo i a (ha.wide a hmem) fun j hj =>
            ha.overlaps_of_mem hgap hmem ((hcut.second_lo j hj).trans (hcut.first_lo j).symm)
              ((hcut.second_hi j).trans (hcut.first_hi j hj).symm)
          exact .inr ⟨b, List.mem_append_right _ hb', by rw [hlo, hcut.between, hside], hacross⟩
        · exact .inl (hside.trans (hcut.first_hi i hi))
      · exact .inr ⟨c, List.mem_append_left _ hc, hnext, hacross⟩
    · rcases hb.next_hi b hmem i with hside | ⟨c, hc, hnext, hacross⟩
      · exact .inl (hside.trans (hcut.second_hi i))
      · exact .inr ⟨c, List.mem_append_right _ hc, hnext, hacross⟩
  · refine List.forall_mem_append.2 ⟨fun a hmem i => ?_, fun b hmem i => ?_⟩
    · rcases ha.next_lo a hmem i with hside | ⟨c, hc, hnext, hacross⟩
      · exact .inl (hside.trans (hcut.first_lo i))
      · exact .inr ⟨c, List.mem_append_left _ hc, hnext, hacross⟩
    · rcases hb.next_lo b hmem i with hside | ⟨c, hc, hnext, hacross⟩
      · by_cases hi : i = axis
        · subst hi
          obtain ⟨a, ha', hhi, hacross⟩ := ha.reach_hi i b (hb.wide b hmem) fun j hj =>
            hb.overlaps_of_mem hgap hmem ((hcut.first_lo j).trans (hcut.second_lo j hj).symm)
              ((hcut.first_hi j hj).trans (hcut.second_hi j).symm)
          exact .inr ⟨a, List.mem_append_left _ ha', by rw [hhi, hside, hcut.between], hacross⟩
        · exact .inl (hside.trans (hcut.second_lo i hi))
      · exact .inr ⟨c, List.mem_append_right _ hc, hnext, hacross⟩

end Cut

/-- Two parts that overlap along every axis but one are a gap apart along that one. -/
theorem beyond (hgap : 0 ≤ gap) (h : Cutting gap whole as) {a b : Box ι K} (ha : a ∈ as)
    (hb : b ∈ as) (hne : a ≠ b) {axis : ι} (hacross : ∀ i, i ≠ axis → a.Overlaps b i) :
    a.hi axis + gap ≤ b.lo axis ∨ b.hi axis + gap ≤ a.lo axis := by
  have hsymm : Std.Symm (@Apart ι K _ _ gap) := ⟨fun x y ⟨i, hi⟩ => ⟨i, hi.symm⟩⟩
  obtain ⟨i, hi⟩ := h.apart.forall ha hb hne
  by_cases heq : i = axis
  · rw [← heq]
    exact hi
  · obtain ⟨hlo, hhi⟩ := hacross i heq
    rcases hi with hi | hi
    · exact absurd ((le_add_of_nonneg_right hgap).trans hi) (not_le.2 hhi)
    · exact absurd ((le_add_of_nonneg_right hgap).trans hi) (not_le.2 hlo)

end Cutting

end Dormouse
