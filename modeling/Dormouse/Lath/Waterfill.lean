import Mathlib.Order.Bounds.Basic
import Dormouse.Lath.Spans

/-!
# Dormouse.Lath.Waterfill

**The level of a waterfill.** The loop that clamps, redistributes and repeats ends at one level:
every child takes the level's share of its weight, or its minimum where that share is more than
the comparison's slack below it. Of all levels that fill the span this way it is the greatest, so
the spans are a function of each child's weight and minimum alone, whatever the order of the
children.
-/

namespace Dormouse.Lath

/-- Span of a slot at a level: the level's share of its weight, or its minimum where the share is
below it by more than the slack. -/
def spanAt (level : ℚ) (s : Slot) : ℚ :=
  if level * s.weight < s.min - clampEps then s.min else level * s.weight

/-- The spans at `level` take up the available span. -/
def Fills (slots : List Slot) (available level : ℚ) : Prop :=
  (slots.map (spanAt level)).sum = available

theorem spanAt_of_below {level : ℚ} {s : Slot} (h : level * s.weight < s.min - clampEps) :
    spanAt level s = s.min :=
  if_pos h

theorem spanAt_of_not_below {level : ℚ} {s : Slot} (h : ¬level * s.weight < s.min - clampEps) :
    spanAt level s = level * s.weight :=
  if_neg h

theorem clampEps_pos : 0 < clampEps := by norm_num [clampEps]

theorem share_le_spanAt (level : ℚ) (s : Slot) : level * s.weight ≤ spanAt level s := by
  have heps := clampEps_pos
  unfold spanAt
  split <;> linarith

/-- At most the slack separates a span from the exact `max` of minimum and share. -/
theorem spanAt_near (level : ℚ) (s : Slot) :
    max s.min (level * s.weight) - clampEps ≤ spanAt level s ∧
      spanAt level s ≤ max s.min (level * s.weight) := by
  have heps := clampEps_pos
  unfold spanAt
  split
  · next h =>
      rw [max_eq_left (by linarith)]
      constructor <;> linarith
  · next h =>
      refine ⟨?_, le_max_right _ _⟩
      rcases max_cases s.min (level * s.weight) with ⟨heq, -⟩ | ⟨heq, -⟩ <;> rw [heq] <;> linarith

/-- Outside the slack the span is the exact `max`. -/
theorem spanAt_exact {level : ℚ} {s : Slot}
    (h : level * s.weight < s.min - clampEps ∨ s.min ≤ level * s.weight) :
    spanAt level s = max s.min (level * s.weight) := by
  have heps := clampEps_pos
  rcases h with h | h
  · rw [spanAt_of_below h, max_eq_left (by linarith)]
  · rw [spanAt_of_not_below (by linarith), max_eq_right h]

/-! ### One pass -/

/-- What holds before every pass: some slot is not clamped, the clamped ones sit at their minimums,
what remains is what they leave, the other minimums still fit, and a clamped slot is below its
minimum at the level of this pass and at every level that fills the span. -/
structure Falling (slots : List Slot) (remaining available : ℚ) : Prop where
  weight_pos : ∀ s ∈ slots, 0 < s.weight
  active : 0 < activeWeight slots
  pinned : ∀ s ∈ slots, s.clamped = true → s.frac = s.min
  fits : activeMin slots ≤ remaining
  budget : remaining + clampedFrac slots = available
  below : ∀ s ∈ slots, s.clamped = true →
    remaining * s.weight < (s.min - clampEps) * activeWeight slots
  passed : ∀ level, Fills slots available level → ∀ s ∈ slots, s.clamped = true →
    level * s.weight < s.min - clampEps

/-- Every slot is clamped or takes the level's share, so the span holds the shares of the active
slots and the extents of the clamped ones. -/
theorem sum_spanAt_ge (level : ℚ) (slots : List Slot)
    (hpinned : ∀ s ∈ slots, s.clamped = true → s.frac = s.min)
    (hbelow : ∀ s ∈ slots, s.clamped = true → level * s.weight < s.min - clampEps) :
    level * activeWeight slots + clampedFrac slots ≤ (slots.map (spanAt level)).sum := by
  induction slots with
  | nil => simp [activeWeight, clampedFrac]
  | cons s ss ih =>
    have hrest := ih (fun t ht => hpinned t (List.mem_cons_of_mem s ht))
      fun t ht => hbelow t (List.mem_cons_of_mem s ht)
    rw [activeWeight_cons, clampedFrac_cons, List.map_cons, List.sum_cons]
    cases hs : s.clamped with
    | true =>
      have hspan := spanAt_of_below (hbelow s List.mem_cons_self hs)
      have hfrac := hpinned s List.mem_cons_self hs
      simp only [if_true]
      linarith
    | false =>
      have hspan := share_le_spanAt level s
      simp only [Bool.false_eq_true, if_false]
      linarith

namespace Falling

variable {slots : List Slot} {remaining available : ℚ}

/-- No level that fills the span is above the level of a pass. -/
theorem level_le (h : Falling slots remaining available) {level : ℚ}
    (hfills : Fills slots available level) : level * activeWeight slots ≤ remaining := by
  have hge := sum_spanAt_ge level slots h.pinned (h.passed level hfills)
  have hbudget := h.budget
  rw [Fills] at hfills
  linarith

end Falling

/-- Sum of the weights of the slots that `P` picks. -/
def pinnedWeight (P : Slot → Bool) (slots : List Slot) : ℚ :=
  ((slots.filter P).map (·.weight)).sum

@[simp] theorem pinnedWeight_cons (P : Slot → Bool) (s : Slot) (ss : List Slot) :
    pinnedWeight P (s :: ss) = (if P s then s.weight else 0) + pinnedWeight P ss := by
  cases h : P s <;> simp [pinnedWeight, h]

theorem activeWeight_clampWhere {P : Slot → Bool} (hP : ∀ s, P s = true → s.clamped = false)
    (slots : List Slot) :
    activeWeight (clampWhere P slots) + pinnedWeight P slots = activeWeight slots := by
  induction slots with
  | nil => simp [clampWhere, activeWeight, pinnedWeight]
  | cons s ss ih =>
    by_cases hs : P s = true
    · simp only [clampWhere_cons, hs, if_true, activeWeight_cons, pinnedWeight_cons,
        clamp_clamped, hP s hs, Bool.false_eq_true, if_false]
      linarith
    · simp only [clampWhere_cons, hs, activeWeight_cons, pinnedWeight_cons, Bool.false_eq_true,
        if_false]
      linarith

/-- The minimums a pass pins are more than the shares its slots give up. -/
theorem pinnedWeight_le (P : Slot → Bool) {remaining total : ℚ} (htotal : 0 < total)
    (hP : ∀ s, P s = true → remaining * s.weight < (s.min - clampEps) * total) (slots : List Slot) :
    remaining * pinnedWeight P slots ≤ pinnedMin P slots * total ∧
      (slots.any P = true → remaining * pinnedWeight P slots < pinnedMin P slots * total) := by
  have heps : 0 < clampEps * total := mul_pos clampEps_pos htotal
  induction slots with
  | nil => simp [pinnedWeight, pinnedMin]
  | cons s ss ih =>
    obtain ⟨hle, hlt⟩ := ih
    rw [pinnedWeight_cons, pinnedMin_cons, mul_add, add_mul, List.any_cons]
    by_cases hs : P s = true
    · have hgives := hP s hs
      rw [if_pos hs, if_pos hs]
      exact ⟨by linarith, fun _ => by linarith⟩
    · rw [if_neg hs, if_neg hs]
      rw [Bool.not_eq_true] at hs
      rw [hs, Bool.false_or]
      exact ⟨by linarith, fun hany => by linarith [hlt hany]⟩

theorem belowMin_iff {slots : List Slot} {remaining : ℚ} (hW : 0 < activeWeight slots) (s : Slot) :
    belowMin slots remaining s = true ↔
      s.clamped = false ∧ remaining * s.weight < (s.min - clampEps) * activeWeight slots := by
  rw [belowMin, Bool.and_eq_true, decide_eq_true_iff, share, if_pos hW, div_mul_eq_mul_div,
    div_lt_iff₀ hW, mul_comm s.weight]
  simp

/-- Clamping moves no span at any level. -/
theorem map_spanAt_clampWhere (P : Slot → Bool) (level : ℚ) (slots : List Slot) :
    (clampWhere P slots).map (spanAt level) = slots.map (spanAt level) := by
  rw [clampWhere, List.map_map]
  refine List.map_congr_left fun s _ => ?_
  simp only [Function.comp_apply]
  split <;> rfl

/-- **A pass that clamps** falls to a lower level, and no lower than any level that fills. -/
theorem Falling.clampWhere {slots : List Slot} {remaining available : ℚ}
    (h : Falling slots remaining available)
    (hany : slots.any (belowMin slots remaining) = true) :
    Falling (clampWhere (belowMin slots remaining) slots)
      (remaining - pinnedMin (belowMin slots remaining) slots) available := by
  have hW := h.active
  have hiff := @belowMin_iff slots remaining hW
  obtain ⟨hmin, hfrac⟩ := clampWhere_sums (P := belowMin slots remaining) belowMin_active slots
  have hweight := activeWeight_clampWhere (P := belowMin slots remaining) belowMin_active slots
  have hpinned := (pinnedWeight_le (belowMin slots remaining) hW
    (fun s hs => ((hiff s).1 hs).2) slots).2 hany
  have hpos : ∀ s ∈ Lath.clampWhere (belowMin slots remaining) slots, 0 < s.weight := by
    intro s hs
    obtain ⟨t, ht, rfl⟩ := List.mem_map.1 hs
    split <;> exact h.weight_pos t ht
  -- The minimums fit, so the pass cannot have picked every active slot.
  have hactive : 0 < activeWeight (Lath.clampWhere (belowMin slots remaining) slots) := by
    refine lt_of_le_of_ne (activeWeight_nonneg hpos) fun hzero => ?_
    have hnone : activeMin (Lath.clampWhere (belowMin slots remaining) slots) = 0 := by
      refine List.sum_eq_zero fun x hx => ?_
      obtain ⟨s, hs, -⟩ := List.mem_map.1 hx
      obtain ⟨hmem, hact⟩ := List.mem_filter.1 hs
      have hmore := activeWeight_pos hpos hmem (by simpa using hact)
      exact absurd hzero hmore.ne
    have hfits : activeMin slots * activeWeight slots ≤ remaining * activeWeight slots :=
      mul_le_mul_of_nonneg_right h.fits hW.le
    rw [← hzero, zero_add] at hweight
    rw [hnone, zero_add] at hmin
    rw [hweight, hmin] at hpinned
    exact absurd hpinned (not_lt.2 hfits)
  -- A slot that is clamped now was below its minimum at the level of this pass.
  have hbelow : ∀ s ∈ Lath.clampWhere (belowMin slots remaining) slots, s.clamped = true →
      s.frac = s.min ∧ remaining * s.weight < (s.min - clampEps) * activeWeight slots := by
    intro s hs hclamped
    obtain ⟨t, ht, rfl⟩ := List.mem_map.1 hs
    by_cases hpick : belowMin slots remaining t = true
    · rw [if_pos hpick]
      exact ⟨rfl, ((hiff t).1 hpick).2⟩
    · rw [if_neg hpick] at hclamped ⊢
      exact ⟨h.pinned t ht hclamped, h.below t ht hclamped⟩
  refine ⟨hpos, hactive, fun s hs hclamped => (hbelow s hs hclamped).1, ?_, ?_, ?_, ?_⟩
  · have := h.fits
    linarith
  · have := h.budget
    linarith
  · intro s hs hclamped
    have hlt := (hbelow s hs hclamped).2
    have hfall : (remaining - pinnedMin (belowMin slots remaining) slots) * activeWeight slots ≤
        remaining * activeWeight (Lath.clampWhere (belowMin slots remaining) slots) := by
      have hsplit : remaining * activeWeight slots =
          remaining * activeWeight (Lath.clampWhere (belowMin slots remaining) slots) +
            remaining * pinnedWeight (belowMin slots remaining) slots := by
        rw [← mul_add, hweight]
      linarith
    refine lt_of_mul_lt_mul_right ?_ hW.le
    calc (remaining - pinnedMin (belowMin slots remaining) slots) * s.weight * activeWeight slots
        = (remaining - pinnedMin (belowMin slots remaining) slots) * activeWeight slots * s.weight := by
          ring
      _ ≤ remaining * activeWeight (Lath.clampWhere (belowMin slots remaining) slots) * s.weight :=
          mul_le_mul_of_nonneg_right hfall (hpos s hs).le
      _ = remaining * s.weight * activeWeight (Lath.clampWhere (belowMin slots remaining) slots) := by
          ring
      _ < (s.min - clampEps) * activeWeight slots *
            activeWeight (Lath.clampWhere (belowMin slots remaining) slots) :=
          mul_lt_mul_of_pos_right hlt hactive
      _ = (s.min - clampEps) * activeWeight (Lath.clampWhere (belowMin slots remaining) slots) *
            activeWeight slots := by ring
  · intro level hfills s hs hclamped
    have hlt := (hbelow s hs hclamped).2
    rw [Fills, map_spanAt_clampWhere] at hfills
    refine lt_of_mul_lt_mul_right ?_ hW.le
    calc level * s.weight * activeWeight slots = level * activeWeight slots * s.weight := by ring
      _ ≤ remaining * s.weight := mul_le_mul_of_nonneg_right (h.level_le hfills) (hpos s hs).le
      _ < (s.min - clampEps) * activeWeight slots := hlt

/-- **The last pass** gives every slot its span at the level of that pass. -/
theorem Falling.finish {slots : List Slot} {remaining available : ℚ}
    (h : Falling slots remaining available)
    (hnone : slots.any (belowMin slots remaining) = false) :
    (slots.map fun s => if s.clamped then s else { s with frac := share slots remaining s }).map
        (·.frac) = slots.map (spanAt (remaining / activeWeight slots)) ∧
      Fills slots available (remaining / activeWeight slots) := by
  have hW := h.active
  have hspan : ∀ s ∈ slots,
      (if s.clamped then s else { s with frac := share slots remaining s }).frac =
        spanAt (remaining / activeWeight slots) s := by
    intro s hs
    cases hclamped : s.clamped with
    | true =>
      have hbelow : remaining / activeWeight slots * s.weight < s.min - clampEps := by
        rw [div_mul_eq_mul_div, div_lt_iff₀ hW]
        exact h.below s hs hclamped
      rw [spanAt_of_below hbelow]
      exact h.pinned s hs hclamped
    | false =>
      have hnot : ¬belowMin slots remaining s = true := by
        simpa using List.any_eq_false.1 hnone s hs
      rw [belowMin_iff hW] at hnot
      have hnot' : ¬remaining / activeWeight slots * s.weight < s.min - clampEps := by
        rw [div_mul_eq_mul_div, div_lt_iff₀ hW]
        exact fun hlt => hnot ⟨hclamped, hlt⟩
      rw [spanAt_of_not_below hnot', if_neg Bool.false_ne_true]
      show share slots remaining s = _
      rw [share, if_pos hW]
      ring
  have hmap : (slots.map fun s =>
      if s.clamped then s else { s with frac := share slots remaining s }).map (·.frac) =
        slots.map (spanAt (remaining / activeWeight slots)) := by
    rw [List.map_map]
    exact List.map_congr_left hspan
  refine ⟨hmap, ?_⟩
  have hshare : ∀ s, share slots remaining s = s.weight / activeWeight slots * remaining :=
    fun s => if_pos hW
  have hsum := sum_share (activeWeight slots) remaining slots
  have hbudget := h.budget
  simp only [hshare] at hmap
  rw [hmap, div_self hW.ne', one_mul] at hsum
  rw [Fills, hsum]
  exact hbudget

/-! ### The loop -/

/-- **The waterfill finds the greatest level that fills the span**, and leaves a slot unclamped. -/
theorem waterfill_falls {available : ℚ} : ∀ (fuel : Nat) {slots : List Slot} {remaining : ℚ},
    activeCount slots < fuel → Falling slots remaining available →
      ∃ level, IsGreatest {l | Fills slots available l} level ∧
        (waterfill fuel slots remaining).map (·.frac) = slots.map (spanAt level) ∧
        ∃ s ∈ waterfill fuel slots remaining, s.clamped = false
  | 0, slots, remaining, hfuel, _ => absurd hfuel (Nat.not_lt_zero _)
  | fuel + 1, slots, remaining, hfuel, h => by
    have hcount : activeCount slots ≠ 0 := by
      intro hzero
      have hempty : slots.filter (fun s => !s.clamped) = [] := List.length_eq_zero_iff.1 hzero
      have hweight := h.active
      rw [activeWeight, hempty] at hweight
      exact absurd hweight (lt_irrefl 0)
    rw [waterfill, if_neg hcount]
    cases hany : slots.any (belowMin slots remaining) with
    | true =>
      have hlt := activeCount_clampWhere_lt (P := belowMin slots remaining)
        belowMin_active hany
      obtain ⟨level, hgreatest, hspans, hfree⟩ :=
        waterfill_falls fuel (by omega) (h.clampWhere hany)
      refine ⟨level, ?_, ?_, hfree⟩
      · simpa only [Fills, map_spanAt_clampWhere] using hgreatest
      · rw [map_spanAt_clampWhere] at hspans
        exact hspans
    | false =>
      rw [if_neg Bool.false_ne_true]
      obtain ⟨hspans, hfills⟩ := h.finish hany
      refine ⟨_, ⟨hfills, fun level hlevel => ?_⟩, hspans, ?_⟩
      · rw [le_div_iff₀ h.active]
        exact h.level_le hlevel
      · obtain ⟨s, hs⟩ := List.exists_mem_of_length_pos (Nat.pos_of_ne_zero hcount)
        obtain ⟨hmem, hact⟩ := List.mem_filter.1 hs
        have hfree : s.clamped = false := by simpa using hact
        refine ⟨_, List.mem_map_of_mem hmem, ?_⟩
        rw [hfree, if_neg Bool.false_ne_true]

/-! ### From the first pass -/

/-- The slots of a list of weights and minimums before the first pass. -/
def emptySlots (entries : List (ℚ × ℚ)) : List Slot :=
  entries.map fun e => ⟨e.1, e.2, false, 0⟩

theorem clamped_of_mem_emptySlots {entries : List (ℚ × ℚ)} {s : Slot}
    (h : s ∈ emptySlots entries) : s.clamped = false := by
  obtain ⟨e, -, rfl⟩ := List.mem_map.1 h
  rfl

theorem activeCount_emptySlots (entries : List (ℚ × ℚ)) :
    activeCount (emptySlots entries) = entries.length := by
  have hall : (emptySlots entries).filter (fun s => !s.clamped) = emptySlots entries :=
    List.filter_eq_self.2 fun s hs => by rw [clamped_of_mem_emptySlots hs]; rfl
  rw [activeCount, hall, emptySlots, List.length_map]

theorem falling_emptySlots {entries : List (ℚ × ℚ)} {available : ℚ} (hne : entries ≠ [])
    (hweight : ∀ e ∈ entries, 0 < e.1) (hfit : (entries.map Prod.snd).sum ≤ available) :
    Falling (emptySlots entries) available available := by
  have hfree : ∀ s ∈ emptySlots entries, s.clamped ≠ true := fun s hs => by
    rw [clamped_of_mem_emptySlots hs]
    exact Bool.false_ne_true
  have hactive : (emptySlots entries).filter (fun s => !s.clamped) = emptySlots entries :=
    List.filter_eq_self.2 fun s hs => by rw [clamped_of_mem_emptySlots hs]; rfl
  have hpos : ∀ s ∈ emptySlots entries, 0 < s.weight := by
    intro s hs
    obtain ⟨e, he, rfl⟩ := List.mem_map.1 hs
    exact hweight e he
  refine ⟨hpos, ?_, fun s hs h => absurd h (hfree s hs), ?_, ?_, fun s hs h => absurd h (hfree s hs),
    fun _ _ s hs h => absurd h (hfree s hs)⟩
  · obtain ⟨e, he⟩ := List.exists_mem_of_ne_nil entries hne
    exact activeWeight_pos hpos (List.mem_map_of_mem he) rfl
  · rw [activeMin, hactive, emptySlots, List.map_map]
    exact hfit
  · have hnone : (emptySlots entries).filter (·.clamped) = [] :=
      List.filter_eq_nil_iff.2 hfree
    rw [clampedFrac, hnone, List.map_nil, List.sum_nil, add_zero]

/-- Two levels whose exact spans take up the same span give every slot the same. -/
theorem exact_spans_unique {slots : List Slot} {a b : ℚ} (hweight : ∀ s ∈ slots, 0 < s.weight)
    (h : (slots.map fun s => max s.min (a * s.weight)).sum =
      (slots.map fun s => max s.min (b * s.weight)).sum) :
    (slots.map fun s => max s.min (a * s.weight)) = slots.map fun s => max s.min (b * s.weight) := by
  wlog hab : a ≤ b generalizing a b
  · exact (this h.symm (le_of_not_ge hab)).symm
  have hle : ∀ s ∈ slots, max s.min (a * s.weight) ≤ max s.min (b * s.weight) := fun s hs =>
    max_le_max_left _ (mul_le_mul_of_nonneg_right hab (hweight s hs).le)
  refine List.map_congr_left fun s hs => le_antisymm (hle s hs) (not_lt.1 fun hlt => ?_)
  exact absurd h (List.sum_lt_sum _ _ hle ⟨s, hs, hlt⟩).ne

/-- **The waterfill is one level.** The loop ends within a pass more than there are children, with
a child left unclamped. At the greatest level that fills the available span, every child has the
level's share of its weight, or its minimum where that share is more than the slack below it, in
whatever order the children stand. No span is more than the slack below the exact `max` of minimum
and share, or above it; and where no share falls into the slack, the spans are those of the only
exact allocation. -/
theorem waterfill_level {entries : List (ℚ × ℚ)} {available : ℚ} (hne : entries ≠ [])
    (hweight : ∀ e ∈ entries, 0 < e.1) (hfit : (entries.map Prod.snd).sum ≤ available) :
    ∃ level, IsGreatest {l | Fills (emptySlots entries) available l} level ∧
      (∀ order, order.Perm entries → ∀ fuel, entries.length < fuel →
        (waterfill fuel (emptySlots order) available).map (·.frac) =
            (emptySlots order).map (spanAt level) ∧
          ((emptySlots order).map (spanAt level)).sum = available ∧
          ∃ s ∈ waterfill fuel (emptySlots order) available, s.clamped = false) ∧
      (∀ s ∈ emptySlots entries,
        max s.min (level * s.weight) - clampEps ≤ spanAt level s ∧
          spanAt level s ≤ max s.min (level * s.weight)) ∧
      ((∀ s ∈ emptySlots entries,
          level * s.weight < s.min - clampEps ∨ s.min ≤ level * s.weight) →
        ∀ other, ((emptySlots entries).map fun s => max s.min (other * s.weight)).sum = available →
          (emptySlots entries).map (spanAt level) =
            (emptySlots entries).map fun s => max s.min (other * s.weight)) := by
  obtain ⟨level, hgreatest, -, -⟩ := waterfill_falls (entries.length + 1)
    (by rw [activeCount_emptySlots]; omega) (falling_emptySlots hne hweight hfit)
  refine ⟨level, hgreatest, ?_, fun s _ => spanAt_near level s, ?_⟩
  · intro order hperm fuel hfuel
    have hsum : ∀ l, ((emptySlots order).map (spanAt l)).sum =
        ((emptySlots entries).map (spanAt l)).sum := fun l =>
      ((hperm.map _).map (spanAt l)).sum_eq
    have hne' : order ≠ [] := fun hnil => hne (by
      rw [hnil] at hperm
      exact hperm.nil_eq.symm)
    have hfalling : Falling (emptySlots order) available available :=
      falling_emptySlots hne' (fun e he => hweight e (hperm.mem_iff.1 he))
        (by rw [(hperm.map Prod.snd).sum_eq]; exact hfit)
    obtain ⟨level', hgreatest', hspans, hfree⟩ := waterfill_falls fuel
      (by rw [activeCount_emptySlots, hperm.length_eq]; exact hfuel) hfalling
    have hsame : {l | Fills (emptySlots order) available l} =
        {l | Fills (emptySlots entries) available l} := by
      ext l
      show Fills (emptySlots order) available l ↔ Fills (emptySlots entries) available l
      rw [Fills, Fills, hsum]
    rw [hsame] at hgreatest'
    rw [← hgreatest.unique hgreatest'] at hspans
    exact ⟨hspans, (hsum level).trans hgreatest.1, hfree⟩
  · intro hexact other hother
    have hmax : (emptySlots entries).map (spanAt level) =
        (emptySlots entries).map fun s => max s.min (level * s.weight) :=
      List.map_congr_left fun s hs => spanAt_exact (hexact s hs)
    have hfills : ((emptySlots entries).map (spanAt level)).sum = available := hgreatest.1
    rw [hmax] at hfills ⊢
    refine exact_spans_unique (fun s hs => ?_) (hfills.trans hother.symm)
    obtain ⟨e, he, rfl⟩ := List.mem_map.1 hs
    exact hweight e he

/-- Of two children of one weight in a span of 3, the one that wants 2 gets it. -/
theorem waterfill_level_two_of_three :
    ∃ level, IsGreatest {l | Fills (emptySlots [(1, 2), (1, 0)]) 3 l} level ∧
      (emptySlots [(1, 2), (1, 0)]).map (spanAt level) = [2, 1] := by
  obtain ⟨level, hgreatest, hspans, -⟩ := @waterfill_level [(1, 2), (1, 0)] 3
    (List.cons_ne_nil _ _) (by decide +kernel) (by decide +kernel)
  have hloop : (waterfill 3 (emptySlots [(1, 2), (1, 0)]) 3).map (·.frac) = [2, 1] := by
    decide +kernel
  exact ⟨level, hgreatest, (hspans _ (List.Perm.refl _) 3 (by decide)).1.symm.trans hloop⟩

/-- **A share within the slack is below its minimum**: two children of one weight, of which one
wants its half of the span and a bit less than the slack more, both get their halves. -/
theorem slack_undercuts :
    ¬∃ level : ℚ,
      (waterfill 3 (emptySlots [(1, 1 + clampEps / 2), (1, 0)]) 2).map (·.frac) =
        (emptySlots [(1, 1 + clampEps / 2), (1, 0)]).map
          fun s => max s.min (level * s.weight) := by
  rintro ⟨level, h⟩
  have hspans : (waterfill 3 (emptySlots [(1, 1 + clampEps / 2), (1, 0)]) 2).map (·.frac) =
      [1, 1] := by decide +kernel
  rw [hspans] at h
  have hfirst : (1 : ℚ) = max (1 + clampEps / 2) (level * 1) := (List.cons.inj h).1
  have heps := clampEps_pos
  have hle := le_max_left (1 + clampEps / 2) (level * 1)
  linarith

end Dormouse.Lath
