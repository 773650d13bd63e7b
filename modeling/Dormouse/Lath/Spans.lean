import Mathlib.Tactic.FieldSimp
import Mathlib.Tactic.Ring
import Dormouse.Lath.Canonical
import Dormouse.Lath.Layout

/-!
# Dormouse.Lath.Spans

**Span allocation**: what `allocateChildSpans` gives the children of a split.
Rounding loses less than a pixel per child and nothing in total, the waterfill
honors every minimum that fits, and a split one pixel short of its minimums costs
each child at most that pixel.
-/

namespace Dormouse.Lath

/-! ### Rounding -/

theorem mathRound_intCast (n : ℤ) : mathRound (n : ℚ) = n := by
  rw [mathRound, Int.floor_intCast_add]
  norm_num

theorem mathRound_mono {a b : ℚ} (h : a ≤ b) : mathRound a ≤ mathRound b :=
  Int.floor_mono (by linarith)

/-- Two rounded boundaries are more than their distance minus one apart. -/
theorem sub_one_lt_mathRound_sub (a b : ℚ) :
    b - a - 1 < ((mathRound b - mathRound a : ℤ) : ℚ) := by
  have hb := Int.lt_floor_add_one (b + 1 / 2)
  have ha := Int.floor_le (a + 1 / 2)
  rw [Int.cast_sub, mathRound, mathRound]
  linarith

/-- The rounded parts of nonnegative fractions: as many, nonnegative, each more
than its fraction minus one, and summing to the distance left to the target. -/
theorem cumulativeRoundFrom_spec {total : ℚ} : ∀ {fracs : List ℚ} (cum : ℚ),
    (∀ f ∈ fracs, 0 ≤ f) → cum + fracs.sum ≤ total →
      List.Forall₂ (fun (f : ℚ) (out : ℤ) => 0 ≤ out ∧ f - 1 < (out : ℚ)) fracs
          (cumulativeRoundFrom (mathRound total) cum (mathRound cum) fracs) ∧
        (fracs ≠ [] → (cumulativeRoundFrom (mathRound total) cum (mathRound cum) fracs).sum =
          mathRound total - mathRound cum)
  | [], cum, _, _ => ⟨.nil, fun h => absurd rfl h⟩
  | [f], cum, hnonneg, hsum => by
    have hf := hnonneg f List.mem_cons_self
    rw [List.sum_singleton] at hsum
    have hgap := sub_one_lt_mathRound_sub cum total
    refine ⟨.cons ⟨?_, ?_⟩ .nil, fun _ => by simp [cumulativeRoundFrom]⟩
    · exact sub_nonneg.2 (mathRound_mono (by linarith))
    · linarith
  | f :: g :: fracs, cum, hnonneg, hsum => by
    have hf := hnonneg f List.mem_cons_self
    have htail : ∀ e ∈ g :: fracs, 0 ≤ e := fun e he => hnonneg e (List.mem_cons_of_mem f he)
    rw [List.sum_cons] at hsum
    obtain ⟨hall, hrest⟩ := cumulativeRoundFrom_spec (cum + f) htail (by linarith)
    have hgap := sub_one_lt_mathRound_sub cum (cum + f)
    rw [cumulativeRoundFrom]
    refine ⟨.cons ⟨?_, ?_⟩ hall, fun _ => ?_⟩
    · exact sub_nonneg.2 (mathRound_mono (by linarith))
    · linarith
    · rw [List.sum_cons, hrest (by simp)]
      ring

theorem cumulativeRound_spec {fracs : List ℚ} {total : ℤ} (hne : fracs ≠ [])
    (hnonneg : ∀ f ∈ fracs, 0 ≤ f) (hsum : fracs.sum ≤ total) :
    List.Forall₂ (fun (f : ℚ) (out : ℤ) => 0 ≤ out ∧ f - 1 < (out : ℚ)) fracs (cumulativeRound fracs total) ∧
      (cumulativeRound fracs total).sum = total := by
  have hzero : mathRound 0 = 0 := by
    have := mathRound_intCast 0
    simpa using this
  have hstart : (0 : ℚ) + fracs.sum ≤ (total : ℚ) := by linarith
  have hspec := cumulativeRoundFrom_spec 0 hnonneg hstart
  rw [hzero, mathRound_intCast] at hspec
  rw [cumulativeRound, mathRound_intCast]
  exact ⟨hspec.1, by rw [hspec.2 hne, sub_zero]⟩

/-! ### The waterfill -/

/-- Sum of the minimums of the unclamped slots. -/
def activeMin (slots : List Slot) : ℚ :=
  ((slots.filter (fun s => !s.clamped)).map (·.min)).sum

/-- Sum of the extents of the clamped slots. -/
def clampedFrac (slots : List Slot) : ℚ :=
  ((slots.filter (·.clamped)).map (·.frac)).sum

/-- What holds before every pass of the waterfill over `available`. -/
structure Filling (slots : List Slot) (remaining available : ℚ) : Prop where
  weight_pos : ∀ s ∈ slots, 0 < s.weight
  min_nonneg : ∀ s ∈ slots, 0 ≤ s.min
  pinned : ∀ s ∈ slots, s.clamped = true → s.frac = s.min
  fits : activeMin slots ≤ remaining
  budget : remaining + clampedFrac slots ≤ available

@[simp] theorem clamp_clamped (s : Slot) : s.clamp.clamped = true := rfl

@[simp] theorem clamp_min (s : Slot) : s.clamp.min = s.min := rfl

@[simp] theorem clamp_frac (s : Slot) : s.clamp.frac = s.min := rfl

@[simp] theorem activeMin_cons (s : Slot) (ss : List Slot) :
    activeMin (s :: ss) = (if s.clamped then 0 else s.min) + activeMin ss := by
  cases h : s.clamped <;> simp [activeMin, h]

@[simp] theorem clampedFrac_cons (s : Slot) (ss : List Slot) :
    clampedFrac (s :: ss) = (if s.clamped then s.frac else 0) + clampedFrac ss := by
  cases h : s.clamped <;> simp [clampedFrac, h]

@[simp] theorem activeWeight_cons (s : Slot) (ss : List Slot) :
    activeWeight (s :: ss) = (if s.clamped then 0 else s.weight) + activeWeight ss := by
  cases h : s.clamped <;> simp [activeWeight, h]

@[simp] theorem activeCount_cons (s : Slot) (ss : List Slot) :
    activeCount (s :: ss) = (if s.clamped then 0 else 1) + activeCount ss := by
  cases h : s.clamped <;> simp [activeCount, h, Nat.add_comm]

theorem activeMin_nonneg {slots : List Slot} (h : ∀ s ∈ slots, 0 ≤ s.min) :
    0 ≤ activeMin slots := by
  refine List.sum_nonneg ?_
  rintro x hx
  obtain ⟨s, hs, rfl⟩ := List.mem_map.1 hx
  exact h s (List.mem_of_mem_filter hs)

theorem Filling.remaining_nonneg {slots : List Slot} {remaining available : ℚ}
    (h : Filling slots remaining available) : 0 ≤ remaining :=
  (activeMin_nonneg h.min_nonneg).trans h.fits

theorem activeWeight_nonneg {slots : List Slot} (h : ∀ s ∈ slots, 0 < s.weight) :
    0 ≤ activeWeight slots := by
  refine List.sum_nonneg ?_
  rintro x hx
  obtain ⟨s, hs, rfl⟩ := List.mem_map.1 hx
  exact (h s (List.mem_of_mem_filter hs)).le

/-- An unclamped slot makes the active weight positive. -/
theorem activeWeight_pos {slots : List Slot} {s : Slot} (h : ∀ s ∈ slots, 0 < s.weight)
    (hs : s ∈ slots) (hact : s.clamped = false) : 0 < activeWeight slots := by
  refine List.sum_pos _ ?_ ?_
  · intro x hx
    obtain ⟨t, ht, rfl⟩ := List.mem_map.1 hx
    exact h t (List.mem_of_mem_filter ht)
  · intro hnil
    have hmem : s ∈ slots.filter (fun s => !s.clamped) := List.mem_filter.2 ⟨hs, by simp [hact]⟩
    rw [List.map_eq_nil_iff.1 hnil] at hmem
    exact absurd hmem List.not_mem_nil

section Pass

variable {P : Slot → Bool}

/-- Clamp the slots that `P` picks. -/
def clampWhere (P : Slot → Bool) (slots : List Slot) : List Slot :=
  slots.map fun s => if P s then s.clamp else s

/-- Sum of the minimums of the slots that `P` picks. -/
def pinnedMin (P : Slot → Bool) (slots : List Slot) : ℚ :=
  ((slots.filter P).map (·.min)).sum

@[simp] theorem clampWhere_cons (s : Slot) (ss : List Slot) :
    clampWhere P (s :: ss) = (if P s then s.clamp else s) :: clampWhere P ss := rfl

@[simp] theorem pinnedMin_cons (s : Slot) (ss : List Slot) :
    pinnedMin P (s :: ss) = (if P s then s.min else 0) + pinnedMin P ss := by
  cases h : P s <;> simp [pinnedMin, h]

/-- Clamping moves the minimums of the picked slots from the active to the pinned side. -/
theorem clampWhere_sums (hP : ∀ s, P s = true → s.clamped = false) (slots : List Slot) :
    activeMin (clampWhere P slots) + pinnedMin P slots = activeMin slots ∧
      clampedFrac (clampWhere P slots) = clampedFrac slots + pinnedMin P slots := by
  induction slots with
  | nil => simp [activeMin, clampedFrac, clampWhere, pinnedMin]
  | cons s ss ih =>
    obtain ⟨ih1, ih2⟩ := ih
    by_cases hs : P s = true
    · have hact := hP s hs
      simp only [clampWhere_cons, hs, if_true, activeMin_cons, clampedFrac_cons, pinnedMin_cons,
        clamp_clamped, clamp_frac, hact, Bool.false_eq_true, if_false]
      constructor <;> linarith
    · simp only [clampWhere_cons, hs, activeMin_cons, clampedFrac_cons, pinnedMin_cons,
        Bool.false_eq_true, if_false]
      constructor <;> linarith

theorem activeCount_clampWhere_le (slots : List Slot) :
    activeCount (clampWhere P slots) ≤ activeCount slots := by
  induction slots with
  | nil => simp [clampWhere]
  | cons s ss ih =>
    rw [clampWhere_cons, activeCount_cons, activeCount_cons]
    by_cases hs : P s = true
    · rw [if_pos hs, clamp_clamped]
      simp only [if_true]
      omega
    · rw [if_neg hs]
      omega

/-- Clamping a picked slot leaves fewer active ones. -/
theorem activeCount_clampWhere_lt (hP : ∀ s, P s = true → s.clamped = false) {slots : List Slot}
    (hany : slots.any P = true) : activeCount (clampWhere P slots) < activeCount slots := by
  induction slots with
  | nil => simp at hany
  | cons s ss ih =>
    have hle := activeCount_clampWhere_le (P := P) ss
    rw [clampWhere_cons, activeCount_cons, activeCount_cons]
    by_cases hs : P s = true
    · rw [if_pos hs, clamp_clamped, hP s hs]
      simp only [if_true, Bool.false_eq_true, if_false]
      omega
    · have hany' : ss.any P = true := by simpa [hs] using hany
      have := ih hany'
      rw [if_neg hs]
      omega

theorem Filling.clampWhere {slots : List Slot} {remaining available : ℚ}
    (h : Filling slots remaining available) (hP : ∀ s, P s = true → s.clamped = false) :
    Filling (clampWhere P slots) (remaining - pinnedMin P slots) available := by
  obtain ⟨hmin, hfrac⟩ := clampWhere_sums hP slots
  have hall : ∀ {Q : Slot → Prop}, (∀ s ∈ slots, Q s) → (∀ s ∈ slots, Q s.clamp) →
      ∀ s ∈ Lath.clampWhere P slots, Q s := by
    intro Q hQ hQ' s hs
    obtain ⟨t, ht, rfl⟩ := List.mem_map.1 hs
    split
    · exact hQ' t ht
    · exact hQ t ht
  refine ⟨hall h.weight_pos h.weight_pos, hall h.min_nonneg h.min_nonneg,
    hall h.pinned fun s _ _ => rfl, ?_, ?_⟩
  · have := h.fits
    linarith
  · have := h.budget
    linarith

end Pass

/-- A finished waterfill: no extent is negative or more than the slack below its
minimum, and together they stay within the budget. -/
structure Filled (slots : List Slot) (available : ℚ) : Prop where
  nonneg : ∀ s ∈ slots, 0 ≤ s.frac
  min_le : ∀ s ∈ slots, s.min - clampEps ≤ s.frac
  sum_le : (slots.map (·.frac)).sum ≤ available

theorem belowMin_active {slots : List Slot} {remaining : ℚ} (s : Slot)
    (h : belowMin slots remaining s = true) : s.clamped = false := by
  rw [belowMin, Bool.and_eq_true] at h
  simpa using h.1

/-- The shares of the unclamped slots use up what remains. -/
theorem sum_share (W remaining : ℚ) : ∀ (slots : List Slot),
    ((slots.map fun s => if s.clamped then s
        else { s with frac := s.weight / W * remaining }).map (·.frac)).sum =
      activeWeight slots / W * remaining + clampedFrac slots
  | [] => by simp [activeWeight, clampedFrac]
  | s :: ss => by
    have ih := sum_share W remaining ss
    rw [List.map_cons, List.map_cons, List.sum_cons, ih, activeWeight_cons, clampedFrac_cons]
    cases hact : s.clamped <;> simp <;> ring

/-- The last pass, in which no slot is below its minimum. -/
theorem Filling.finish {slots : List Slot} {remaining available : ℚ}
    (h : Filling slots remaining available) (hactive : activeCount slots ≠ 0)
    (hnone : slots.any (belowMin slots remaining) = false) :
    Filled (slots.map fun s =>
      if s.clamped then s else { s with frac := share slots remaining s }) available := by
  have hrem := h.remaining_nonneg
  have hW : 0 < activeWeight slots := by
    obtain ⟨s, hs⟩ := List.exists_mem_of_length_pos (Nat.pos_of_ne_zero hactive)
    obtain ⟨hmem, hact⟩ := List.mem_filter.1 hs
    exact activeWeight_pos h.weight_pos hmem (by simpa using hact)
  have hshare : ∀ s, share slots remaining s = s.weight / activeWeight slots * remaining :=
    fun s => if_pos hW
  refine ⟨?_, ?_, ?_⟩
  · intro s hs
    obtain ⟨t, ht, rfl⟩ := List.mem_map.1 hs
    cases hact : t.clamped with
    | true => simpa [h.pinned t ht hact] using h.min_nonneg t ht
    | false =>
      have hw := h.weight_pos t ht
      simp only [hshare, Bool.false_eq_true, if_false]
      positivity
  · intro s hs
    obtain ⟨t, ht, rfl⟩ := List.mem_map.1 hs
    cases hact : t.clamped with
    | true =>
      have : (0 : ℚ) ≤ clampEps := by norm_num [clampEps]
      simpa [h.pinned t ht hact] using this
    | false =>
      have hb := List.any_eq_false.1 hnone t ht
      simpa [belowMin, hact] using hb
  · simp only [hshare]
    rw [sum_share, div_self hW.ne', one_mul]
    exact h.budget

/-- A pass with nothing left to fill. -/
theorem Filling.all_clamped {slots : List Slot} {remaining available : ℚ}
    (h : Filling slots remaining available) (hactive : activeCount slots = 0) :
    Filled slots available := by
  have hall : ∀ s ∈ slots, s.clamped = true := by
    intro s hs
    by_contra hne
    have hmem : s ∈ slots.filter (fun s => !s.clamped) := List.mem_filter.2 ⟨hs, by simp [hne]⟩
    rw [List.length_eq_zero_iff.1 hactive] at hmem
    exact absurd hmem List.not_mem_nil
  have hfrac := fun s hs => h.pinned s hs (hall s hs)
  refine ⟨fun s hs => hfrac s hs ▸ h.min_nonneg s hs, fun s hs => ?_, ?_⟩
  · have : (0 : ℚ) ≤ clampEps := by norm_num [clampEps]
    rw [hfrac s hs]
    linarith
  · have hfilter : slots.filter (·.clamped) = slots := List.filter_eq_self.2 hall
    have hbudget := h.budget
    rw [clampedFrac, hfilter] at hbudget
    have := h.remaining_nonneg
    linarith

/-- **The waterfill finishes** within as many passes as there are active slots plus
one, keeps the minimums and fills the budget. -/
theorem waterfill_spec {available : ℚ} : ∀ (fuel : Nat) {slots : List Slot} {remaining : ℚ},
    activeCount slots < fuel → Filling slots remaining available →
      Filled (waterfill fuel slots remaining) available ∧
        (waterfill fuel slots remaining).map (·.min) = slots.map (·.min)
  | 0, slots, remaining, hfuel, _ => absurd hfuel (by omega)
  | fuel + 1, slots, remaining, hfuel, h => by
    rw [waterfill]
    by_cases hactive : activeCount slots = 0
    · rw [if_pos hactive]
      exact ⟨h.all_clamped hactive, rfl⟩
    rw [if_neg hactive]
    cases hany : slots.any (belowMin slots remaining) with
    | true =>
      have hlt := activeCount_clampWhere_lt (P := belowMin slots remaining)
        belowMin_active hany
      have hnext := h.clampWhere (P := belowMin slots remaining) belowMin_active
      obtain ⟨hfilled, hmins⟩ := waterfill_spec fuel (by omega) hnext
      refine ⟨hfilled, hmins.trans ?_⟩
      rw [clampWhere, List.map_map]
      refine List.map_congr_left fun s _ => ?_
      simp only [Function.comp_apply]
      split <;> rfl
    | false =>
      rw [if_neg (by simp)]
      refine ⟨h.finish hactive hany, ?_⟩
      rw [List.map_map]
      refine List.map_congr_left fun s _ => ?_
      simp only [Function.comp_apply]
      split <;> rfl

/-! ### Allocation -/

/-- What `allocateChildSpans` needs of a child list: positive weights and minimums
that are not negative. -/
structure Allocatable (children : List LathChild) (opts : LayoutOpts) (dir : Dir) : Prop where
  ne_nil : children ≠ []
  weight_pos : ∀ c ∈ children, 0 < c.weight
  min_nonneg : ∀ c ∈ children, 0 ≤ c.node.minSpan dir opts

/-- Minimum extents of the children of a split. -/
def childMins (children : List LathChild) (opts : LayoutOpts) (dir : Dir) : List ℚ :=
  children.map (·.node.minSpan dir opts)

theorem sum_map_mul (l : List ℚ) (k : ℚ) : (l.map fun m => m * k).sum = l.sum * k := by
  induction l with
  | nil => simp
  | cons m l ih => rw [List.map_cons, List.sum_cons, ih, List.sum_cons, add_mul]

theorem forall₂_trans {α β γ : Type*} {R : α → β → Prop} {S : β → γ → Prop} {T : α → γ → Prop}
    (hT : ∀ a b c, R a b → S b c → T a c) : ∀ {as : List α} {bs : List β} {cs : List γ},
    List.Forall₂ R as bs → List.Forall₂ S bs cs → List.Forall₂ T as cs
  | _, _, _, .nil, .nil => .nil
  | _, _, _, .cons hab hrest, .cons hbc hrest' =>
    .cons (hT _ _ _ hab hbc) (forall₂_trans hT hrest hrest')

/-- Minimums that do not fit, scaled down to the budget. -/
theorem proportional_spec {mins : List ℚ} {available : ℚ} (hmins : ∀ m ∈ mins, 0 ≤ m)
    (havail : 0 ≤ available) (hover : available < mins.sum) :
    (∀ f ∈ mins.map (fun m => m / mins.sum * available), 0 ≤ f) ∧
      (mins.map (fun m => m / mins.sum * available)).sum ≤ available ∧
      List.Forall₂ (fun m f => mins.sum - 1 ≤ available → m - 1 ≤ f) mins
        (mins.map fun m => m / mins.sum * available) := by
  have htotal : 0 < mins.sum := havail.trans_lt hover
  refine ⟨?_, ?_, ?_⟩
  · rintro f hf
    obtain ⟨m, hm, rfl⟩ := List.mem_map.1 hf
    have := hmins m hm
    positivity
  · have hmap : (mins.map fun m => m / mins.sum * available) =
        mins.map fun m => m * (available / mins.sum) :=
      List.map_congr_left fun m _ => by ring
    rw [hmap, sum_map_mul, mul_div_cancel₀ _ htotal.ne']
  · rw [List.forall₂_map_right_iff, List.forall₂_same]
    intro m hm hshort
    have hle : m ≤ mins.sum := List.single_le_sum hmins m hm
    have hshare : m / mins.sum ≤ 1 := (div_le_one htotal).2 hle
    have hpart : 0 ≤ m / mins.sum := div_nonneg (hmins m hm) htotal.le
    calc m - 1 ≤ m - m / mins.sum := by linarith
      _ = m / mins.sum * (mins.sum - 1) := by field_simp
      _ ≤ m / mins.sum * available := mul_le_mul_of_nonneg_left hshort hpart

/-- Slots of a child list before the first pass. -/
def freshSlots (children : List LathChild) (opts : LayoutOpts) (dir : Dir) : List Slot :=
  children.map fun c => ⟨c.weight, c.node.minSpan dir opts, false, 0⟩

theorem freshSlots_sums (children : List LathChild) (opts : LayoutOpts) (dir : Dir) :
    activeMin (freshSlots children opts dir) = (childMins children opts dir).sum ∧
      clampedFrac (freshSlots children opts dir) = 0 ∧
      activeCount (freshSlots children opts dir) = children.length := by
  induction children with
  | nil => simp [freshSlots, activeMin, clampedFrac, activeCount, childMins]
  | cons c cs ih =>
    simp only [freshSlots, childMins, List.map_cons, activeMin_cons, clampedFrac_cons,
      activeCount_cons, Bool.false_eq_true, if_false, List.sum_cons, List.length_cons] at ih ⊢
    obtain ⟨h1, h2, h3⟩ := ih
    exact ⟨by rw [h1], by rw [h2, zero_add], by omega⟩

theorem filling_freshSlots {children : List LathChild} {available : ℚ} {opts : LayoutOpts}
    {dir : Dir} (h : Allocatable children opts dir)
    (hfit : (childMins children opts dir).sum ≤ available) :
    Filling (freshSlots children opts dir) available available := by
  obtain ⟨hmin, hfrac, -⟩ := freshSlots_sums children opts dir
  refine ⟨?_, ?_, ?_, by rw [hmin]; exact hfit, by rw [hfrac, add_zero]⟩
  · intro s hs
    obtain ⟨c, hc, rfl⟩ := List.mem_map.1 hs
    exact h.weight_pos c hc
  · intro s hs
    obtain ⟨c, hc, rfl⟩ := List.mem_map.1 hs
    exact h.min_nonneg c hc
  · intro s hs hclamped
    obtain ⟨c, hc, rfl⟩ := List.mem_map.1 hs
    exact absurd hclamped (by simp)

/-- The fractional extents: none negative, within the budget, and less than a pixel
short of its minimum where the budget is less than a pixel short of the minimums. -/
theorem fractionalSpans_spec {children : List LathChild} {available : ℚ} {opts : LayoutOpts}
    {dir : Dir} (h : Allocatable children opts dir) (havail : 0 ≤ available) :
    (∀ f ∈ fractionalSpans children available opts dir, 0 ≤ f) ∧
      (fractionalSpans children available opts dir).sum ≤ available ∧
      List.Forall₂ (fun m f => (childMins children opts dir).sum - 1 ≤ available → m - 1 ≤ f)
        (childMins children opts dir) (fractionalSpans children available opts dir) := by
  have hmins : ∀ m ∈ childMins children opts dir, 0 ≤ m := by
    rintro m hm
    obtain ⟨c, hc, rfl⟩ := List.mem_map.1 hm
    exact h.min_nonneg c hc
  rw [fractionalSpans, ← childMins, ← freshSlots]
  by_cases hover : available < (childMins children opts dir).sum
  · rw [if_pos hover, if_pos (havail.trans_lt hover)]
    exact proportional_spec hmins havail hover
  rw [if_neg hover]
  have hcount := (freshSlots_sums children opts dir).2.2
  obtain ⟨hfilled, hsame⟩ := waterfill_spec (children.length + 1) (by omega)
    (filling_freshSlots h (not_lt.1 hover))
  have hchild : childMins children opts dir = (waterfill (children.length + 1)
      (freshSlots children opts dir) available).map (·.min) := by
    rw [hsame, freshSlots, childMins, List.map_map]
    rfl
  refine ⟨?_, hfilled.sum_le, ?_⟩
  · intro f hf
    obtain ⟨s, hs, rfl⟩ := List.mem_map.1 hf
    exact hfilled.nonneg s hs
  · have hall : ∀ (P : Prop) (slots : List Slot), (∀ s ∈ slots, s.min - clampEps ≤ s.frac) →
        List.Forall₂ (fun m f : ℚ => P → m - 1 ≤ f) (slots.map (·.min)) (slots.map (·.frac)) := by
      intro P slots hslots
      rw [List.forall₂_map_left_iff, List.forall₂_map_right_iff, List.forall₂_same]
      intro s hs _
      have := hslots s hs
      have heps : clampEps ≤ 1 := by norm_num [clampEps]
      linarith
    generalize ((childMins children opts dir).sum - 1 ≤ available) = P
    rw [hchild]
    exact hall P _ hfilled.min_le

/-- The integer extents of a split with a whole, nonnegative budget: none negative,
filling the budget, and each at most a pixel short of a whole minimum where the
budget is at most a pixel short of the minimums. -/
theorem allocateChildSpans_spec {children : List LathChild} {span : ℚ} {available : ℤ}
    {opts : LayoutOpts} {dir : Dir} (h : Allocatable children opts dir)
    (hspan : availableSpan children span opts = available) (havail : 0 ≤ available) :
    List.Forall₂ (fun (c : LathChild) (s : ℤ) => 0 ≤ s ∧
        ((childMins children opts dir).sum - 1 ≤ available →
          (∃ k : ℤ, c.node.minSpan dir opts = k) → c.node.minSpan dir opts - 1 ≤ s))
        children (allocateChildSpans children span opts dir) ∧
      (allocateChildSpans children span opts dir).sum = available := by
  have hcast : (0 : ℚ) ≤ available := by exact_mod_cast havail
  obtain ⟨hnonneg, hsum, hmin⟩ := fractionalSpans_spec h hcast
  have hne : fractionalSpans children available opts dir ≠ [] := by
    intro hnil
    rw [hnil, List.forall₂_nil_right_iff] at hmin
    exact h.ne_nil (List.map_eq_nil_iff.1 hmin)
  obtain ⟨hround, htotal⟩ := cumulativeRound_spec hne hnonneg hsum
  rw [allocateChildSpans, hspan, max_eq_right hcast]
  refine ⟨?_, htotal⟩
  rw [childMins, List.forall₂_map_left_iff] at hmin
  refine forall₂_trans ?_ hmin hround
  rintro c f s hmf ⟨hs, hfs⟩
  refine ⟨hs, fun hshort ⟨k, hk⟩ => ?_⟩
  have hm := hmf hshort
  rw [hk] at hm ⊢
  have hlt : (k : ℚ) - 2 < s := by linarith
  have hint : k - 2 < s := by exact_mod_cast hlt
  have hle : k - 1 ≤ s := by omega
  exact_mod_cast hle

end Dormouse.Lath
