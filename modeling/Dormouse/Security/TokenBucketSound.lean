import Dormouse.Security.Challenge
import Mathlib.Tactic.Linarith
import Mathlib.Tactic.NormNum

/-!
# Dormouse.Security.TokenBucketSound

**The rate of a bucket**: whatever the clock reads, what a window of takes spends is bounded by the
capacity and the intervals of the window; and the wait that is answered is the one that is needed.
-/

namespace Dormouse.Security

open Terminal (Ms)

namespace TokenBucket

variable {bucket : TokenBucket} {now until_ : Ms} {nows : List Ms}

/-- Take at each reading of the clock in turn. -/
def after (bucket : TokenBucket) (nows : List Ms) : TokenBucket :=
  nows.foldl (fun bucket now => (bucket.take now).1) bucket

/-- How many takes succeed. -/
def granted : TokenBucket → List Ms → Nat
  | _, [] => 0
  | bucket, now :: nows =>
    (if (bucket.take now).2 = none then 1 else 0) + (bucket.take now).1.granted nows

/-! ### One take -/

/-- The whole intervals since the last refill. -/
def refills (bucket : TokenBucket) (now : Ms) : Nat :=
  ⌊max 0 (now - bucket.lastRefillAt) / bucket.refillIntervalMs⌋.toNat

/-- The bucket with its refill, before a token is spent. -/
def refilled (bucket : TokenBucket) (now : Ms) : TokenBucket :=
  { bucket with
    tokens := min bucket.capacity (bucket.tokens + bucket.refills now)
    lastRefillAt := bucket.lastRefillAt + bucket.refills now * bucket.refillIntervalMs }

structure Sound (bucket : TokenBucket) : Prop where
  capacity_pos : 0 < bucket.capacity
  interval_pos : 0 < bucket.refillIntervalMs
  tokens_le : bucket.tokens ≤ bucket.capacity

theorem take_eq (hsound : bucket.Sound) (now : Ms) :
    bucket.take now =
      if 0 < (bucket.refilled now).tokens then
        ({ bucket.refilled now with tokens := (bucket.refilled now).tokens - 1 }, none)
      else (bucket.refilled now,
        some (max 1 ((bucket.refilled now).refillIntervalMs - max 0 (now - bucket.lastRefillAt)))) := by
  have hbucket : (if 0 < bucket.refills now then bucket.refilled now else bucket) =
      bucket.refilled now := by
    by_cases hrefill : 0 < bucket.refills now
    · rw [if_pos hrefill]
    · simp [refilled, Nat.eq_zero_of_not_pos hrefill, hsound.tokens_le]
  rw [← hbucket]
  rfl

theorem Sound.refilled (hsound : bucket.Sound) (now : Ms) : (bucket.refilled now).Sound :=
  { hsound with tokens_le := min_le_left _ _ }

theorem Sound.take (hsound : bucket.Sound) (now : Ms) : (bucket.take now).1.Sound := by
  rw [take_eq hsound]
  split
  · have hrefilled := hsound.refilled now
    exact { hrefilled with tokens_le := (Nat.sub_le _ _).trans hrefilled.tokens_le }
  · exact hsound.refilled now

theorem take_options : (bucket.take now).1.capacity = bucket.capacity ∧
    (bucket.take now).1.refillIntervalMs = bucket.refillIntervalMs := by
  unfold take
  constructor <;> dsimp only <;> split_ifs <;> rfl

theorem Sound.after (hsound : bucket.Sound) (nows : List Ms) :
    (bucket.after nows).Sound ∧ (bucket.after nows).capacity = bucket.capacity ∧
      (bucket.after nows).refillIntervalMs = bucket.refillIntervalMs := by
  induction nows generalizing bucket with
  | nil => exact ⟨hsound, rfl, rfl⟩
  | cons now nows ih =>
    obtain ⟨hafter, hcapacity, hinterval⟩ := ih (hsound.take now)
    obtain ⟨hsame, hsame'⟩ := take_options 
    exact ⟨hafter, hcapacity.trans hsame, hinterval.trans hsame'⟩

/-- What a take leaves stands at the same refill, so later refills are counted from there. -/
theorem take_refills (hsound : bucket.Sound) :
    (bucket.take now).1.refills until_ = (bucket.refilled now).refills until_ := by
  rw [take_eq hsound]
  split <;> rfl

theorem refills_mul_le (hsound : bucket.Sound) (now : Ms) :
    bucket.refills now * bucket.refillIntervalMs ≤ max 0 (now - bucket.lastRefillAt) := by
  have hpos : (0 : ℚ) < bucket.refillIntervalMs := by exact_mod_cast hsound.interval_pos
  rw [← le_div_iff₀ hpos, refills, Int.floor_toNat]
  exact Nat.floor_le (by positivity)

/-- Refilled on the way or at the end, it is no more intervals. -/
theorem refills_refilled (hsound : bucket.Sound) (hle : now ≤ until_) :
    bucket.refills now + (bucket.refilled now).refills until_ ≤ bucket.refills until_ := by
  have hpos : (0 : ℚ) < bucket.refillIntervalMs := by exact_mod_cast hsound.interval_pos
  have hfirst := refills_mul_le hsound now
  have hsecond := refills_mul_le (hsound.refilled now) until_
  have hlast : (bucket.refilled now).lastRefillAt =
      bucket.lastRefillAt + bucket.refills now * bucket.refillIntervalMs := rfl
  have hinterval : (bucket.refilled now).refillIntervalMs = bucket.refillIntervalMs := rfl
  rw [hlast, hinterval] at hsecond
  have hmono : max 0 (now - bucket.lastRefillAt) ≤ max 0 (until_ - bucket.lastRefillAt) :=
    max_le_max_left 0 (sub_le_sub_right hle _)
  rw [refills.eq_def bucket until_, Int.floor_toNat]
  refine Nat.le_floor ((le_div_iff₀ hpos).2 ?_)
  push_cast
  rcases max_cases 0 (until_ - (bucket.lastRefillAt + bucket.refills now * bucket.refillIntervalMs))
    with ⟨h, -⟩ | ⟨h, -⟩
  · linarith
  · have hself := le_max_right 0 (until_ - bucket.lastRefillAt)
    linarith

/-! ### A window of takes -/

/-- **No take succeeds without a token**, held at the start or refilled on the way. -/
theorem granted_le (hsound : bucket.Sound) (hnows : ∀ now ∈ nows, now ≤ until_) :
    bucket.granted nows ≤ bucket.tokens + bucket.refills until_ := by
  induction nows generalizing bucket with
  | nil => exact Nat.zero_le _
  | cons now nows ih =>
    obtain ⟨hnow, hrest⟩ := List.forall_mem_cons.1 hnows
    have hlater := ih (hsound.take now) hrest
    have hrefills := refills_refilled hsound hnow
    have htokens : (bucket.refilled now).tokens ≤ bucket.tokens + bucket.refills now :=
      min_le_right _ _
    rw [take_refills hsound] at hlater
    rw [granted]
    rw [take_eq hsound] at hlater ⊢
    split at hlater
    case isTrue hpos =>
      simp only [if_pos hpos] at hlater ⊢
      simp only [↓reduceIte]
      omega
    case isFalse hpos =>
      simp only [if_neg hpos] at hlater ⊢
      simp
      omega

/-- After a take the clock stands within an interval of the last refill. -/
theorem refilled_recent (hsound : bucket.Sound) (now : Ms) :
    now < (bucket.refilled now).lastRefillAt + bucket.refillIntervalMs := by
  have hpos : (0 : ℚ) < bucket.refillIntervalMs := by exact_mod_cast hsound.interval_pos
  have hfloor := Nat.lt_floor_add_one (max 0 (now - bucket.lastRefillAt) / bucket.refillIntervalMs)
  rw [← Int.floor_toNat, div_lt_iff₀ hpos] at hfloor
  change _ < ((bucket.refills now : ℚ) + 1) * bucket.refillIntervalMs at hfloor
  have hself := le_max_right 0 (now - bucket.lastRefillAt)
  change now < bucket.lastRefillAt + bucket.refills now * bucket.refillIntervalMs + _
  linarith

/-- A window of takes spends the capacity, its own intervals and one more. -/
theorem granted_window (hsound : bucket.Sound) {start length : Ms}
    (hnows : ∀ now ∈ nows, now ≤ start + length) :
    bucket.granted (start :: nows) ≤
      bucket.capacity + ⌊length / bucket.refillIntervalMs⌋₊ + 1 := by
  have hpos : (0 : ℚ) < bucket.refillIntervalMs := by exact_mod_cast hsound.interval_pos
  have hlater := granted_le (hsound.take start) hnows
  rw [take_refills hsound] at hlater
  have hrefills : (bucket.refilled start).refills (start + length) ≤
      ⌊length / bucket.refillIntervalMs⌋₊ + 1 := by
    have hrecent := refilled_recent hsound start
    have hwindow := Nat.lt_floor_add_one (length / bucket.refillIntervalMs)
    rw [div_lt_iff₀ hpos] at hwindow
    have hmul := refills_mul_le (hsound.refilled start) (start + length)
    change _ * (bucket.refillIntervalMs : ℚ) ≤ _ at hmul
    refine Nat.lt_succ_iff.1 ?_
    have hlt : ((bucket.refilled start).refills (start + length) : ℚ) * bucket.refillIntervalMs <
        ((⌊length / bucket.refillIntervalMs⌋₊ + 2 : ℕ) : ℚ) * bucket.refillIntervalMs := by
      refine hmul.trans_lt (max_lt (by positivity) ?_)
      push_cast
      linarith
    exact_mod_cast lt_of_mul_lt_mul_right hlt hpos.le
  have hspent : (if (bucket.take start).2 = none then 1 else 0) + (bucket.take start).1.tokens ≤
      bucket.capacity := by
    have htokens := (hsound.refilled start).tokens_le
    change _ ≤ bucket.capacity at htokens
    rw [take_eq hsound]
    split
    case isTrue hpos =>
      simp only [↓reduceIte]
      omega
    case isFalse hpos =>
      simp only [reduceCtorEq, ↓reduceIte]
      omega
  rw [granted]
  omega

/-! ### The wait that is answered -/

/-- A refused take leaves the bucket as it is, with nothing in it. -/
theorem take_refused (hsound : bucket.Sound) {wait : Ms} (h : (bucket.take now).2 = some wait) :
    (bucket.take now).1 = bucket ∧ bucket.tokens = 0 ∧
      wait = max 1 (bucket.refillIntervalMs - max 0 (now - bucket.lastRefillAt)) := by
  rw [take_eq hsound] at h ⊢
  split at h
  case isTrue => cases h
  case isFalse hempty =>
    rw [if_neg hempty]
    have hcapacity := hsound.capacity_pos
    have hnone : bucket.tokens = 0 ∧ bucket.refills now = 0 := by
      simp only [refilled, not_lt, Nat.le_zero] at hempty
      omega
    have hsame : bucket.refilled now = bucket := by
      simp [refilled, hnone.2, hsound.tokens_le]
    exact ⟨hsame, hnone.1, (Option.some.inj h).symm⟩

/-- From an empty bucket a take succeeds an interval after the last refill, and not before. -/
theorem take_granted_iff (hsound : bucket.Sound) (hempty : bucket.tokens = 0) :
    (bucket.take now).2 = none ↔ bucket.refillIntervalMs ≤ now - bucket.lastRefillAt := by
  have hpos : (0 : ℚ) < bucket.refillIntervalMs := by exact_mod_cast hsound.interval_pos
  have hcapacity := hsound.capacity_pos
  have hrefill : 0 < (bucket.refilled now).tokens ↔ 0 < bucket.refills now := by
    simp only [refilled, hempty]
    omega
  have helapsed : 0 < bucket.refills now ↔
      (bucket.refillIntervalMs : ℚ) ≤ now - bucket.lastRefillAt := by
    rw [refills, Int.floor_toNat, Nat.floor_pos, one_le_div hpos, le_max_iff]
    exact or_iff_right hpos.not_ge
  rw [← helapsed, ← hrefill, take_eq hsound]
  split <;> simp_all

theorem after_lastRefillAt (hsound : bucket.Sound)
    (hnows : (bucket.lastRefillAt :: (nows ++ [now])).Pairwise (· ≤ ·)) :
    (bucket.after nows).lastRefillAt ≤ now := by
  induction nows generalizing bucket with
  | nil => exact List.rel_of_pairwise_cons hnows (List.mem_singleton_self now)
  | cons first nows ih =>
    have hfirst := List.rel_of_pairwise_cons hnows (List.mem_cons_self ..)
    refine ih (hsound.take first) (List.pairwise_cons.2 ⟨fun later hlater => ?_, hnows.of_cons.of_cons⟩)
    have hlast : (bucket.take first).1.lastRefillAt = (bucket.refilled first).lastRefillAt := by
      rw [take_eq hsound]
      split <;> rfl
    have hmul := refills_mul_le hsound first
    rw [max_eq_right (sub_nonneg.2 hfirst)] at hmul
    have hlater := List.rel_of_pairwise_cons hnows.of_cons hlater
    rw [hlast]
    change bucket.lastRefillAt + _ ≤ later
    linarith

/-- The wait that is answered is enough; with more than a millisecond left, less is not. -/
theorem wait_exact (hsound : bucket.Sound) (hlast : bucket.lastRefillAt ≤ now) {wait : Ms}
    (hwait : (bucket.take now).2 = some wait) :
    ((bucket.take now).1.take (now + wait)).2 = none ∧
    ∀ less, 0 ≤ less → less < wait → (wait = 1 → less = 0) →
      ((bucket.take now).1.take (now + less)).2 ≠ none := by
  obtain ⟨hkept, hempty, hwait'⟩ := take_refused hsound hwait
  have hgranted := @take_granted_iff bucket now hsound hempty
  rw [hwait, max_eq_right (sub_nonneg.2 hlast)] at *
  simp only [hkept, ne_eq, take_granted_iff hsound hempty, not_le]
  have helapsed : now - bucket.lastRefillAt < bucket.refillIntervalMs := by
    simpa using hgranted
  rcases max_cases 1 (bucket.refillIntervalMs - (now - bucket.lastRefillAt)) with
    ⟨hmax, hle⟩ | ⟨hmax, hlt⟩
  · refine ⟨by linarith, fun less _ _ hwhole => ?_⟩
    rw [hwhole (hwait'.trans hmax)]
    linarith
  · exact ⟨by linarith, fun less _ hless _ => by linarith⟩

/-- **The rate of a bucket**: its tokens stay within the capacity, any window spends no more than
the capacity, its intervals and one, and the wait that is answered is needed, all but a fraction of
the last millisecond. -/
theorem rate_law {capacity refillIntervalMs : Nat} (hcapacity : 0 < capacity)
    (hinterval : 0 < refillIntervalMs) (started : Ms) (nows : List Ms) :
    let bucket := (fresh capacity refillIntervalMs started).after nows
    bucket.tokens ≤ capacity ∧
    (∀ (start length : Ms) (later : List Ms), (∀ now ∈ later, now ≤ start + length) →
      bucket.granted (start :: later) ≤ capacity + ⌊length / refillIntervalMs⌋₊ + 1) ∧
    ∀ now wait, (started :: (nows ++ [now])).Pairwise (· ≤ ·) →
      (bucket.take now).2 = some wait →
      ((bucket.take now).1.take (now + wait)).2 = none ∧
      ∀ less, 0 ≤ less → less < wait → (wait = 1 → less = 0) →
        ((bucket.take now).1.take (now + less)).2 ≠ none := by
  have hfresh : (fresh capacity refillIntervalMs started).Sound := ⟨hcapacity, hinterval, le_rfl⟩
  obtain ⟨hsound, hsame, hsame'⟩ := hfresh.after nows
  refine ⟨hsound.tokens_le.trans_eq hsame, fun start length later hlater => ?_,
    fun now wait hmono hwait => wait_exact hsound (after_lastRefillAt hfresh hmono) hwait⟩
  have hwindow := granted_window hsound hlater
  rwa [hsame, hsame'] at hwindow

theorem rate_law_two :
    ((fresh 1 10 0).after [0]).granted [3, 13] ≤ 1 + ⌊(10 : Ms) / (10 : Nat)⌋₊ + 1 :=
  (rate_law (by decide) (by decide) 0 [0]).2.1 3 10 [13] (by norm_num)

/-- With half a millisecond left the answer is one millisecond, and the half is enough. -/
theorem wait_rounded_up :
    ¬ ∀ capacity refillIntervalMs : Nat, 0 < capacity → 0 < refillIntervalMs →
      ∀ started nows now wait, (started :: (nows ++ [now])).Pairwise (· ≤ ·) →
        (((fresh capacity refillIntervalMs started).after nows).take now).2 = some wait →
        ∀ less, 0 ≤ less → less < wait →
          ((((fresh capacity refillIntervalMs started).after nows).take now).1.take
            (now + less)).2 ≠ none := by
  intro h
  exact h 1 10 (by decide) (by decide) 0 [0] (19 / 2) 1 (by decide +kernel) (by decide +kernel)
    (1 / 2) (by decide +kernel) (by decide +kernel) (by decide +kernel)

end TokenBucket

end Dormouse.Security
