import Mathlib.Data.List.Basic

/-!
# Dormouse.Lib.Matches

**Scans for a pattern** from left to right, as a global regular expression makes them: the next
match is looked for behind the one before it.

A pattern says what it makes of the text at a position, and how much of it. `matchAll` also tells
it the element before, which is what a word boundary looks at.
-/

namespace Dormouse

variable {α β : Type*}

/-! ### Matches -/

/-- The matches in a text that starts at `index`, after `skip` elements of an earlier match. -/
def matchAllFrom (pattern : Option α → List α → Option (β × Nat)) :
    Nat → Nat → Option α → List α → List (Nat × β)
  | _, _, _, [] => []
  | index, skip + 1, _, a :: text => matchAllFrom pattern (index + 1) skip (some a) text
  | index, 0, last, a :: text =>
    match pattern last (a :: text) with
    | some (value, length) =>
      (index, value) :: matchAllFrom pattern (index + 1) (length - 1) (some a) text
    | none => matchAllFrom pattern (index + 1) 0 (some a) text

/-- The matches of a text, each with its position. -/
def matchAll (pattern : Option α → List α → Option (β × Nat)) (text : List α) : List (Nat × β) :=
  matchAllFrom pattern 0 0 none text

/-- The pattern matches at a position of the text, whether the scan stops there or not. -/
def OccursAt (pattern : Option α → List α → Option (β × Nat)) (text : List α) (index : Nat)
    (value : β) (length : Nat) : Prop :=
  ∃ before a after, text = before ++ a :: after ∧ before.length = index ∧
    pattern before.getLast? (a :: after) = some (value, length)

variable {pattern : Option α → List α → Option (β × Nat)}

theorem occursAt_of_mem_matchAllFrom {before text : List α} {skip i : Nat} {value : β}
    (h : (i, value) ∈ matchAllFrom pattern before.length skip before.getLast? text) :
    ∃ length, OccursAt pattern (before ++ text) i value length := by
  induction text generalizing before skip with
  | nil => simp [matchAllFrom] at h
  | cons a text ih =>
    have hnext : ∀ {skip : Nat},
        (i, value) ∈ matchAllFrom pattern (before.length + 1) skip (some a) text →
          ∃ length, OccursAt pattern (before ++ a :: text) i value length := by
      intro skip hmem
      have hstep := @ih (before ++ [a]) skip (by simpa using hmem)
      rwa [List.append_assoc, List.singleton_append] at hstep
    cases skip with
    | succ skip => exact hnext h
    | zero =>
      rw [matchAllFrom] at h
      split at h
      · rename_i found length hpattern
        rcases List.mem_cons.1 h with heq | hrest
        · cases heq
          exact ⟨length, before, a, text, rfl, rfl, hpattern⟩
        · exact hnext hrest
      · exact hnext h

/-- What the scan finds occurs. -/
theorem occursAt_of_mem_matchAll {text : List α} {i : Nat} {value : β}
    (h : (i, value) ∈ matchAll pattern text) : ∃ length, OccursAt pattern text i value length :=
  @occursAt_of_mem_matchAllFrom _ _ _ [] text 0 i value h

theorem matchAllFrom_complete {before text : List α} {skip i length : Nat} {value : β}
    (h : OccursAt pattern (before ++ text) i value length) (hi : before.length ≤ i) :
    i < before.length + skip ∨
      (i, value) ∈ matchAllFrom pattern before.length skip before.getLast? text ∨
      ∃ j found span, OccursAt pattern (before ++ text) j found span ∧
        (j, found) ∈ matchAllFrom pattern before.length skip before.getLast? text ∧
        j < i ∧ i < j + span := by
  induction text generalizing before skip with
  | nil =>
    -- There is no element left to match.
    obtain ⟨ahead, a, after, heq, hlen, -⟩ := h
    have := congrArg List.length heq
    simp at this
    omega
  | cons a text ih =>
    have hwhole : before ++ a :: text = (before ++ [a]) ++ text := by simp
    have hlast : (before ++ [a]).getLast? = some a := by simp
    have hlength : (before ++ [a]).length = before.length + 1 := by simp
    by_cases hhere : i = before.length
    · cases skip with
      | succ skip => exact .inl (by omega)
      | zero =>
        right; left
        obtain ⟨ahead, b, after, heq, hlen, hpattern⟩ := h
        obtain ⟨rfl, hrest⟩ := List.append_inj heq (by rw [hlen, hhere])
        rw [hrest, matchAllFrom, hpattern, hhere]
        exact List.mem_cons_self
    · -- The match is further on: what the scan finds there it finds from here.
      have hnext : ∀ skip', i < before.length + 1 + skip' ∨
          (i, value) ∈ matchAllFrom pattern (before.length + 1) skip' (some a) text ∨
          ∃ j found span, OccursAt pattern (before ++ a :: text) j found span ∧
            (j, found) ∈ matchAllFrom pattern (before.length + 1) skip' (some a) text ∧
            j < i ∧ i < j + span := by
        intro skip'
        have hstep := @ih (before ++ [a]) skip' (hwhole ▸ h) (by omega)
        rwa [hlast, hlength, ← hwhole] at hstep
      cases skip with
      | succ skip =>
        rw [matchAllFrom]
        rcases hnext skip with hlt | hrest
        · exact .inl (by omega)
        · exact .inr hrest
      | zero =>
        rw [matchAllFrom]
        split
        · rename_i found span hpattern
          have hoccurs : OccursAt pattern (before ++ a :: text) before.length found span :=
            ⟨before, a, text, rfl, rfl, hpattern⟩
          rcases hnext (span - 1) with hlt | hmem | ⟨j, w, n, hj, hmem, hji, hij⟩
          · exact .inr (.inr ⟨_, found, span, hoccurs, List.mem_cons_self, by omega, by omega⟩)
          · exact .inr (.inl (List.mem_cons_of_mem _ hmem))
          · exact .inr (.inr ⟨j, w, n, hj, List.mem_cons_of_mem _ hmem, hji, hij⟩)
        · rcases hnext 0 with hlt | hrest
          · omega
          · exact .inr hrest

/-- The scan finds every occurrence that does not start inside one that it finds. -/
theorem matchAll_complete {text : List α} {i length : Nat} {value : β}
    (h : OccursAt pattern text i value length) :
    (i, value) ∈ matchAll pattern text ∨
      ∃ j found span, OccursAt pattern text j found span ∧ (j, found) ∈ matchAll pattern text ∧
        j < i ∧ i < j + span := by
  rcases @matchAllFrom_complete _ _ _ [] text 0 i length value h (Nat.zero_le i) with hlt | hrest
  · exact absurd hlt (Nat.not_lt_zero i)
  · exact hrest

/-- Positions count from where the text starts. -/
theorem matchAllFrom_add (k index skip : Nat) (last : Option α) (text : List α) :
    matchAllFrom pattern (index + k) skip last text =
      (matchAllFrom pattern index skip last text).map fun m => (m.1 + k, m.2) := by
  induction text generalizing index skip last with
  | nil => rfl
  | cons a text ih =>
    have hindex : index + k + 1 = index + 1 + k := by omega
    cases skip with
    | succ skip => rw [matchAllFrom, matchAllFrom, hindex, ih]
    | zero =>
      rw [matchAllFrom, matchAllFrom, hindex]
      split
      · rw [ih, List.map_cons]
      · exact ih _ _ _

/-! ### Replacing -/

/-- A text with its matches replaced, after `skip` elements of an earlier match. -/
def replaceFrom (pattern : List α → Option (List α × Nat)) : Nat → List α → List α
  | _, [] => []
  | skip + 1, _ :: text => replaceFrom pattern skip text
  | 0, a :: text =>
    match pattern (a :: text) with
    | some (replacement, length) => replacement ++ replaceFrom pattern (length - 1) text
    | none => a :: replaceFrom pattern 0 text

/-- A text with its matches replaced. -/
def replaceAll (pattern : List α → Option (List α × Nat)) (text : List α) : List α :=
  replaceFrom pattern 0 text

theorem replaceAll_cons {pattern : List α → Option (List α × Nat)} {a : α} {text : List α}
    (h : pattern (a :: text) = none) :
    replaceAll pattern (a :: text) = a :: replaceAll pattern text := by
  rw [replaceAll, replaceFrom, h, replaceAll]

end Dormouse
