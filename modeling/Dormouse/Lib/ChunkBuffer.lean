import Mathlib.Data.List.DropRight
import Mathlib.Data.List.Infix

/-!
# Dormouse.Lib.ChunkBuffer

**Bounded buffers of chunks**: what arrives is appended as one chunk, and the front is
dropped, whole chunks first, when the buffer holds too much. What is left is always the end
of what arrived.

The number of items is a field, kept equal to what the chunks hold, because that is what a
program counts instead of joining the chunks.
-/

namespace Dormouse

variable {α : Type*}

/-- Chunks, oldest first, and how many items they hold together. -/
structure ChunkBuffer (α : Type*) where
  chunks : List (List α)
  chars : Nat
  chars_eq : chars = chunks.flatten.length

namespace ChunkBuffer

def empty : ChunkBuffer α := ⟨[], 0, rfl⟩

def joined (b : ChunkBuffer α) : List α := b.chunks.flatten

def push (b : ChunkBuffer α) (data : List α) : ChunkBuffer α :=
  ⟨b.chunks ++ [data], b.chars + data.length, by simp [b.chars_eq]⟩

@[simp] theorem joined_empty : (empty : ChunkBuffer α).joined = [] := rfl

@[simp] theorem joined_push (b : ChunkBuffer α) (data : List α) :
    (b.push data).joined = b.joined ++ data := by
  simp [joined, push]

theorem length_joined (b : ChunkBuffer α) : b.joined.length = b.chars := b.chars_eq.symm

/-! ### Dropping from the front -/

/-- Drop the oldest chunk while `full`, asked with the number of items held and the oldest
chunk, says so, but never the last one. -/
def evictFrom (full : Nat → List α → Bool) : List (List α) → Nat → List (List α) × Nat
  | c :: c' :: cs, total =>
    if full total c then evictFrom full (c' :: cs) (total - c.length) else (c :: c' :: cs, total)
  | cs, total => (cs, total)

theorem evictFrom_chars (full : Nat → List α → Bool) (cs : List (List α)) (total : Nat)
    (h : total = cs.flatten.length) :
    (evictFrom full cs total).2 = (evictFrom full cs total).1.flatten.length := by
  induction cs generalizing total with
  | nil => exact h
  | cons c cs ih =>
    cases cs with
    | nil => exact h
    | cons c' cs =>
      rw [evictFrom]
      split
      · refine ih _ ?_
        rw [h, List.flatten_cons, List.length_append, Nat.add_sub_cancel_left]
      · exact h

def evict (full : Nat → List α → Bool) (b : ChunkBuffer α) : ChunkBuffer α :=
  ⟨(evictFrom full b.chunks b.chars).1, (evictFrom full b.chunks b.chars).2,
    evictFrom_chars full b.chunks b.chars b.chars_eq⟩

/-- Drop the first `n` items of the oldest chunk. -/
def dropHead (n : Nat) (b : ChunkBuffer α) : ChunkBuffer α :=
  match hb : b.chunks with
  | [] => b
  | c :: cs =>
    ⟨c.drop n :: cs, b.chars - min n c.length, by
      rw [b.chars_eq, hb]
      simp only [List.flatten_cons, List.length_append, List.length_drop]
      omega⟩

theorem evictFrom_suffix (full : Nat → List α → Bool) (cs : List (List α)) (total : Nat) :
    (evictFrom full cs total).1.flatten <:+ cs.flatten := by
  induction cs generalizing total with
  | nil => exact List.suffix_refl _
  | cons c cs ih =>
    cases cs with
    | nil => exact List.suffix_refl _
    | cons c' cs =>
      rw [evictFrom]
      split
      · exact (ih _).trans (List.suffix_append c _)
      · exact List.suffix_refl _

theorem evict_suffix (full : Nat → List α → Bool) (b : ChunkBuffer α) :
    (b.evict full).joined <:+ b.joined :=
  evictFrom_suffix full b.chunks b.chars

theorem dropHead_suffix (n : Nat) (b : ChunkBuffer α) : (b.dropHead n).joined <:+ b.joined := by
  unfold dropHead
  split
  · exact List.suffix_refl _
  · rename_i c cs hb
    have hjoined : b.joined = c ++ cs.flatten := by rw [joined, hb, List.flatten_cons]
    obtain ⟨front, hfront⟩ := List.drop_suffix n c
    rw [hjoined]
    exact ⟨front, by rw [joined, List.flatten_cons, ← List.append_assoc, hfront]⟩

/-- Eviction ends with one chunk, or when it is no longer asked for. -/
theorem evict_done (full : Nat → List α → Bool) (b : ChunkBuffer α) :
    (b.evict full).chunks.length ≤ 1 ∨
      ∃ c cs, (b.evict full).chunks = c :: cs ∧ full (b.evict full).chars c = false := by
  show (evictFrom full b.chunks b.chars).1.length ≤ 1 ∨
    ∃ c cs, (evictFrom full b.chunks b.chars).1 = c :: cs ∧
      full (evictFrom full b.chunks b.chars).2 c = false
  generalize b.chars = total
  induction b.chunks generalizing total with
  | nil => exact .inl (Nat.zero_le _)
  | cons c cs ih =>
    cases cs with
    | nil => exact .inl (Nat.le_refl _)
    | cons c' cs =>
      rw [evictFrom]
      split
      · exact ih _
      · rename_i hfull
        exact .inr ⟨c, c' :: cs, rfl, Bool.not_eq_true _ ▸ hfull⟩

theorem chars_evict_le (full : Nat → List α → Bool) (b : ChunkBuffer α) :
    (b.evict full).chars ≤ b.chars := by
  rw [← length_joined, ← length_joined]
  exact (evict_suffix full b).length_le

/-- Eviction leaves what `full` spares. -/
theorem le_chars_evict {full : Nat → List α → Bool} {n : Nat}
    (hfull : ∀ total c, full total c = true → n ≤ total - c.length) (b : ChunkBuffer α) :
    min n b.chars ≤ (b.evict full).chars := by
  show min n b.chars ≤ (evictFrom full b.chunks b.chars).2
  generalize b.chars = total
  induction b.chunks generalizing total with
  | nil => exact Nat.min_le_right _ _
  | cons c cs ih =>
    rcases cs with _ | ⟨c', cs⟩
    · exact Nat.min_le_right _ _
    rw [evictFrom]
    split
    · rename_i hevicts
      have hspared := hfull total c hevicts
      have hrest := ih (total - c.length)
      omega
    · exact Nat.min_le_right _ _

theorem chars_dropHead (n : Nat) {b : ChunkBuffer α} {c : List α} {cs : List (List α)}
    (h : b.chunks = c :: cs) : (b.dropHead n).chars = b.chars - min n c.length := by
  unfold dropHead
  split
  · rename_i hb
    exact absurd (h.symm.trans hb) nofun
  · rename_i c' cs' hb
    rw [h] at hb
    cases hb
    rfl

theorem chars_dropHead_of_single (n : Nat) {b : ChunkBuffer α} (h : b.chunks.length ≤ 1) :
    (b.dropHead n).chars = b.chars - n := by
  have hchars := b.chars_eq
  unfold dropHead
  split
  · rename_i hb
    rw [hb] at hchars
    simp only [List.flatten_nil, List.length_nil] at hchars
    omega
  rename_i c cs hb
  rw [hb, List.length_cons] at h
  have hcs : cs = [] := List.length_eq_zero_iff.1 (by omega)
  rw [hb, hcs, List.flatten_singleton] at hchars
  show b.chars - min n c.length = b.chars - n
  omega

/-! ### Reading from the end -/

/-- Chunks taken from the end, newest first in the list, until they hold `wanted` items. -/
def collect (wanted : Nat) : List (List α) → List (List α) → Nat → List (List α) × Nat
  | c :: older, taken, held =>
    if held < wanted then collect wanted older (c :: taken) (held + c.length) else (taken, held)
  | [], taken, held => (taken, held)

/-- The last `wanted` items, joining only the chunks that hold them. -/
def lastItems (b : ChunkBuffer α) (wanted : Nat) : List α :=
  let (taken, held) := collect wanted b.chunks.reverse [] 0
  if wanted < held then taken.flatten.drop (held - wanted) else taken.flatten

/-- What is collected is the end of the whole: enough of it, or all. -/
theorem collect_spec (wanted : Nat) (newest taken : List (List α)) (held : Nat)
    (hheld : held = taken.flatten.length) :
    (collect wanted newest taken held).2 = (collect wanted newest taken held).1.flatten.length ∧
      (collect wanted newest taken held).1.flatten <:+ newest.reverse.flatten ++ taken.flatten ∧
        (wanted ≤ (collect wanted newest taken held).2 ∨
          (collect wanted newest taken held).1.flatten = newest.reverse.flatten ++ taken.flatten) := by
  induction newest generalizing taken held with
  | nil => exact ⟨hheld, List.suffix_refl _, .inr rfl⟩
  | cons c older ih =>
    rw [collect]
    split
    · have hwhole : (c :: older).reverse.flatten ++ taken.flatten =
          older.reverse.flatten ++ (c :: taken).flatten := by
        simp
      rw [hwhole]
      exact ih (c :: taken) (held + c.length) (by simp [hheld, Nat.add_comm])
    · rename_i hwanted
      exact ⟨hheld, List.suffix_append _ _, .inl (by omega)⟩

theorem drop_of_suffix {s l : List α} (h : s <:+ l) {wanted : Nat} (hwanted : wanted ≤ s.length) :
    s.drop (s.length - wanted) = l.drop (l.length - wanted) := by
  obtain ⟨front, rfl⟩ := h
  rw [List.length_append, Nat.add_sub_assoc hwanted, List.drop_length_add_append]

/-- The end of a list is known by its length. -/
theorem eq_rtake_of_suffix {s l : List α} (h : s <:+ l) {n : Nat} (hlength : s.length = min n l.length) :
    s = l.rtake n := by
  rw [List.suffix_iff_eq_drop.1 h, List.rtake, hlength]
  congr 1
  omega

theorem length_rtake (l : List α) (n : Nat) : (l.rtake n).length = min n l.length := by
  rw [List.rtake, List.length_drop]
  omega

/-- What comes to the end of a list comes to the end of its end. -/
theorem rtake_rtake_append (l data : List α) (n : Nat) :
    (l.rtake n ++ data).rtake n = (l ++ data).rtake n := by
  have hsuffix : (l.rtake n ++ data).rtake n <:+ l ++ data := by
    obtain ⟨front, hfront⟩ : l.rtake n <:+ l := List.drop_suffix _ _
    refine (List.drop_suffix _ _).trans ⟨front, ?_⟩
    rw [← List.append_assoc, hfront]
  refine eq_rtake_of_suffix hsuffix ?_
  rw [length_rtake, List.length_append, length_rtake, List.length_append]
  omega

theorem lastItems_eq (b : ChunkBuffer α) {wanted : Nat} (h : wanted ≤ b.chars) :
    b.lastItems wanted = b.joined.drop (b.chars - wanted) := by
  obtain ⟨hheld, hsuffix, henough⟩ := collect_spec wanted b.chunks.reverse [] 0 rfl
  rw [List.reverse_reverse, List.flatten_nil, List.append_nil] at hsuffix henough
  show (if wanted < (collect wanted b.chunks.reverse [] 0).2 then _ else _) = _
  generalize collect wanted b.chunks.reverse [] 0 = found at hheld hsuffix henough
  have hchars := b.length_joined
  have hwanted : wanted ≤ found.1.flatten.length := by
    rcases henough with henough | hall
    · omega
    · rw [hall]
      exact h.trans b.chars_eq.le
  have hdrop := drop_of_suffix hsuffix hwanted
  rw [← hheld] at hdrop
  rw [joined] at hchars
  split
  · rw [hdrop, joined, hchars]
  · have hnone : found.2 - wanted = 0 := by omega
    rw [hnone, List.drop_zero] at hdrop
    rw [hdrop, joined, hchars]

end ChunkBuffer

end Dormouse
