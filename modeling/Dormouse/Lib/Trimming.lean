import Mathlib.Data.List.DropRight
import Mathlib.Data.List.TakeWhile
import Dormouse.Lib.JsString

/-!
# Dormouse.Lib.Trimming

**Trimmed and truncated strings**: what `trim` leaves has no blank at either end, and is left as it
is; what is cut off behind a number of code points has no more of them.
-/

namespace Dormouse.JsString

/-- No blank at either end. -/
structure Trimmed (s : JsString) : Prop where
  head : ∀ c ∈ s.head?, isWhitespace c = false
  last : ∀ c ∈ s.getLast?, isWhitespace c = false

theorem trimEnd_le (s : JsString) : trimEnd s <+: s := List.rdropWhile_prefix _ s

theorem trimStart_of_head {s : JsString} (h : ∀ c ∈ s.head?, isWhitespace c = false) :
    trimStart s = s := by
  cases s with
  | nil => rfl
  | cons c rest => exact List.dropWhile_cons_of_neg (by simp [h c rfl])

theorem head_trimStart (s : JsString) : ∀ c ∈ (trimStart s).head?, isWhitespace c = false := by
  intro c hc
  have hnot := List.head?_dropWhile_not isWhitespace s
  rw [show (s.dropWhile isWhitespace).head? = some c from hc] at hnot
  simpa using hnot

theorem head_of_le {s t : JsString} (h : s <+: t)
    (ht : ∀ c ∈ t.head?, isWhitespace c = false) : ∀ c ∈ s.head?, isWhitespace c = false := by
  obtain ⟨rest, rfl⟩ := h
  cases s with
  | nil => exact nofun
  | cons c s => exact ht

theorem last_trimEnd (s : JsString) : ∀ c ∈ (trimEnd s).getLast?, isWhitespace c = false := by
  intro c hc
  have hne : s.rdropWhile isWhitespace ≠ [] := by
    intro hnil
    rw [show trimEnd s = [] from hnil] at hc
    cases hc
  have hlast := List.rdropWhile_last_not (p := isWhitespace) (l := s) hne
  rw [show trimEnd s = s.rdropWhile isWhitespace from rfl, List.getLast?_eq_some_getLast hne] at hc
  cases hc
  simpa using hlast

theorem trimmed_trim (s : JsString) : (trim s).Trimmed :=
  ⟨head_of_le (trimEnd_le _) (head_trimStart s), last_trimEnd _⟩

theorem Trimmed.trim_eq {s : JsString} (h : s.Trimmed) : trim s = s := by
  rw [trim, trimStart_of_head h.head]
  refine List.rdropWhile_eq_self_iff.2 fun hne => ?_
  have hlast := h.last (s.getLast hne) (List.getLast?_eq_some_getLast hne)
  simp [hlast]

theorem trim_infix (s : JsString) : trim s <:+: s :=
  (trimEnd_le _).isInfix.trans (List.dropWhile_suffix isWhitespace).isInfix

/-! ### Code points -/

theorem flatten_codePoints (s : JsString) : (codePoints s).flatten = s := by
  fun_induction codePoints s with
  | case1 => rfl
  | case2 c => rfl
  | case3 c d rest hpair ih => rw [List.flatten_cons, ih, List.cons_append, List.singleton_append]
  | case4 c d rest hpair ih => rw [List.flatten_cons, ih, List.singleton_append]

theorem codePoints_pos {s : JsString} (h : s ≠ []) : 0 < (codePoints s).length := by
  refine List.length_pos_iff.2 fun hnil => h ?_
  rw [← flatten_codePoints s, hnil, List.flatten_nil]

/-- What follows a text joins no two code points of it. -/
theorem length_codePoints_append (s t : JsString) :
    (codePoints s).length ≤ (codePoints (s ++ t)).length := by
  fun_induction codePoints s with
  | case1 => exact Nat.zero_le _
  | case2 c => exact codePoints_pos (List.cons_ne_nil c t)
  | case3 c d rest hpair ih =>
    rw [List.cons_append, List.cons_append, codePoints, if_pos hpair, List.length_cons,
      List.length_cons]
    exact Nat.succ_le_succ ih
  | case4 c d rest hpair ih =>
    rw [List.cons_append, List.cons_append, codePoints, if_neg hpair, List.length_cons,
      List.length_cons]
    exact Nat.succ_le_succ ih

theorem length_codePoints_prefix {s t : JsString} (h : s <+: t) :
    (codePoints s).length ≤ (codePoints t).length := by
  obtain ⟨rest, rfl⟩ := h
  exact length_codePoints_append s rest

theorem take_codePoints_prefix (limit : Nat) (s : JsString) :
    ((codePoints s).take limit).flatten <+: s := by
  refine ⟨((codePoints s).drop limit).flatten, ?_⟩
  rw [← List.flatten_append, List.take_append_drop, flatten_codePoints]

/-- The first code points of a text have no more of them. -/
theorem length_codePoints_take (limit : Nat) (s : JsString) :
    (codePoints ((codePoints s).take limit).flatten).length ≤ limit := by
  induction limit generalizing s with
  | zero => exact Nat.le_refl 0
  | succ limit ih =>
    fun_cases codePoints s with
    | case1 => exact Nat.zero_le _
    | case2 c =>
      rw [List.take_succ_cons, List.take_nil]
      exact Nat.succ_le_succ (Nat.zero_le _)
    | case3 c d rest hpair =>
      rw [List.take_succ_cons, List.flatten_cons, List.cons_append, List.singleton_append,
        codePoints, if_pos hpair, List.length_cons]
      exact Nat.succ_le_succ (ih rest)
    | case4 c d rest hpair =>
      rw [List.take_succ_cons, List.flatten_cons, List.singleton_append]
      have hrest := ih (d :: rest)
      rcases hcut : ((codePoints (d :: rest)).take limit).flatten with _ | ⟨e, more⟩
      · exact Nat.succ_le_succ (Nat.zero_le _)
      -- the first unit that is kept is the one that did not pair
      obtain ⟨tail, htail⟩ : (e :: more) <+: (d :: rest) :=
        hcut ▸ take_codePoints_prefix limit (d :: rest)
      obtain ⟨rfl, -⟩ := List.cons.inj htail
      rw [hcut] at hrest
      rw [codePoints, if_neg hpair, List.length_cons]
      exact Nat.succ_le_succ hrest

end Dormouse.JsString
