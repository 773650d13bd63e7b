import Mathlib.Algebra.Group.Nat.Defs
import Mathlib.Data.List.Induction
import Dormouse.Lib.JsString

/-!
# Dormouse.Lib.Decimal

**Decimal digits** as code units: their value, and that a fixed-width spelling is one.
-/

namespace Dormouse.JsString

/-- The value of a run of decimal digits. -/
def decimalValue (digits : JsString) : Nat :=
  digits.foldl (fun value c => 10 * value + (c.toNat - 0x30)) 0

theorem isDigit_iff {c : UInt16} : isDigit c = true ↔ 0x30 ≤ c.toNat ∧ c.toNat ≤ 0x39 := by
  simp only [isDigit, Bool.and_eq_true, decide_eq_true_eq, UInt16.le_iff_toNat_le,
    UInt16.reduceToNat]

theorem decimalValue_concat (digits : JsString) (c : UInt16) :
    decimalValue (digits ++ [c]) = 10 * decimalValue digits + (c.toNat - 0x30) := by
  unfold decimalValue
  rw [List.foldl_append]
  rfl

/-- Two spellings of one value, of one length, are the same. -/
theorem decimalValue_inj {xs ys : JsString} (hlength : xs.length = ys.length)
    (hxs : xs.all isDigit) (hys : ys.all isDigit) (h : decimalValue xs = decimalValue ys) :
    xs = ys := by
  induction xs using List.reverseRecOn generalizing ys with
  | nil => exact (List.length_eq_zero_iff.1 hlength.symm).symm
  | append_singleton xs x ih =>
    rcases List.eq_nil_or_concat ys with rfl | ⟨ys, y, rfl⟩
    · rw [List.length_append] at hlength
      cases hlength
    rw [List.concat_eq_append] at hlength hys h ⊢
    rw [decimalValue_concat, decimalValue_concat] at h
    rw [List.all_append, Bool.and_eq_true, List.all_cons, Bool.and_eq_true] at hxs hys
    have hx := isDigit_iff.1 hxs.2.1
    have hy := isDigit_iff.1 hys.2.1
    rw [List.length_append, List.length_append] at hlength
    have hinit : xs = ys := ih (Nat.add_right_cancel hlength) hxs.1 hys.1 (by omega)
    have hlast : x = y := UInt16.toNat.inj (by omega)
    rw [hinit, hlast]

/-- The decimal digits of a natural number, as it prints. -/
theorem ofInt_natCast (n : Nat) :
    ofInt n = (Nat.toDigits 10 n).map fun c => c.toNat.toUInt16 := by
  show (Nat.repr n).toList.flatMap codeUnits = _
  rw [Nat.toList_repr]
  have hdigits : ∀ c ∈ Nat.toDigits 10 n, codeUnits c = [c.toNat.toUInt16] := by
    intro c hc
    have hdigit := Nat.isDigit_of_mem_toDigits (by decide) (by decide) hc
    unfold codeUnits
    rw [if_pos]
    simp only [Char.isDigit, Bool.and_eq_true, decide_eq_true_eq] at hdigit
    exact Nat.lt_of_le_of_lt (show c.toNat ≤ 57 from hdigit.2) (by decide)
  revert hdigits
  induction Nat.toDigits 10 n with
  | nil =>
    intro
    rfl
  | cons c cs ih =>
    intro hdigits
    rw [List.flatMap_cons, List.map_cons, hdigits c List.mem_cons_self,
      ih fun c hc => hdigits c (List.mem_cons_of_mem _ hc)]
    rfl

theorem isDigit_of_char {c : Char} (hc : c.isDigit) :
    isDigit c.toNat.toUInt16 = true ∧ (c.toNat.toUInt16).toNat = c.toNat := by
  simp only [Char.isDigit, Bool.and_eq_true, decide_eq_true_eq] at hc
  have hlow : 48 ≤ c.toNat := hc.1
  have hhigh : c.toNat ≤ 57 := hc.2
  have hnat : (c.toNat.toUInt16).toNat = c.toNat := by
    rw [Nat.toUInt16, UInt16.toNat_ofNat']
    omega
  exact ⟨isDigit_iff.2 (by omega), hnat⟩

theorem all_isDigit_ofInt (n : Nat) : (ofInt n).all isDigit := by
  rw [ofInt_natCast, List.all_map, List.all_eq_true]
  intro c hc
  exact (isDigit_of_char (Nat.isDigit_of_mem_toDigits (by decide) (by decide) hc)).1

theorem decimalValue_map {cs : List Char} (hcs : ∀ c ∈ cs, c.isDigit) (start : Nat) :
    (cs.map fun c => c.toNat.toUInt16).foldl (fun value c => 10 * value + (c.toNat - 0x30)) start =
      Nat.ofDigitChars 10 cs start := by
  induction cs generalizing start with
  | nil => exact Nat.ofDigitChars_nil.symm
  | cons c cs ih =>
    rw [List.map_cons, List.foldl_cons, (isDigit_of_char (hcs c List.mem_cons_self)).2,
      ih fun c hc => hcs c (List.mem_cons_of_mem _ hc), Nat.ofDigitChars_cons]
    rfl

/-- Zeros before a number, and the number back. -/
theorem decimalValue_padded (width n : Nat) :
    decimalValue (List.replicate width (unit '0') ++ ofInt n) = n := by
  have hzeros : ∀ width, decimalValue (List.replicate width (unit '0')) = 0 := by
    intro width
    induction width with
    | zero => rfl
    | succ width ih =>
      rw [List.replicate_succ', decimalValue_concat, ih]
      rfl
  unfold decimalValue at hzeros ⊢
  rw [List.foldl_append, hzeros, ofInt_natCast, decimalValue_map fun c hc =>
    Nat.isDigit_of_mem_toDigits (by decide) (by decide) hc]
  exact Nat.ofDigitChars_ten_toDigits

theorem length_ofInt_le {n width : Nat} (hwidth : 0 < width) :
    (ofInt n).length ≤ width ↔ n < 10 ^ width := by
  rw [ofInt_natCast, List.length_map]
  exact Nat.length_toDigits_le_iff (by decide) hwidth

end Dormouse.JsString
