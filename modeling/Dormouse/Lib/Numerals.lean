import Mathlib.Data.List.Forall2
import Mathlib.Data.Nat.Digits.Lemmas
import Dormouse.Lib.JsString

/-!
# Dormouse.Lib.Numerals

**Numerals** of a base as texts: what a text of digits spells, how `parseInt` reads it, and the
spelling of a number without leading zeros.
-/

namespace Dormouse.JsString

/-- The digits of the bases up to 16, the letters in either case. -/
def digitValue (c : UInt16) : Option Nat :=
  if 0x30 ≤ c.toNat ∧ c.toNat ≤ 0x39 then some (c.toNat - 0x30)
  else if 0x61 ≤ c.toNat ∧ c.toNat ≤ 0x66 then some (c.toNat - 0x57)
  else if 0x41 ≤ c.toNat ∧ c.toNat ≤ 0x46 then some (c.toNat - 0x37)
  else none

/-- The digit of a value, in lower case. -/
def digit (d : Nat) : UInt16 := (if d < 10 then 0x30 + d else 0x57 + d).toUInt16

/-- A text of digits, the first the most significant, and its value. -/
def Spells (base : Nat) (text : JsString) (n : Nat) : Prop :=
  ∃ ds : List Nat, ds ≠ [] ∧ text.map digitValue = ds.map some ∧ (∀ d ∈ ds, d < base) ∧
    n = Nat.ofDigits base ds.reverse

/-- `parseInt(text, base)`, of a text of digits. -/
def parseInt (base : Nat) (text : JsString) : Nat :=
  text.foldl (fun value c => base * value + (digitValue c).getD 0) 0

/-- A number in its base, without leading zeros. -/
def numeral (base n : Nat) : JsString :=
  if n = 0 then [digit 0] else (Nat.digits base n).reverse.map digit

/-! ### Reading -/

theorem foldl_digits (base : Nat) {text : JsString} {ds : List Nat}
    (h : text.map digitValue = ds.map some) (start : Nat) :
    text.foldl (fun value c => base * value + (digitValue c).getD 0) start =
      Nat.ofDigits base ds.reverse + base ^ ds.length * start := by
  induction text generalizing ds start with
  | nil =>
    cases ds with
    | nil => simp
    | cons d ds => cases h
  | cons c text ih =>
    cases ds with
    | nil => cases h
    | cons d ds =>
      rw [List.map_cons, List.map_cons] at h
      obtain ⟨hc, htext⟩ := List.cons.inj h
      rw [List.foldl_cons, ih htext, hc, Option.getD_some, Nat.ofDigits_reverse_cons,
        List.length_cons, pow_succ]
      ring

theorem Spells.parseInt {base n : Nat} {text : JsString} (h : Spells base text n) :
    parseInt base text = n := by
  obtain ⟨ds, -, hdigits, -, rfl⟩ := h
  rw [JsString.parseInt, foldl_digits base hdigits, Nat.mul_zero, Nat.add_zero]

/-- A text of digits spells what `parseInt` reads. -/
theorem spells_parseInt {base : Nat} {text : JsString} (hne : text ≠ [])
    (h : ∀ c ∈ text, ∃ d < base, digitValue c = some d) : Spells base text (JsString.parseInt base text) := by
  have hds : ∃ ds : List Nat, text.map digitValue = ds.map some ∧ ∀ d ∈ ds, d < base := by
    clear hne
    induction text with
    | nil => exact ⟨[], rfl, fun d hd => absurd hd List.not_mem_nil⟩
    | cons c text ih =>
      obtain ⟨d, hlt, hc⟩ := h c List.mem_cons_self
      obtain ⟨ds, htext, hbound⟩ := ih fun c hc => h c (List.mem_cons_of_mem _ hc)
      refine ⟨d :: ds, by rw [List.map_cons, hc, htext, List.map_cons], fun e he => ?_⟩
      rcases List.mem_cons.1 he with rfl | hmem
      · exact hlt
      · exact hbound e hmem
  obtain ⟨ds, hdigits, hbound⟩ := hds
  refine ⟨ds, ?_, hdigits, hbound, ?_⟩
  · rintro rfl
    exact hne (List.map_eq_nil_iff.1 hdigits)
  · rw [JsString.parseInt, foldl_digits base hdigits, Nat.mul_zero, Nat.add_zero]

theorem Spells.ne_nil {base n : Nat} {text : JsString} (h : Spells base text n) : text ≠ [] := by
  obtain ⟨ds, hne, hdigits, -⟩ := h
  rintro rfl
  exact hne (List.map_eq_nil_iff.1 hdigits.symm)

theorem Spells.digit {base n : Nat} {text : JsString} (h : Spells base text n) {c : UInt16}
    (hc : c ∈ text) : ∃ d < base, digitValue c = some d := by
  obtain ⟨ds, -, hdigits, hbound, -⟩ := h
  have hmem : digitValue c ∈ ds.map some := hdigits ▸ List.mem_map_of_mem hc
  obtain ⟨d, hd, heq⟩ := List.mem_map.1 hmem
  exact ⟨d, hbound d hd, heq.symm⟩

/-! ### Writing -/

theorem digitValue_digit {d : Nat} (h : d < 16) : digitValue (digit d) = some d := by
  have hall : ∀ d : Fin 16, digitValue (digit d) = some d.1 := by decide
  exact hall ⟨d, h⟩

theorem spells_numeral {base : Nat} (hbase : 1 < base) (hmax : base ≤ 16) (n : Nat) :
    Spells base (numeral base n) n := by
  rw [numeral]
  split
  · rename_i hn
    refine ⟨[0], List.cons_ne_nil _ _, by decide, fun d hd => ?_, by simp [hn]⟩
    rw [List.mem_singleton.1 hd]
    omega
  rename_i hn
  have hlt : ∀ d ∈ (Nat.digits base n).reverse, d < base := fun d hd =>
    Nat.digits_lt_base hbase (List.mem_reverse.1 hd)
  refine ⟨(Nat.digits base n).reverse, ?_, ?_, hlt, ?_⟩
  · rw [Ne, List.reverse_eq_nil_iff]
    exact Nat.digits_ne_nil_iff_ne_zero.2 hn
  · rw [List.map_map]
    exact List.map_congr_left fun d hd => digitValue_digit ((hlt d hd).trans_le hmax)
  · rw [List.reverse_reverse, Nat.ofDigits_digits]

theorem length_numeral {base n k : Nat} (hbase : 1 < base) (hk : 0 < k) (h : n < base ^ k) :
    (numeral base n).length ≤ k := by
  rw [numeral]
  split
  · exact hk
  · rw [List.length_map, List.length_reverse]
    exact (Nat.digits_length_le_iff hbase n).2 h

/-- Only zero begins with the digit zero. -/
theorem head_numeral {base n : Nat} (hbase : 1 < base) (hmax : base ≤ 16) (hn : n ≠ 0) :
    (numeral base n).head? ≠ some (unit '0') := by
  rw [numeral, if_neg hn]
  intro hhead
  rw [List.head?_map, List.head?_reverse, List.getLast?_eq_some_getLast
    (Nat.digits_ne_nil_iff_ne_zero.2 hn), Option.map_some, Option.some.injEq] at hhead
  have hlt := Nat.digits_lt_base hbase
    (List.getLast_mem (Nat.digits_ne_nil_iff_ne_zero.2 hn : Nat.digits base n ≠ []))
  have hvalue := digitValue_digit (hlt.trans_le hmax)
  rw [hhead] at hvalue
  exact Nat.getLast_digit_ne_zero base hn (Option.some.inj (hvalue.symm.trans (by decide)))

/-- The numeral of a value whose digits are given. -/
theorem numeral_ofDigits {base : Nat} (hbase : 1 < base) {ds : List Nat} (hlt : ∀ d ∈ ds, d < base)
    (hne : ds ≠ []) (hlast : ds.getLast hne ≠ 0) :
    numeral base (Nat.ofDigits base ds) = ds.reverse.map digit := by
  have hdigits := Nat.digits_ofDigits base hbase ds hlt fun _ => hlast
  have hn : Nat.ofDigits base ds ≠ 0 := by
    intro hzero
    rw [hzero, Nat.digits_zero] at hdigits
    exact hne hdigits.symm
  rw [numeral, if_neg hn, hdigits]

/-- The digits of a numeral are digits or small letters. -/
theorem mem_numeral {base n : Nat} (hbase : 1 < base) (hmax : base ≤ 16) {c : UInt16}
    (hc : c ∈ numeral base n) : ∃ d < base, c = digit d := by
  rw [numeral] at hc
  split at hc
  · exact ⟨0, by omega, List.mem_singleton.1 hc⟩
  · obtain ⟨d, hd, rfl⟩ := List.mem_map.1 hc
    exact ⟨d, Nat.digits_lt_base hbase (List.mem_reverse.1 hd), rfl⟩

end Dormouse.JsString
