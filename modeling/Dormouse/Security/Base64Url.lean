import Dormouse.Security.Decoding

/-!
# Dormouse.Security.Base64Url

**The base64url codec on the numbers it runs on**: the accumulator of the decoding loop is a 32-bit
signed integer that old bits are shifted out of, and what is left of it decides as the whole would.
A text of the alphabet is a spelling of some bytes when the bits past its last byte are zero.
-/

namespace Dormouse.Security

open Noise (Bytes)

/-! ### The accumulator -/

/-- The decoding loop: `bits << 6` drops what leaves 32 bits, and `>>` brings the sign along. -/
def wrappedLoop (bits : BitVec 32) (bitCount : Nat) (out : Bytes) : JsString → Option Bytes
  | [] => if bits &&& (1#32 <<< bitCount - 1#32) = 0#32 then some out else none
  | code :: rest =>
    match base64UrlValue code with
    | none => none
    | some value =>
      let bits := bits <<< 6 ||| BitVec.ofNat 32 value
      if 8 ≤ bitCount + 6 then
        wrappedLoop bits (bitCount - 2)
          (out ++ [⟨(bits.sshiftRight (bitCount - 2) &&& 0xff#32).truncate 8⟩]) rest
      else wrappedLoop bits (bitCount + 6) out rest

/-- `fromBase64Url`, its numbers included. -/
def fromBase64UrlWrapped (text : JsString) : Option Bytes :=
  let text := (text.reverse.dropWhile (· == unit '=')).reverse
  if text.length % 4 = 1 then none else wrappedLoop 0#32 0 [] text

theorem shifted_in (n : Nat) {v : Nat} (hv : v < 64) :
    BitVec.ofNat 32 n <<< 6 ||| BitVec.ofNat 32 v = BitVec.ofNat 32 (n * 64 + v) := by
  apply BitVec.eq_of_toNat_eq
  rw [BitVec.toNat_or, BitVec.toNat_shiftLeft, BitVec.toNat_ofNat, BitVec.toNat_ofNat,
    BitVec.toNat_ofNat, Nat.shiftLeft_eq, Nat.mod_eq_of_lt (a := v) (by omega)]
  have hkept : n % 2 ^ 32 * 2 ^ 6 % 2 ^ 32 = 2 ^ 6 * (n % 2 ^ 26) := by omega
  rw [hkept, ← Nat.two_pow_add_eq_or_of_lt (i := 6) hv]
  omega

/-- The byte that is read is below the bits that were lost, and below the sign. -/
theorem byte_read (n : Nat) {k : Nat} (hk : k < 8) :
    ((BitVec.ofNat 32 n).sshiftRight k &&& 0xff#32).truncate 8 = BitVec.ofNat 8 (n / 2 ^ k) := by
  apply BitVec.eq_of_getLsbD_eq
  intro i hi
  have hmask : (0xff#32).getLsbD i = true :=
    (by decide : ∀ i : Fin 8, (0xff#32).getLsbD i = true) ⟨i, hi⟩
  rw [BitVec.getLsbD_setWidth, BitVec.getLsbD_and, hmask, BitVec.getLsbD_sshiftRight,
    if_pos (by omega), BitVec.getLsbD_ofNat, BitVec.getLsbD_ofNat, Nat.testBit_div_two_pow]
  simp [hi, show ¬ 32 ≤ i by omega, show k + i < 32 by omega, Nat.add_comm]

theorem trailing_zero (n : Nat) {k : Nat} (hk : k < 8) :
    BitVec.ofNat 32 n &&& (1#32 <<< k - 1#32) = 0#32 ↔ n % 2 ^ k = 0 := by
  have hmask : (1#32 <<< k - 1#32).toNat = 2 ^ k - 1 :=
    (by decide : ∀ k : Fin 8, (1#32 <<< k.val - 1#32).toNat = 2 ^ k.val - 1) ⟨k, hk⟩
  have hdvd : 2 ^ k ∣ 2 ^ 32 := Nat.pow_dvd_pow 2 (by omega)
  rw [← BitVec.toNat_inj, BitVec.toNat_and, hmask, Nat.and_two_pow_sub_one_eq_mod,
    BitVec.toNat_ofNat, Nat.mod_mod_of_dvd _ hdvd]
  rfl

/-- **32 bits are enough**: the loop answers as with a number that forgets nothing. -/
theorem wrappedLoop_eq (text : JsString) : ∀ (bits bitCount : Nat) (out : Bytes), bitCount < 8 →
    wrappedLoop (BitVec.ofNat 32 bits) bitCount out text =
      fromBase64UrlLoop bits bitCount out text := by
  induction text with
  | nil =>
    intro bits bitCount out hcount
    simp only [wrappedLoop, fromBase64UrlLoop, trailing_zero bits hcount]
  | cons code rest ih =>
    intro bits bitCount out hcount
    rw [wrappedLoop, fromBase64UrlLoop]
    cases hvalue : base64UrlValue code with
    | none => rfl
    | some v =>
      dsimp only
      rw [shifted_in bits (base64UrlDigit_of_value hvalue).1,
        byte_read (bits * 64 + v) (show bitCount - 2 < 8 by omega)]
      split
      · exact ih _ _ _ (by omega)
      · exact ih _ _ _ (by omega)

theorem fromBase64UrlWrapped_eq (text : JsString) :
    fromBase64UrlWrapped text = fromBase64Url text := by
  rw [fromBase64UrlWrapped, fromBase64Url]
  exact congrArg (ite _ none) (wrappedLoop_eq _ 0 0 [] (by decide))

/-- **The codec goes round**: what is encoded decodes, and what decodes without padding is an
encoding. -/
theorem base64Url_round_trip :
    (∀ bytes : Bytes, fromBase64UrlWrapped (toBase64Url bytes) = some bytes ∧
      (toBase64Url bytes).length = base64UrlLength bytes.length) ∧
    ∀ text bytes, fromBase64UrlWrapped text = some bytes → text.getLast? ≠ some (unit '=') →
      toBase64Url bytes = text := by
  refine ⟨fun bytes => ⟨?_, length_toBase64Url bytes⟩, fun text bytes h hlast => ?_⟩
  · rw [fromBase64UrlWrapped_eq]
    exact fromBase64Url_toBase64Url bytes
  · rw [fromBase64UrlWrapped_eq] at h
    exact toBase64Url_of_unpadded hlast h

/-! ### Spellings -/

/-- The bits of a text's last character that no byte takes. -/
def unusedBits (text : JsString) : Nat :=
  ((text.getLast?.bind base64UrlValue).getD 0) % 2 ^ (6 * text.length % 8)

theorem isBase64UrlChar_iff (c : UInt16) :
    isBase64UrlChar c = true ↔ (base64UrlValue c).isSome = true := by
  have hascii : ∀ n : Fin 128, isBase64UrlChar (UInt16.ofNat n) =
      (base64UrlValue (UInt16.ofNat n)).isSome := by decide +kernel
  by_cases hc : c.toNat < 128
  · have hsame := hascii ⟨c.toNat, hc⟩
    rw [UInt16.ofNat_toNat] at hsame
    rw [hsame]
  -- Neither has a character past ASCII.
  have hmarks : (unit '_').toNat = 95 ∧ (unit '-').toNat = 45 := by decide
  have hchar : isBase64UrlChar c = false := by
    simp only [isBase64UrlChar, JsString.isUpper, JsString.isLower, JsString.isDigit,
      UInt16.le_iff_toNat_le, Bool.or_eq_false_iff, Bool.and_eq_false_iff, decide_eq_false_iff_not,
      beq_eq_false_iff_ne, ← UInt16.toNat_inj, ne_eq]
    simp only [UInt16.reduceToNat]
    omega
  have hvalue : base64UrlValue c = none := by
    cases hv : base64UrlValue c with
    | none => rfl
    | some v =>
      obtain ⟨hlt, hdigit⟩ := base64UrlDigit_of_value hv
      have hsmall : ∀ n : Fin 64, (base64UrlDigit (UInt8.ofNat n)).toNat < 128 := by decide +kernel
      have hn : (UInt8.ofNat v).toNat = v := toNat_ofNat_lt (by omega)
      exact absurd (hdigit _ hn ▸ hsmall ⟨v, hlt⟩) hc
  rw [hchar, hvalue]
  rfl

/-- The loop goes through when every character has a value and no bit is left over. -/
theorem fromBase64UrlLoop_isSome (text : JsString) : ∀ (bits bitCount : Nat) (out : Bytes),
    bitCount < 8 → ((fromBase64UrlLoop bits bitCount out text).isSome = true ↔
      text.all isBase64UrlChar = true ∧
        text.foldl (fun bits code => bits * 64 + (base64UrlValue code).getD 0) bits %
          2 ^ ((bitCount + 6 * text.length) % 8) = 0) := by
  induction text with
  | nil =>
    intro bits bitCount out hcount
    rw [fromBase64UrlLoop, List.length_nil, Nat.mul_zero, Nat.add_zero, Nat.mod_eq_of_lt hcount]
    split <;> simp_all
  | cons code rest ih =>
    intro bits bitCount out hcount
    have hchar := isBase64UrlChar_iff code
    rw [fromBase64UrlLoop, List.all_cons, List.foldl_cons, List.length_cons, Bool.and_eq_true]
    rcases hvalue : base64UrlValue code with _ | v
    · simp [hchar, hvalue]
    have hturn : (bitCount + 6 * (rest.length + 1)) % 8 =
        ((if 8 ≤ bitCount + 6 then bitCount - 2 else bitCount + 6) + 6 * rest.length) % 8 := by
      split <;> omega
    rw [hturn, hchar, hvalue, Option.getD_some]
    simp only [Option.isSome_some, true_and]
    split
    · exact ih _ _ _ (by omega)
    · exact ih _ _ _ (by omega)

theorem fromBase64Url_isSome {text : JsString} (hchars : text.all isBase64UrlChar = true)
    (hlength : text.length % 4 ≠ 1) : (fromBase64Url text).isSome = true ↔ unusedBits text = 0 := by
  have hlast : text.getLast? ≠ some (unit '=') := fun h =>
    absurd (List.all_eq_true.1 hchars _ (List.mem_of_getLast? h)) (by decide)
  rw [fromBase64Url, stripPadding_eq hlast, if_neg hlength,
    fromBase64UrlLoop_isSome text 0 0 [] (by decide), Nat.zero_add, unusedBits]
  refine (and_iff_right hchars).trans ?_
  -- What came before the last character is a multiple of 64.
  rcases text.eq_nil_or_concat with rfl | ⟨init, last, rfl⟩
  · rfl
  · rw [List.concat_eq_append, List.foldl_append, List.getLast?_concat, List.foldl_cons,
      List.foldl_nil, Option.bind_some]
    have hpow : 6 * (init ++ [last]).length % 8 = 0 ∨ 6 * (init ++ [last]).length % 8 = 2 ∨
        6 * (init ++ [last]).length % 8 = 4 ∨ 6 * (init ++ [last]).length % 8 = 6 := by omega
    rcases hpow with h | h | h | h <;> rw [h] <;> omega

theorem base64UrlLength_inj {m n : Nat} (h : base64UrlLength m = base64UrlLength n) : m = n := by
  unfold base64UrlLength at h
  split at h <;> split at h <;> omega

/-- A text of the alphabet, and of the length of `n` bytes, is a spelling of some when the bits that
they leave over are zero. -/
theorem spells_iff {text : JsString} {n : Nat} (hlength : text.length = base64UrlLength n)
    (hchars : text.all isBase64UrlChar = true) :
    (∃ bytes : Bytes, bytes.length = n ∧ toBase64Url bytes = text) ↔ unusedBits text = 0 := by
  have hmod : text.length % 4 ≠ 1 := by
    rw [hlength, base64UrlLength]
    split <;> omega
  rw [← fromBase64Url_isSome hchars hmod, Option.isSome_iff_exists]
  constructor
  · rintro ⟨bytes, -, rfl⟩
    exact ⟨bytes, fromBase64Url_toBase64Url bytes⟩
  · rintro ⟨bytes, h⟩
    have htext := toBase64Url_of_fromBase64Url hchars h
    refine ⟨bytes, base64UrlLength_inj ?_, htext⟩
    rw [← length_toBase64Url, htext, hlength]

end Dormouse.Security
