import Dormouse.Lib.Framing
import Dormouse.Security.Bytes

/-!
# Dormouse.Security.Encoding

**What the encodings tell apart**: base64url decodes to what was encoded, and parts with
their lengths in front concatenate to one text for one list of parts.
-/

namespace Dormouse.Security

open Noise (Bytes writeUint32BE readUint32BE)

/-! ### Sextets -/

theorem base64UrlValue_digit : ∀ n : Fin 64,
    base64UrlValue (base64UrlDigit (UInt8.ofNat n)) = some n ∧
      base64UrlDigit (UInt8.ofNat n) ≠ unit '=' := by
  decide +kernel

theorem base64UrlValue_of_lt {n : UInt8} (h : n.toNat < 64) :
    base64UrlValue (base64UrlDigit n) = some n.toNat ∧ base64UrlDigit n ≠ unit '=' := by
  have hdigit := base64UrlValue_digit ⟨n.toNat, h⟩
  simpa using hdigit

/-- The low `k` bits of a byte. -/
theorem toNat_low (b : UInt8) :
    (b &&& 0x03).toNat = b.toNat % 4 ∧ (b &&& 0x0f).toNat = b.toNat % 16 ∧
      (b &&& 0x3f).toNat = b.toNat % 64 := by
  refine ⟨?_, ?_, ?_⟩
  · exact (UInt8.toNat_and b 0x03).trans (Nat.and_two_pow_sub_one_eq_mod b.toNat 2)
  · exact (UInt8.toNat_and b 0x0f).trans (Nat.and_two_pow_sub_one_eq_mod b.toNat 4)
  · exact (UInt8.toNat_and b 0x3f).trans (Nat.and_two_pow_sub_one_eq_mod b.toNat 6)

theorem toNat_high (b : UInt8) :
    (b >>> 2).toNat = b.toNat / 4 ∧ (b >>> 4).toNat = b.toNat / 16 ∧
      (b >>> 6).toNat = b.toNat / 64 := by
  refine ⟨?_, ?_, ?_⟩
  · exact (UInt8.toNat_shiftRight b 2).trans (Nat.shiftRight_eq_div_pow b.toNat 2)
  · exact (UInt8.toNat_shiftRight b 4).trans (Nat.shiftRight_eq_div_pow b.toNat 4)
  · exact (UInt8.toNat_shiftRight b 6).trans (Nat.shiftRight_eq_div_pow b.toNat 6)

theorem toNat_lead (b : UInt8) :
    ((b &&& 0x03) <<< 4).toNat = b.toNat % 4 * 16 ∧
      ((b &&& 0x0f) <<< 2).toNat = b.toNat % 16 * 4 := by
  obtain ⟨h₁, h₂, -⟩ := toNat_low b
  constructor
  · have hshift : ((b &&& 0x03) <<< 4).toNat = (b &&& 0x03).toNat <<< 4 % 256 :=
      UInt8.toNat_shiftLeft _ _
    rw [hshift, h₁, Nat.shiftLeft_eq]
    omega
  · have hshift : ((b &&& 0x0f) <<< 2).toNat = (b &&& 0x0f).toNat <<< 2 % 256 :=
      UInt8.toNat_shiftLeft _ _
    rw [hshift, h₂, Nat.shiftLeft_eq]
    omega

/-- The sextets that bridge two bytes. -/
theorem toNat_bridge (b c : UInt8) :
    (((b &&& 0x03) <<< 4) ||| (c >>> 4)).toNat = b.toNat % 4 * 16 + c.toNat / 16 ∧
      (((b &&& 0x0f) <<< 2) ||| (c >>> 6)).toNat = b.toNat % 16 * 4 + c.toNat / 64 := by
  have hc := c.toNat_lt
  obtain ⟨hlead₁, hlead₂⟩ := toNat_lead b
  obtain ⟨-, hhigh₁, hhigh₂⟩ := toNat_high c
  constructor
  · rw [UInt8.toNat_or, hlead₁, hhigh₁, Nat.mul_comm]
    exact (Nat.two_pow_add_eq_or_of_lt (i := 4) (by omega) _).symm
  · rw [UInt8.toNat_or, hlead₂, hhigh₂, Nat.mul_comm]
    exact (Nat.two_pow_add_eq_or_of_lt (i := 2) (by omega) _).symm

/-! ### Decoding -/

theorem fromBase64UrlLoop_digit {bits bitCount : Nat} {out : Bytes} {n : UInt8}
    (h : n.toNat < 64) (rest : JsString) :
    fromBase64UrlLoop bits bitCount out (base64UrlDigit n :: rest) =
      if 8 ≤ bitCount + 6 then
        fromBase64UrlLoop (bits * 64 + n.toNat) (bitCount - 2)
          (out ++ [UInt8.ofNat ((bits * 64 + n.toNat) / 2 ^ (bitCount - 2))]) rest
      else fromBase64UrlLoop (bits * 64 + n.toNat) (bitCount + 6) out rest := by
  rw [fromBase64UrlLoop, (base64UrlValue_of_lt h).1]

theorem ofNat_of_mod {n : Nat} {b : UInt8} (h : n % 256 = b.toNat) : UInt8.ofNat n = b := by
  apply UInt8.toNat.inj
  rw [UInt8.toNat_ofNat', h]

theorem fromBase64UrlLoop_encode (bytes : Bytes) : ∀ bits out,
    fromBase64UrlLoop bits 0 out (toBase64Url bytes) = some (out ++ bytes) := by
  fun_induction toBase64Url bytes with
  | case1 =>
    intro bits out
    simp [fromBase64UrlLoop, Nat.mod_one]
  | case2 b0 =>
    intro bits out
    have h0 := b0.toNat_lt
    obtain ⟨hhigh, -⟩ := toNat_high b0
    obtain ⟨hlead, -⟩ := toNat_lead b0
    rw [fromBase64UrlLoop_digit (by omega), if_neg (by decide),
      fromBase64UrlLoop_digit (by omega), if_pos (by decide), fromBase64UrlLoop,
      hhigh, hlead, if_pos (by omega), ofNat_of_mod (b := b0) (by omega)]
  | case3 b0 b1 =>
    intro bits out
    have h0 := b0.toNat_lt
    have h1 := b1.toNat_lt
    obtain ⟨hhigh, -⟩ := toNat_high b0
    obtain ⟨hbridge, -⟩ := toNat_bridge b0 b1
    obtain ⟨-, hlead⟩ := toNat_lead b1
    rw [fromBase64UrlLoop_digit (by omega), if_neg (by decide),
      fromBase64UrlLoop_digit (by omega), if_pos (by decide),
      fromBase64UrlLoop_digit (by omega), if_pos (by decide), fromBase64UrlLoop,
      hhigh, hbridge, hlead, if_pos (by omega), ofNat_of_mod (b := b0) (by omega),
      ofNat_of_mod (b := b1) (by omega), List.append_assoc]
    rfl
  | case4 b0 b1 b2 rest ih =>
    intro bits out
    have h0 := b0.toNat_lt
    have h1 := b1.toNat_lt
    have h2 := b2.toNat_lt
    obtain ⟨hhigh, -⟩ := toNat_high b0
    obtain ⟨hbridge, -⟩ := toNat_bridge b0 b1
    obtain ⟨-, hbridge'⟩ := toNat_bridge b1 b2
    obtain ⟨-, -, hlow⟩ := toNat_low b2
    rw [fromBase64UrlLoop_digit (by omega), if_neg (by decide),
      fromBase64UrlLoop_digit (by omega), if_pos (by decide),
      fromBase64UrlLoop_digit (by omega), if_pos (by decide),
      fromBase64UrlLoop_digit (by omega), if_pos (by decide), hhigh, hbridge, hbridge', hlow,
      ofNat_of_mod (b := b0) (by omega), ofNat_of_mod (b := b1) (by omega),
      ofNat_of_mod (b := b2) (by omega)]
    rw [ih, List.append_assoc, List.append_assoc, List.append_assoc]
    rfl

/-- No digit is padding, and no encoding has a length that none has. -/
theorem toBase64Url_shape (bytes : Bytes) :
    (∀ c ∈ toBase64Url bytes, c ≠ unit '=') ∧ (toBase64Url bytes).length % 4 ≠ 1 := by
  fun_induction toBase64Url bytes with
  | case1 => exact ⟨by simp, by decide⟩
  | case2 b0 =>
    have h0 := b0.toNat_lt
    obtain ⟨hhigh, -⟩ := toNat_high b0
    obtain ⟨hlead, -⟩ := toNat_lead b0
    refine ⟨fun c hc => ?_, by simp⟩
    simp only [List.mem_cons, List.not_mem_nil, or_false] at hc
    rcases hc with rfl | rfl
    · exact (base64UrlValue_of_lt (by omega)).2
    · exact (base64UrlValue_of_lt (by omega)).2
  | case3 b0 b1 =>
    have h0 := b0.toNat_lt
    have h1 := b1.toNat_lt
    obtain ⟨hhigh, -⟩ := toNat_high b0
    obtain ⟨hbridge, -⟩ := toNat_bridge b0 b1
    obtain ⟨-, hlead⟩ := toNat_lead b1
    refine ⟨fun c hc => ?_, by simp⟩
    simp only [List.mem_cons, List.not_mem_nil, or_false] at hc
    rcases hc with rfl | rfl | rfl
    · exact (base64UrlValue_of_lt (by omega)).2
    · exact (base64UrlValue_of_lt (by omega)).2
    · exact (base64UrlValue_of_lt (by omega)).2
  | case4 b0 b1 b2 rest ih =>
    have h0 := b0.toNat_lt
    have h1 := b1.toNat_lt
    have h2 := b2.toNat_lt
    obtain ⟨hhigh, -⟩ := toNat_high b0
    obtain ⟨hbridge, -⟩ := toNat_bridge b0 b1
    obtain ⟨-, hbridge'⟩ := toNat_bridge b1 b2
    obtain ⟨-, -, hlow⟩ := toNat_low b2
    refine ⟨fun c hc => ?_, ?_⟩
    · simp only [List.mem_cons] at hc
      rcases hc with rfl | rfl | rfl | rfl | hc
      · exact (base64UrlValue_of_lt (by omega)).2
      · exact (base64UrlValue_of_lt (by omega)).2
      · exact (base64UrlValue_of_lt (by omega)).2
      · exact (base64UrlValue_of_lt (by omega)).2
      · exact ih.1 c hc
    · simp only [List.length_cons]
      have := ih.2
      omega

/-- A text that does not end in padding is decoded as it is. -/
theorem stripPadding_eq {text : JsString} (h : text.getLast? ≠ some (unit '=')) :
    (text.reverse.dropWhile (· == unit '=')).reverse = text := by
  have hnone : text.reverse.dropWhile (· == unit '=') = text.reverse := by
    rw [← List.head?_reverse] at h
    cases htext : text.reverse with
    | nil => rfl
    | cons c rest =>
      rw [htext, List.head?_cons] at h
      rw [List.dropWhile_cons, if_neg (by simpa using h)]
  rw [hnone, List.reverse_reverse]

/-- **Base64url decodes to what was encoded.** -/
theorem fromBase64Url_toBase64Url (bytes : Bytes) :
    fromBase64Url (toBase64Url bytes) = some bytes := by
  obtain ⟨hpadding, hlength⟩ := toBase64Url_shape bytes
  have hlast : (toBase64Url bytes).getLast? ≠ some (unit '=') := fun h =>
    hpadding _ (List.mem_of_getLast? h) rfl
  rw [fromBase64Url, stripPadding_eq hlast, if_neg hlength, fromBase64UrlLoop_encode]
  rfl

theorem length_fromBase64UrlLoop {bits bitCount : Nat} {out bytes : Bytes} {text : JsString}
    (h : fromBase64UrlLoop bits bitCount out text = some bytes) :
    bytes.length ≤ out.length + text.length := by
  induction text generalizing bits bitCount out with
  | nil =>
    rw [fromBase64UrlLoop] at h
    split at h
    · cases h
      exact Nat.le_refl _
    · cases h
  | cons code rest ih =>
    rw [fromBase64UrlLoop] at h
    split at h
    · cases h
    split at h
    · have hrest := ih h
      rw [List.length_append, List.length_singleton] at hrest
      rw [List.length_cons]
      omega
    · have hrest := ih h
      rw [List.length_cons]
      omega

/-- Decoding makes a text no longer. -/
theorem length_fromBase64Url_le {text : JsString} {bytes : Bytes}
    (h : fromBase64Url text = some bytes) : bytes.length ≤ text.length := by
  rw [fromBase64Url] at h
  split at h
  · cases h
  · have hloop := length_fromBase64UrlLoop h
    have hstripped := (List.dropWhile_sublist (l := text.reverse) (· == unit '=')).length_le
    rw [List.length_reverse] at hloop hstripped
    simp only [List.length_nil, Nat.zero_add] at hloop
    exact Nat.le_trans hloop hstripped

/-! ### UTF-8 -/

theorem length_utf8Scalar_le (n : Nat) : (utf8Scalar n).length ≤ 4 := by
  unfold utf8Scalar
  split
  · exact Nat.le_of_ble_eq_true rfl
  · split
    · exact Nat.le_of_ble_eq_true rfl
    · split
      · exact Nat.le_of_ble_eq_true rfl
      · exact Nat.le_of_ble_eq_true rfl

theorem length_scalarValues_le (text : JsString) : (scalarValues text).length ≤ text.length := by
  fun_induction scalarValues text with
  | case1 => exact Nat.le_refl _
  | case2 c => exact Nat.le_refl _
  | case3 c d rest hpair ih =>
    simp only [List.length_cons]
    omega
  | case4 c d rest hpair ih =>
    simp only [List.length_cons] at ih ⊢
    omega

theorem length_utf8Encode_le (text : JsString) : (utf8Encode text).length ≤ 4 * text.length := by
  have hflat : ∀ ns : List Nat, (ns.flatMap utf8Scalar).length ≤ 4 * ns.length := by
    intro ns
    induction ns with
    | nil => exact Nat.le_refl _
    | cons n ns ih =>
      rw [List.flatMap_cons, List.length_append, List.length_cons]
      have := length_utf8Scalar_le n
      omega
  exact Nat.le_trans (hflat _) (Nat.mul_le_mul_left 4 (length_scalarValues_le text))

/-! ### Parts with their lengths -/

theorem readUint32BE_write {n : Nat} (h : n < 2 ^ 32) (rest : Bytes) :
    readUint32BE (writeUint32BE n ++ rest) 0 = n := by
  simp only [readUint32BE, writeUint32BE, List.cons_append, List.nil_append, List.getD_cons_zero,
    List.getD_cons_succ, UInt8.toNat_ofNat']
  omega

/-- A part with its length in front is not the start of another. -/
theorem framed_append_inj {p q : Bytes} {rest rest' : Bytes} (hp : p.length < 2 ^ 32)
    (hq : q.length < 2 ^ 32)
    (h : (writeUint32BE p.length ++ p) ++ rest = (writeUint32BE q.length ++ q) ++ rest') :
    p = q ∧ rest = rest' := by
  rw [List.append_assoc, List.append_assoc] at h
  have hlength : p.length = q.length := by
    rw [← readUint32BE_write hp (p ++ rest), h, readUint32BE_write hq]
  rw [hlength] at h
  exact List.append_inj (List.append_cancel_left h) hlength

/-- **Parts are told apart by their concatenation**, as long as their lengths fit. -/
theorem lengthPrefixedConcat_inj {ps qs : List Bytes} (hps : ∀ p ∈ ps, p.length < 2 ^ 32)
    (hqs : ∀ q ∈ qs, q.length < 2 ^ 32)
    (h : lengthPrefixedConcat ps = lengthPrefixedConcat qs) : ps = qs := by
  induction ps generalizing qs with
  | nil =>
    cases qs with
    | nil => rfl
    | cons q qs => cases h
  | cons p ps ih =>
    cases qs with
    | nil => cases h
    | cons q qs =>
      rw [List.forall_mem_cons] at hps hqs
      obtain ⟨hhead, htail⟩ := framed_append_inj hps.1 hqs.1 h
      rw [hhead, ih hps.2 hqs.2 htail]

end Dormouse.Security
