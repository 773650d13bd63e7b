import Dormouse.Lib.JsonText
import Dormouse.Security.Encoding

/-!
# Dormouse.Security.Decoding

**Decoding what a peer sent** (`remote-lib-common/src/security/bytes.ts`): UTF-8 that rejects a
malformed sequence, which reads back what was encoded of a well-formed text; and base64url, of
which a byte string has one spelling only.
-/

namespace Dormouse.Security

open Noise (Bytes)
open JsString (isHighSurrogate isLowSurrogate codePoints WellFormed)

/-! ### UTF-8 -/

/-- A byte between two bounds. -/
def isWithin (low high : Nat) (b : UInt8) : Bool := decide (low ≤ b.toNat) && decide (b.toNat ≤ high)

/-- The scalar at the front; `none` where the sequence is malformed. -/
def decodeScalar : Bytes → Option (Nat × Bytes)
  | [] => none
  | a :: rest =>
    let n := a.toNat
    if n < 0x80 then some (n, rest)
    else if n < 0xC2 then none
    else if n < 0xE0 then
      match rest with
      | b :: rest =>
        if isWithin 0x80 0xBF b then some ((n - 0xC0) * 0x40 + (b.toNat - 0x80), rest) else none
      | [] => none
    else if n < 0xF0 then
      match rest with
      | b :: c :: rest =>
        -- neither an overlong form nor a surrogate
        if isWithin (if n = 0xE0 then 0xA0 else 0x80) (if n = 0xED then 0x9F else 0xBF) b &&
            isWithin 0x80 0xBF c then
          some ((n - 0xE0) * 0x1000 + (b.toNat - 0x80) * 0x40 + (c.toNat - 0x80), rest)
        else none
      | _ => none
    else if n < 0xF5 then
      match rest with
      | b :: c :: d :: rest =>
        -- neither an overlong form nor past the last scalar
        if isWithin (if n = 0xF0 then 0x90 else 0x80) (if n = 0xF4 then 0x8F else 0xBF) b &&
            isWithin 0x80 0xBF c && isWithin 0x80 0xBF d then
          some ((n - 0xF0) * 0x40000 + (b.toNat - 0x80) * 0x1000 + (c.toNat - 0x80) * 0x40 +
            (d.toNat - 0x80), rest)
        else none
      | _ => none
    else none

/-- The code units of a scalar. -/
def scalarUnits (n : Nat) : JsString :=
  if n < 0x10000 then [n.toUInt16]
  else [(0xD800 + (n - 0x10000) / 0x400).toUInt16, (0xDC00 + (n - 0x10000) % 0x400).toUInt16]

def utf8DecodeLoop : Nat → Bytes → Option JsString
  | _, [] => some []
  | 0, _ :: _ => none
  | fuel + 1, b :: bytes =>
    (decodeScalar (b :: bytes)).bind fun scalar =>
      (utf8DecodeLoop fuel scalar.2).map (scalarUnits scalar.1 ++ ·)

/-- Decode one complete UTF-8 value; reject malformed sequences. -/
def utf8Decode (bytes : Bytes) : Option JsString := utf8DecodeLoop bytes.length bytes

theorem toNat_ofNat_lt {n : Nat} (h : n < 256) : (UInt8.ofNat n).toNat = n := by
  rw [UInt8.toNat_ofNat']
  omega

theorem toNat_continuationByte (n k : Nat) :
    (continuationByte n k).toNat = 0x80 + n / 2 ^ k % 0x40 := by
  have hlt := Nat.mod_lt (n / 2 ^ k) (by decide : 0 < 0x40)
  exact toNat_ofNat_lt (by omega)

/-- A scalar value: none of the surrogates. -/
def IsScalar (n : Nat) : Prop := n < 0xD800 ∨ (0xE000 ≤ n ∧ n < 0x110000)

/-- The payload of two, three and four bytes. -/
theorem scalar_payload (n : Nat) :
    n / 0x40 * 0x40 + n / 2 ^ 0 % 0x40 = n ∧
    n / 0x1000 * 0x1000 + n / 2 ^ 6 % 0x40 * 0x40 + n / 2 ^ 0 % 0x40 = n ∧
    n / 0x40000 * 0x40000 + n / 2 ^ 12 % 0x40 * 0x1000 + n / 2 ^ 6 % 0x40 * 0x40 +
      n / 2 ^ 0 % 0x40 = n := by
  refine ⟨?_, ?_, ?_⟩ <;> omega

theorem continuation_within (n k : Nat) : isWithin 0x80 0xBF (continuationByte n k) = true := by
  have hlt := Nat.mod_lt (n / 2 ^ k) (by decide : 0 < 0x40)
  rw [isWithin, toNat_continuationByte, Bool.and_eq_true, decide_eq_true_eq, decide_eq_true_eq]
  omega

theorem decodeScalar_utf8Scalar {n : Nat} (h : IsScalar n) (rest : Bytes) :
    decodeScalar (utf8Scalar n ++ rest) = some (n, rest) := by
  have hmax : n < 0x110000 := h.elim (fun h => by omega) And.right
  obtain ⟨htwo, hthree, hfour⟩ := scalar_payload n
  unfold utf8Scalar
  split
  · have ha := toNat_ofNat_lt (n := n) (by omega)
    rw [List.singleton_append]
    unfold decodeScalar
    dsimp only
    rw [ha, if_pos ‹_›]
  split
  · have ha := toNat_ofNat_lt (n := 0xC0 + n / 0x40) (by omega)
    rw [List.cons_append, List.singleton_append, decodeScalar, ha, if_neg (by omega),
      if_neg (by omega), if_pos (by omega), if_pos (continuation_within n 0),
      toNat_continuationByte]
    simp only [Nat.add_sub_cancel_left]
    exact congrArg some (Prod.ext htwo rfl)
  split
  · have ha := toNat_ofNat_lt (n := 0xE0 + n / 0x1000) (by omega)
    have hb : isWithin (if 0xE0 + n / 0x1000 = 0xE0 then 0xA0 else 0x80)
        (if 0xE0 + n / 0x1000 = 0xED then 0x9F else 0xBF) (continuationByte n 6) = true := by
      rw [isWithin, toNat_continuationByte, Bool.and_eq_true, decide_eq_true_eq,
        decide_eq_true_eq]
      unfold IsScalar at h
      clear ha htwo hthree hfour
      constructor
      · split <;> omega
      · split <;> omega
    rw [List.cons_append, List.cons_append, List.singleton_append, decodeScalar, ha]
    rw [if_neg (by omega), if_neg (by omega), if_neg (by omega), if_pos (by omega)]
    simp only [hb, continuation_within, Bool.and_self, if_true, toNat_continuationByte,
      Nat.add_sub_cancel_left]
    exact congrArg some (Prod.ext hthree rfl)
  · have ha := toNat_ofNat_lt (n := 0xF0 + n / 0x40000) (by omega)
    have hb : isWithin (if 0xF0 + n / 0x40000 = 0xF0 then 0x90 else 0x80)
        (if 0xF0 + n / 0x40000 = 0xF4 then 0x8F else 0xBF) (continuationByte n 12) = true := by
      rw [isWithin, toNat_continuationByte, Bool.and_eq_true, decide_eq_true_eq,
        decide_eq_true_eq]
      clear ha htwo hthree hfour
      constructor
      · split <;> omega
      · split <;> omega
    rw [List.cons_append, List.cons_append, List.cons_append, List.singleton_append,
      decodeScalar, ha]
    rw [if_neg (by omega), if_neg (by omega), if_neg (by omega), if_neg (by omega),
      if_pos (by omega)]
    simp only [hb, continuation_within, Bool.and_self, if_true, toNat_continuationByte,
      Nat.add_sub_cancel_left]
    exact congrArg some (Prod.ext hfour rfl)

/-- A code unit that is no surrogate is a scalar of its own. -/
theorem scalarValues_unit {c : UInt16} (hhigh : isHighSurrogate c = false)
    (hlow : isLowSurrogate c = false) (rest : JsString) :
    scalarValues (c :: rest) = c.toNat :: scalarValues rest := by
  have hvalue : unitValue c = c.toNat := by simp [unitValue, hhigh, hlow]
  cases rest with
  | nil => simp [scalarValues, hvalue]
  | cons d rest => rw [scalarValues, if_neg (by simp [hhigh]), hvalue]

theorem scalarValues_pair {c d : UInt16} (hhigh : isHighSurrogate c = true)
    (hlow : isLowSurrogate d = true) (rest : JsString) :
    scalarValues (c :: d :: rest) = pairValue c d :: scalarValues rest := by
  rw [scalarValues, if_pos (by simp [hhigh, hlow])]

theorem isScalar_unit {c : UInt16} (hhigh : isHighSurrogate c = false)
    (hlow : isLowSurrogate c = false) : IsScalar c.toNat := by
  have hlt := c.toNat_lt
  simp only [isHighSurrogate, isLowSurrogate, Bool.and_eq_false_iff, decide_eq_false_iff_not,
    UInt16.le_iff_toNat_le, UInt16.reduceToNat] at hhigh hlow
  unfold IsScalar
  omega

theorem scalarUnits_unit (c : UInt16) : scalarUnits c.toNat = [c] := by
  rw [scalarUnits, if_pos c.toNat_lt]
  exact congrArg (· :: []) (UInt16.toNat_inj.1 (toNat_toUInt16 c.toNat_lt))

theorem scalarUnits_pair {c d : UInt16} (hhigh : isHighSurrogate c = true)
    (hlow : isLowSurrogate d = true) :
    IsScalar (pairValue c d) ∧ scalarUnits (pairValue c d) = [c, d] := by
  simp only [isHighSurrogate, isLowSurrogate, Bool.and_eq_true, decide_eq_true_eq,
    UInt16.le_iff_toNat_le, UInt16.reduceToNat] at hhigh hlow
  unfold IsScalar scalarUnits pairValue
  refine ⟨by omega, ?_⟩
  have hc : (0xD800 + (0x10000 + (c.toNat - 0xD800) * 0x400 + (d.toNat - 0xDC00) - 0x10000) /
      0x400).toUInt16 = c := UInt16.toNat_inj.1 (by rw [toNat_toUInt16 (by omega)]; omega)
  have hd : (0xDC00 + (0x10000 + (c.toNat - 0xD800) * 0x400 + (d.toNat - 0xDC00) - 0x10000) %
      0x400).toUInt16 = d := UInt16.toNat_inj.1 (by rw [toNat_toUInt16 (by omega)]; omega)
  rw [if_neg (by omega), hc, hd]

theorem utf8Encode_append {s : JsString} (hs : WellFormed s) (t : JsString) :
    utf8Encode (s ++ t) = utf8Encode s ++ utf8Encode t := by
  induction hs with
  | nil => rfl
  | unit hhigh hlow _ ih =>
    unfold utf8Encode at ih ⊢
    rw [List.cons_append, scalarValues_unit hhigh hlow, scalarValues_unit hhigh hlow,
      List.flatMap_cons, List.flatMap_cons, ih, List.append_assoc]
  | pair hhigh hlow _ ih =>
    unfold utf8Encode at ih ⊢
    rw [List.cons_append, List.cons_append, scalarValues_pair hhigh hlow,
      scalarValues_pair hhigh hlow, List.flatMap_cons, List.flatMap_cons, ih, List.append_assoc]

theorem utf8Scalar_ne_nil (n : Nat) : utf8Scalar n ≠ [] := by
  unfold utf8Scalar
  split
  · exact List.cons_ne_nil _ _
  · split
    · exact List.cons_ne_nil _ _
    · split <;> exact List.cons_ne_nil _ _

/-- One scalar is decoded, and then the rest. -/
theorem utf8DecodeLoop_scalar {n : Nat} (h : IsScalar n) {bytes : Bytes} {fuel : Nat}
    (hfuel : (utf8Scalar n ++ bytes).length ≤ fuel) :
    ∃ fuel', bytes.length ≤ fuel' ∧
      utf8DecodeLoop fuel (utf8Scalar n ++ bytes) =
        (utf8DecodeLoop fuel' bytes).map (scalarUnits n ++ ·) := by
  have hdecode := decodeScalar_utf8Scalar h bytes
  obtain ⟨b, tail, htail⟩ := List.exists_cons_of_ne_nil (utf8Scalar_ne_nil n)
  rw [htail, List.cons_append] at hfuel hdecode ⊢
  rw [List.length_cons, List.length_append] at hfuel
  obtain ⟨fuel, rfl⟩ : ∃ m, fuel = m + 1 := ⟨fuel - 1, by omega⟩
  refine ⟨fuel, by omega, ?_⟩
  rw [utf8DecodeLoop, hdecode, Option.bind_some]

theorem utf8DecodeLoop_encode {text : JsString} (h : WellFormed text) : ∀ fuel,
    (utf8Encode text).length ≤ fuel → utf8DecodeLoop fuel (utf8Encode text) = some text := by
  induction h with
  | nil =>
    intro fuel _
    cases fuel <;> rfl
  | @unit c s hhigh hlow _ ih =>
    intro fuel hfuel
    unfold utf8Encode at ih hfuel ⊢
    rw [scalarValues_unit hhigh hlow, List.flatMap_cons] at hfuel ⊢
    obtain ⟨fuel', hfuel', heq⟩ := utf8DecodeLoop_scalar (isScalar_unit hhigh hlow) hfuel
    rw [heq, ih fuel' hfuel', scalarUnits_unit]
    rfl
  | @pair c d s hhigh hlow _ ih =>
    intro fuel hfuel
    unfold utf8Encode at ih hfuel ⊢
    obtain ⟨hscalar, hunits⟩ := scalarUnits_pair hhigh hlow
    rw [scalarValues_pair hhigh hlow, List.flatMap_cons] at hfuel ⊢
    obtain ⟨fuel', hfuel', heq⟩ := utf8DecodeLoop_scalar hscalar hfuel
    rw [heq, ih fuel' hfuel', hunits]
    rfl

/-- **UTF-8 decodes to what was encoded**, when no surrogate stood on its own. -/
theorem utf8Decode_utf8Encode {text : JsString} (h : WellFormed text) :
    utf8Decode (utf8Encode text) = some text :=
  utf8DecodeLoop_encode h _ (Nat.le_refl _)

/-! ### The bytes of a JSON string -/

theorem length_utf8Encode_ascii {s : JsString} (h : ∀ c ∈ s, c.toNat < 0x80) :
    (utf8Encode s).length = s.length := by
  induction s with
  | nil => rfl
  | cons c s ih =>
    have hc := h c List.mem_cons_self
    obtain ⟨hhigh, hlow⟩ := JsString.surrogate_of_lt (hc.trans (by decide : 0x80 < 0xD800))
    have hs := ih fun d hd => h d (List.mem_cons_of_mem c hd)
    unfold utf8Encode at hs ⊢
    rw [scalarValues_unit hhigh hlow, List.flatMap_cons, List.length_append, hs, utf8Scalar,
      if_pos hc, List.length_singleton, List.length_cons, Nat.add_comm]

theorem length_utf8Encode_escapeUnit (c : UInt16) :
    (utf8Encode (JsonText.escapeUnit c)).length ≤ 6 := by
  rcases JsonText.escapeUnit_ascii c with ⟨hlength, hascii⟩ | ⟨h, -⟩
  · rwa [length_utf8Encode_ascii fun d hd => (hascii d hd).2]
  · rw [h]
    exact (length_utf8Encode_le [c]).trans (by decide : 4 * 1 ≤ 6)

/-- A code point takes six bytes at most: an escaped unit is six ASCII characters. -/
theorem length_utf8Encode_escape (s : JsString) :
    (utf8Encode (JsonText.escape s)).length ≤ 6 * (codePoints s).length := by
  fun_induction codePoints s with
  | case1 => exact Nat.le_refl 0
  | case2 c => exact length_utf8Encode_escapeUnit c
  | case3 c d rest hpair ih =>
    obtain ⟨hhigh, hlow⟩ := Bool.and_eq_true_iff.1 hpair
    have hscalar := length_utf8Scalar_le (pairValue c d)
    unfold utf8Encode at ih ⊢
    rw [JsonText.escape, if_pos hpair, scalarValues_pair hhigh hlow, List.flatMap_cons,
      List.length_append, List.length_cons]
    omega
  | case4 c d rest hpair ih =>
    have hunit := length_utf8Encode_escapeUnit c
    rw [JsonText.escape, if_neg hpair,
      utf8Encode_append (JsonText.clean_escapeUnit c).wellFormed, List.length_append,
      List.length_cons]
    omega

theorem length_utf8Encode_quote (s : JsString) :
    (utf8Encode (JsonText.quote s)).length ≤ 6 * (codePoints s).length + 2 := by
  have hescape := length_utf8Encode_escape s
  have hquote : JsonText.quote s = [unit '"'] ++ (JsonText.escape s ++ [unit '"']) := rfl
  rw [hquote, utf8Encode_append (.unit (by decide) (by decide) .nil),
    utf8Encode_append (JsonText.clean_escape s).wellFormed, List.length_append, List.length_append,
    length_utf8Encode_ascii (s := [unit '"'])
      (List.all_iff_forall_prop.1 (by decide)), List.length_singleton]
  omega

/-! ### Base64url -/

theorem length_toBase64Url (bytes : Bytes) :
    (toBase64Url bytes).length = base64UrlLength bytes.length := by
  unfold base64UrlLength
  fun_induction toBase64Url bytes with
  | case1 => rfl
  | case2 b0 => exact (by decide : 2 = 1 / 3 * 4 + if 1 % 3 = 0 then 0 else 1 % 3 + 1)
  | case3 b0 b1 => exact (by decide : 3 = 2 / 3 * 4 + if 2 % 3 = 0 then 0 else 2 % 3 + 1)
  | case4 b0 b1 b2 rest ih =>
    simp only [List.length_cons, ih]
    have hmod : (rest.length + 1 + 1 + 1) % 3 = rest.length % 3 := by omega
    rw [hmod]
    omega

theorem base64UrlLength_mono {m n : Nat} (h : m ≤ n) : base64UrlLength m ≤ base64UrlLength n := by
  unfold base64UrlLength
  split <;> split <;> omega

theorem isBase64UrlChar_digit : ∀ n : Fin 64,
    isBase64UrlChar (base64UrlDigit (UInt8.ofNat n)) = true := by
  decide +kernel

theorem isBase64UrlChar_of_lt {n : UInt8} (h : n.toNat < 64) :
    isBase64UrlChar (base64UrlDigit n) = true := by
  have hdigit := isBase64UrlChar_digit ⟨n.toNat, h⟩
  simpa using hdigit

theorem toBase64Url_chars (bytes : Bytes) : (toBase64Url bytes).all isBase64UrlChar = true := by
  fun_induction toBase64Url bytes with
  | case1 => rfl
  | case2 b0 =>
    have h0 := b0.toNat_lt
    obtain ⟨hhigh, -⟩ := toNat_high b0
    obtain ⟨hlead, -⟩ := toNat_lead b0
    simp only [List.all_cons, List.all_nil, Bool.and_true, Bool.and_eq_true]
    exact ⟨isBase64UrlChar_of_lt (by omega), isBase64UrlChar_of_lt (by omega)⟩
  | case3 b0 b1 =>
    have h0 := b0.toNat_lt
    have h1 := b1.toNat_lt
    obtain ⟨hhigh, -⟩ := toNat_high b0
    obtain ⟨hbridge, -⟩ := toNat_bridge b0 b1
    obtain ⟨-, hlead⟩ := toNat_lead b1
    simp only [List.all_cons, List.all_nil, Bool.and_true, Bool.and_eq_true]
    exact ⟨isBase64UrlChar_of_lt (by omega), isBase64UrlChar_of_lt (by omega),
      isBase64UrlChar_of_lt (by omega)⟩
  | case4 b0 b1 b2 rest ih =>
    have h0 := b0.toNat_lt
    have h1 := b1.toNat_lt
    have h2 := b2.toNat_lt
    obtain ⟨hhigh, -⟩ := toNat_high b0
    obtain ⟨hbridge, -⟩ := toNat_bridge b0 b1
    obtain ⟨-, hbridge'⟩ := toNat_bridge b1 b2
    obtain ⟨-, -, hlow⟩ := toNat_low b2
    simp only [List.all_cons, Bool.and_eq_true]
    exact ⟨isBase64UrlChar_of_lt (by omega), isBase64UrlChar_of_lt (by omega),
      isBase64UrlChar_of_lt (by omega), isBase64UrlChar_of_lt (by omega), ih⟩

/-- The character of a value is the character it was read from. -/
theorem base64UrlDigit_of_value {code : UInt16} {v : Nat} (h : base64UrlValue code = some v) :
    v < 64 ∧ ∀ n : UInt8, n.toNat = v → base64UrlDigit n = code := by
  obtain ⟨hlt, hget, -⟩ := List.idxOf?_eq_some_iff.1 h
  refine ⟨hlt, fun n hn => ?_⟩
  rw [base64UrlDigit, hn, List.getD_eq_getElem?_getD, List.getElem?_eq_getElem hlt, hget]
  rfl

/-- What one character adds to the loop. -/
theorem fromBase64UrlLoop_cons {bits bitCount : Nat} {out bytes : Bytes} {code : UInt16}
    {rest : JsString} (h : fromBase64UrlLoop bits bitCount out (code :: rest) = some bytes) :
    ∃ v, v < 64 ∧ (∀ n : UInt8, n.toNat = v → base64UrlDigit n = code) ∧
      (if 8 ≤ bitCount + 6 then
        fromBase64UrlLoop (bits * 64 + v) (bitCount - 2)
          (out ++ [UInt8.ofNat ((bits * 64 + v) / 2 ^ (bitCount - 2))]) rest
      else fromBase64UrlLoop (bits * 64 + v) (bitCount + 6) out rest) = some bytes := by
  rw [fromBase64UrlLoop] at h
  cases hvalue : base64UrlValue code with
  | none => rw [hvalue] at h; cases h
  | some v =>
    rw [hvalue] at h
    exact ⟨v, (base64UrlDigit_of_value hvalue).1, (base64UrlDigit_of_value hvalue).2, h⟩

/-- The bytes that two, three and four values of six bits make, whatever came before. -/
theorem toNat_ofValues {bits a b c d : Nat} (ha : a < 64) (hb : b < 64) (hc : c < 64) (hd : d < 64) :
    (UInt8.ofNat (((bits * 64 + a) * 64 + b) / 2 ^ (0 + 6 - 2))).toNat = a * 4 + b / 16 ∧
    (UInt8.ofNat (((bits * 64 + b) * 64 + c) / 2 ^ (0 + 6 - 2 - 2))).toNat =
      b % 16 * 16 + c / 4 ∧
    (UInt8.ofNat (((bits * 64 + c) * 64 + d) / 2 ^ (0 + 6 - 2 - 2 - 2))).toNat = c % 4 * 64 + d := by
  simp only [UInt8.toNat_ofNat']
  refine ⟨?_, ?_, ?_⟩ <;> omega

theorem fromBase64UrlLoop_canonical (n : Nat) : ∀ (text : JsString) bits out (result : Bytes),
    text.length ≤ n → text.length % 4 ≠ 1 → fromBase64UrlLoop bits 0 out text = some result →
      ∃ bytes, result = out ++ bytes ∧ toBase64Url bytes = text := by
  induction n with
  | zero =>
    intro text bits out result hlength _ h
    obtain rfl := List.length_eq_zero_iff.1 (Nat.le_zero.1 hlength)
    rw [fromBase64UrlLoop, pow_zero, Nat.mod_one, if_pos rfl] at h
    cases h
    exact ⟨[], (List.append_nil out).symm, rfl⟩
  | succ n ih =>
    intro text bits out result hlength hmod h
    rcases text with _ | ⟨a, _ | ⟨b, _ | ⟨c, _ | ⟨d, rest⟩⟩⟩⟩
    · rw [fromBase64UrlLoop, pow_zero, Nat.mod_one, if_pos rfl] at h
      cases h
      exact ⟨[], (List.append_nil out).symm, rfl⟩
    · exact absurd rfl hmod
    · obtain ⟨va, hva, ha, h⟩ := fromBase64UrlLoop_cons h
      rw [if_neg (by decide)] at h
      obtain ⟨vb, hvb, hb, h⟩ := fromBase64UrlLoop_cons h
      rw [if_pos (by decide), fromBase64UrlLoop, Option.ite_none_right_eq_some] at h
      obtain ⟨htrailing, rfl⟩ := h.imp_right Option.some.inj
      refine ⟨_, rfl, ?_⟩
      generalize hb0 : UInt8.ofNat (((bits * 64 + va) * 64 + vb) / 2 ^ (0 + 6 - 2)) = b0
      have hbyte : b0.toNat = va * 4 + vb / 16 := hb0 ▸ (toNat_ofValues hva hvb hvb hvb).1
      clear hb0
      obtain ⟨hhigh, -⟩ := toNat_high b0
      obtain ⟨hlead, -⟩ := toNat_lead b0
      rw [toBase64Url, ha _ (by omega), hb _ (by omega)]
    · obtain ⟨va, hva, ha, h⟩ := fromBase64UrlLoop_cons h
      rw [if_neg (by decide)] at h
      obtain ⟨vb, hvb, hb, h⟩ := fromBase64UrlLoop_cons h
      rw [if_pos (by decide)] at h
      obtain ⟨vc, hvc, hc, h⟩ := fromBase64UrlLoop_cons h
      rw [if_pos (by decide), fromBase64UrlLoop, Option.ite_none_right_eq_some,
        List.append_assoc] at h
      obtain ⟨htrailing, rfl⟩ := h.imp_right Option.some.inj
      refine ⟨_, rfl, ?_⟩
      generalize hb0 : UInt8.ofNat (((bits * 64 + va) * 64 + vb) / 2 ^ (0 + 6 - 2)) = b0
      generalize hb1 : UInt8.ofNat ((((bits * 64 + va) * 64 + vb) * 64 + vc) /
        2 ^ (0 + 6 - 2 - 2)) = b1
      have hbyte0 : b0.toNat = va * 4 + vb / 16 := hb0 ▸ (toNat_ofValues hva hvb hvc hvc).1
      have hbyte1 : b1.toNat = vb % 16 * 16 + vc / 4 :=
        hb1 ▸ (toNat_ofValues hva hvb hvc hvc).2.1
      clear hb0 hb1
      obtain ⟨hhigh, -⟩ := toNat_high b0
      obtain ⟨hbridge, -⟩ := toNat_bridge b0 b1
      obtain ⟨-, hlead⟩ := toNat_lead b1
      rw [List.singleton_append, toBase64Url, ha _ (by omega), hb _ (by omega), hc _ (by omega)]
    · obtain ⟨va, hva, ha, h⟩ := fromBase64UrlLoop_cons h
      rw [if_neg (by decide)] at h
      obtain ⟨vb, hvb, hb, h⟩ := fromBase64UrlLoop_cons h
      rw [if_pos (by decide)] at h
      obtain ⟨vc, hvc, hc, h⟩ := fromBase64UrlLoop_cons h
      rw [if_pos (by decide)] at h
      obtain ⟨vd, hvd, hd, h⟩ := fromBase64UrlLoop_cons h
      rw [if_pos (by decide)] at h
      simp only [List.length_cons] at hlength hmod
      obtain ⟨bytes, rfl, htext⟩ := ih rest _ _ result (by omega) (by omega) h
      rw [List.append_assoc, List.append_assoc, List.append_assoc]
      refine ⟨_, rfl, ?_⟩
      generalize hb0 : UInt8.ofNat (((bits * 64 + va) * 64 + vb) / 2 ^ (0 + 6 - 2)) = b0
      generalize hb1 : UInt8.ofNat ((((bits * 64 + va) * 64 + vb) * 64 + vc) /
        2 ^ (0 + 6 - 2 - 2)) = b1
      generalize hb2 : UInt8.ofNat (((((bits * 64 + va) * 64 + vb) * 64 + vc) * 64 + vd) /
        2 ^ (0 + 6 - 2 - 2 - 2)) = b2
      have hbyte0 : b0.toNat = va * 4 + vb / 16 := hb0 ▸ (toNat_ofValues hva hvb hvc hvc).1
      have hbyte1 : b1.toNat = vb % 16 * 16 + vc / 4 :=
        hb1 ▸ (toNat_ofValues hva hvb hvc hvc).2.1
      have hbyte2 : b2.toNat = vc % 4 * 64 + vd := hb2 ▸ (toNat_ofValues hva hvb hvc hvd).2.2
      clear hb0 hb1 hb2
      obtain ⟨hhigh, -⟩ := toNat_high b0
      obtain ⟨hbridge, -⟩ := toNat_bridge b0 b1
      obtain ⟨-, hbridge'⟩ := toNat_bridge b1 b2
      obtain ⟨-, -, hlow⟩ := toNat_low b2
      rw [List.singleton_append, List.singleton_append, List.singleton_append, toBase64Url,
        ha _ (by omega), hb _ (by omega), hc _ (by omega), hd _ (by omega), htext]

theorem toBase64Url_of_unpadded {text : JsString} {bytes : Bytes}
    (hlast : text.getLast? ≠ some (unit '=')) (h : fromBase64Url text = some bytes) :
    toBase64Url bytes = text := by
  rw [fromBase64Url, stripPadding_eq hlast] at h
  split at h
  · cases h
  · rename_i hlength
    obtain ⟨bytes', rfl, htext⟩ :=
      fromBase64UrlLoop_canonical text.length text 0 [] bytes (Nat.le_refl _) hlength h
    exact htext

/-- **A byte string has one spelling** among the texts of the alphabet. -/
theorem toBase64Url_of_fromBase64Url {text : JsString} {bytes : Bytes}
    (hchars : text.all isBase64UrlChar = true) (h : fromBase64Url text = some bytes) :
    toBase64Url bytes = text := by
  refine toBase64Url_of_unpadded (fun hlast => ?_) h
  exact absurd (List.all_eq_true.1 hchars _ (List.mem_of_getLast? hlast)) (by decide)

end Dormouse.Security
