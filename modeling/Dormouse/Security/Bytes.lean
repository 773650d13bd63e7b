import Dormouse.Lib.JsString
import Dormouse.Noise.Stream

/-!
# Dormouse.Security.Bytes

**Byte-level helpers** of the security primitives
(`remote-lib-common/src/security/bytes.ts`): UTF-8, base64url, and the framing of
what gets hashed. A decoder that throws answers `none`.
-/

namespace Dormouse.Security

open Noise (Bytes writeUint32BE)

/-! ### UTF-8 -/

/-- The scalar value of a code unit on its own; an unpaired surrogate reads as `U+FFFD`. -/
def unitValue (c : UInt16) : Nat :=
  if JsString.isHighSurrogate c || JsString.isLowSurrogate c then 0xFFFD else c.toNat

def pairValue (c d : UInt16) : Nat :=
  0x10000 + (c.toNat - 0xD800) * 0x400 + (d.toNat - 0xDC00)

def scalarValues : JsString → List Nat
  | [] => []
  | [c] => [unitValue c]
  | c :: d :: rest =>
    if JsString.isHighSurrogate c && JsString.isLowSurrogate d then
      pairValue c d :: scalarValues rest
    else unitValue c :: scalarValues (d :: rest)

/-- A continuation byte: six bits of `n`, from bit `k` on. -/
def continuationByte (n k : Nat) : UInt8 := UInt8.ofNat (0x80 + n / 2 ^ k % 0x40)

def utf8Scalar (n : Nat) : Bytes :=
  if n < 0x80 then [UInt8.ofNat n]
  else if n < 0x800 then [UInt8.ofNat (0xC0 + n / 0x40), continuationByte n 0]
  else if n < 0x10000 then
    [UInt8.ofNat (0xE0 + n / 0x1000), continuationByte n 6, continuationByte n 0]
  else
    [UInt8.ofNat (0xF0 + n / 0x40000), continuationByte n 12, continuationByte n 6,
      continuationByte n 0]

def utf8Encode (text : JsString) : Bytes := (scalarValues text).flatMap utf8Scalar

/-- Past ASCII, a scalar's first byte is past ASCII too. -/
theorem utf8Scalar_high {n : Nat} (hn : 0x80 ≤ n) (hmax : n < 0x110000) :
    ∃ b bs, utf8Scalar n = b :: bs ∧ 0x80 ≤ b.toNat := by
  unfold utf8Scalar
  rw [if_neg (by omega)]
  split
  · refine ⟨_, _, rfl, ?_⟩
    rw [UInt8.toNat_ofNat']
    omega
  split
  · refine ⟨_, _, rfl, ?_⟩
    rw [UInt8.toNat_ofNat']
    omega
  · refine ⟨_, _, rfl, ?_⟩
    rw [UInt8.toNat_ofNat']
    omega

theorem unitValue_cases (c : UInt16) :
    unitValue c = c.toNat ∧ c.toNat < 0x80 ∨ 0x80 ≤ unitValue c ∧ unitValue c < 0x110000 := by
  have hlt := c.toNat_lt
  unfold unitValue
  split
  · exact .inr ⟨by decide, by decide⟩
  · by_cases hc : c.toNat < 0x80
    · exact .inl ⟨rfl, hc⟩
    · exact .inr ⟨by omega, by omega⟩

theorem pairValue_bounds {c d : UInt16} (hc : JsString.isHighSurrogate c = true)
    (hd : JsString.isLowSurrogate d = true) :
    0x80 ≤ pairValue c d ∧ pairValue c d < 0x110000 := by
  simp only [JsString.isHighSurrogate, JsString.isLowSurrogate, Bool.and_eq_true,
    decide_eq_true_eq, UInt16.le_iff_toNat_le, UInt16.reduceToNat] at hc hd
  unfold pairValue
  omega

/-- A scalar whose encoding starts an ASCII text is its one byte. -/
theorem utf8Scalar_ascii {n : Nat} {tail bytes : Bytes} (hmax : n < 0x110000)
    (h : utf8Scalar n ++ tail = bytes) (hb : ∀ b ∈ bytes, b.toNat < 0x80) :
    n < 0x80 ∧ bytes = UInt8.ofNat n :: tail := by
  have hn : n < 0x80 := by
    by_contra hcon
    obtain ⟨b, bs, hscalar, hhigh⟩ := utf8Scalar_high (Nat.le_of_not_lt hcon) hmax
    have := hb b (by rw [← h, hscalar]; exact List.mem_append_left _ List.mem_cons_self)
    omega
  refine ⟨hn, ?_⟩
  rw [← h, utf8Scalar, if_pos hn]
  rfl

theorem unit_of_ascii {c : UInt16} {tail bytes : Bytes}
    (h : utf8Scalar (unitValue c) ++ tail = bytes) (hb : ∀ b ∈ bytes, b.toNat < 0x80) :
    ∃ b, bytes = b :: tail ∧ c = b.toNat.toUInt16 := by
  rcases unitValue_cases c with ⟨hval, hlow⟩ | ⟨hhigh, hmax⟩
  · obtain ⟨-, hbytes⟩ := utf8Scalar_ascii (by omega) h hb
    refine ⟨_, hbytes, UInt16.toNat.inj ?_⟩
    rw [hval, UInt8.toNat_ofNat', Nat.toUInt16, UInt16.toNat_ofNat']
    omega
  · have := (utf8Scalar_ascii hmax h hb).1
    omega

/-- What encodes to ASCII bytes is those bytes as code units. -/
theorem utf8Encode_ascii (text : JsString) {bytes : Bytes} (h : utf8Encode text = bytes)
    (hb : ∀ b ∈ bytes, b.toNat < 0x80) : text = bytes.map fun b => b.toNat.toUInt16 := by
  fun_induction scalarValues text generalizing bytes with
  | case1 =>
    rw [← h]
    rfl
  | case2 c =>
    obtain ⟨b, rfl, rfl⟩ := unit_of_ascii h hb
    rfl
  | case3 c d rest hpair ih =>
    rw [Bool.and_eq_true] at hpair
    have hbounds := pairValue_bounds hpair.1 hpair.2
    rw [utf8Encode, scalarValues, if_pos (by rw [hpair.1, hpair.2]; rfl)] at h
    have := (utf8Scalar_ascii hbounds.2 h hb).1
    omega
  | case4 c d rest hpair ih =>
    rw [utf8Encode, scalarValues, if_neg hpair] at h
    obtain ⟨b, rfl, rfl⟩ := unit_of_ascii h hb
    rw [List.map_cons]
    exact congrArg _ (ih rfl fun b' hb' => hb b' (List.mem_cons_of_mem _ hb'))

theorem unitValue_ascii {c : UInt16} (hc : c.toNat < 0x80) : unitValue c = c.toNat := by
  rcases unitValue_cases c with ⟨hval, -⟩ | ⟨hhigh, -⟩
  · exact hval
  unfold unitValue at hhigh ⊢
  split
  · next hs =>
      simp only [JsString.isHighSurrogate, JsString.isLowSurrogate, Bool.or_eq_true,
        Bool.and_eq_true, decide_eq_true_eq, UInt16.le_iff_toNat_le, UInt16.reduceToNat] at hs
      omega
  · rfl

theorem ascii_of_mem_utf8Scalar {c : UInt16} (hc : c.toNat < 0x80) {b : UInt8}
    (hb : b ∈ utf8Scalar (unitValue c)) : b.toNat < 0x80 := by
  rw [unitValue_ascii hc, utf8Scalar, if_pos hc, List.mem_singleton] at hb
  rw [hb, UInt8.toNat_ofNat']
  omega

theorem utf8Encode_of_ascii (text : JsString) (h : ∀ c ∈ text, c.toNat < 0x80) :
    ∀ b ∈ utf8Encode text, b.toNat < 0x80 := by
  intro b hb
  unfold utf8Encode at hb
  fun_induction scalarValues text with
  | case1 => cases hb
  | case2 c =>
    rw [List.flatMap_singleton] at hb
    exact ascii_of_mem_utf8Scalar (h c List.mem_cons_self) hb
  | case3 c d rest hpair ih =>
    rw [Bool.and_eq_true] at hpair
    have hc := h c List.mem_cons_self
    have hhigh := hpair.1
    simp only [JsString.isHighSurrogate, Bool.and_eq_true, decide_eq_true_eq,
      UInt16.le_iff_toNat_le, UInt16.reduceToNat] at hhigh
    omega
  | case4 c d rest hpair ih =>
    rw [List.flatMap_cons, List.mem_append] at hb
    rcases hb with hb | hb
    · exact ascii_of_mem_utf8Scalar (h c List.mem_cons_self) hb
    · exact ih (fun c' hc' => h c' (List.mem_cons_of_mem _ hc')) hb

/-- Two texts of one encoding are one, when one of them is ASCII. -/
theorem utf8Encode_inj_ascii {text ascii : JsString} (h : utf8Encode text = utf8Encode ascii)
    (hascii : ∀ c ∈ ascii, c.toNat < 0x80) : text = ascii := by
  have hbytes := utf8Encode_of_ascii ascii hascii
  rw [utf8Encode_ascii text h hbytes, ← utf8Encode_ascii ascii rfl hbytes]

/-! ### Base64url -/

def base64UrlAlphabet : JsString :=
  js "ABCDEFGHIJKLMNOPQRSTUVWXYZabcdefghijklmnopqrstuvwxyz0123456789-_"

def base64UrlDigit (n : UInt8) : UInt16 := base64UrlAlphabet.getD n.toNat 0

/-- The table `B64U_REVERSE`. -/
def base64UrlValue (code : UInt16) : Option Nat := base64UrlAlphabet.idxOf? code

/-- Encode bytes as unpadded base64url. -/
def toBase64Url : Bytes → JsString
  | [] => []
  | [b0] => [base64UrlDigit (b0 >>> 2), base64UrlDigit ((b0 &&& 0x03) <<< 4)]
  | [b0, b1] =>
    [base64UrlDigit (b0 >>> 2), base64UrlDigit (((b0 &&& 0x03) <<< 4) ||| (b1 >>> 4)),
      base64UrlDigit ((b1 &&& 0x0f) <<< 2)]
  | b0 :: b1 :: b2 :: rest =>
    base64UrlDigit (b0 >>> 2) :: base64UrlDigit (((b0 &&& 0x03) <<< 4) ||| (b1 >>> 4)) ::
      base64UrlDigit (((b1 &&& 0x0f) <<< 2) ||| (b2 >>> 6)) :: base64UrlDigit (b2 &&& 0x3f) ::
        toBase64Url rest

/-- The decoding loop: `bitCount` bits of `bits` wait for the next byte. -/
def fromBase64UrlLoop (bits bitCount : Nat) (out : Bytes) : JsString → Option Bytes
  | [] => if bits % 2 ^ bitCount = 0 then some out else none
  | code :: rest =>
    match base64UrlValue code with
    | none => none
    | some value =>
      if 8 ≤ bitCount + 6 then
        fromBase64UrlLoop (bits * 64 + value) (bitCount - 2)
          (out ++ [UInt8.ofNat ((bits * 64 + value) / 2 ^ (bitCount - 2))]) rest
      else fromBase64UrlLoop (bits * 64 + value) (bitCount + 6) out rest

/-- Decode base64url: trailing padding is tolerated, anything else invalid throws. -/
def fromBase64Url (text : JsString) : Option Bytes :=
  let text := (text.reverse.dropWhile (· == unit '=')).reverse
  if text.length % 4 = 1 then none else fromBase64UrlLoop 0 0 [] text

/-- A character `/[A-Za-z0-9_-]/` matches. -/
def isBase64UrlChar (c : UInt16) : Bool :=
  JsString.isUpper c || JsString.isLower c || JsString.isDigit c || c == unit '_' || c == unit '-'

def isBoundedBase64Url (value : JsString) (limit : Nat) : Bool :=
  decide (0 < value.length) && decide (value.length ≤ limit) && value.all isBase64UrlChar

/-- Base64url of exactly `length` characters. -/
def isExactBase64Url (value : JsString) (length : Nat) : Bool :=
  isBoundedBase64Url value length && value.length == length

def base64UrlLength (byteLength : Nat) : Nat :=
  byteLength / 3 * 4 + if byteLength % 3 = 0 then 0 else byteLength % 3 + 1

example : toBase64Url [0xFB, 0xEF] = js "--8" ∧ fromBase64Url (js "--8") = some [0xFB, 0xEF] := by
  decide

/-! ### Framing and comparison -/

/-- Concatenate byte arrays with a 4-byte big-endian length before each part. -/
def lengthPrefixedConcat (parts : List Bytes) : Bytes :=
  parts.flatMap fun part => writeUint32BE part.length ++ part

/-- A string no longer than `limit`. -/
def isBoundedString (value : JsString) (limit : Nat) : Bool := decide (value.length ≤ limit)

/-- Compare byte arrays without early exit on the first mismatching byte. -/
def constantTimeEqual (a b : Bytes) : Bool :=
  a.length == b.length && (a.zipWith (· ^^^ ·) b).foldl (· ||| ·) 0 == 0

theorem foldl_or_eq_zero (bytes : Bytes) (acc : UInt8) :
    bytes.foldl (· ||| ·) acc = 0 ↔ acc = 0 ∧ ∀ b ∈ bytes, b = 0 := by
  induction bytes generalizing acc with
  | nil => simp
  | cons b bs ih =>
    rw [List.foldl_cons, ih, UInt8.or_eq_zero_iff, List.forall_mem_cons, and_assoc]

theorem zipWith_xor_eq_zero : ∀ {a b : Bytes}, a.length = b.length →
    ((∀ x ∈ a.zipWith (· ^^^ ·) b, x = 0) ↔ a = b)
  | [], [], _ => by simp
  | x :: xs, y :: ys, h => by
    rw [List.zipWith_cons_cons, List.forall_mem_cons, UInt8.xor_eq_zero_iff,
      zipWith_xor_eq_zero (Nat.succ.inj h), List.cons.injEq]

theorem constantTimeEqual_iff {a b : Bytes} : constantTimeEqual a b = true ↔ a = b := by
  unfold constantTimeEqual
  rw [Bool.and_eq_true, beq_iff_eq, beq_iff_eq, foldl_or_eq_zero]
  constructor
  · intro h
    exact (zipWith_xor_eq_zero h.1).1 h.2.2
  · intro h
    have hlen : a.length = b.length := by rw [h]
    exact ⟨hlen, rfl, (zipWith_xor_eq_zero hlen).2 h⟩

end Dormouse.Security
