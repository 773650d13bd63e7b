import Dormouse.Lib.Numerals

/-!
# Dormouse.Host.AddressText

**Numeric addresses and their texts**: the `inet_aton` grammar of IPv4, the texts of IPv6 and the
canonical one among them, and the addresses that are link-local in either.
-/

namespace Dormouse.Host

open JsString

/-! ### IPv4 -/

/-- One part: decimal, octal behind a zero, or hexadecimal behind `0x`. -/
inductive AtonPart : JsString → Nat → Prop
  | zero : AtonPart (js "0") 0
  | decimal {text n} : Spells 10 text n → text.head? ≠ some (unit '0') → AtonPart text n
  | octal {text n} : Spells 8 text n → AtonPart (unit '0' :: text) n
  | hex {x text n} : x = unit 'x' ∨ x = unit 'X' → Spells 16 text n →
      AtonPart (unit '0' :: x :: text) n

/-- One to four parts, the last filling what the bytes before it leave. -/
inductive InetAton : JsString → Nat → Prop
  | one {a n} : AtonPart a n → n < 2 ^ 32 → InetAton a n
  | two {a b m n} : AtonPart a m → AtonPart b n → m < 2 ^ 8 → n < 2 ^ 24 →
      InetAton (join (js ".") [a, b]) (m * 2 ^ 24 + n)
  | three {a b c l m n} : AtonPart a l → AtonPart b m → AtonPart c n → l < 2 ^ 8 → m < 2 ^ 8 →
      n < 2 ^ 16 → InetAton (join (js ".") [a, b, c]) (l * 2 ^ 24 + m * 2 ^ 16 + n)
  | four {a b c d k l m n} : AtonPart a k → AtonPart b l → AtonPart c m → AtonPart d n →
      k < 2 ^ 8 → l < 2 ^ 8 → m < 2 ^ 8 → n < 2 ^ 8 →
      InetAton (join (js ".") [a, b, c, d]) (k * 2 ^ 24 + l * 2 ^ 16 + m * 2 ^ 8 + n)

/-- 169.254.0.0/16. -/
def LinkLocalV4 (v : Nat) : Prop := v / 2 ^ 16 = 169 * 256 + 254

/-! ### IPv6 -/

structure IPv6 where
  groups : List UInt16
  eight : groups.length = 8

/-- The IPv4 address of an IPv4-mapped or IPv4-compatible address. -/
def IPv6.Embeds (a : IPv6) (v : Nat) : Prop :=
  ∃ mapped high low : UInt16, (mapped = 0 ∨ mapped = 0xffff) ∧
    a.groups = [0, 0, 0, 0, 0, mapped, high, low] ∧ v = high.toNat * 2 ^ 16 + low.toNat

/-- fe80::/10, and what embeds a link-local IPv4 address. -/
def IPv6.LinkLocal (a : IPv6) : Prop :=
  (∃ first rest, a.groups = first :: rest ∧ first.toNat / 2 ^ 6 = 0xfe80 / 2 ^ 6) ∨
    ∃ v, a.Embeds v ∧ LinkLocalV4 v

/-- Four decimal bytes. -/
def dottedQuad (high low : UInt16) : JsString :=
  join (js ".") [numeral 10 (high.toNat / 256), numeral 10 (high.toNat % 256),
    numeral 10 (low.toNat / 256), numeral 10 (low.toNat % 256)]

/-- Where the longest run of zero groups begins, the first of that length, and its length. -/
def longestZeros : List UInt16 → Nat × Nat
  | [] => (0, 0)
  | g :: gs =>
    let here := ((g :: gs).takeWhile (· = 0)).length
    let later := longestZeros gs
    if later.2 ≤ here then (0, here) else (later.1 + 1, later.2)

/-- Groups, lower case and without leading zeros, the longest run of at least two zeros compressed,
and what stands behind them. -/
def compressed (groups : List UInt16) (behind : List JsString) : JsString :=
  let texts := groups.map fun g => numeral 16 g.toNat
  let run := longestZeros groups
  if run.2 < 2 then join (js ":") (texts ++ behind)
  else
    join (js ":") (texts.take run.1) ++ js "::" ++
      join (js ":") (texts.drop (run.1 + run.2) ++ behind)

/-- The canonical text in hexadecimal groups. -/
def IPv6.hexText (a : IPv6) : JsString := compressed a.groups []

/-- The canonical text with a dotted tail. -/
def IPv6.dottedText (a : IPv6) : JsString :=
  compressed (a.groups.take 6) [dottedQuad (a.groups.getD 6 0) (a.groups.getD 7 0)]

/-- With or without brackets. -/
def Bracketed (text s : JsString) : Prop := s = text ∨ s = js "[" ++ text ++ js "]"

def IPv6.Canonical (a : IPv6) (s : JsString) : Prop := Bracketed a.hexText s ∨ Bracketed a.dottedText s

/-! ### Any text of an address -/

/-- One to four hexadecimal digits of either case. -/
def GroupText (text : JsString) (g : UInt16) : Prop := text.length ≤ 4 ∧ Spells 16 text g.toNat

/-- Four decimal bytes, however they are padded. -/
def QuadText (text : JsString) (high low : UInt16) : Prop :=
  ∃ a b c d k l m n, text = join (js ".") [a, b, c, d] ∧ Spells 10 a k ∧ Spells 10 b l ∧
    Spells 10 c m ∧ Spells 10 d n ∧ l < 2 ^ 8 ∧ n < 2 ^ 8 ∧ high.toNat = k * 2 ^ 8 + l ∧
    low.toNat = m * 2 ^ 8 + n

/-- Texts of groups, of which a dotted tail stands for the last two. -/
inductive GroupTexts : List JsString → List UInt16 → Prop
  | hex {texts groups} : List.Forall₂ GroupText texts groups → GroupTexts texts groups
  | dotted {texts groups quad high low} : List.Forall₂ GroupText texts groups →
      QuadText quad high low → GroupTexts (texts ++ [quad]) (groups ++ [high, low])

/-- A text of an IPv6 address, in any spelling. -/
inductive IPv6.Text (a : IPv6) : JsString → Prop
  | full {texts} : GroupTexts texts a.groups → Text a (join (js ":") texts)
  | short {before after front back zeros} : List.Forall₂ GroupText before front →
      GroupTexts after back → 1 ≤ zeros → a.groups = front ++ List.replicate zeros 0 ++ back →
      Text a (join (js ":") before ++ js "::" ++ join (js ":") after)

/-- A numeric address: IPv4 as `inet_aton` reads it, or IPv6 in any spelling, with or without
brackets. -/
def NumericAddress (s : JsString) : Prop :=
  (∃ v, InetAton s v) ∨ ∃ (a : IPv6) (text : JsString), a.Text text ∧ Bracketed text s

end Dormouse.Host
