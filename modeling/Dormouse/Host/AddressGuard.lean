import Dormouse.Lib.Numerals

/-!
# Dormouse.Host.AddressGuard

The **address guard** of the iframe proxy (`isBlockedAddress` of `iframe-proxy-rewrite.ts`): it
refuses link-local addresses, the cloud metadata endpoint among them, in every spelling.
-/

namespace Dormouse.Host

open JsString

/-- `toLowerCase`, of which this much is used: what it makes of ASCII text, and that it leaves no
ASCII capital. -/
structure LowerCase where
  toLowerCase : JsString → JsString
  ascii : ∀ text : JsString, (∀ c ∈ text, c < 0x80) → toLowerCase text = asciiLower text
  small : ∀ text : JsString, ∀ c ∈ toLowerCase text, isUpper c = false

theorem isUpper_iff {c : UInt16} : isUpper c = true ↔ 0x41 ≤ c.toNat ∧ c.toNat ≤ 0x5A := by
  simp [isUpper, UInt16.le_iff_toNat_le]

/-- One unit of `asciiLower`. -/
def lowerUnit (c : UInt16) : UInt16 := if isUpper c then c + 0x20 else c

theorem lowerUnit_of_upper {c : UInt16} (h : isUpper c = true) :
    (lowerUnit c).toNat = c.toNat + 0x20 := by
  have hbound := isUpper_iff.1 h
  rw [lowerUnit, if_pos h, UInt16.toNat_add]
  simp only [UInt16.reduceToNat]
  omega

theorem lowerUnit_of_not {c : UInt16} (h : isUpper c = false) : lowerUnit c = c := by
  rw [lowerUnit, h]
  rfl

theorem isUpper_lowerUnit (c : UInt16) : isUpper (lowerUnit c) = false := by
  by_cases h : isUpper c = true
  · have hbound := isUpper_iff.1 h
    have hvalue := lowerUnit_of_upper h
    rw [← Bool.not_eq_true, isUpper_iff]
    omega
  · rw [Bool.not_eq_true] at h
    rw [lowerUnit_of_not h, h]

theorem asciiLower_eq (text : JsString) : asciiLower text = text.map lowerUnit := rfl

/-- The lower case that leaves everything beyond ASCII as it is. -/
def LowerCase.plain : LowerCase where
  toLowerCase := asciiLower
  ascii _ _ := rfl
  small text c hc := by
    obtain ⟨d, -, rfl⟩ := List.mem_map.1 hc
    exact isUpper_lowerUnit d

def LINK_LOCAL_V4_START : Nat := 0xa9fe0000

def LINK_LOCAL_V4_END : Nat := 0xa9feffff

/-- `[0-9a-f]`. -/
def isHexUnit (c : UInt16) : Bool := isDigit c || (0x61 ≤ c && c ≤ 0x66)

/-- `[0-7]`. -/
def isOctalUnit (c : UInt16) : Bool := 0x30 ≤ c && c ≤ 0x37

/-- One component, with `inet_aton` semantics. A double above 2^53 is rounded, and as far out of
range as before. -/
def parseIPv4Part (part : JsString) : Option Nat :=
  if part.take 2 = js "0x" ∧ part.drop 2 ≠ [] ∧ (part.drop 2).all isHexUnit then
    some (parseInt 16 (part.drop 2))
  else if part.head? = some (unit '0') ∧ part.tail ≠ [] ∧ part.tail.all isOctalUnit then
    some (parseInt 8 part)
  else if part = js "0" ∨ (part ≠ [] ∧ part.head? ≠ some (unit '0') ∧ part.all isDigit) then
    some (parseInt 10 part)
  else none

def parseIPv4 (host : JsString) : Option Nat :=
  let parts := host.splitOn (unit '.')
  if parts.length = 0 ∨ 4 < parts.length then none
  else
    match parts.mapM parseIPv4Part with
    | none => none
    | some nums =>
      let last := nums.getLastD 0
      if nums.dropLast.any (0xff < ·) then none
      else if 256 ^ (5 - nums.length) - 1 < last then none
      else
        let value := nums.dropLast.zipIdx.foldl (fun value n => value + n.1 * 256 ^ (3 - n.2)) last
        if value < 2 ^ 32 then some value else none

/-- `(.+)$`: what is left, if it is one line and not empty. -/
def restOfHost (rest : JsString) : Option JsString :=
  if rest ≠ [] ∧ !rest.any isLineTerminator then some rest else none

/-- `/^::(?:ffff:)?(.+)$/`. -/
def matchEmbedded (h : JsString) : Option JsString :=
  if h.take 2 = js "::" then
    let rest := h.drop 2
    if rest.take 5 = js "ffff:" then (restOfHost (rest.drop 5)).orElse fun _ => restOfHost rest
    else restOfHost rest
  else none

/-- `tail.slice(tail.lastIndexOf(':') + 1)`. -/
def afterLastColon (tail : JsString) : JsString :=
  (tail.reverse.takeWhile (· ≠ unit ':')).reverse

/-- `/^[0-9a-f]{1,4}$/`. -/
def isHexGroup (group : JsString) : Bool :=
  1 ≤ group.length && group.length ≤ 4 && group.all isHexUnit

def embeddedIPv4 (h : JsString) : Option Nat :=
  match matchEmbedded h with
  | none => none
  | some tail =>
    if unit '.' ∈ tail then parseIPv4 (afterLastColon tail)
    else
      match tail.splitOn (unit ':') with
      | [high, low] =>
        if isHexGroup high && isHexGroup low then
          some (parseInt 16 high * 65536 + parseInt 16 low)
        else none
      | _ => none

/-- `hostname.replace(/^\[|\]$/g, '')`. -/
def withoutBrackets (hostname : JsString) : JsString :=
  let text := if hostname.head? = some (unit '[') then hostname.tail else hostname
  if text.getLast? = some (unit ']') then text.dropLast else text

/-- `/^fe[89ab][0-9a-f]:/`. -/
def isLinkLocalText (h : JsString) : Bool :=
  match h with
  | f :: e :: y :: z :: colon :: _ =>
    f = unit 'f' && e = unit 'e' &&
      (y = unit '8' || y = unit '9' || y = unit 'a' || y = unit 'b') && isHexUnit z &&
      colon = unit ':'
  | _ => false

def isBlockedAddress (lower : LowerCase) (hostname : JsString) : Bool :=
  let h := lower.toLowerCase (withoutBrackets hostname)
  isLinkLocalText h ||
    match if unit ':' ∈ h then embeddedIPv4 h else parseIPv4 h with
    | none => false
    | some v4 => LINK_LOCAL_V4_START ≤ v4 && v4 ≤ LINK_LOCAL_V4_END

end Dormouse.Host
