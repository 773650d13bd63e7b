import Mathlib.Data.Bool.AllAny
import Mathlib.Data.List.TakeWhile
import Dormouse.Lib.Decimal
import Dormouse.Lib.InsertionMap
import Dormouse.Lib.Json

/-!
# Dormouse.Lib.JsonText

**JSON text**: `JSON.stringify` and `JSON.parse`, and that the second reads back what the first
writes.

A lone surrogate is escaped, so what is written is well formed. How a finite double is written and
read is a parameter; all that is asked of it is that the text consists of the characters of a
number and is read back.
-/

namespace Dormouse

namespace JsonText

/-- The characters of a number. -/
def isNumberChar (c : UInt16) : Bool :=
  JsString.isDigit c || c == unit '-' || c == unit '+' || c == unit '.' || c == unit 'e' ||
    c == unit 'E'

/-- How numbers are written and read. -/
structure NumberFormat where
  /-- The finite doubles. -/
  Double : ℚ → Prop
  text : ℚ → JsString
  read : JsString → Option ℚ
  text_ne_nil : ∀ q, text q ≠ []
  text_chars : ∀ q, ∀ c ∈ text q, isNumberChar c = true
  read_text : ∀ q, Double q → read (text q) = some q

/-- The natural numbers, as they print. -/
def naturals : NumberFormat where
  Double q := ∃ n : Nat, q = n
  text q := JsString.ofInt q.num.toNat
  read text :=
    let n := JsString.decimalValue text
    if JsString.ofInt n = text then some n else none
  text_ne_nil q := by
    rw [JsString.ofInt_natCast, Ne, List.map_eq_nil_iff]
    exact Nat.toDigits_ne_nil
  text_chars q c hc := by
    have hdigit := List.all_eq_true.1 (JsString.all_isDigit_ofInt q.num.toNat) c hc
    simp [isNumberChar, hdigit]
  read_text := by
    rintro q ⟨n, rfl⟩
    have hvalue := JsString.decimalValue_padded 0 n
    rw [List.replicate_zero, List.nil_append] at hvalue
    rw [Rat.num_natCast, Int.toNat_natCast]
    rw [hvalue, if_pos rfl]

/-! ### Strings -/

def hexDigit (n : Nat) : UInt16 := (if n < 10 then 0x30 + n else 0x57 + n).toUInt16

def hexValue (c : UInt16) : Option Nat :=
  if 0x30 ≤ c.toNat ∧ c.toNat ≤ 0x39 then some (c.toNat - 0x30)
  else if 0x61 ≤ c.toNat ∧ c.toNat ≤ 0x66 then some (c.toNat - 0x57)
  else if 0x41 ≤ c.toNat ∧ c.toNat ≤ 0x46 then some (c.toNat - 0x37)
  else none

def hex4 (c : UInt16) : JsString :=
  [hexDigit (c.toNat / 4096), hexDigit (c.toNat / 256 % 16), hexDigit (c.toNat / 16 % 16),
    hexDigit (c.toNat % 16)]

def readHex4 : JsString → Option (UInt16 × JsString)
  | a :: b :: c :: d :: rest =>
    match hexValue a, hexValue b, hexValue c, hexValue d with
    | some a, some b, some c, some d =>
      some ((a * 4096 + b * 256 + c * 16 + d).toUInt16, rest)
    | _, _, _, _ => none
  | _ => none

/-- The code units that have an escape of their own, each with its letter. -/
def shortEscapes : List (UInt16 × UInt16) :=
  [(0x22, unit '"'), (0x5C, unit '\\'), (0x08, unit 'b'), (0x0C, unit 'f'), (0x0A, unit 'n'),
    (0x0D, unit 'r'), (0x09, unit 't')]

/-- `QuoteJSONString`, of one code unit that is not in a surrogate pair. -/
def escapeUnit (c : UInt16) : JsString :=
  match shortEscapes.find? (·.1 == c) with
  | some (_, letter) => [unit '\\', letter]
  | none =>
    if c < 0x20 || JsString.isHighSurrogate c || JsString.isLowSurrogate c then
      unit '\\' :: unit 'u' :: hex4 c
    else [c]

def escape : JsString → JsString
  | [] => []
  | [c] => escapeUnit c
  | c :: d :: rest =>
    if JsString.isHighSurrogate c && JsString.isLowSurrogate d then c :: d :: escape rest
    else escapeUnit c ++ escape (d :: rest)

def quote (s : JsString) : JsString := unit '"' :: (escape s ++ [unit '"'])

/-- What stands behind a backslash. -/
def readEscape : JsString → Option (UInt16 × JsString)
  | [] => none
  | letter :: rest =>
    match (shortEscapes ++ [(unit '/', unit '/')]).find? (·.2 == letter) with
    | some (c, _) => some (c, rest)
    | none => if letter = unit 'u' then readHex4 rest else none

/-- One code unit inside quotes. -/
def readUnit : JsString → Option (UInt16 × JsString)
  | [] => none
  | c :: rest =>
    if c = unit '\\' then readEscape rest
    else if c = unit '"' || c < 0x20 then none
    else some (c, rest)

/-- The rest of a string, up to its closing quote. -/
def readChars : Nat → JsString → Option (JsString × JsString)
  | 0, _ => none
  | fuel + 1, text =>
    match text with
    | [] => none
    | c :: rest =>
      if c = unit '"' then some ([], rest)
      else
        (readUnit (c :: rest)).bind fun u =>
          (readChars fuel u.2).map fun s => (u.1 :: s.1, s.2)

/-! ### Values -/

mutual
/-- `JSON.stringify`. -/
def stringify (fmt : NumberFormat) : Json → JsString
  | .null => js "null"
  | .bool true => js "true"
  | .bool false => js "false"
  | .number q => fmt.text q
  | .string s => quote s
  | .array items => unit '[' :: (stringifyItems fmt items ++ [unit ']'])
  | .object fields => unit '\x7b' :: (stringifyFields fmt fields ++ [unit '\x7d'])
def stringifyItems (fmt : NumberFormat) : List Json → JsString
  | [] => []
  | [v] => stringify fmt v
  | v :: w :: vs => stringify fmt v ++ unit ',' :: stringifyItems fmt (w :: vs)
def stringifyFields (fmt : NumberFormat) : List (JsString × Json) → JsString
  | [] => []
  | [(k, v)] => quote k ++ unit ':' :: stringify fmt v
  | (k, v) :: f :: fs =>
    quote k ++ unit ':' :: (stringify fmt v ++ unit ',' :: stringifyFields fmt (f :: fs))
end

def isSpace (c : UInt16) : Bool := c == 0x20 || c == 0x09 || c == 0x0A || c == 0x0D

def skipSpace (text : JsString) : JsString := text.dropWhile isSpace

/-- A field that comes twice has the last value, in the first place. -/
def toObject (fields : List (JsString × Json)) : Json :=
  .object (fields.foldl (fun fs f => InsertionMap.setEntry f.1 f.2 fs) [])

/-- A literal or a number. -/
def parseAtom (fmt : NumberFormat) (text : JsString) : Option (Json × JsString) :=
  if (js "null").isPrefixOf text then some (.null, text.drop 4)
  else if (js "true").isPrefixOf text then some (.bool true, text.drop 4)
  else if (js "false").isPrefixOf text then some (.bool false, text.drop 5)
  else (fmt.read (text.takeWhile isNumberChar)).map fun q => (.number q, text.dropWhile isNumberChar)

mutual
def parseValue (fmt : NumberFormat) : Nat → JsString → Option (Json × JsString)
  | 0, _ => none
  | fuel + 1, text =>
    match skipSpace text with
    | [] => none
    | c :: rest =>
      if c = unit '"' then
        (readChars (rest.length + 1) rest).map fun s => (.string s.1, s.2)
      else if c = unit '[' then
        match skipSpace rest with
        | [] => none
        | d :: rest' =>
          if d = unit ']' then some (.array [], rest')
          else (parseItems fmt fuel (d :: rest')).map fun vs => (.array vs.1, vs.2)
      else if c = unit '\x7b' then
        match skipSpace rest with
        | [] => none
        | d :: rest' =>
          if d = unit '\x7d' then some (.object [], rest')
          else (parseFields fmt fuel (d :: rest')).map fun fs => (toObject fs.1, fs.2)
      else parseAtom fmt (c :: rest)
/-- The items of an array, up to its closing bracket. -/
def parseItems (fmt : NumberFormat) : Nat → JsString → Option (List Json × JsString)
  | 0, _ => none
  | fuel + 1, text =>
    (parseValue fmt fuel text).bind fun v =>
      match skipSpace v.2 with
      | [] => none
      | c :: rest =>
        if c = unit ']' then some ([v.1], rest)
        else if c = unit ',' then
          (parseItems fmt fuel rest).map fun vs => (v.1 :: vs.1, vs.2)
        else none
/-- The fields of an object, up to its closing brace. -/
def parseFields (fmt : NumberFormat) : Nat → JsString → Option (List (JsString × Json) × JsString)
  | 0, _ => none
  | fuel + 1, text =>
    match skipSpace text with
    | [] => none
    | c :: rest =>
      if c = unit '"' then
        (readChars (rest.length + 1) rest).bind fun k =>
          match skipSpace k.2 with
          | [] => none
          | d :: rest =>
            if d = unit ':' then
              (parseValue fmt fuel rest).bind fun v =>
                match skipSpace v.2 with
                | [] => none
                | e :: rest =>
                  if e = unit '\x7d' then some ([(k.1, v.1)], rest)
                  else if e = unit ',' then
                    (parseFields fmt fuel rest).map fun fs => ((k.1, v.1) :: fs.1, fs.2)
                  else none
            else none
      else none
end

/-- `JSON.parse`; `none` is where it throws. Every value takes two steps and has a character. -/
def parse (fmt : NumberFormat) (text : JsString) : Option Json :=
  (parseValue fmt (2 * text.length + 2) text).bind fun v =>
    if skipSpace v.2 = [] then some v.1 else none

/-! ### What is written of a string -/

theorem hexValue_hexDigit : ∀ n : Fin 16, hexValue (hexDigit n) = some n.1 := by decide

theorem readHex4_hex4 (c : UInt16) (rest : JsString) : readHex4 (hex4 c ++ rest) = some (c, rest) := by
  have hlt : c.toNat < 65536 := c.toNat_lt
  have h₁ := hexValue_hexDigit ⟨c.toNat / 4096, by omega⟩
  have h₂ := hexValue_hexDigit ⟨c.toNat / 256 % 16, by omega⟩
  have h₃ := hexValue_hexDigit ⟨c.toNat / 16 % 16, by omega⟩
  have h₄ := hexValue_hexDigit ⟨c.toNat % 16, by omega⟩
  have hsum : c.toNat / 4096 * 4096 + c.toNat / 256 % 16 * 256 + c.toNat / 16 % 16 * 16 +
      c.toNat % 16 = c.toNat := by omega
  simp only [hex4, List.cons_append, List.nil_append, readHex4, h₁, h₂, h₃, h₄, hsum]
  exact congrArg some (Prod.ext (UInt16.toNat_inj.1 (toNat_toUInt16 hlt)) rfl)

/-- A code unit is written by a short escape, by its number, or as it is. -/
theorem escapeUnit_cases (c : UInt16) :
    (∃ letter, (c, letter) ∈ shortEscapes ∧ escapeUnit c = [unit '\\', letter]) ∨
      escapeUnit c = unit '\\' :: unit 'u' :: hex4 c ∨
      (escapeUnit c = [c] ∧ c ≠ unit '\\' ∧ c ≠ unit '"' ∧ ¬c < 0x20 ∧
        JsString.isHighSurrogate c = false ∧ JsString.isLowSurrogate c = false) := by
  unfold escapeUnit
  cases hfind : shortEscapes.find? (·.1 == c) with
  | some e =>
    obtain ⟨d, letter⟩ := e
    have hd : d = c := by simpa using List.find?_some hfind
    exact .inl ⟨letter, hd ▸ List.mem_of_find?_eq_some hfind, rfl⟩
  | none =>
    have hnone := List.find?_eq_none.1 hfind
    have hslash : c ≠ unit '\\' := fun heq =>
      hnone (0x5C, unit '\\') (by decide) (by rw [heq]; decide)
    have hquote : c ≠ unit '"' := fun heq =>
      hnone (0x22, unit '"') (by decide) (by rw [heq]; decide)
    dsimp only
    split
    · exact .inr (.inl rfl)
    · rename_i hplain
      simp only [Bool.or_eq_true, decide_eq_true_eq, not_or, Bool.not_eq_true] at hplain
      exact .inr (.inr ⟨rfl, hslash, hquote, hplain.1.1, hplain.1.2, hplain.2⟩)

theorem readEscape_short : ∀ e ∈ shortEscapes,
    (shortEscapes ++ [(unit '/', unit '/')]).find? (·.2 == e.2) = some e :=
  List.all_iff_forall_prop.1 (by decide)

theorem readUnit_escapeUnit (c : UInt16) (rest : JsString) :
    readUnit (escapeUnit c ++ rest) = some (c, rest) := by
  rcases escapeUnit_cases c with ⟨letter, hmem, hshort⟩ | hnumber | ⟨hplain, hslash, hquote, hlow, -⟩
  · rw [hshort, List.cons_append, List.cons_append, List.nil_append, readUnit, if_pos rfl, readEscape,
      readEscape_short _ hmem]
  · have hnone : (shortEscapes ++ [(unit '/', unit '/')]).find? (·.2 == unit 'u') = none := by decide
    rw [hnumber, List.cons_append, List.cons_append, readUnit, if_pos rfl, readEscape, hnone,
      if_pos rfl, readHex4_hex4]
  · rw [hplain, List.cons_append, List.nil_append, readUnit, if_neg hslash, if_neg]
    simp [hquote, hlow]

theorem surrogate_plain {c : UInt16}
    (h : JsString.isHighSurrogate c = true ∨ JsString.isLowSurrogate c = true) :
    c ≠ unit '\\' ∧ c ≠ unit '"' ∧ ¬c < 0x20 := by
  have hge : (0xD800 : UInt16).toNat ≤ c.toNat := by
    simp only [JsString.isHighSurrogate, JsString.isLowSurrogate, Bool.and_eq_true,
      decide_eq_true_eq] at h
    rcases h with h | h
    · exact h.1
    · exact le_trans (by decide : (0xD800 : UInt16).toNat ≤ (0xDC00 : UInt16).toNat) h.1
  have hvalue : (0xD800 : UInt16).toNat = 0xD800 := rfl
  refine ⟨fun heq => ?_, fun heq => ?_, fun hlt => ?_⟩
  · rw [heq, hvalue] at hge
    exact absurd hge (by decide)
  · rw [heq, hvalue] at hge
    exact absurd hge (by decide)
  · have hlt : c.toNat < 0x20 := hlt
    omega

theorem readUnit_plain {c : UInt16} (h : c ≠ unit '\\' ∧ c ≠ unit '"' ∧ ¬c < 0x20)
    (rest : JsString) : readUnit (c :: rest) = some (c, rest) := by
  rw [readUnit, if_neg h.1, if_neg]
  simp [h.2.1, h.2.2]

/-- A code unit that is read is none of the closing quote. -/
theorem readChars_of_readUnit {text rest : JsString} {u : UInt16}
    (h : readUnit text = some (u, rest)) (fuel : Nat) :
    readChars (fuel + 1) text = (readChars fuel rest).map fun s => (u :: s.1, s.2) := by
  cases text with
  | nil => exact absurd h nofun
  | cons c text =>
    have hquote : c ≠ unit '"' := by
      rintro rfl
      exact absurd h (by simp [readUnit, unit])
    rw [readChars, if_neg hquote, h, Option.bind_some]

theorem length_escapeUnit_pos (c : UInt16) : 0 < (escapeUnit c).length := by
  rcases escapeUnit_cases c with ⟨letter, -, h⟩ | h | ⟨h, -⟩ <;> rw [h] <;> simp

theorem length_le_escape (s : JsString) : s.length ≤ (escape s).length := by
  induction s using escape.induct with
  | case1 => exact Nat.zero_le _
  | case2 c => exact length_escapeUnit_pos c
  | case3 c d rest hpair ih =>
    rw [escape, if_pos hpair, List.length_cons, List.length_cons, List.length_cons,
      List.length_cons]
    omega
  | case4 c d rest hpair ih =>
    have hpos := length_escapeUnit_pos c
    rw [escape, if_neg hpair, List.length_append, List.length_cons]
    omega

theorem readChars_escape (s : JsString) : ∀ fuel rest, s.length < fuel →
    readChars fuel (escape s ++ unit '"' :: rest) = some (s, rest) := by
  induction s using escape.induct with
  | case1 =>
    intro fuel rest hfuel
    obtain ⟨fuel, rfl⟩ : ∃ n, fuel = n + 1 := ⟨fuel - 1, by omega⟩
    rfl
  | case2 c =>
    intro fuel rest hfuel
    rw [List.length_singleton] at hfuel
    obtain ⟨fuel, rfl⟩ : ∃ n, fuel = n + 2 := ⟨fuel - 2, by omega⟩
    rw [escape, readChars_of_readUnit (readUnit_escapeUnit c _)]
    rfl
  | case3 c d rest' hpair ih =>
    intro fuel rest hfuel
    rw [List.length_cons, List.length_cons] at hfuel
    obtain ⟨fuel, rfl⟩ : ∃ n, fuel = n + 2 := ⟨fuel - 2, by omega⟩
    obtain ⟨hhigh, hlow⟩ := Bool.and_eq_true_iff.1 hpair
    have hc := readUnit_plain (surrogate_plain (.inl hhigh)) (d :: (escape rest' ++ unit '"' :: rest))
    have hd := readUnit_plain (surrogate_plain (.inr hlow)) (escape rest' ++ unit '"' :: rest)
    rw [escape, if_pos hpair, List.cons_append, List.cons_append, readChars_of_readUnit hc,
      readChars_of_readUnit hd, ih fuel rest (by omega)]
    rfl
  | case4 c d rest' hpair ih =>
    intro fuel rest hfuel
    rw [List.length_cons] at hfuel
    obtain ⟨fuel, rfl⟩ : ∃ n, fuel = n + 1 := ⟨fuel - 1, by omega⟩
    rw [escape, if_neg hpair, List.append_assoc, readChars_of_readUnit (readUnit_escapeUnit c _),
      ih fuel rest (by omega)]
    rfl

/-- What stands behind the opening quote is read back. -/
theorem readChars_quote (s rest : JsString) :
    readChars ((escape s ++ unit '"' :: rest).length + 1) (escape s ++ unit '"' :: rest) =
      some (s, rest) := by
  refine readChars_escape s _ rest ?_
  have hle := length_le_escape s
  rw [List.length_append]
  omega

/-! ### What is written of a value -/

/-- Its numbers are doubles and its keys distinct, throughout. -/
inductive Wellformed (fmt : NumberFormat) : Json → Prop
  | null : Wellformed fmt .null
  | bool (b : Bool) : Wellformed fmt (.bool b)
  | number {q : ℚ} : fmt.Double q → Wellformed fmt (.number q)
  | string (s : JsString) : Wellformed fmt (.string s)
  | array {items : List Json} : (∀ v ∈ items, Wellformed fmt v) → Wellformed fmt (.array items)
  | object {fields : List (JsString × Json)} : (fields.map Prod.fst).Nodup →
      (∀ f ∈ fields, Wellformed fmt f.2) → Wellformed fmt (.object fields)

/-- The first character of a value. -/
def isStart (c : UInt16) : Bool :=
  c == unit '"' || c == unit '[' || c == unit '\x7b' || c == unit 'n' || c == unit 't' ||
    c == unit 'f' || isNumberChar c

theorem stringify_start (fmt : NumberFormat) (v : Json) :
    ∃ c rest, stringify fmt v = c :: rest ∧ isStart c = true := by
  cases v with
  | null => exact ⟨unit 'n', _, rfl, rfl⟩
  | bool b => cases b with
    | true => exact ⟨unit 't', _, rfl, rfl⟩
    | false => exact ⟨unit 'f', _, rfl, rfl⟩
  | number q =>
    rw [stringify]
    cases htext : fmt.text q with
    | nil => exact absurd htext (fmt.text_ne_nil q)
    | cons c rest =>
      have hc := fmt.text_chars q c (htext ▸ List.mem_cons_self)
      exact ⟨c, rest, rfl, by simp [isStart, hc]⟩
  | string s => exact ⟨unit '"', _, rfl, rfl⟩
  | array items =>
    rw [stringify]
    exact ⟨unit '[', _, rfl, rfl⟩
  | object fields =>
    rw [stringify]
    exact ⟨unit '\x7b', _, rfl, rfl⟩

theorem toNat_lt_of_isStart {c : UInt16} (h : isStart c = true) : c.toNat < 0x80 := by
  simp only [isStart, isNumberChar, JsString.isDigit, Bool.or_eq_true, Bool.and_eq_true,
    beq_iff_eq, decide_eq_true_eq] at h
  rcases h with (((((rfl | rfl) | rfl) | rfl) | rfl) | rfl) | (((((h | rfl) | rfl) | rfl) | rfl) | rfl)
  all_goals first
    | decide
    | exact lt_of_le_of_lt h.2 (by decide : (0x39 : UInt16).toNat < 0x80)

/-- What a first character is not. -/
theorem isStart_spec {c : UInt16} (h : isStart c = true) :
    isSpace c = false ∧ c ≠ unit ']' ∧ c ≠ unit '\x7d' ∧ JsString.isWhitespace c = false := by
  have hall : ∀ n : Fin 128, isStart n.1.toUInt16 = true →
      isSpace n.1.toUInt16 = false ∧ n.1.toUInt16 ≠ unit ']' ∧ n.1.toUInt16 ≠ unit '\x7d' ∧
        JsString.isWhitespace n.1.toUInt16 = false := by decide +kernel
  have hc : c.toNat.toUInt16 = c := UInt16.toNat_inj.1 (toNat_toUInt16 c.toNat_lt)
  have hspec := hall ⟨c.toNat, toNat_lt_of_isStart h⟩
  rw [hc] at hspec
  exact hspec h

/-- What a character of a number is not. -/
theorem isNumberChar_spec {c : UInt16} (h : isNumberChar c = true) :
    c ≠ unit '"' ∧ c ≠ unit '[' ∧ c ≠ unit '\x7b' ∧ c ≠ unit 'n' ∧ c ≠ unit 't' ∧ c ≠ unit 'f' := by
  refine ⟨?_, ?_, ?_, ?_, ?_, ?_⟩ <;> rintro rfl <;> exact absurd h (by decide)

/-- A value ends here: no number goes on. -/
def Stops (rest : JsString) : Prop := ∀ c ∈ rest.head?, isNumberChar c = false

theorem skipSpace_of_start {c : UInt16} (h : isStart c = true) (rest : JsString) :
    skipSpace (c :: rest) = c :: rest := by
  rw [skipSpace, List.dropWhile_cons_of_neg]
  simp [(isStart_spec h).1]

theorem skipSpace_cons {c : UInt16} (h : isSpace c = false) (rest : JsString) :
    skipSpace (c :: rest) = c :: rest := by
  rw [skipSpace, List.dropWhile_cons_of_neg]
  simp [h]

theorem parseAtom_number (fmt : NumberFormat) {q : ℚ} (hq : fmt.Double q) {rest : JsString}
    (hrest : Stops rest) : parseAtom fmt (fmt.text q ++ rest) = some (.number q, rest) := by
  have hchars := fmt.text_chars q
  obtain ⟨c, t, htext⟩ := List.exists_cons_of_ne_nil (fmt.text_ne_nil q)
  obtain ⟨-, -, -, hn, ht, hf⟩ := isNumberChar_spec (hchars c (htext ▸ List.mem_cons_self))
  have hword : ∀ word : JsString, ∀ d w, word = d :: w → c ≠ d →
      word.isPrefixOf (fmt.text q ++ rest) = false := by
    rintro word d w rfl hne
    rw [htext]
    simp [List.isPrefixOf, Ne.symm hne]
  have hstop : rest.takeWhile isNumberChar = [] ∧ rest.dropWhile isNumberChar = rest := by
    cases rest with
    | nil => exact ⟨rfl, rfl⟩
    | cons d rest =>
      have hd := hrest d rfl
      exact ⟨List.takeWhile_cons_of_neg (by simp [hd]), List.dropWhile_cons_of_neg (by simp [hd])⟩
  unfold parseAtom
  rw [hword (js "null") (unit 'n') _ rfl hn, hword (js "true") (unit 't') _ rfl ht,
    hword (js "false") (unit 'f') _ rfl hf, if_neg Bool.false_ne_true, if_neg Bool.false_ne_true,
    if_neg Bool.false_ne_true, List.takeWhile_append_of_pos hchars, List.dropWhile_append_of_pos hchars,
    hstop.1, hstop.2, List.append_nil, fmt.read_text q hq, Option.map_some]

/-- A value that is read where it stands takes as many steps as it is large. -/
def Reads (fmt : NumberFormat) (v : Json) : Prop :=
  ∀ fuel rest, Stops rest → 2 * v.size ≤ fuel →
    parseValue fmt fuel (stringify fmt v ++ rest) = some (v, rest)

theorem parseItems_stringify (fmt : NumberFormat) (items : List Json)
    (hreads : ∀ v ∈ items, Reads fmt v) : ∀ fuel rest, items ≠ [] → 2 * Json.sizes items + 1 ≤ fuel →
      parseItems fmt fuel (stringifyItems fmt items ++ unit ']' :: rest) = some (items, rest) := by
  induction items with
  | nil => exact fun _ _ hne => absurd rfl hne
  | cons v vs ih =>
    intro fuel rest _ hfuel
    obtain ⟨fuel, rfl⟩ : ∃ n, fuel = n + 1 := ⟨fuel - 1, by omega⟩
    rw [Json.sizes] at hfuel
    have hv := hreads v List.mem_cons_self
    rw [parseItems]
    cases vs with
    | nil =>
      rw [stringifyItems, hv fuel _ (by rintro c ⟨⟩; decide) (by omega), Option.bind_some]
      rw [skipSpace_cons (by decide)]
      rfl
    | cons w vs =>
      have hsize := Json.size_pos v
      rw [stringifyItems, List.append_assoc, List.cons_append,
        hv fuel _ (by rintro c ⟨⟩; decide) (by omega), Option.bind_some]
      rw [skipSpace_cons (by decide)]
      dsimp only
      rw [if_neg (by decide), if_pos rfl,
        ih (fun v' hv' => hreads v' (List.mem_cons_of_mem v hv')) fuel rest
          (List.cons_ne_nil w vs) (by omega)]
      rfl

/-- The first field of an object, up to the colon and over the value. -/
theorem parseFields_cons (fmt : NumberFormat) {k : JsString} {v : Json} (hv : Reads fmt v)
    {fuel : Nat} (hfuel : 2 * v.size ≤ fuel) {c : UInt16} (hc : isNumberChar c = false)
    (rest : JsString) :
    parseFields fmt (fuel + 1) (quote k ++ unit ':' :: (stringify fmt v ++ c :: rest)) =
      match skipSpace (c :: rest) with
      | [] => none
      | e :: rest =>
        if e = unit '\x7d' then some ([(k, v)], rest)
        else if e = unit ',' then
          (parseFields fmt fuel rest).map fun fs => ((k, v) :: fs.1, fs.2)
        else none := by
  have hquote : quote k ++ unit ':' :: (stringify fmt v ++ c :: rest) =
      unit '"' :: (escape k ++ unit '"' :: (unit ':' :: (stringify fmt v ++ c :: rest))) := by
    simp [quote]
  have hread := readChars_quote k (unit ':' :: (stringify fmt v ++ c :: rest))
  rw [hquote, parseFields, skipSpace_cons (by decide)]
  dsimp only
  rw [if_pos rfl, hread, Option.bind_some]
  rw [skipSpace_cons (by decide)]
  dsimp only
  have hstops : Stops (c :: rest) := by
    rintro d ⟨⟩
    exact hc
  rw [if_pos rfl, hv fuel (c :: rest) hstops hfuel, Option.bind_some]

theorem parseFields_stringify (fmt : NumberFormat) (fields : List (JsString × Json))
    (hreads : ∀ f ∈ fields, Reads fmt f.2) : ∀ fuel rest, fields ≠ [] →
      2 * Json.fieldSizes fields + 1 ≤ fuel →
      parseFields fmt fuel (stringifyFields fmt fields ++ unit '\x7d' :: rest) =
        some (fields, rest) := by
  induction fields with
  | nil => exact fun _ _ hne => absurd rfl hne
  | cons f fs ih =>
    intro fuel rest _ hfuel
    obtain ⟨k, v⟩ := f
    obtain ⟨fuel, rfl⟩ : ∃ n, fuel = n + 1 := ⟨fuel - 1, by omega⟩
    rw [Json.fieldSizes] at hfuel
    have hv : Reads fmt v := hreads (k, v) List.mem_cons_self
    cases fs with
    | nil =>
      rw [stringifyFields, List.append_assoc, List.cons_append,
        parseFields_cons fmt hv (by omega) (by decide), skipSpace_cons (by decide)]
      rfl
    | cons g fs =>
      have hsize := Json.size_pos v
      rw [stringifyFields, List.append_assoc, List.cons_append, List.append_assoc,
        List.cons_append, parseFields_cons fmt hv (by omega) (by decide),
        skipSpace_cons (by decide)]
      dsimp only
      rw [if_neg (by decide), if_pos rfl,
        ih (fun f' hf' => hreads f' (List.mem_cons_of_mem _ hf')) fuel rest
          (List.cons_ne_nil g fs) (by omega)]
      rfl

/-- Distinct keys all get a place of their own. -/
theorem toObject_of_nodup {fields : List (JsString × Json)} (h : (fields.map Prod.fst).Nodup) :
    toObject fields = .object fields := by
  have hfold : ∀ (fs done : List (JsString × Json)), ((done ++ fs).map Prod.fst).Nodup →
      fs.foldl (fun fs f => InsertionMap.setEntry f.1 f.2 fs) done = done ++ fs := by
    intro fs
    induction fs with
    | nil => exact fun done _ => (List.append_nil done).symm
    | cons f fs ih =>
      intro done hnodup
      have hfresh : f.1 ∉ done.map Prod.fst := by
        rw [List.map_append, List.map_cons] at hnodup
        exact fun hmem => (List.nodup_append.1 hnodup).2.2 f.1 hmem f.1 List.mem_cons_self rfl
      have hset : InsertionMap.setEntry f.1 f.2 done = done ++ [f] := by
        clear hnodup
        induction done with
        | nil => rfl
        | cons d done ihd =>
          rw [List.map_cons, List.mem_cons, not_or] at hfresh
          rw [InsertionMap.setEntry, if_neg (Ne.symm hfresh.1), ihd hfresh.2, List.cons_append]
      rw [List.foldl_cons, hset, ih, List.append_assoc, List.singleton_append]
      rwa [List.append_assoc, List.singleton_append]
  rw [toObject, hfold fields [] h, List.nil_append]

theorem reads_of_wellformed (fmt : NumberFormat) {v : Json} (h : Wellformed fmt v) :
    Reads fmt v := by
  induction h with
  | null =>
    intro fuel rest _ hfuel
    obtain ⟨fuel, rfl⟩ : ∃ n, fuel = n + 1 := ⟨fuel - 1, by simp [Json.size] at hfuel; omega⟩
    rfl
  | bool b =>
    intro fuel rest _ hfuel
    obtain ⟨fuel, rfl⟩ : ∃ n, fuel = n + 1 := ⟨fuel - 1, by simp [Json.size] at hfuel; omega⟩
    cases b <;> rfl
  | @number q hq =>
    intro fuel rest hrest hfuel
    obtain ⟨fuel, rfl⟩ : ∃ n, fuel = n + 1 := ⟨fuel - 1, by simp [Json.size] at hfuel; omega⟩
    have hatom := parseAtom_number fmt hq hrest
    rw [stringify]
    obtain ⟨c, t, htext⟩ := List.exists_cons_of_ne_nil (fmt.text_ne_nil q)
    have hc := fmt.text_chars q c (htext ▸ List.mem_cons_self)
    obtain ⟨hquote, hbracket, hbrace, -⟩ := isNumberChar_spec hc
    rw [htext, List.cons_append] at hatom ⊢
    rw [parseValue, skipSpace_of_start (by simp [isStart, hc])]
    dsimp only
    rw [if_neg hquote, if_neg hbracket, if_neg hbrace, hatom]
  | string s =>
    intro fuel rest _ hfuel
    obtain ⟨fuel, rfl⟩ : ∃ n, fuel = n + 1 := ⟨fuel - 1, by simp [Json.size] at hfuel; omega⟩
    have hquote : stringify fmt (.string s) ++ rest =
        unit '"' :: (escape s ++ unit '"' :: rest) := by
      simp [stringify, quote]
    rw [hquote, parseValue, skipSpace_cons (by decide)]
    dsimp only
    rw [if_pos rfl, readChars_quote, Option.map_some]
  | @array items _ ih =>
    intro fuel rest _ hfuel
    rw [Json.size] at hfuel
    obtain ⟨fuel, rfl⟩ : ∃ n, fuel = n + 1 := ⟨fuel - 1, by omega⟩
    rw [stringify, List.cons_append, List.append_assoc, List.singleton_append, parseValue,
      skipSpace_cons (by decide)]
    dsimp only
    rw [if_neg (by decide), if_pos rfl]
    rcases items with _ | ⟨v, vs⟩
    · rfl
    have hstart : ∃ c t, stringifyItems fmt (v :: vs) ++ unit ']' :: rest = c :: t ∧
        isStart c = true := by
      obtain ⟨c, t, htext, hc⟩ := stringify_start fmt v
      cases vs with
      | nil => exact ⟨c, t ++ unit ']' :: rest, by rw [stringifyItems, htext]; rfl, hc⟩
      | cons w vs => exact ⟨c, _, by rw [stringifyItems, htext]; rfl, hc⟩
    obtain ⟨c, t, htext, hc⟩ := hstart
    have hitems := parseItems_stringify fmt (v :: vs) ih fuel rest (List.cons_ne_nil v vs)
      (by omega)
    rw [htext] at hitems ⊢
    rw [skipSpace_of_start hc]
    dsimp only
    rw [if_neg (isStart_spec hc).2.1, hitems, Option.map_some]
  | @object fields hnodup _ ih =>
    intro fuel rest _ hfuel
    rw [Json.size] at hfuel
    obtain ⟨fuel, rfl⟩ : ∃ n, fuel = n + 1 := ⟨fuel - 1, by omega⟩
    rw [stringify, List.cons_append, List.append_assoc, List.singleton_append, parseValue,
      skipSpace_cons (by decide)]
    dsimp only
    rw [if_neg (by decide), if_neg (by decide), if_pos rfl]
    rcases fields with _ | ⟨f, fs⟩
    · rfl
    have hstart : ∃ t, stringifyFields fmt (f :: fs) ++ unit '\x7d' :: rest =
        unit '"' :: t := by
      obtain ⟨k, v⟩ := f
      cases fs with
      | nil => exact ⟨_, by rw [stringifyFields]; rfl⟩
      | cons g fs => exact ⟨_, by rw [stringifyFields]; rfl⟩
    obtain ⟨t, htext⟩ := hstart
    have hfields := parseFields_stringify fmt (f :: fs) ih fuel rest (List.cons_ne_nil f fs)
      (by omega)
    rw [htext] at hfields ⊢
    rw [skipSpace_cons (by decide)]
    dsimp only
    rw [if_neg (by decide), hfields, Option.map_some, toObject_of_nodup hnodup]

/-! ### The whole text -/

theorem size_items_le (fmt : NumberFormat) {items : List Json}
    (h : ∀ v ∈ items, v.size ≤ (stringify fmt v).length) :
    Json.sizes items ≤ (stringifyItems fmt items).length := by
  induction items with
  | nil => exact Nat.zero_le _
  | cons v vs ih =>
    have hv := h v List.mem_cons_self
    have hvs := ih fun w hw => h w (List.mem_cons_of_mem v hw)
    cases vs with
    | nil => rwa [stringifyItems, Json.sizes, Json.sizes, Nat.add_zero]
    | cons w vs =>
      rw [stringifyItems, Json.sizes, List.length_append, List.length_cons]
      omega

theorem size_fields_le (fmt : NumberFormat) {fields : List (JsString × Json)}
    (h : ∀ f ∈ fields, f.2.size ≤ (stringify fmt f.2).length) :
    Json.fieldSizes fields ≤ (stringifyFields fmt fields).length := by
  induction fields with
  | nil => exact Nat.zero_le _
  | cons f fs ih =>
    obtain ⟨k, v⟩ := f
    have hv : v.size ≤ (stringify fmt v).length := h (k, v) List.mem_cons_self
    have hfs := ih fun g hg => h g (List.mem_cons_of_mem _ hg)
    cases fs with
    | nil =>
      rw [stringifyFields, Json.fieldSizes, Json.fieldSizes, List.length_append, List.length_cons]
      omega
    | cons g fs =>
      rw [stringifyFields, Json.fieldSizes, List.length_append, List.length_cons,
        List.length_append, List.length_cons]
      omega

/-- A value has a character of its own. -/
theorem size_le_length (fmt : NumberFormat) {v : Json} (h : Wellformed fmt v) :
    v.size ≤ (stringify fmt v).length := by
  induction h with
  | null => exact (by decide : 1 ≤ (js "null").length)
  | bool b => cases b with
    | true => exact (by decide : 1 ≤ (js "true").length)
    | false => exact (by decide : 1 ≤ (js "false").length)
  | @number q _ => exact List.length_pos_iff.2 (fmt.text_ne_nil q)
  | string s => exact Nat.le_add_left 1 _
  | array _ ih =>
    have hle := size_items_le fmt ih
    rw [stringify, Json.size, List.length_cons, List.length_append]
    omega
  | object _ _ ih =>
    have hle := size_fields_le fmt ih
    rw [stringify, Json.size, List.length_cons, List.length_append]
    omega

/-- **What is written is read back.** -/
theorem parse_stringify (fmt : NumberFormat) {v : Json} (h : Wellformed fmt v) :
    parse fmt (stringify fmt v) = some v := by
  have hsize := size_le_length fmt h
  have hread := reads_of_wellformed fmt h (2 * (stringify fmt v).length + 2) [] nofun (by omega)
  rw [List.append_nil] at hread
  rw [parse, hread, Option.bind_some]
  exact if_pos rfl

/-! ### What is never written -/

/-- No control character and no surrogate on its own. -/
structure Clean (text : JsString) : Prop where
  wellFormed : JsString.WellFormed text
  printable : ∀ c ∈ text, 0x20 ≤ c.toNat

theorem Clean.nil : Clean [] := ⟨.nil, nofun⟩

theorem Clean.append {s t : JsString} (hs : Clean s) (ht : Clean t) : Clean (s ++ t) :=
  ⟨hs.wellFormed.append ht.wellFormed,
    fun c hc => (List.mem_append.1 hc).elim (hs.printable c) (ht.printable c)⟩

/-- A printable ASCII character in front. -/
theorem Clean.cons {c : UInt16} {s : JsString} (hc : 0x20 ≤ c.toNat ∧ c.toNat < 0x80)
    (hs : Clean s) : Clean (c :: s) := by
  obtain ⟨hhigh, hlow⟩ := JsString.surrogate_of_lt (hc.2.trans (by decide : 0x80 < 0xD800))
  exact ⟨.unit hhigh hlow hs.wellFormed,
    fun d hd => (List.mem_cons.1 hd).elim (fun heq => heq ▸ hc.1) (hs.printable d)⟩

theorem Clean.of_ascii {s : JsString} (h : ∀ c ∈ s, 0x20 ≤ c.toNat ∧ c.toNat < 0x80) : Clean s := by
  induction s with
  | nil => exact .nil
  | cons c s ih =>
    exact .cons (h c List.mem_cons_self) (ih fun d hd => h d (List.mem_cons_of_mem c hd))

theorem ascii_hexDigit : ∀ n : Fin 16, 0x20 ≤ (hexDigit n).toNat ∧ (hexDigit n).toNat < 0x80 := by
  decide

theorem ascii_hex4 (c : UInt16) : ∀ d ∈ hex4 c, 0x20 ≤ d.toNat ∧ d.toNat < 0x80 := by
  have hlt : c.toNat < 65536 := c.toNat_lt
  have h₁ := ascii_hexDigit ⟨c.toNat / 4096, by omega⟩
  have h₂ := ascii_hexDigit ⟨c.toNat / 256 % 16, by omega⟩
  have h₃ := ascii_hexDigit ⟨c.toNat / 16 % 16, by omega⟩
  have h₄ := ascii_hexDigit ⟨c.toNat % 16, by omega⟩
  intro d hd
  simp only [hex4, List.mem_cons, List.not_mem_nil, or_false] at hd
  rcases hd with rfl | rfl | rfl | rfl
  exacts [h₁, h₂, h₃, h₄]

theorem ascii_letter : ∀ e ∈ shortEscapes, 0x20 ≤ e.2.toNat ∧ e.2.toNat < 0x80 :=
  List.all_iff_forall_prop.1 (by decide)

/-- What is written of a code unit: at most six characters, all ASCII, or the unit itself. -/
theorem escapeUnit_ascii (c : UInt16) :
    ((escapeUnit c).length ≤ 6 ∧ ∀ d ∈ escapeUnit c, 0x20 ≤ d.toNat ∧ d.toNat < 0x80) ∨
      (escapeUnit c = [c] ∧ 0x20 ≤ c.toNat ∧ JsString.isHighSurrogate c = false ∧
        JsString.isLowSurrogate c = false) := by
  rcases escapeUnit_cases c with ⟨letter, hmem, h⟩ | h | ⟨h, -, -, hlow, hsurrogate⟩
  · refine .inl ⟨by rw [h]; exact (by decide : 2 ≤ 6), fun d hd => ?_⟩
    rw [h, List.mem_cons, List.mem_singleton] at hd
    rcases hd with rfl | rfl
    · decide
    · exact ascii_letter _ hmem
  · refine .inl ⟨by rw [h]; exact Nat.le_refl 6, fun d hd => ?_⟩
    rw [h, List.mem_cons, List.mem_cons] at hd
    rcases hd with rfl | rfl | hd
    · decide
    · decide
    · exact ascii_hex4 c d hd
  · exact .inr ⟨h, Nat.le_of_not_lt hlow, hsurrogate⟩

theorem clean_escapeUnit (c : UInt16) : Clean (escapeUnit c) := by
  rcases escapeUnit_ascii c with ⟨-, hascii⟩ | ⟨h, hprintable, hhigh, hlow⟩
  · exact .of_ascii hascii
  · rw [h]
    exact ⟨.unit hhigh hlow .nil, fun d hd => List.mem_singleton.1 hd ▸ hprintable⟩

theorem clean_escape (s : JsString) : Clean (escape s) := by
  induction s using escape.induct with
  | case1 => exact .nil
  | case2 c => exact clean_escapeUnit c
  | case3 c d rest hpair ih =>
    obtain ⟨hhigh, hlow⟩ := Bool.and_eq_true_iff.1 hpair
    have hc := Nat.le_of_not_lt (surrogate_plain (.inl hhigh)).2.2
    have hd := Nat.le_of_not_lt (surrogate_plain (.inr hlow)).2.2
    rw [escape, if_pos hpair]
    refine ⟨.pair hhigh hlow ih.wellFormed, fun e he => ?_⟩
    rw [List.mem_cons, List.mem_cons] at he
    rcases he with rfl | rfl | he
    exacts [hc, hd, ih.printable e he]
  | case4 c d rest hpair ih =>
    rw [escape, if_neg hpair]
    exact (clean_escapeUnit c).append ih

theorem clean_quote (s : JsString) : Clean (quote s) :=
  .cons (by decide) ((clean_escape s).append (.cons (by decide) .nil))

theorem clean_number {text : JsString} (h : ∀ c ∈ text, isNumberChar c = true) : Clean text := by
  refine .of_ascii fun c hc => ?_
  have hnumber := h c hc
  simp only [isNumberChar, JsString.isDigit, Bool.or_eq_true, Bool.and_eq_true, beq_iff_eq,
    decide_eq_true_eq] at hnumber
  rcases hnumber with ((((hdigit | rfl) | rfl) | rfl) | rfl) | rfl
  · exact ⟨le_trans (by decide : 0x20 ≤ (0x30 : UInt16).toNat) hdigit.1,
      lt_of_le_of_lt hdigit.2 (by decide : (0x39 : UInt16).toNat < 0x80)⟩
  all_goals decide

theorem clean_items (fmt : NumberFormat) {items : List Json}
    (h : ∀ v ∈ items, Clean (stringify fmt v)) : Clean (stringifyItems fmt items) := by
  induction items with
  | nil => exact .nil
  | cons v vs ih =>
    have hv := h v List.mem_cons_self
    cases vs with
    | nil => exact hv
    | cons w vs =>
      rw [stringifyItems]
      exact hv.append (.cons (by decide) (ih fun u hu => h u (List.mem_cons_of_mem v hu)))

theorem clean_fields (fmt : NumberFormat) {fields : List (JsString × Json)}
    (h : ∀ f ∈ fields, Clean (stringify fmt f.2)) : Clean (stringifyFields fmt fields) := by
  induction fields with
  | nil => exact .nil
  | cons f fs ih =>
    obtain ⟨k, v⟩ := f
    have hv : Clean (stringify fmt v) := h (k, v) List.mem_cons_self
    cases fs with
    | nil =>
      rw [stringifyFields]
      exact (clean_quote k).append (.cons (by decide) hv)
    | cons g fs =>
      rw [stringifyFields]
      exact (clean_quote k).append (.cons (by decide) (hv.append (.cons (by decide)
        (ih fun u hu => h u (List.mem_cons_of_mem _ hu)))))

/-- A value is written on one line, and well formed. -/
theorem clean_stringify (fmt : NumberFormat) {v : Json} (h : Wellformed fmt v) :
    Clean (stringify fmt v) := by
  induction h with
  | null => exact show Clean (js "null") from .of_ascii (List.all_iff_forall_prop.1 (by decide))
  | bool b => cases b with
    | true => exact show Clean (js "true") from .of_ascii (List.all_iff_forall_prop.1 (by decide))
    | false => exact show Clean (js "false") from .of_ascii (List.all_iff_forall_prop.1 (by decide))
  | @number q _ => exact clean_number (fmt.text_chars q)
  | string s => exact clean_quote s
  | array _ ih =>
    rw [stringify]
    exact .cons (by decide) ((clean_items fmt ih).append (.cons (by decide) .nil))
  | object _ _ ih =>
    rw [stringify]
    exact .cons (by decide) ((clean_fields fmt ih).append (.cons (by decide) .nil))

theorem trim_stringify_ne_nil (fmt : NumberFormat) (v : Json) :
    JsString.trim (stringify fmt v) ≠ [] := by
  obtain ⟨c, rest, htext, hc⟩ := stringify_start fmt v
  have hblank := (isStart_spec hc).2.2.2
  have hstart : JsString.trimStart (c :: rest) = c :: rest :=
    List.dropWhile_cons_of_neg (by simp [hblank])
  rw [JsString.trim, htext, hstart, JsString.trimEnd, Ne, List.reverse_eq_nil_iff]
  intro hnil
  have hall := (List.dropWhile_eq_nil_iff.1 hnil) c (List.mem_reverse.2 List.mem_cons_self)
  exact absurd hall (by simp [hblank])

end JsonText

end Dormouse
