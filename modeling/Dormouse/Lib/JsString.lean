import Mathlib.Data.Nat.Notation
import Mathlib.Logic.Function.Basic

/-!
# Dormouse.Lib.JsString

**JavaScript strings**: lists of UTF-16 code units, with the handful of
`String.prototype` operations and regular-expression classes programs lean on.
-/

namespace Dormouse

/-- A JavaScript string: its UTF-16 code units. -/
abbrev JsString := List UInt16

instance : LawfulBEq JsString := inferInstance

/-- The code units of one character. -/
def codeUnits (c : Char) : JsString :=
  if c.toNat < 0x10000 then [c.toNat.toUInt16]
  else
    [(0xD800 + (c.toNat - 0x10000) / 0x400).toUInt16, (0xDC00 + (c.toNat - 0x10000) % 0x400).toUInt16]

/-- The JavaScript string of a literal. -/
def js (s : String) : JsString := s.toList.flatMap codeUnits

/-- The code unit of an ASCII character. -/
def unit (c : Char) : UInt16 := c.toNat.toUInt16

namespace JsString

/-- `\s`, which is also what `trim` removes: white space and line terminators. -/
def isWhitespace (c : UInt16) : Bool :=
  (0x09 ≤ c && c ≤ 0x0D) || c == 0x20 || c == 0xA0 || c == 0x1680 || (0x2000 ≤ c && c ≤ 0x200A) ||
    c == 0x2028 || c == 0x2029 || c == 0x202F || c == 0x205F || c == 0x3000 || c == 0xFEFF

/-- What `.` does not match. -/
def isLineTerminator (c : UInt16) : Bool := c == 0x0A || c == 0x0D || c == 0x2028 || c == 0x2029

def isDigit (c : UInt16) : Bool := 0x30 ≤ c && c ≤ 0x39

def isUpper (c : UInt16) : Bool := 0x41 ≤ c && c ≤ 0x5A

def isLower (c : UInt16) : Bool := 0x61 ≤ c && c ≤ 0x7A

/-- The ASCII letters to lower case, anything else as it is. -/
def asciiLower (s : JsString) : JsString := s.map fun c => if isUpper c then c + 0x20 else c

def trimStart (s : JsString) : JsString := s.dropWhile isWhitespace

def trimEnd (s : JsString) : JsString := (s.reverse.dropWhile isWhitespace).reverse

def trim (s : JsString) : JsString := trimEnd (trimStart s)

def join (sep : JsString) : List JsString → JsString
  | [] => []
  | [s] => s
  | s :: ss => s ++ sep ++ join sep ss

theorem join_eq_intercalate (sep : JsString) (parts : List JsString) :
    join sep parts = sep.intercalate parts := by
  fun_induction join sep parts with
  | case1 => rfl
  | case2 s => exact List.intercalate_singleton.symm
  | case3 s ss hne ih =>
    rw [List.intercalate_cons_of_ne_nil hne, ih]

def isHighSurrogate (c : UInt16) : Bool := 0xD800 ≤ c && c ≤ 0xDBFF

def isLowSurrogate (c : UInt16) : Bool := 0xDC00 ≤ c && c ≤ 0xDFFF

/-- `Array.from(s)`: the code points, a surrogate pair being one. -/
def codePoints : JsString → List JsString
  | [] => []
  | [c] => [[c]]
  | c :: d :: rest =>
    if isHighSurrogate c && isLowSurrogate d then [c, d] :: codePoints rest
    else [c] :: codePoints (d :: rest)

/-- A whole number as a template literal prints it. -/
def ofInt (n : Int) : JsString := js (toString n)

/-- No surrogate is on its own. -/
inductive WellFormed : JsString → Prop
  | nil : WellFormed []
  | unit {c : UInt16} {s : JsString} : isHighSurrogate c = false → isLowSurrogate c = false →
      WellFormed s → WellFormed (c :: s)
  | pair {c d : UInt16} {s : JsString} : isHighSurrogate c = true → isLowSurrogate d = true →
      WellFormed s → WellFormed (c :: d :: s)

theorem WellFormed.append {s t : JsString} (hs : WellFormed s) (ht : WellFormed t) :
    WellFormed (s ++ t) := by
  induction hs with
  | nil => exact ht
  | unit hhigh hlow _ ih => exact .unit hhigh hlow ih
  | pair hhigh hlow _ ih => exact .pair hhigh hlow ih

theorem surrogate_of_lt {c : UInt16} (h : c.toNat < 0xD800) :
    isHighSurrogate c = false ∧ isLowSurrogate c = false := by
  constructor
  · simp only [isHighSurrogate, Bool.and_eq_false_iff, decide_eq_false_iff_not]
    exact .inl (Nat.not_le_of_lt h)
  · simp only [isLowSurrogate, Bool.and_eq_false_iff, decide_eq_false_iff_not]
    exact .inl (Nat.not_le_of_lt (Nat.lt_trans h (by decide : 0xD800 < (0xDC00 : UInt16).toNat)))

end JsString

/-! ### Literals -/

theorem toNat_toUInt16 {n : Nat} (h : n < 0x10000) : n.toUInt16.toNat = n := by
  show n % 2 ^ 16 = n
  omega

theorem char_isValid (c : Char) : c.toNat < 0xD800 ∨ (0xDFFF < c.toNat ∧ c.toNat < 0x110000) :=
  c.valid

/-- The code units of a character tell it, whatever follows. -/
theorem codeUnits_append_inj {c d : Char} {s t : JsString}
    (h : codeUnits c ++ s = codeUnits d ++ t) : c = d ∧ s = t := by
  have hc := char_isValid c
  have hd := char_isValid d
  unfold codeUnits at h
  have toNat_eq : ∀ {m n : Nat}, m < 0x10000 → n < 0x10000 → m.toUInt16 = n.toUInt16 → m = n := by
    intro m n hm hn hmn
    rw [← toNat_toUInt16 hm, ← toNat_toUInt16 hn, hmn]
  split at h <;> split at h
  · next hc' hd' =>
      obtain ⟨hhead, htail⟩ := List.cons.inj h
      exact ⟨Char.toNat_inj.1 (toNat_eq hc' hd' hhead), htail⟩
  · next hc' hd' =>
      have hhead := toNat_eq hc' (by omega) (List.cons.inj h).1
      omega
  · next hc' hd' =>
      have hhead := toNat_eq (by omega) hd' (List.cons.inj h).1
      omega
  · next hc' hd' =>
      obtain ⟨hhead, hrest⟩ := List.cons.inj h
      obtain ⟨hnext, htail⟩ := List.cons.inj hrest
      have hhigh := toNat_eq (by omega) (by omega) hhead
      have hlow := toNat_eq (by omega) (by omega) hnext
      exact ⟨Char.toNat_inj.1 (by omega), htail⟩

theorem js_injective : Function.Injective js := by
  have hlist : ∀ cs ds : List Char, cs.flatMap codeUnits = ds.flatMap codeUnits → cs = ds := by
    have hne : ∀ c : Char, codeUnits c ≠ [] := by
      intro c
      unfold codeUnits
      split <;> exact List.cons_ne_nil _ _
    intro cs
    induction cs with
    | nil =>
      intro ds h
      cases ds with
      | nil => rfl
      | cons d ds => exact absurd (List.append_eq_nil_iff.1 h.symm).1 (hne d)
    | cons c cs ih =>
      intro ds h
      cases ds with
      | nil => exact absurd (List.append_eq_nil_iff.1 h).1 (hne c)
      | cons d ds =>
        obtain ⟨rfl, hrest⟩ := codeUnits_append_inj h
        rw [ih ds hrest]
  intro s t h
  exact String.toList_inj.1 (hlist s.toList t.toList h)
end Dormouse
