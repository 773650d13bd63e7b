import Mathlib.Data.Rat.Defs
import Dormouse.Lib.JsString

/-!
# Dormouse.Lib.Json

**JSON values** as `JSON.parse` returns them, with the reads a program makes of a
value whose type it does not know yet: a field that is not there reads as `none`.
-/

namespace Dormouse

/-- A parsed JSON value; an object's keys are distinct, in insertion order. -/
inductive Json
  | null
  | bool (value : Bool)
  | number (value : ℚ)
  | string (value : JsString)
  | array (items : List Json)
  | object (fields : List (JsString × Json))

namespace Json

/-- `value[key]`, for a key no prototype carries. -/
def field (value : Json) (key : JsString) : Option Json :=
  match value with
  | object fields => (fields.find? fun f => f.1 == key).map Prod.snd
  | _ => none

/-- `Object.keys(value).length`. -/
def keyCount : Json → Nat
  | object fields => fields.length
  | _ => 0

/-- The string a value is, when it is one. -/
def asString : Json → Option JsString
  | string value => some value
  | _ => none

/-- A field whose value is a string. -/
def stringField (value : Json) (key : JsString) : Option JsString :=
  (value.field key).bind asString

/-- A field whose value is a number. -/
def numberField (value : Json) (key : JsString) : Option ℚ :=
  match value.field key with
  | some (.number n) => some n
  | _ => none

def isRecord : Json → Bool
  | object _ => true
  | _ => false

/-- `typeof value === 'object' && value !== null`. -/
def isObject : Json → Bool
  | object _ => true
  | array _ => true
  | _ => false

/-! ### Size -/

mutual
/-- How many values there are in a value. -/
def size : Json → Nat
  | array items => 1 + sizes items
  | object fields => 1 + fieldSizes fields
  | _ => 1
def sizes : List Json → Nat
  | [] => 0
  | value :: values => value.size + sizes values
def fieldSizes : List (JsString × Json) → Nat
  | [] => 0
  | (_, value) :: fields => value.size + fieldSizes fields
end

theorem size_pos (value : Json) : 0 < value.size := by
  cases value <;> simp only [size] <;> omega

theorem size_le_fieldSizes {fields : List (JsString × Json)} {f : JsString × Json}
    (h : f ∈ fields) : f.2.size ≤ fieldSizes fields := by
  induction fields with
  | nil => cases h
  | cons g fields ih =>
    rw [fieldSizes]
    rcases List.mem_cons.1 h with rfl | hrest
    · exact Nat.le_add_right _ _
    · exact (ih hrest).trans (Nat.le_add_left _ _)

theorem size_field_lt {value part : Json} {key : JsString} (h : value.field key = some part) :
    part.size < value.size := by
  cases value with
  | object fields =>
    obtain ⟨f, hf, rfl⟩ := Option.map_eq_some_iff.1 h
    have hle := size_le_fieldSizes (List.mem_of_find?_eq_some hf)
    rw [size]
    omega
  | _ => cases h

theorem sizes_append (as bs : List Json) : sizes (as ++ bs) = sizes as + sizes bs := by
  induction as with
  | nil => rw [List.nil_append, sizes, Nat.zero_add]
  | cons a as ih => rw [List.cons_append, sizes, sizes, ih, Nat.add_assoc]

theorem sizes_filterMap_field (key : JsString) (values : List Json) :
    sizes (values.filterMap (·.field key)) ≤ sizes values := by
  induction values with
  | nil => exact Nat.le_refl _
  | cons value values ih =>
    cases hfield : value.field key with
    | none =>
      simp only [List.filterMap_cons, hfield, sizes]
      exact ih.trans (Nat.le_add_left _ _)
    | some part =>
      simp only [List.filterMap_cons, hfield, sizes]
      exact Nat.add_le_add (Nat.le_of_lt (size_field_lt hfield)) ih

end Json

end Dormouse
