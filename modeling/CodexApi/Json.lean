import CodexApi.Lib.OrdMap
import Mathlib.Data.String.Basic
import Mathlib.Data.Rat.Defs

/-!
# JSON values

`Value` is the value type of `serde_json` (built without `preserve_order`, so an object is a
map ordered by key) together with the accessors the relay calls: `get`, `pointer`, indexing, the
`as_*` projections and the updates of an object. Accessors are total: on a value of the wrong
shape they answer `none`, and indexing answers `null`.

A finite float stands for the rational it denotes; `0.0` and `-0.0`, which compare equal
in the source, are one value here.

Inside a `Value` an object is a plain entry list, since a nested type cannot carry the order
proof; a body the relay edits field by field is an `Object`, whose order is a field.
-/

namespace CodexApi

/-- A JSON number: `u64`, negative `i64` (`negInt n` is `-(n + 1)`) or finite `f64`. -/
inductive Number
  | posInt (n : UInt64)
  | negInt (n : Nat)
  | float (q : ℚ)
deriving DecidableEq

/-- A JSON value. The entries of an object stand in increasing key order. -/
inductive Value
  | null
  | bool (b : Bool)
  | number (n : Number)
  | string (s : String)
  | array (items : List Value)
  | object (fields : List (String × Value))

namespace Value

/-! ### Equality is decidable -/

mutual

/-- Equality test on values. -/
def beq : Value → Value → Bool
  | null, null => true
  | bool a, bool b => decide (a = b)
  | number a, number b => decide (a = b)
  | string a, string b => decide (a = b)
  | array a, array b => beqItems a b
  | object a, object b => beqFields a b
  | _, _ => false

/-- Equality test on the items of two arrays. -/
def beqItems : List Value → List Value → Bool
  | [], [] => true
  | a :: as, b :: bs => beq a b && beqItems as bs
  | _, _ => false

/-- Equality test on the entries of two objects. -/
def beqFields : List (String × Value) → List (String × Value) → Bool
  | [], [] => true
  | (k, a) :: as, (k', b) :: bs => decide (k = k') && beq a b && beqFields as bs
  | _, _ => false

end

mutual

private theorem eq_of_beq : ∀ {a b : Value}, beq a b = true → a = b
  | null, b, h => by cases b <;> simp_all [beq]
  | bool _, b, h => by cases b <;> simp_all [beq]
  | number _, b, h => by cases b <;> simp_all [beq]
  | string _, b, h => by cases b <;> simp_all [beq]
  | array as, b, h => by
    cases b <;> simp only [beq, Bool.false_eq_true] at h
    rw [eqItems_of_beq h]
  | object as, b, h => by
    cases b <;> simp only [beq, Bool.false_eq_true] at h
    rw [eqFields_of_beq h]

private theorem eqItems_of_beq : ∀ {as bs : List Value}, beqItems as bs = true → as = bs
  | [], bs, h => by cases bs <;> simp_all [beqItems]
  | a :: as, [], h => by simp [beqItems] at h
  | a :: as, b :: bs, h => by
    simp only [beqItems, Bool.and_eq_true] at h
    rw [eq_of_beq h.1, eqItems_of_beq h.2]

private theorem eqFields_of_beq : ∀ {as bs : List (String × Value)},
    beqFields as bs = true → as = bs
  | [], bs, h => by cases bs <;> simp_all [beqFields]
  | a :: as, [], h => by simp [beqFields] at h
  | (k, a) :: as, (k', b) :: bs, h => by
    simp only [beqFields, Bool.and_eq_true, decide_eq_true_eq] at h
    rw [h.1.1, eq_of_beq h.1.2, eqFields_of_beq h.2]

end

mutual

private theorem beq_refl : ∀ a : Value, beq a a = true
  | null => rfl
  | bool _ => by simp [beq]
  | number _ => by simp [beq]
  | string _ => by simp [beq]
  | array as => by rw [beq]; exact beqItems_refl as
  | object as => by rw [beq]; exact beqFields_refl as

private theorem beqItems_refl : ∀ as : List Value, beqItems as as = true
  | [] => rfl
  | a :: as => by simp [beqItems, beq_refl a, beqItems_refl as]

private theorem beqFields_refl : ∀ as : List (String × Value), beqFields as as = true
  | [] => rfl
  | (k, a) :: as => by simp [beqFields, beq_refl a, beqFields_refl as]

end

instance : DecidableEq Value := fun a b =>
  decidable_of_iff (beq a b = true) ⟨eq_of_beq, fun h => h ▸ beq_refl a⟩

instance : Inhabited Value := ⟨null⟩

/-! ### Accessors -/

/-- `Value::get` on a field name. -/
def get : Value → String → Option Value
  | object fields, key => Assoc.get key fields
  | _, _ => none

/-- `value[key]`: a missing field reads as `null`. -/
def index (value : Value) (key : String) : Value := (value.get key).getD null

/-- `Value::pointer` on a path of field names. -/
def pointer (value : Value) : List String → Option Value
  | [] => some value
  | key :: path => (value.get key).bind fun inner => inner.pointer path

/-- `Value::as_str`. -/
def asStr : Value → Option String
  | string s => some s
  | _ => none

/-- `Value::as_bool`. -/
def asBool : Value → Option Bool
  | bool b => some b
  | _ => none

/-- `Value::as_u64`. -/
def asU64 : Value → Option UInt64
  | number (.posInt n) => some n
  | _ => none

/-- `Value::as_i64`. -/
def asI64 : Value → Option Int
  | number (.posInt n) => if n.toNat < 2 ^ 63 then some n.toNat else none
  | number (.negInt n) => some (-(n + 1 : Nat))
  | _ => none

/-- `Value::as_array`. -/
def asArray : Value → Option (List Value)
  | array items => some items
  | _ => none

/-- `Value::as_object`. -/
def asObject : Value → Option (List (String × Value))
  | object fields => some fields
  | _ => none

/-- `Value::is_object`. -/
def isObject (value : Value) : Bool := value.asObject.isSome

/-- `Value::is_null`. -/
def isNull : Value → Bool
  | null => true
  | _ => false

/-- `value[key] = inner` on an object; other values are left as they are. -/
def setField (value : Value) (key : String) (inner : Value) : Value :=
  match value with
  | object fields => object (Assoc.insert key inner fields)
  | other => other

/-- Removes a field of an object; other values are left as they are. -/
def removeField (value : Value) (key : String) : Value :=
  match value with
  | object fields => object (Assoc.erase key fields)
  | other => other

@[simp]
theorem get_object (fields : List (String × Value)) (key : String) :
    (object fields).get key = Assoc.get key fields := rfl

@[simp]
theorem get_setField_self {value inner : Value} {key : String} (h : value.isObject = true) :
    (value.setField key inner).get key = some inner := by
  cases value <;> simp_all [setField, isObject, asObject]

theorem get_setField_of_ne {value inner : Value} {key key' : String} (h : key' ≠ key) :
    (value.setField key inner).get key' = value.get key' := by
  cases value <;> simp [setField, get, h]

theorem setField_setField_self {value inner inner' : Value} {key : String} :
    (value.setField key inner).setField key inner' = value.setField key inner' := by
  cases value <;> simp [setField]

@[simp]
theorem isObject_setField {value inner : Value} {key : String} :
    (value.setField key inner).isObject = value.isObject := by
  cases value <;> rfl

@[simp]
theorem isObject_removeField {value : Value} {key : String} :
    (value.removeField key).isObject = value.isObject := by
  cases value <;> rfl

theorem get_removeField_of_ne {value : Value} {key key' : String} (h : key' ≠ key) :
    (value.removeField key).get key' = value.get key' := by
  cases value <;> simp [removeField, get, h]

/-- Only objects have fields. -/
theorem isObject_of_get {value found : Value} {key : String} (h : value.get key = some found) :
    value.isObject = true := by
  cases value with
  | object fields => rfl
  | _ => cases h

theorem index_of_get {value inner : Value} {key : String} (h : value.get key = some inner) :
    value.index key = inner := by
  rw [index, h, Option.getD_some]

@[simp]
theorem asStr_eq_some_iff {value : Value} {s : String} :
    value.asStr = some s ↔ value = string s := by
  cases value <;> simp [asStr]

@[simp]
theorem asArray_eq_some_iff {value : Value} {items : List Value} :
    value.asArray = some items ↔ value = array items := by
  cases value <;> simp [asArray]

end Value

/-- A JSON object the relay edits: a request body, a prewarm body. -/
abbrev Object := OrdMap String Value

/-- The value an object is. -/
def Object.toValue (object : Object) : Value := .object object.entries

/-- The value of an object literal. -/
def json (fields : List (String × Value)) : Value := Object.toValue (OrdMap.ofList fields)

@[simp]
theorem Object.get_toValue (object : Object) (key : String) :
    object.toValue.get key = object.get key := rfl

theorem get_json (fields : List (String × Value)) (key : String) :
    (json fields).get key = (OrdMap.ofList fields).get key := rfl

/-- The fields of an object have distinct names. A parsed value is one of these. -/
def Value.Keyed (value : Value) : Prop := ∀ fields, value = .object fields → Assoc.Ordered fields

theorem Value.keyed_object {fields : List (String × Value)} :
    (Value.object fields).Keyed ↔ Assoc.Ordered fields :=
  ⟨fun h => h fields rfl, fun h _ heq => by cases heq; exact h⟩

theorem Value.keyed_of_isObject {value : Value} (h : value.isObject = false) : value.Keyed := by
  rintro fields rfl
  cases h

theorem Object.keyed_toValue (object : Object) : object.toValue.Keyed :=
  Value.keyed_object.mpr object.ordered

/-- A value with distinct names is an object of the relay or no object. -/
theorem Value.Keyed.cases {value : Value} (h : value.Keyed) :
    (∃ object : Object, value = object.toValue) ∨ value.isObject = false := by
  cases value with
  | object fields => exact .inl ⟨⟨fields, h fields rfl⟩, rfl⟩
  | _ => exact .inr rfl

theorem Object.toValue_inj {a b : Object} : a.toValue = b.toValue ↔ a = b := by
  constructor
  · intro h
    cases a
    cases b
    simpa [Object.toValue] using h
  · rintro rfl
    rfl

end CodexApi
