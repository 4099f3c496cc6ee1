import Criteria.Error
import Criteria.Text.Blank
import Criteria.Text.Numeral
import Criteria.Timestamp.Reader

/-!
This module contains fields, which read a value of one type out of a record and turn text into such
values. A `Handle` is a field whose type is known.
-/

namespace Criteria

/--
A field of the records of type `R`. A reader for texts of its own replaces the one of its type. An
enumeration names its variants.
-/
structure Field (R : Type) where
  name : String
  type : ValueType
  read : R → Option Value
  reader : Option (String → Option Value) := none
  variants : List (String × UInt32) := []

namespace Field

variable {R : Type}

def same (a b : Field R) : Bool :=
  a.name = b.name && a.type = b.type

def equalsIgnoringCase (a b : String) : Bool :=
  a.toList.map Char.toLower = b.toList.map Char.toLower

/--
The variant that a text names, or else the one whose number it is. Without named variants every number
is one.
-/
def variant? (field : Field R) (raw : String) : Option UInt32 :=
  match field.variants.find? fun variant => equalsIgnoringCase variant.1 raw with
  | some variant => some variant.2
  | none =>
    (Text.uint32? raw.toList).filter fun discriminant =>
      field.variants.isEmpty || field.variants.any fun variant => variant.2 = discriminant

def readByType? (field : Field R) (raw : String) : Option Value :=
  let trimmed := String.ofList (Text.trim raw.toList)
  match field.type with
  | .string => some (.string raw)
  | .number => (Number.read? raw).map .number
  | .timestamp => (Timestamp.read? raw).map .timestamp
  | .enum => (field.variant? trimmed).map .enum
  | .bool =>
    if equalsIgnoringCase trimmed "true" then some (.bool true)
    else if equalsIgnoringCase trimmed "false" then some (.bool false)
    else none

def readText? (field : Field R) (raw : String) : Option Value :=
  match field.reader with
  | some reader => reader raw
  | none => field.readByType? raw

def checkOperand (field : Field R) (operand : Value) : Except Error Unit :=
  if operand.type = field.type then .ok ()
  else .error (.typeMismatch field.name field.type (.ofType operand.type))

theorem type_of_readByType? {field : Field R} {raw : String} {value : Value}
    (h : field.readByType? raw = some value) : value.type = field.type := by
  unfold readByType? at h
  cases ht : field.type <;> simp only [ht] at h
  · cases h; rfl
  · obtain ⟨_, _, rfl⟩ := Option.map_eq_some_iff.1 h; rfl
  · obtain ⟨_, _, rfl⟩ := Option.map_eq_some_iff.1 h; rfl
  · obtain ⟨_, _, rfl⟩ := Option.map_eq_some_iff.1 h; rfl
  · split at h
    · cases h; rfl
    · split at h
      · cases h; rfl
      · cases h

end Field

structure Handle (R : Type) (type : ValueType) where
  field : Field R
  type_eq : field.type = type

def Field.typed {R : Type} (field : Field R) (type : ValueType) : Except Error (Handle R type) :=
  if h : field.type = type then .ok ⟨field, h⟩
  else .error (.typeMismatch field.name field.type (.ofType type))

end Criteria
