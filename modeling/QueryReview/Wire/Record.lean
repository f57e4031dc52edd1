-- Records in documents. A record comes as an object with its fields by name, or as an array with
-- its fields in their order. Fields that the record does not have are skipped over in an object
-- and refused in an array.
import QueryReview.Decimal.Numeral
import QueryReview.Json.Value

namespace QueryReview.Wire

open QueryReview.Json (member?)

inductive Record
  | named (members : List (String × Json))
  | row (values : List Json)

namespace Record

/-- The record in a document, where `size` is the number of its fields. -/
def of? (size : Nat) : Json → Option Record
  | .object members => some (.named members)
  | .array values => if values.length ≤ size then some (.row values) else none
  | _ => none

/-- The document under a field. -/
def field? (r : Record) (place : Nat) (name : String) : Option Json :=
  match r with
  | named members => member? name members
  | row values => values[place]?

/-- A field that must be there. -/
def required {α : Type} (r : Record) (place : Nat) (name : String) (read : Json → Option α) :
    Option α :=
  (r.field? place name).bind read

/-- A field that takes a standing value when it is missing. Null is no value. -/
def orElse {α : Type} (r : Record) (place : Nat) (name : String) (read : Json → Option α)
    (standing : α) : Option α :=
  match r.field? place name with
  | none => some standing
  | some value => read value

/-- A field that may be null. In an object it may also be missing. -/
def optional {α : Type} (r : Record) (place : Nat) (name : String) (read : Json → Option α) :
    Option (Option α) :=
  match r, r.field? place name with
  | named _, none => some none
  | row _, none => none
  | _, some .null => some none
  | _, some value => (read value).map some

end Record

/-! ## Values of fields -/

def readString : Json → Option String
  | .string s => some s
  | _ => none

def readBool : Json → Option Bool
  | .bool b => some b
  | _ => none

/-- A whole number from 0 to `most`. -/
def readNat (most : Nat) : Json → Option Nat
  | .integer n => if 0 ≤ n ∧ n ≤ Int.ofNat most then some n.toNat else none
  | _ => none

/-- The largest number of 32 bits. -/
def max32 : Nat := Nat.pow 2 32 - 1

/-- The largest number of 64 bits. -/
def max64 : Nat := Nat.pow 2 64 - 1

/-- Any number, as the nearest double. -/
def readFloat : Json → Option Float
  | .integer n => (Decimal.nearest? n.natAbs 0).map fun x => if n < 0 then -x else x
  | .decimal x => some x
  | _ => none

def readList {α : Type} (read : Json → Option α) : Json → Option (List α)
  | .array items => items.mapM read
  | _ => none

/-- One of several names. The name may also be the only member of an object, with null. -/
def readName {α : Type} (names : List (String × α)) : Json → Option α
  | .string name => names.lookup name
  | .object [(name, .null)] => names.lookup name
  | _ => none

/-- One of several names, where the object of a name may hold an empty object for null. -/
def readLooseName {α : Type} (names : List (String × α)) : Json → Option α
  | .object [(name, .object [])] => names.lookup name
  | j => readName names j

end QueryReview.Wire
