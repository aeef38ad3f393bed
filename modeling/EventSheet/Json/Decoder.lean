import EventSheet.Json.Reader
namespace EventSheet.Json

/-! Reading values of a type off a document. A decoder is told how many
containers it may still enter; containers nobody looks into cost nothing. -/

abbrev Decoder (α : Type) := Nat → Document → Option α

/-- Containers that may be nested in one another in a text. -/
def greatestNesting : Nat := 127

namespace Decoder

def string : Decoder String
  | _, .string text => text
  | _, _ => none

def bool : Decoder Bool
  | _, .bool value => some value
  | _, _ => none

/-- A natural number below `bound`, written without point and power. -/
def natBelow (bound : Nat) : Decoder Nat
  | _, .number (some (.natural value)) => if value < bound then some value else none
  | _, _ => none

def word64 : Decoder UInt64 := fun levels document =>
  (natBelow UInt64.size levels document).map UInt64.ofNat

def word32 : Decoder UInt32 := fun levels document =>
  (natBelow UInt32.size levels document).map UInt32.ofNat

def list {α : Type} (item : Decoder α) : Decoder (List α)
  | levels + 1, .array items => items.mapM (item levels)
  | _, _ => none

/-- `null` stands for nothing. -/
def nullable {α : Type} (value : Decoder α) : Decoder (Option α)
  | _, .null => some none
  | levels, document => (value levels document).map some

/-! ## Records -/

/-- What a record holds for one field. -/
inductive Entry where
  | present (value : Document)
  /-- Left out of an object. -/
  | absent
  /-- Behind the end of an array. -/
  | beyond

/-- The one member of a name. A name that occurs twice is refused. -/
def uniqueMember? (name : String) (members : List (Option String × Document)) :
    Option Entry :=
  match members.filter fun member => member.1 = some name with
  | [] => some .absent
  | [member] => some (.present member.2)
  | _ => none

/-- Values in the order of the fields, and nothing behind them. -/
def positional? : List String → List Document → Option (List Entry)
  | [], [] => some []
  | [], _ :: _ => none
  | _ :: names, [] => (positional? names []).map (Entry.beyond :: ·)
  | _ :: names, value :: rest => (positional? names rest).map (Entry.present value :: ·)

/-- The fields of a record, written as an object with their names or as an array
in their order. Other members of the object are ignored, but their names have to
be text. -/
def fields? (names : List String) : Document → Option (List Entry)
  | .object members =>
      if members.all fun member => member.1.isSome then
        names.mapM fun name => uniqueMember? name members
      else none
  | .array items => positional? names items
  | _ => none

/-- Enter a record with the given fields. -/
def record {α : Type} (names : List String)
    (build : Nat → List Entry → Option α) : Decoder α
  | levels + 1, document => (fields? names document).bind (build levels)
  | 0, _ => none

/-- A field that has to be there. -/
def required {α : Type} (value : Decoder α) (levels : Nat) : Entry → Option α
  | .present document => value levels document
  | _ => none

/-- A field that may be left out. -/
def withDefault {α : Type} (default : α) (value : Decoder α) (levels : Nat) :
    Entry → Option α
  | .present document => value levels document
  | _ => some default

/-- A field that may be left out of an object but not of an array. -/
def named {α : Type} (default : α) (value : Decoder α) (levels : Nat) :
    Entry → Option α
  | .present document => value levels document
  | .absent => some default
  | .beyond => none

/-! ## Free-form values -/

mutual
/-- Any value. Members are sorted by name; the last of several members of one
name wins. -/
def free : Nat → Document → Option Json
  | _, .null => some .null
  | _, .bool value => some (.bool value)
  | _, .number value => value.map .number
  | _, .string text => text.map .string
  | 0, .array _ => none
  | levels + 1, .array items => (freeItems levels items).map .array
  | 0, .object _ => none
  | levels + 1, .object members =>
      (freeMembers levels members).map fun members => .object (sortMembers members)

def freeItems (levels : Nat) : List Document → Option (List Json)
  | [] => some []
  | head :: tail => do
      let head ← free levels head
      let tail ← freeItems levels tail
      return head :: tail

def freeMembers (levels : Nat) :
    List (Option String × Document) → Option (List (String × Json))
  | [] => some []
  | (name, value) :: tail => do
      let name ← name
      let value ← free levels value
      let tail ← freeMembers levels tail
      return (name, value) :: tail
end

/-! ## Running a decoder -/

/-- Decode a text. -/
def ofText? {α : Type} (decoder : Decoder α) (text : String) : Option α :=
  (Document.ofText? text).bind (decoder greatestNesting)

/-- Decode a value, however deeply it is nested. -/
def ofValue? {α : Type} (decoder : Decoder α) (value : Json) : Option α :=
  let document := toDocument value
  decoder document.depth document

end Decoder

end EventSheet.Json
