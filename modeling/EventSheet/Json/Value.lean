namespace EventSheet

/-! JSON values. Numbers keep apart what a reader keeps apart: natural numbers
below 2^64, negative integers down to -2^63, and doubles. -/

inductive Json.Number where
  | natural (value : Nat)
  /-- The integer `-magnitude`. -/
  | negative (magnitude : Nat)
  | double (bits : UInt64)
deriving DecidableEq

/-- Members of an object stay in the order they are given; `Json.sorted` brings
them into the order of free-form values. -/
inductive Json where
  | null
  | bool (value : Bool)
  | number (value : Json.Number)
  | string (value : String)
  | array (items : List Json)
  | object (members : List (String × Json))

namespace Json

def nat (value : Nat) : Json := .number (.natural value)

def isNull : Json → Bool
  | .null => true
  | _ => false

def string? : Json → Option String
  | .string value => some value
  | _ => none

def member? (name : String) : Json → Option Json
  | .object members => members.lookup name
  | _ => none

/-! ## Equality -/

mutual
def same : Json → Json → Bool
  | .null, .null => true
  | .bool value, .bool value' => decide (value = value')
  | .number value, .number value' => decide (value = value')
  | .string value, .string value' => decide (value = value')
  | .array items, .array items' => sameItems items items'
  | .object members, .object members' => sameMembers members members'
  | _, _ => false

def sameItems : List Json → List Json → Bool
  | [], [] => true
  | head :: tail, head' :: tail' => same head head' && sameItems tail tail'
  | _, _ => false

def sameMembers : List (String × Json) → List (String × Json) → Bool
  | [], [] => true
  | (name, value) :: tail, (name', value') :: tail' =>
      decide (name = name') && same value value' && sameMembers tail tail'
  | _, _ => false
end

mutual
theorem same_iff : (left right : Json) → (same left right = true ↔ left = right)
  | .null, right => by cases right <;> simp [same]
  | .bool _, right => by cases right <;> simp [same]
  | .number _, right => by cases right <;> simp [same]
  | .string _, right => by cases right <;> simp [same]
  | .array items, right => by
      cases right with
      | array items' => simp [same, sameItems_iff items items']
      | _ => simp [same]
  | .object members, right => by
      cases right with
      | object members' => simp [same, sameMembers_iff members members']
      | _ => simp [same]

theorem sameItems_iff :
    (left right : List Json) → (sameItems left right = true ↔ left = right)
  | [], [] => by simp [sameItems]
  | [], _ :: _ => by simp [sameItems]
  | _ :: _, [] => by simp [sameItems]
  | head :: tail, head' :: tail' => by
      simp [sameItems, same_iff head head', sameItems_iff tail tail']

theorem sameMembers_iff :
    (left right : List (String × Json)) → (sameMembers left right = true ↔ left = right)
  | [], [] => by simp [sameMembers]
  | [], _ :: _ => by simp [sameMembers]
  | _ :: _, [] => by simp [sameMembers]
  | (name, value) :: tail, (name', value') :: tail' => by
      simp [sameMembers, same_iff value value', sameMembers_iff tail tail', and_assoc]
end

instance : DecidableEq Json := fun left right =>
  decidable_of_iff _ (same_iff left right)

/-! ## Key order -/

/-- Put a member where its name belongs by code points; a member of the same name
is replaced. -/
def insertMember (name : String) (value : Json) :
    List (String × Json) → List (String × Json)
  | [] => [(name, value)]
  | (other, otherValue) :: rest =>
      if name < other then (name, value) :: (other, otherValue) :: rest
      else if name = other then (name, value) :: rest
      else (other, otherValue) :: insertMember name value rest

/-- Members by name; the last of several members of one name wins. -/
def sortMembers (members : List (String × Json)) : List (String × Json) :=
  members.foldl (fun sorted member => insertMember member.1 member.2 sorted) []

mutual
/-- The value with the members of every object sorted by name. -/
def sorted : Json → Json
  | .array items => .array (sortedItems items)
  | .object members => .object (sortMembers (sortedMembers members))
  | other => other

def sortedItems : List Json → List Json
  | [] => []
  | head :: tail => sorted head :: sortedItems tail

def sortedMembers : List (String × Json) → List (String × Json)
  | [] => []
  | (name, value) :: tail => (name, sorted value) :: sortedMembers tail
end

end Json

end EventSheet
