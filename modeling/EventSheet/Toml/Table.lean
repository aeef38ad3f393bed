import EventSheet.Toml.Value
namespace EventSheet.Toml

/-! Tables while they are put together. A table can be opened by a header, come
about on the way to one, or come about from a dotted key; which of these it was
decides how it may still be extended. -/

inductive Item where
  | value (value : Value)
  /-- `implicit` tables were never opened by a header of their own, and `dotted`
  ones come from a dotted key. -/
  | table (implicit dotted : Bool) (members : List (String × Item))
  /-- The tables opened by the double-bracket headers of one name, newest last. -/
  | tables (elements : List (List (String × Item)))

abbrev Members := List (String × Item)

def replaceMember (name : String) (item : Item) (members : Members) : Members :=
  members.map fun member => if member.1 = name then (name, item) else member

/-- Edit the table at a path, making the tables on the way. `dotted` says that
the path is part of a dotted key; such a path may not lead into a table that has
a header of its own. The edit is told whether its table is a dotted one. -/
def descend? (dotted : Bool) (edit : Bool → Members → Option Members) :
    List String → Bool → Members → Option Members
  | [], tableDotted, members => edit tableDotted members
  | name :: rest, _, members =>
      match members.lookup name with
      | none => do
          let inner ← descend? dotted edit rest dotted []
          return members ++ [(name, .table true dotted inner)]
      | some (.value _) => none
      | some (.tables elements) =>
          match elements.getLast? with
          | none => none
          | some newest => do
              let inner ← descend? dotted edit rest false newest
              return replaceMember name (.tables (elements.dropLast ++ [inner])) members
      | some (.table implicit innerDotted inner) =>
          if dotted && !implicit then none
          else do
            let inner ← descend? dotted edit rest innerDotted inner
            return replaceMember name (.table implicit innerDotted inner) members

/-- Set a key, which must be new. A dotted key ends in a dotted table and a plain
one in a table that is not. -/
def setKey? (path : List String) (name : String) (item : Item) (members : Members) :
    Option Members :=
  descend? (!path.isEmpty)
    (fun tableDotted members =>
      if tableDotted = path.isEmpty || (members.lookup name).isSome then none
      else some (members ++ [(name, item)]))
    path false members

/-- The tables of a document: those already complete, and the one that the keys
being read belong to, with its path. -/
structure Assembly where
  root : Members := []
  current : Members := []
  path : List String := []
  /-- The current table is the newest of several of one name. -/
  repeated : Bool := false

namespace Assembly

def set? (path : List String) (name : String) (value : Value) (assembly : Assembly) :
    Option Assembly := do
  let current ← setKey? path name (.value value) assembly.current
  return { assembly with current }

/-- Put the current table into its place. -/
def close? (assembly : Assembly) : Option Members :=
  match assembly.path.getLast? with
  | none => some assembly.current
  | some name =>
      descend? false
        (fun _ members =>
          if assembly.repeated then
            match members.lookup name with
            | some (.tables elements) =>
                some (replaceMember name (.tables (elements ++ [assembly.current])) members)
            | _ => none
          else
            match members.lookup name with
            | none => some (members ++ [(name, .table false false assembly.current)])
            | some _ => none)
        assembly.path.dropLast false assembly.root

/-- The table a header finds in its place, which must be implicit and not
dotted. -/
def found? (name : String) (members : Members) : Option Members :=
  match members.lookup name with
  | none => some []
  | some (.table true false inner) => some inner
  | some _ => none

/-- The members of the table at a path, as far as a header can look into it. -/
def lookAt (members : Members) : List String → Members
  | [] => members
  | name :: rest =>
      match members.lookup name with
      | some (.table _ _ inner) => lookAt inner rest
      | some (.tables elements) => lookAt (elements.getLast?.getD []) rest
      | _ => []

/-- Open the table of a header. -/
def openTable? (path : List String) (assembly : Assembly) : Option Assembly := do
  let root ← assembly.close?
  let name ← path.getLast?
  let current ← found? name (lookAt root path.dropLast)
  let root ← descend? false
    (fun _ members => some (members.filter fun member => member.1 ≠ name))
    path.dropLast false root
  return { root, current, path }

/-- Open one more of the tables of a double-bracket header. -/
def openRepeated? (path : List String) (assembly : Assembly) : Option Assembly := do
  let root ← assembly.close?
  let name ← path.getLast?
  let root ← descend? false
    (fun _ members =>
      match members.lookup name with
      | none => some (members ++ [(name, .tables [])])
      | some (.tables _) => some members
      | some _ => none)
    path.dropLast false root
  return { root, current := [], path, repeated := true }

end Assembly

/-! ## Complete tables -/

mutual
def Item.toValue : Item → Value
  | .value value => value
  | .table _ _ members => .table (memberValues members)
  | .tables elements => .array (elementValues elements)

def memberValues : List (String × Item) → List (String × Value)
  | [] => []
  | (name, item) :: rest => (name, item.toValue) :: memberValues rest

def elementValues : List (List (String × Item)) → List Value
  | [] => []
  | members :: rest => .table (memberValues members) :: elementValues rest
end

end EventSheet.Toml
