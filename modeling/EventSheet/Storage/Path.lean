namespace EventSheet.Storage.Path

/-! Paths: names with slashes between them. Empty names and single dots lead
nowhere, two dots lead one directory up, and a slash in front starts at the root. -/

/-- Bytes of a name, at most. -/
def greatestNameSize : Nat := 255

/-- Bytes of a path, at most. -/
def greatestPathSize : Nat := 4095

/-- A text that can be used as a path at all. -/
def isUsable (path : String) : Bool :=
  path.utf8ByteSize ≤ greatestPathSize && !path.toList.contains '\x00'

/-- A name that a directory can hold. -/
def isName (name : String) : Bool := name.utf8ByteSize ≤ greatestNameSize

/-- The texts between the slashes. -/
def segments (path : String) : List String := (path.toList.splitOn '/').map String.ofList

def startsAtRoot (path : String) : Bool := path.toList.head? = some '/'

def leadsNowhere (name : String) : Bool := name = "" || name = "."

/-- The names that lead somewhere. -/
def names (path : String) : List String := (segments path).filter fun name => !leadsNowhere name

/-- The end of the path can be the name of a file. -/
def endsInName (path : String) : Bool :=
  match (segments path).getLast? with
  | some name => !leadsNowhere name && name ≠ ".."
  | none => false

/-- Drop names at the end that lead nowhere; a dot in front of everything
stays. -/
def dropIdle (reversed : List String) : List String :=
  match reversed with
  | [] => []
  | ["."] => ["."]
  | name :: rest => if leadsNowhere name then dropIdle rest else name :: rest

/-- The text of the directory a path lies in; nothing for the empty path and for
the root. -/
def parent? (path : String) : Option String :=
  match dropIdle (segments path).reverse with
  | [] => none
  | _ :: rest => some ("/".intercalate (dropIdle rest).reverse)

end EventSheet.Storage.Path
