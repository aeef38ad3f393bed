import EventSheet.Storage.Path
namespace EventSheet

/-! Storage: a tree of directories and files around a home directory, where paths
start. The directories above the home directory are there too, and nothing else
is known to be in them. -/

/-- A place in the tree: so many levels above the home directory, and from there
along names. -/
structure Storage.Location where
  above : Nat := 0
  names : List String := []
deriving DecidableEq

inductive Storage.Entry where
  | directory
  | file (bytes : ByteArray)

/-- The entries by location, the home directory and those above it apart; at most
one entry for a location, and every entry lies in a directory. -/
structure Storage where
  entries : List (Storage.Location × Storage.Entry) := []

namespace Storage

/-! ## Locations -/

namespace Location

/-- Levels from the home directory up to the root. -/
def levelsToRoot : Nat := 2

/-- Where a path starts. -/
def start (path : String) : Location :=
  if Path.startsAtRoot path then { above := levelsToRoot } else {}

/-- One directory up; from the root nowhere. -/
def outer (location : Location) : Location :=
  match location.names with
  | [] => { above := min (location.above + 1) levelsToRoot }
  | names => { location with names := names.dropLast }

def inner (location : Location) (name : String) : Location :=
  { location with names := location.names ++ [name] }

end Location

/-! ## Entries -/

def entryAt? (storage : Storage) (location : Location) : Option Entry :=
  if location.names.isEmpty then some .directory else storage.entries.lookup location

def isDirectory (storage : Storage) (location : Location) : Bool :=
  match storage.entryAt? location with
  | some .directory => true
  | _ => false

def setEntry (storage : Storage) (location : Location) (entry : Entry) : Storage :=
  { entries := (storage.entries.filter fun other => other.1 ≠ location) ++ [(location, entry)] }

/-! ## Files -/

/-- Follow names from a location on. Everything on the way has to be a directory;
what the last name leads to need not exist. -/
def follow? (storage : Storage) (location : Location) : List String → Option Location
  | [] => some location
  | name :: rest =>
      if storage.isDirectory location && Path.isName name then
        storage.follow? (if name = ".." then location.outer else location.inner name) rest
      else none

/-- Where a file of the path lies or would lie. -/
def resolve? (storage : Storage) (path : String) : Option Location :=
  if Path.isUsable path && Path.endsInName path then
    storage.follow? (.start path) (Path.names path)
  else none

/-- The bytes of a file. -/
def read? (storage : Storage) (path : String) : Option ByteArray :=
  match (storage.resolve? path).bind storage.entryAt? with
  | some (.file bytes) => some bytes
  | _ => none

/-- The text of a file that holds valid UTF-8. -/
def readText? (storage : Storage) (path : String) : Option String :=
  (storage.read? path).bind String.fromUTF8?

/-- Write a file in a directory that exists. -/
def write? (storage : Storage) (path : String) (bytes : ByteArray) : Option Storage :=
  match storage.resolve? path with
  | none => none
  | some location =>
      if storage.isDirectory location then none
      else some (storage.setEntry location (.file bytes))

def writeText? (storage : Storage) (path text : String) : Option Storage :=
  storage.write? path text.toUTF8

/-! ## Directories -/

/-- Make the directories along names that are not there yet. Where one cannot be
made, those before it stay. -/
def makeAlong (location : Location) : List String → StateM Storage Bool
  | [] => return true
  | name :: rest => do
      if name = ".." then makeAlong location.outer rest
      else if Path.isName name then
        let location := location.inner name
        match (← get).entryAt? location with
        | none => do
            modify fun storage => storage.setEntry location .directory
            makeAlong location rest
        | some .directory => makeAlong location rest
        | some (.file _) => return false
      else return false

/-- Make a directory and all directories it lies in. -/
def createDirectories (path : String) : StateM Storage Bool :=
  if Path.isUsable path then makeAlong (.start path) (Path.names path) else return false

/-- Make the directory a path lies in; its text is the answer when that fails. -/
def prepareParent (path : String) : StateM Storage (Except String Unit) := do
  match Path.parent? path with
  | none => return .ok ()
  | some directory =>
      if ← createDirectories directory then return .ok () else return .error directory

end Storage

end EventSheet
