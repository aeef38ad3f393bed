import EventSheet.Snapshot.Json
import EventSheet.Storage
namespace EventSheet

/-! Forests in files. -/

variable {β : Type} [EventKind β]

/-- Save a forest, making the directories of the path. -/
def Forest.saveFile (forest : Forest β) (path : String) :
    StateM Storage (Except Failure Unit) := do
  match ← Storage.prepareParent path with
  | .error directory => return .error ⟨.io, ["Failed to create directory " ++ directory]⟩
  | .ok () =>
      match (← get).writeText? path (Forest.saveJson forest) with
      | some storage =>
          set storage
          return .ok ()
      | none => return .error ⟨.io, ["Failed to write events " ++ path]⟩

/-- Load a forest from a file. -/
def Forest.loadFile (registry : Registry β) (storage : Storage) (path : String) :
    StateM Population (Except Failure (Forest β)) :=
  match storage.readText? path with
  | none => return .error ⟨.io, ["Failed to read events " ++ path]⟩
  | some text => do
      match ← Forest.loadJson registry text with
      | .ok forest => return .ok forest
      | .error error => return .error (error.failure.inContext ("Failed to load events " ++ path))

end EventSheet
