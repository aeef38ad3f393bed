import EventSheet.Failure
import EventSheet.Settings.Toml
import EventSheet.Storage
namespace EventSheet.Settings

/-! Settings in files. -/

/-- Load settings from a file. -/
def load (storage : Storage) (path : String) : Except Failure Settings :=
  match storage.readText? path with
  | none => .error ⟨.io, ["Failed to read compiler settings " ++ path]⟩
  | some text =>
      match ofToml? text with
      | some settings => .ok settings
      | none => .error ⟨.toml, ["Failed to parse compiler settings " ++ path]⟩

/-- Load settings, or take the default when the file is missing or invalid. -/
def loadOrDefault (storage : Storage) (path : String) : Settings :=
  match load storage path with
  | .ok settings => settings
  | .error _ => {}

/-- Save settings, making the directories of the path. They are made also when
the settings cannot be written as text. -/
def save (settings : Settings) (path : String) : StateM Storage (Except Failure Unit) := do
  match ← Storage.prepareParent path with
  | .error directory => return .error ⟨.io, ["Failed to create config directory " ++ directory]⟩
  | .ok () =>
      match settings.toToml? with
      | none => return .error ⟨.toml, ["Failed to serialize compiler settings"]⟩
      | some text =>
          match (← get).writeText? path text with
          | some storage =>
              set storage
              return .ok ()
          | none => return .error ⟨.io, ["Failed to write compiler settings " ++ path]⟩

end EventSheet.Settings
