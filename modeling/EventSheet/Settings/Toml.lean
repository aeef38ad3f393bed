import EventSheet.Settings.Json
import EventSheet.Toml.Printer
import EventSheet.Toml.Reader
namespace EventSheet

/-! Settings as TOML. Reading ignores tables and keys it does not know; those it
knows may be left out but must have the right type. A section may also be given
as an array of its values in order. -/

namespace Toml

def word64? : Value → Option UInt64
  | .integer value => if 0 ≤ value then some (UInt64.ofNat value.toNat) else none
  | _ => none

def string? : Value → Option String
  | .string text => some text
  | _ => none

def boolean? : Value → Option Bool
  | .boolean value => some value
  | _ => none

/-- The fields of a section, absent ones as nothing. A date holds none of them. -/
def fields? (names : List String) : Value → Option (List (Option Value))
  | .table members => some (names.map fun name => members.lookup name)
  | .array items => some (names.mapIdx fun position _ => items[position]?)
  | .dateTime => some (names.map fun _ => none)
  | _ => none

/-- A field that may be left out. -/
def withDefault {α : Type} (default : α) (read : Value → Option α) : Option Value → Option α
  | none => some default
  | some value => read value

end Toml

open Toml

namespace OutputSettings

def ofToml? (value : Value) : Option OutputSettings := do
  match ← fields? fieldNames value with
  | [indentWidth, header, entryPoint] =>
      let default : OutputSettings := {}
      let indentWidth ← withDefault default.indentWidth word64? indentWidth
      let header ← withDefault default.header string? header
      let entryPoint ← withDefault default.entryPoint string? entryPoint
      return { indentWidth, header, entryPoint }
  | _ => none

def toToml? (settings : OutputSettings) : Option String := do
  let indentWidth ← printNat? settings.indentWidth.toNat
  return tableSection "output"
    [setting "indent_width" indentWidth,
     setting "header" (printString settings.header),
     setting "entry_point" (printString settings.entryPoint)]

end OutputSettings

namespace LimitSettings

def ofToml? (value : Value) : Option LimitSettings := do
  match ← fields? fieldNames value with
  | [maxNestingDepth, maxLinkExpansions] =>
      let default : LimitSettings := {}
      let maxNestingDepth ← withDefault default.maxNestingDepth word64? maxNestingDepth
      let maxLinkExpansions ← withDefault default.maxLinkExpansions word64? maxLinkExpansions
      return { maxNestingDepth, maxLinkExpansions }
  | _ => none

def toToml? (settings : LimitSettings) : Option String := do
  let maxNestingDepth ← printNat? settings.maxNestingDepth.toNat
  let maxLinkExpansions ← printNat? settings.maxLinkExpansions.toNat
  return tableSection "limits"
    [setting "max_nesting_depth" maxNestingDepth,
     setting "max_link_expansions" maxLinkExpansions]

end LimitSettings

namespace ProfilingSettings

def ofToml? (value : Value) : Option ProfilingSettings := do
  match ← fields? fieldNames value with
  | [emitHooks] => return { emitHooks := ← withDefault false boolean? emitHooks }
  | _ => none

def toToml (settings : ProfilingSettings) : String :=
  tableSection "profiling" [setting "emit_hooks" (printBool settings.emitHooks)]

end ProfilingSettings

namespace Settings

def ofToml? (text : String) : Option Settings := do
  match ← fields? fieldNames (.table (← Toml.ofText? text)) with
  | [output, limits, profiling] =>
      let output ← withDefault {} OutputSettings.ofToml? output
      let limits ← withDefault {} LimitSettings.ofToml? limits
      let profiling ← withDefault {} ProfilingSettings.ofToml? profiling
      return { output, limits, profiling }
  | _ => none

/-- The text settings are saved as, one section after the other with an empty line
between them. Nothing when a number is too large. -/
def toToml? (settings : Settings) : Option String := do
  let output ← settings.output.toToml?
  let limits ← settings.limits.toToml?
  return "\n".intercalate [output, limits, settings.profiling.toToml]

end Settings

end EventSheet
