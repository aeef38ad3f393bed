import EventSheet.Json.Decoder
import EventSheet.Settings
namespace EventSheet

/-! Settings as JSON. Every field and every section may be left out. -/

open Json.Decoder

namespace OutputSettings

def fieldNames : List String := ["indent_width", "header", "entry_point"]

def toJson (settings : OutputSettings) : Json :=
  .object
    [("indent_width", .nat settings.indentWidth.toNat),
     ("header", .string settings.header),
     ("entry_point", .string settings.entryPoint)]

def decode : Json.Decoder OutputSettings :=
  record fieldNames fun levels entries => do
    match entries with
    | [indentWidth, header, entryPoint] =>
        let default : OutputSettings := {}
        let indentWidth ← withDefault default.indentWidth word64 levels indentWidth
        let header ← withDefault default.header string levels header
        let entryPoint ← withDefault default.entryPoint string levels entryPoint
        return { indentWidth, header, entryPoint }
    | _ => none

end OutputSettings

namespace LimitSettings

def fieldNames : List String := ["max_nesting_depth", "max_link_expansions"]

def toJson (settings : LimitSettings) : Json :=
  .object
    [("max_nesting_depth", .nat settings.maxNestingDepth.toNat),
     ("max_link_expansions", .nat settings.maxLinkExpansions.toNat)]

def decode : Json.Decoder LimitSettings :=
  record fieldNames fun levels entries => do
    match entries with
    | [maxNestingDepth, maxLinkExpansions] =>
        let default : LimitSettings := {}
        let maxNestingDepth ← withDefault default.maxNestingDepth word64 levels maxNestingDepth
        let maxLinkExpansions ←
          withDefault default.maxLinkExpansions word64 levels maxLinkExpansions
        return { maxNestingDepth, maxLinkExpansions }
    | _ => none

end LimitSettings

namespace ProfilingSettings

def fieldNames : List String := ["emit_hooks"]

def toJson (settings : ProfilingSettings) : Json :=
  .object [("emit_hooks", .bool settings.emitHooks)]

def decode : Json.Decoder ProfilingSettings :=
  record fieldNames fun levels entries => do
    match entries with
    | [emitHooks] => return { emitHooks := ← withDefault false bool levels emitHooks }
    | _ => none

end ProfilingSettings

namespace Settings

def fieldNames : List String := ["output", "limits", "profiling"]

def toJson (settings : Settings) : Json :=
  .object
    [("output", settings.output.toJson),
     ("limits", settings.limits.toJson),
     ("profiling", settings.profiling.toJson)]

def decode : Json.Decoder Settings :=
  record fieldNames fun levels entries => do
    match entries with
    | [output, limits, profiling] =>
        let output ← withDefault {} OutputSettings.decode levels output
        let limits ← withDefault {} LimitSettings.decode levels limits
        let profiling ← withDefault {} ProfilingSettings.decode levels profiling
        return { output, limits, profiling }
    | _ => none

end Settings

end EventSheet
