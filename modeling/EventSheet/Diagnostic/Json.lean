import EventSheet.Diagnostic
import EventSheet.Json.Decoder
namespace EventSheet

/-! Diagnostics as JSON. -/

open Json.Decoder

namespace Severity

def jsonName : Severity → String
  | .warning => "Warning"
  | .error => "Error"

def ofJsonName? : String → Option Severity
  | "Warning" => some .warning
  | "Error" => some .error
  | _ => none

/-- The name alone, or the name as the only member of an object with `null`. -/
def decode : Json.Decoder Severity
  | _, .string (some name) => ofJsonName? name
  | _ + 1, .object [(some name, .null)] => ofJsonName? name
  | _, _ => none

end Severity

namespace Diagnostic

def toJson (diagnostic : Diagnostic) : Json :=
  .object
    [("severity", .string diagnostic.severity.jsonName),
     ("node", (diagnostic.node.map Json.nat).getD .null),
     ("message", .string diagnostic.message)]

def decode : Json.Decoder Diagnostic :=
  record ["severity", "node", "message"] fun levels entries => do
    match entries with
    | [severity, node, message] =>
        let severity ← required Severity.decode levels severity
        let node ← named none (nullable (natBelow UInt64.size)) levels node
        let message ← required string levels message
        return ⟨severity, node, message⟩
    | _ => none

end Diagnostic

end EventSheet
