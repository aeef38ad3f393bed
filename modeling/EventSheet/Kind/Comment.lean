import EventSheet.Json.Decoder
import EventSheet.Rendering.Metrics
namespace EventSheet.Kind

/-! The comment: free text shown between events and never compiled. -/

structure Comment where
  text : String := ""
deriving DecidableEq

namespace Comment

def kindName : String := "BuiltinCommonInstructions::Comment"

def renderedHeight (comment : Comment) (width : UInt32) : UInt32 :=
  Rendering.textHeight comment.text width + 2 * Rendering.eventPadding

def toJson (comment : Comment) : Json := .object [("text", .string comment.text)]

open Json.Decoder in
def decode : Json.Decoder Comment :=
  record ["text"] fun levels entries => do
    match entries with
    | [text] => return { text := ← withDefault "" string levels text }
    | _ => none

end Comment

end EventSheet.Kind
