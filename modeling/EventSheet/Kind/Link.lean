import EventSheet.Json.Decoder
import EventSheet.Preprocess
import EventSheet.Rendering.Metrics
namespace EventSheet.Kind

/-! The link: include the events of an external sheet in place of itself. It is
resolved during preprocessing, where copies of the sheet's events take its place
and are preprocessed like any other sibling. -/

structure Link where
  target : String := ""
deriving DecidableEq

namespace Link

def kindName : String := "BuiltinCommonInstructions::Link"

def unknownTarget (target : String) : Diagnostic :=
  { severity := .warning
    message := "link to unknown events `" ++ target ++ "` was ignored" }

def tooManyLinks (target : String) : Diagnostic :=
  { severity := .error
    message := "too many links expanded while including `" ++ target ++
      "`, is it including itself?" }

/-- A link that cannot be resolved is removed. A link to an unknown sheet uses up
no budget. -/
def preprocess {β : Type} (link : Link) : Pass β (Splice β) := do
  match ← Pass.external? link.target with
  | none =>
      Pass.report (unknownTarget link.target)
      return .remove
  | some events =>
      if ← Pass.tryExpandLink then
        let copies ← Pass.onPopulation (Forest.cloneRemembering events)
        return .replace copies
      else
        Pass.report (tooManyLinks link.target)
        return .remove

def renderedHeight (link : Link) (width : UInt32) : UInt32 :=
  Rendering.textHeight ("Include events of " ++ link.target) width +
    2 * Rendering.eventPadding

def toJson (link : Link) : Json := .object [("target", .string link.target)]

open Json.Decoder in
def decode : Json.Decoder Link :=
  record ["target"] fun levels entries => do
    match entries with
    | [target] => return { target := ← withDefault "" string levels target }
    | _ => none

end Link

end EventSheet.Kind
