import EventSheet.Preprocess
namespace EventSheet

/-! Settings of the compiler. -/

/-- Shape of the generated source. -/
structure OutputSettings where
  /-- Spaces per level. -/
  indentWidth : UInt64 := 4
  /-- The comment at the top of every generated file. -/
  header : String := "// Auto-generated code from Pulsar events"
  /-- Name of the generated function that runs the events. -/
  entryPoint : String := "run_events"
deriving DecidableEq

/-- Bounds that protect the compiler from runaway event sheets. -/
structure LimitSettings where
  /-- Deepest sub-event nesting compiled; deeper events are reported and left
  out. -/
  maxNestingDepth : UInt64 := 4096
  /-- Links expanded in one preprocessing pass. -/
  maxLinkExpansions : UInt64 := UInt64.ofNat defaultMaxLinkExpansions
deriving DecidableEq

structure ProfilingSettings where
  /-- Put profiler calls around every event. -/
  emitHooks : Bool := false
deriving DecidableEq

structure Settings where
  output : OutputSettings := {}
  limits : LimitSettings := {}
  profiling : ProfilingSettings := {}
deriving DecidableEq

namespace Settings

/-- One level of indentation of the generated source. -/
def indentUnit (settings : Settings) : String :=
  String.ofList (List.replicate settings.output.indentWidth.toNat ' ')

end Settings

/-- Bound the link expansions of a pass as the settings say. -/
def PreprocessContext.withLimits {β : Type} (context : PreprocessContext β)
    (limits : LimitSettings) : PreprocessContext β :=
  { context with maxLinkExpansions := limits.maxLinkExpansions.toNat }

end EventSheet
