import EventSheet.Behavior
import EventSheet.Diagnostic.Json
import EventSheet.Instruction.Json
import EventSheet.Node.Walk
namespace EventSheet

/-! What a host shows of events and of the problems found in them, as free-form
values. -/

namespace Json

def ofId (id : Option NodeId) : Json := (id.map Json.nat).getD .null

def ofTexts (texts : List String) : Json := .array (texts.map .string)

end Json

def Sample.report (sample : Sample) : Json :=
  .object
    [("secs", .nat sample.time.seconds.toNat),
     ("nanos", .nat sample.time.nanoseconds.toNat),
     ("percent_bits", .nat sample.percent.bits.toNat)]

def Diagnostic.report (diagnostic : Diagnostic) : Json :=
  .object
    [("severity", .string diagnostic.severity.jsonName),
     ("node", .ofId diagnostic.node),
     ("message", .string diagnostic.message),
     ("display", .string diagnostic.display)]

def Diagnostic.reports (diagnostics : List Diagnostic) : Json :=
  .array (diagnostics.map Diagnostic.report)

section

variable {β : Type} [EventKind β]

/-- A letter for each of: disabled, folded, executable, owner of sub-events. -/
def Node.flags (node : Node β) : String :=
  (if node.event.disabled then "d" else "") ++ (if node.event.folded then "f" else "") ++
    (if node.isExecutable then "x" else "") ++ (if node.ownsSubEvents then "s" else "")

/-- Everything there is to say about a node, by name. -/
def Node.report (population : Population) (node : Node β) : Named Json :=
  [("id", .nat node.id),
   ("kind", .string node.kind),
   ("flags", .string node.flags),
   ("source_id", .nat (node.event.sourceId population)),
   ("payload", node.payload),
   ("conditions", .array (node.conditionLists.map InstructionList.toJson)),
   ("actions", .array (node.actionLists.map InstructionList.toJson)),
   ("sub_events", .array (node.subEvents.map fun child => .nat child.id)),
   ("profile", (population.sample node.id).report)]

/-- One row for every node, in pre-order. -/
def Forest.outline (population : Population) (forest : Forest β) : Json :=
  .array ((Forest.visits forest).map fun (node, depth) =>
    .array [.nat node.id, .nat depth, .string node.kind, .string node.flags,
      .ofId (node.event.remembered? population)])

end

end EventSheet
