import EventSheet.Json.Value
import EventSheet.Named
import EventSheet.Node.Lifetime
namespace EventSheet

/-! What an event may do before compilation. It may change itself, look at its
siblings, report problems, and tell the pass how to splice it into the forest it
lives in. -/

/-- What becomes of a node once it was preprocessed. -/
inductive Splice (β : Type) where
  /-- Leave it in place and visit its sub-events next. -/
  | keep
  /-- Take it out with its sub-events. -/
  | remove
  /-- Put these nodes in its place; they are visited next. -/
  | replace (nodes : Forest β)
  /-- Keep it and put these nodes right behind it; they are visited once its own
  sub-events are done. -/
  | insertAfter (nodes : Forest β)

/-- The siblings of a node, without the node itself. -/
structure Siblings (β : Type) where
  /-- Those in front of the node, the nearest first. -/
  preceding : Forest β
  after : Forest β

namespace Siblings

variable {β : Type}

/-- Those in front of the node, in the order of the forest. -/
def before (siblings : Siblings β) : Forest β := siblings.preceding.reverse

/-- The position of the node itself in the forest. -/
def position (siblings : Siblings β) : Nat := siblings.preceding.length

/-- The sibling at a position of the forest; nothing at the node's own
position. -/
def get? (siblings : Siblings β) (position : Nat) : Option (Node β) :=
  if position < siblings.position then siblings.before[position]?
  else if position = siblings.position then none
  else siblings.after[position - siblings.position - 1]?

end Siblings

/-- Link expansions allowed in one pass unless said otherwise. -/
def defaultMaxLinkExpansions : Nat := 1024

/-- State shared by all nodes during one pass. -/
structure PreprocessContext (β : Type) where
  /-- The scene or function being compiled. -/
  scope : String
  /-- Event sheets that links can include, by name. -/
  externals : Named (Forest β) := []
  diagnostics : List Diagnostic := []
  linkExpansions : Nat := 0
  maxLinkExpansions : Nat := defaultMaxLinkExpansions
  /-- The event being preprocessed. -/
  current : Option NodeId := none
  /-- Remarks that kinds leave for the host, oldest first. -/
  notes : List Json := []

namespace PreprocessContext

variable {β : Type}

def external? (context : PreprocessContext β) (name : String) : Option (Forest β) :=
  context.externals.lookup name

/-- Register an event sheet under a name; one registered before is handed
back. -/
def withExternal (context : PreprocessContext β) (name : String) (events : Forest β) :
    Option (Forest β) × PreprocessContext β :=
  (context.external? name,
    { context with externals := context.externals.put name events })

/-- Count one link expansion. Once the budget is spent the answer is false,
which is how sheets that include themselves are stopped. -/
def tryExpandLink (context : PreprocessContext β) : Bool × PreprocessContext β :=
  if context.maxLinkExpansions ≤ context.linkExpansions then (false, context)
  else (true, { context with linkExpansions := context.linkExpansions + 1 })

/-- Collect a problem, put down to the event being preprocessed unless it names
one. -/
def report (context : PreprocessContext β) (diagnostic : Diagnostic) :
    PreprocessContext β :=
  { context with
    diagnostics := context.diagnostics ++ [diagnostic.attributedTo context.current] }

def note (context : PreprocessContext β) (remark : Json) : PreprocessContext β :=
  { context with notes := context.notes ++ [remark] }

end PreprocessContext

/-- The state of a pass: its context and the population its nodes live in. -/
structure PassState (β : Type) where
  context : PreprocessContext β
  population : Population

abbrev Pass (β : Type) := StateM (PassState β)

namespace Pass

variable {β : Type} {α : Type}

def onPopulation (action : StateM Population α) : Pass β α := fun ⟨context, population⟩ =>
  let (result, population) := action population
  (result, { context, population })

def onContext (action : PreprocessContext β → α × PreprocessContext β) : Pass β α :=
  fun ⟨context, population⟩ =>
    let (result, context) := action context
    (result, { context, population })

def report (diagnostic : Diagnostic) : Pass β Unit :=
  onContext fun context => ((), context.report diagnostic)

def tryExpandLink : Pass β Bool := onContext PreprocessContext.tryExpandLink

def external? (name : String) : Pass β (Option (Forest β)) :=
  onContext fun context => (context.external? name, context)

end Pass

end EventSheet
