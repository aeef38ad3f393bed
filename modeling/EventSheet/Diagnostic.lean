namespace EventSheet

/-! Problems found while events are preprocessed or compiled. They are collected
and never stop the compilation. -/

/-- Identifies an event node. Ids are handed out in the order nodes are made,
starting with one. -/
abbrev NodeId := Nat

inductive Severity where
  | warning
  | error
deriving DecidableEq

/-- A problem, with the event it is about when that is known. -/
structure Diagnostic where
  severity : Severity
  node : Option NodeId := none
  message : String
deriving DecidableEq

namespace Severity

def display : Severity → String
  | .warning => "warning"
  | .error => "error"

end Severity

namespace Diagnostic

def isError (diagnostic : Diagnostic) : Bool := diagnostic.severity = .error

/-- A diagnostic about no event yet is put down to `current`. -/
def attributedTo (diagnostic : Diagnostic) (current : Option NodeId) : Diagnostic :=
  { diagnostic with node := diagnostic.node.or current }

def displayNode (node : NodeId) : String := "event#" ++ Nat.repr node

/-- One line for the user. -/
def display (diagnostic : Diagnostic) : String :=
  let place := match diagnostic.node with
    | some node => " (" ++ displayNode node ++ ")"
    | none => ""
  diagnostic.severity.display ++ place ++ ": " ++ diagnostic.message

end Diagnostic

end EventSheet
