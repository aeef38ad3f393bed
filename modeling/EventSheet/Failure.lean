namespace EventSheet

/-! How a failed operation is reported: what kind of fault lies at the bottom,
and what the operations above it have to say, outermost first. -/

inductive Fault where
  /-- The input was understood and refused. -/
  | rejected
  | json
  | toml
  | io
deriving DecidableEq

structure Failure where
  fault : Fault
  messages : List String := []
deriving DecidableEq

namespace Failure

/-- Say in front what was being attempted. -/
def inContext (failure : Failure) (message : String) : Failure :=
  { failure with messages := message :: failure.messages }

def message (failure : Failure) : String := ": ".intercalate failure.messages

end Failure

end EventSheet
