import EventSheet.Behavior
namespace EventSheet.Preprocess

/-! The traversal behind preprocessing: a single pre-order pass that always goes
on with the forest as it is after a splice, so inserted nodes are visited and
removed ones are not. Disabled nodes are skipped with their sub-events.

The traversal keeps a stack of frames, one for every forest it is inside of.
While it walks the sub-events of a node they live in a frame of their own; they
go back to their owner, the first node ahead in the frame below, once all of them
were visited. -/

/-- What the traversal does with nodes, over a state of its own. -/
structure Visitor (β σ : Type) where
  /-- Preprocess a node among its siblings. -/
  visit : Event β → Siblings β → StateM σ (β × Splice β)
  /-- Called for every node that is spliced out. -/
  discard : Node β → StateM σ Unit

/-- A forest being walked. -/
structure Frame (β : Type) where
  /-- The nodes that are done, the nearest first. -/
  done : Forest β := []
  /-- The node to look at next and those behind it. -/
  ahead : Forest β

namespace Frame

variable {β : Type}

def forest (frame : Frame β) : Forest β := frame.done.reverse ++ frame.ahead

/-- Hand sub-events back to the node ahead and go past it. -/
def close (frame : Frame β) (subEvents : Forest β) : Frame β :=
  match frame.ahead with
  | [] => frame
  | owner :: rest => { done := { owner with subEvents } :: frame.done, ahead := rest }

end Frame

/-- Where one step of the traversal leads. -/
inductive Move (β : Type) where
  | finished (forest : Forest β)
  /-- Go on without having visited a node. -/
  | onward (frame : Frame β) (enclosing : List (Frame β))
  /-- Go on after visiting one node. -/
  | visited (frame : Frame β) (enclosing : List (Frame β))

variable {β σ : Type}

/-- Go on below a node that stays, or past it when it has no sub-events. -/
def descend (done : Forest β) (node : Node β) (rest : Forest β)
    (enclosing : List (Frame β)) : Move β :=
  if node.subEvents.isEmpty then .visited { done := node :: done, ahead := rest } enclosing
  else
    .visited { ahead := node.subEvents }
      ({ done, ahead := { node with subEvents := [] } :: rest } :: enclosing)

def step (visitor : Visitor β σ) (frame : Frame β) (enclosing : List (Frame β)) :
    StateM σ (Move β) :=
  match frame.ahead with
  | [] =>
      match enclosing with
      | [] => return .finished frame.forest
      | owner :: outer => return .onward (owner.close frame.forest) outer
  | node :: rest =>
      if node.event.disabled then
        return .onward { done := node :: frame.done, ahead := rest } enclosing
      else do
        let (behavior, splice) ← visitor.visit node.event ⟨frame.done, rest⟩
        let node := node.setBehavior behavior
        match splice with
        | .keep => return descend frame.done node rest enclosing
        | .insertAfter inserted => return descend frame.done node (inserted ++ rest) enclosing
        | .remove =>
            visitor.discard node
            return .visited { frame with ahead := rest } enclosing
        | .replace nodes =>
            visitor.discard node
            return .visited { frame with ahead := nodes ++ rest } enclosing

/-- Take steps until the traversal is finished, at most `fuel` of them. The
answer is the final forest and the number of nodes visited. -/
def run (visitor : Visitor β σ) :
    (fuel : Nat) → Frame β → List (Frame β) → (visits : Nat) → σ → Option ((Forest β × Nat) × σ)
  | 0, _, _, _, _ => none
  | fuel + 1, frame, enclosing, visits, state =>
      match step visitor frame enclosing state with
      | (.finished forest, state) => some ((forest, visits), state)
      | (.onward frame enclosing, state) => run visitor fuel frame enclosing visits state
      | (.visited frame enclosing, state) =>
          run visitor fuel frame enclosing (visits + 1) state

end EventSheet.Preprocess

namespace EventSheet

variable {β : Type} [Behavior β]

/-- Remember in the context which event is being preprocessed. -/
def Pass.setCurrent (current : Option NodeId) : Pass β Unit :=
  onContext fun context => ((), { context with current })

/-- Nodes are preprocessed by their behaviors, and spliced out nodes are
destroyed. -/
def Pass.visitor : Preprocess.Visitor β (PassState β) where
  visit := fun event siblings => do
    let population := (← get).population
    Pass.setCurrent (some (event.sourceId population))
    let outcome ← Behavior.preprocess event.behavior siblings
    Pass.setCurrent none
    return outcome
  discard := fun node => Pass.onPopulation node.destroy

/-- Preprocess every enabled node of a forest in pre-order. The answer is the
final forest and the number of nodes whose behavior was asked; nothing when
`fuel` steps do not finish. -/
def Forest.preprocess (fuel : Nat) (forest : Forest β) (state : PassState β) :
    Option ((Forest β × Nat) × PassState β) :=
  Preprocess.run Pass.visitor fuel { ahead := forest } [] 0 state

end EventSheet
