import EventSheet.Diagnostic
import EventSheet.Profile
namespace EventSheet

/-! The population of event nodes. Every node that is made gets an identity of
its own, which keeps its last published sample and whether the node still
exists. Identities are never taken back: an id names one node for good. A node
refers to another only by its id, so a handle is an id. -/

structure Identity where
  alive : Bool := true
  sample : Sample := {}
deriving DecidableEq

/-- The identities in the order they were made; the first has the id one. -/
structure Population where
  identities : Array Identity := #[]

namespace Population

/-- The id the next node will get. -/
def nextId (population : Population) : NodeId := population.identities.size + 1

def identity? (population : Population) : NodeId → Option Identity
  | 0 => none
  | index + 1 => population.identities[index]?

/-- Change the identity of an id, if there is one. -/
def modify (population : Population) (id : NodeId) (change : Identity → Identity) :
    Population :=
  match id with
  | 0 => population
  | index + 1 => { population with identities := population.identities.modify index change }

/-- Make a new identity. -/
def enroll (sample : Sample) : StateM Population NodeId := fun population =>
  (population.nextId,
    { population with identities := population.identities.push { sample } })

def isAlive (population : Population) (id : NodeId) : Bool :=
  match population.identity? id with
  | some identity => identity.alive
  | none => false

def sample (population : Population) (id : NodeId) : Sample :=
  match population.identity? id with
  | some identity => identity.sample
  | none => {}

/-- The node of an id was destroyed. -/
def retire (population : Population) (id : NodeId) : Population :=
  population.modify id fun identity => { identity with alive := false }

def retireAll (population : Population) (ids : List NodeId) : Population :=
  ids.foldl retire population

/-- Publish a sample for a node; false, and nothing changes, when the node is
gone. -/
def publish (id : NodeId) (sample : Sample) : StateM Population Bool := fun population =>
  if population.isAlive id then
    (true, population.modify id fun identity => { identity with sample })
  else (false, population)

/-- A link to the node of an id holds as long as that node exists. -/
def resolve (population : Population) (link : Option NodeId) : Option NodeId :=
  link.filter population.isAlive

@[simp] theorem nextId_enroll (population : Population) (sample : Sample) :
    (enroll sample population).2.nextId = population.nextId + 1 := by
  simp [enroll, nextId]

@[simp] theorem size_modify (population : Population) (id : NodeId)
    (change : Identity → Identity) :
    (population.modify id change).identities.size = population.identities.size := by
  cases id <;> simp [modify]

@[simp] theorem retireAll_nil (population : Population) : population.retireAll [] = population :=
  rfl

theorem retireAll_cons (population : Population) (id : NodeId) (rest : List NodeId) :
    population.retireAll (id :: rest) = (population.retire id).retireAll rest :=
  rfl

theorem retireAll_append (population : Population) (left right : List NodeId) :
    population.retireAll (left ++ right) = (population.retireAll left).retireAll right := by
  simp [retireAll]

@[simp] theorem nextId_retireAll (population : Population) (ids : List NodeId) :
    (population.retireAll ids).nextId = population.nextId := by
  induction ids generalizing population with
  | nil => rfl
  | cons head tail induction =>
      rw [retireAll, List.foldl_cons, ← retireAll, induction]
      simp [nextId, retire]

end Population

end EventSheet
