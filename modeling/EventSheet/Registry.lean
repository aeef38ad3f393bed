import EventSheet.Failure
import EventSheet.Json.Printer
import EventSheet.Kind.Builtin
import EventSheet.Named
namespace EventSheet

/-! Registries of event kinds: maps from the name of a kind to the factory that
rebuilds a behavior from its persisted payload. -/

inductive FactoryError where
  /-- The payload does not decode as the named state. -/
  | invalidPayload (stateName : String)
  | refused (message : String)
deriving DecidableEq

abbrev Factory (β : Type) := Json → Except FactoryError β

/-- The factory of a kind whose payload is its state. A missing payload means the
default state. -/
def payloadFactory {α β : Type} (stateName : String) (decoder : Json.Decoder α)
    (build : α → β) : Factory β := fun payload =>
  let payload := if payload.isNull then .object [] else payload
  match Json.Decoder.ofValue? decoder payload with
  | some value => .ok (build value)
  | none => .error (.invalidPayload stateName)

/-- Names and factories, at most one factory for a name. -/
structure Registry (β : Type) where
  factories : Named (Factory β) := []

/-- Why no behavior was created. -/
inductive CreationError where
  | unknownKind (kind : String)
  | factory (error : FactoryError)
  /-- The factory of `kind` built something else. -/
  | kindMismatch (kind built : String)
deriving DecidableEq

namespace Registry

variable {β : Type}

/-- Register a kind, replacing any factory it had. -/
def register (registry : Registry β) (kind : String) (factory : Factory β) : Registry β :=
  { factories := registry.factories.put kind factory }

def factory? (registry : Registry β) (kind : String) : Option (Factory β) :=
  registry.factories.lookup kind

def contains (registry : Registry β) (kind : String) : Bool :=
  (registry.factory? kind).isSome

/-- The registered kinds, sorted by code points. -/
def kinds (registry : Registry β) : List String :=
  (registry.factories.map Prod.fst).mergeSort fun left right => !decide (right < left)

/-- Build the behavior of a kind from its payload. -/
def create [EventKind β] (registry : Registry β) (kind : String) (payload : Json) :
    Except CreationError β :=
  match registry.factory? kind with
  | none => .error (.unknownKind kind)
  | some factory =>
      match factory payload with
      | .error error => .error (.factory error)
      | .ok behavior =>
          if EventKind.kind behavior = kind then .ok behavior
          else .error (.kindMismatch kind (EventKind.kind behavior))

/-! ## Built-in kinds -/

open Kind in
/-- The factories of the built-in kinds, in a family that contains them. -/
def builtinFactories (embed : Builtin → β) : Named (Factory β) :=
  [(Standard.kindName, payloadFactory "pulsar_events::kinds::standard::StandardEvent"
      Standard.decode (embed ∘ Builtin.standard)),
   (Comment.kindName, payloadFactory "pulsar_events::kinds::comment::CommentEvent"
      Comment.decode (embed ∘ Builtin.comment)),
   (Branch.kindName, payloadFactory "pulsar_events::kinds::branch::BranchEvent"
      Branch.decode (embed ∘ Builtin.branch)),
   (Repetition.kindName, payloadFactory "pulsar_events::kinds::repeat::RepeatEvent"
      Repetition.decode (embed ∘ Builtin.repetition)),
   (Link.kindName, payloadFactory "pulsar_events::kinds::link::LinkEvent"
      Link.decode (embed ∘ Builtin.link))]

/-- The registry that knows every built-in kind and nothing else. -/
def builtin (embed : Kind.Builtin → β) : Registry β :=
  { factories := builtinFactories embed }

end Registry

/-! ## Messages -/

def FactoryError.failure : FactoryError → Failure
  | .invalidPayload stateName => ⟨.json, ["Invalid payload for " ++ stateName]⟩
  | .refused message => ⟨.rejected, [message]⟩

def CreationError.failure : CreationError → Failure
  | .unknownKind kind => ⟨.rejected, ["Unknown event kind `" ++ kind ++ "`"]⟩
  | .factory error => error.failure
  | .kindMismatch kind built =>
      ⟨.rejected, ["Factory for `" ++ kind ++ "` built an event of kind `" ++ built ++ "`"]⟩

end EventSheet
