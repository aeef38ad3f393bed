import EventSheet.Kind.Builtin
import EventSheet.Proofs.Traversal.Recursive
namespace EventSheet

/-! What one visit does when all kinds are built in. Only links do anything: a link
reports a problem and goes, or copies of its sheet take its place. -/

open Kind (Builtin Link)

/-- The sheet a link wants to include; nothing for the other kinds. -/
def Kind.Builtin.target? : Builtin → Option String
  | .link event => some event.target
  | _ => none

namespace PassState

variable {β : Type}

/-- The state in which the behavior of an event is asked. -/
def asking (event : Event β) (state : PassState β) : PassState β :=
  { state with
    context := { state.context with current := some (event.sourceId state.population) } }

/-- The state once a visit is over. -/
def settled (state : PassState β) : PassState β :=
  { state with context := { state.context with current := none } }

def report (problem : Diagnostic) (state : PassState β) : PassState β :=
  { state with context := state.context.report problem }

/-- Count an expansion and copy the sheet. -/
def expand (sheet : Forest β) (state : PassState β) : PassState β where
  context :=
    { state.context with linkExpansions := state.context.linkExpansions + 1 }
  population := (Forest.cloneRemembering sheet state.population).2

end PassState

/-! ## The three ends of a link -/

namespace Kind.Link

variable {β : Type} {link : Link} {state : PassState β} {sheet : Forest β}

theorem preprocess_unknown (missing : state.context.external? link.target = none) :
    link.preprocess state = (.remove, state.report (unknownTarget link.target)) := by
  simp only [preprocess, bind, StateT.bind, Pass.external?, Pass.onContext, missing]
  rfl

theorem preprocess_expanded (known : state.context.external? link.target = some sheet)
    (within : state.context.linkExpansions < state.context.maxLinkExpansions) :
    link.preprocess state =
      (.replace (Forest.cloneRemembering sheet state.population).1, state.expand sheet) := by
  simp only [preprocess, bind, StateT.bind, Pass.external?, Pass.onContext, known,
    Pass.tryExpandLink, PreprocessContext.tryExpandLink, if_neg (Nat.not_le.mpr within)]
  rfl

theorem preprocess_exhausted (known : state.context.external? link.target = some sheet)
    (spent : state.context.maxLinkExpansions ≤ state.context.linkExpansions) :
    link.preprocess state = (.remove, state.report (tooManyLinks link.target)) := by
  simp only [preprocess, bind, StateT.bind, Pass.external?, Pass.onContext, known,
    Pass.tryExpandLink, PreprocessContext.tryExpandLink, if_pos spent]
  rfl

end Kind.Link

namespace Preprocess

/-- The ways a visit of an event can end. -/
inductive LinkVisit (event : Event Builtin) (state : PassState Builtin) :
    Splice Builtin → PassState Builtin → Prop
  | plain (noLink : event.behavior.target? = none) :
      LinkVisit event state .keep (state.asking event).settled
  | unknown {target : String} (link : event.behavior.target? = some target)
      (missing : state.context.external? target = none) :
      LinkVisit event state .remove
        ((state.asking event).report (Link.unknownTarget target)).settled
  | expanded {target : String} {sheet : Forest Builtin}
      (link : event.behavior.target? = some target)
      (known : state.context.external? target = some sheet)
      (within : state.context.linkExpansions < state.context.maxLinkExpansions) :
      LinkVisit event state (.replace (Forest.cloneRemembering sheet state.population).1)
        ((state.asking event).expand sheet).settled
  | exhausted {target : String} {sheet : Forest Builtin}
      (link : event.behavior.target? = some target)
      (known : state.context.external? target = some sheet)
      (spent : state.context.maxLinkExpansions ≤ state.context.linkExpansions) :
      LinkVisit event state .remove
        ((state.asking event).report (Link.tooManyLinks target)).settled

theorem visit_builtin (event : Event Builtin) (siblings : Siblings Builtin)
    (state : PassState Builtin) :
    Pass.visitor.visit event siblings state =
      ((event.behavior, (event.behavior.preprocess (state.asking event)).1),
        (event.behavior.preprocess (state.asking event)).2.settled) := rfl

/-- A visit leaves the behavior as it is and ends in one of these ways. -/
theorem linkVisit_of_visit {event : Event Builtin} {siblings : Siblings Builtin}
    {behavior : Builtin} {splice : Splice Builtin} {state visited : PassState Builtin}
    (visit : Pass.visitor.visit event siblings state = ((behavior, splice), visited)) :
    behavior = event.behavior ∧ LinkVisit event state splice visited := by
  rw [visit_builtin] at visit
  cases visit
  refine ⟨rfl, ?_⟩
  cases kind : event.behavior with
  | standard _ => exact .plain (by rw [kind]; rfl)
  | comment _ => exact .plain (by rw [kind]; rfl)
  | branch _ => exact .plain (by rw [kind]; rfl)
  | repetition _ => exact .plain (by rw [kind]; rfl)
  | link link =>
      have target : event.behavior.target? = some link.target := by
        rw [kind]
        rfl
      have visited : (Builtin.link link).preprocess (state.asking event) =
          link.preprocess (state.asking event) := rfl
      rw [visited]
      cases sheet : state.context.external? link.target with
      | none =>
          rw [Link.preprocess_unknown (by exact sheet)]
          exact .unknown target sheet
      | some events =>
          by_cases within :
              state.context.linkExpansions < state.context.maxLinkExpansions
          · rw [Link.preprocess_expanded (by exact sheet) (by exact within)]
            exact .expanded target sheet within
          · have spent := Nat.le_of_not_lt within
            rw [Link.preprocess_exhausted (by exact sheet) (by exact spent)]
            exact .exhausted target sheet spent

/-- Discarding a node leaves the context alone. -/
@[simp] theorem context_discard {β : Type} [Behavior β] (node : Node β)
    (state : PassState β) : (Pass.visitor.discard node state).2.context = state.context := rfl

end Preprocess
end EventSheet
