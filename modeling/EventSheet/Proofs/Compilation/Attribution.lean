import EventSheet.Proofs.Compilation.Effects
import EventSheet.Proofs.Compilation.Outcome
namespace EventSheet

/-! # Whom problems are put down to

A problem names no event when it is met. While the forest is preprocessed it is put down to the
event asked, and while code is generated to the event whose code that is. Both are copies, so what
the user gets to read is the event that the copy was made from. -/

open Codegen Preprocess

/-! ## Problems as they are met -/

/-- None of the problems is put down to an event yet. -/
def Diagnostic.Unattributed (reports : List Diagnostic) : Prop :=
  ∀ report ∈ reports, report.node = none

namespace Diagnostic.Unattributed

variable {reports others : List Diagnostic}

theorem nil : Unattributed [] := List.forall_mem_nil _

theorem singleton {report : Diagnostic} (unnamed : report.node = none) : Unattributed [report] :=
  List.forall_mem_singleton.mpr unnamed

theorem append (first : Unattributed reports) (second : Unattributed others) :
    Unattributed (reports ++ others) :=
  List.forall_mem_append.mpr ⟨first, second⟩

theorem leftOut (settings : Settings) (depth : Nat) (forest : Forest Kind.Builtin) :
    Unattributed (Program.leftOut settings depth forest) := by
  rw [Program.leftOut]
  split
  · exact nil
  · split
    · exact singleton rfl
    · exact nil

end Diagnostic.Unattributed

/-! ## Problems of a pass -/

namespace Preprocess.Call

/-- The problem met when an event is asked: a link to a sheet there is not, or one too many. -/
def reports (call : Call Kind.Builtin (PassState Kind.Builtin)) : List Diagnostic :=
  match call.event.behavior.target? with
  | none => []
  | some target =>
      if (call.state.context.external? target).isNone then [Kind.Link.unknownTarget target]
      else if call.state.context.maxLinkExpansions ≤ call.state.context.linkExpansions then
        [Kind.Link.tooManyLinks target]
      else []

/-- The problem of a call, put down to the event it stands for. -/
def problems (call : Call Kind.Builtin (PassState Kind.Builtin)) : List Diagnostic :=
  Diagnostic.allAttributed (some (call.event.sourceId call.state.population)) call.reports

end Preprocess.Call

namespace Preprocess

variable {forest result : Forest Kind.Builtin} {cursor : Nat} {state after : PassState Kind.Builtin}
  {calls : List (Call Kind.Builtin (PassState Kind.Builtin))}

theorem LinkVisit.diagnostics_eq {event : Event Kind.Builtin} {splice : Splice Kind.Builtin}
    {visited : PassState Kind.Builtin} (visit : LinkVisit event state splice visited)
    (position : Nat) (siblings : Siblings Kind.Builtin) :
    visited.context.diagnostics = state.context.diagnostics ++
      (⟨event, position, siblings, state, splice⟩ : Call _ _).problems := by
  cases visit with
  | plain noLink =>
      rw [Call.problems, Call.reports, noLink]
      exact (List.append_nil _).symm
  | unknown link missing =>
      rw [Call.problems, Call.reports, link]
      dsimp only
      rw [if_pos (by rw [missing, Option.isNone_none])]
      rfl
  | expanded link known within =>
      rw [Call.problems, Call.reports, link]
      dsimp only
      rw [if_neg (by simp [known]), if_neg (Nat.not_le.mpr within)]
      exact (List.append_nil _).symm
  | exhausted link known spent =>
      rw [Call.problems, Call.reports, link]
      dsimp only
      rw [if_neg (by simp [known]), if_pos spent]
      rfl

/-- A pass collects the problems of its calls, in order. -/
theorem Traverses.diagnostics_eq
    (traverses : Traverses Pass.visitor forest cursor state calls result after) :
    after.context.diagnostics = state.context.diagnostics ++ calls.flatMap Call.problems := by
  apply traverses.accumulate fun state calls after =>
    after.context.diagnostics = state.context.diagnostics ++ calls.flatMap Call.problems
  case empty => exact fun _ => (List.append_nil _).symm
  case append =>
    intro start middle final first second earlier later
    rw [later, earlier, List.flatMap_append, List.append_assoc]
  case stay =>
    intro event position siblings behavior splice state visited visit
    rw [(linkVisit_of_visit visit).2.diagnostics_eq position siblings, List.flatMap_singleton]
  case go =>
    intro node position siblings behavior splice state visited visit
    rw [context_discard, (linkVisit_of_visit visit).2.diagnostics_eq position siblings,
      List.flatMap_singleton]

end Preprocess

/-! ## Problems of a compilation -/

mutual
theorem Node.mem_members_of_lineages {β : Type} {lineage : Lineage β} :
    ∀ {node : Node β} {ancestors : List (Event β)}, lineage ∈ node.lineages ancestors →
      lineage.node.event ∈ node.members
  | ⟨event, subEvents⟩, ancestors, isLineage => by
      rcases List.mem_cons.mp isLineage with rfl | isBelow
      · exact List.mem_cons_self
      · exact List.mem_cons_of_mem _ (Forest.mem_members_of_lineages isBelow)

theorem Forest.mem_members_of_lineages {β : Type} {lineage : Lineage β} :
    ∀ {forest : List (Node β)} {ancestors : List (Event β)},
      lineage ∈ Forest.lineages ancestors forest → lineage.node.event ∈ Forest.members forest
  | _ :: _, _, isLineage => by
      rcases List.mem_append.mp isLineage with isHead | isTail
      · exact List.mem_append_left _ (Node.mem_members_of_lineages isHead)
      · exact List.mem_append_right _ (Forest.mem_members_of_lineages isTail)
end

section

variable {context : PreprocessContext Kind.Builtin} {forest : Forest Kind.Builtin}
  {population : Population}

/-- What a compilation reports: the problems of its pass, then those of the code generated. -/
theorem CompilingPass.diagnostics_codeOf
    {calls : List (Preprocess.Call Kind.Builtin (PassState Kind.Builtin))}
    {working : Forest Kind.Builtin} {state : PassState Kind.Builtin}
    (pass : CompilingPass context forest population calls working state) (settings : Settings) :
    (codeOf settings working state).diagnostics =
      context.diagnostics ++ calls.flatMap Preprocess.Call.problems ++
        (Program.reachedLineages settings [] working).flatMap
          (Lineage.problems settings state.population) := by
  have ofPass := Traverses.diagnostics_eq pass
  have ofCode := (Forest.generate_leaves settings state.population working {}).2
  have generated : (Program.generate settings state.population working {}).2 =
      (Forest.generate (Program.generator settings state.population) working
        { generator := {} }).2.generator := rfl
  rw [codeOf, ofPass, generated, ofCode]
  rfl

end

end EventSheet
