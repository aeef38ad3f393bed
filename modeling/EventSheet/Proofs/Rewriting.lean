import EventSheet.Kind.Builtin
namespace EventSheet

/-! # Rewriting expressions

Every expression of an event is handed to the edit once, in the order in which they are declared,
and nothing else of the event changes. An edit may carry a state along, so that the order can be
seen in what it does. -/

/-! ## What is kept -/

/-- What is left of an expression when its text is not looked at. -/
def Expression.blanked (_ : Expression) : Expression := ⟨""⟩

mutual
/-- The instruction with all of its expressions blanked. -/
def Instruction.blanked : Instruction → Instruction
  | ⟨name, parameters, inverted, nested⟩ =>
      ⟨name, parameters.map Expression.blanked, inverted, Instruction.blankedAll nested⟩

def Instruction.blankedAll : List Instruction → List Instruction
  | [] => []
  | head :: tail => head.blanked :: Instruction.blankedAll tail
end

namespace Kind

def BranchArm.blanked (arm : BranchArm) : BranchArm where
  conditions := Instruction.blankedAll arm.conditions
  actions := Instruction.blankedAll arm.actions

namespace Builtin

/-- The event with all of its expressions blanked. -/
def blanked : Builtin → Builtin
  | .standard event =>
      .standard
        { conditions := Instruction.blankedAll event.conditions
          actions := Instruction.blankedAll event.actions }
  | .branch event =>
      .branch
        { arms := event.arms.map BranchArm.blanked
          otherwise := Instruction.blankedAll event.otherwise }
  | .repetition event =>
      .repetition
        { count := event.count.blanked
          conditions := Instruction.blankedAll event.conditions
          actions := Instruction.blankedAll event.actions }
  | other => other

theorem conditionLists_blanked (event : Builtin) :
    event.blanked.conditionLists = event.conditionLists.map Instruction.blankedAll := by
  cases event with
  | branch event =>
      simp only [blanked, conditionLists, Branch.conditionLists, List.map_map]
      rfl
  | standard _ => rfl
  | comment _ => rfl
  | repetition _ => rfl
  | link _ => rfl

theorem actionLists_blanked (event : Builtin) :
    event.blanked.actionLists = event.actionLists.map Instruction.blankedAll := by
  cases event with
  | branch event =>
      simp only [blanked, actionLists, Branch.actionLists, List.map_append, List.map_map]
      rfl
  | standard _ => rfl
  | comment _ => rfl
  | repetition _ => rfl
  | link _ => rfl

end Builtin

end Kind

/-! ## The order of declaration -/

/-- The items of two lists in turn, and then what is left of the longer one. -/
def inTurn {α : Type} : List α → List α → List α
  | [], right => right
  | left, [] => left
  | first :: left, second :: right => first :: second :: inTurn left right

theorem inTurn_perm {α : Type} (left right : List α) :
    (inTurn left right).Perm (left ++ right) := by
  fun_induction inTurn left right with
  | case1 right => exact .refl _
  | case2 left _ => rw [List.append_nil]
  | case3 first left second right induction =>
      exact .cons first ((induction.cons second).trans List.perm_middle.symm)

namespace Kind

/-- The lists of a branch in turn are those of its arms, one arm after the other. -/
theorem inTurn_arms (arms : List BranchArm) (otherwise : InstructionList) :
    inTurn (arms.map BranchArm.conditions) (arms.map BranchArm.actions ++ [otherwise]) =
      arms.flatMap (fun arm => [arm.conditions, arm.actions]) ++ [otherwise] := by
  induction arms with
  | nil => rfl
  | cons arm arms induction => simp [inTurn, induction]

namespace Builtin

/-- The count of a repetition, the one expression that stands outside of the lists. -/
def repeatCount : Builtin → Option Expression
  | .repetition event => some event.count
  | _ => none

/-- The expressions of an event in the order of declaration: the count comes first, then
conditions and actions in turn. -/
def expressions (event : Builtin) : List Expression :=
  event.repeatCount.toList ++
    (inTurn event.conditionLists event.actionLists).flatMap Instruction.expressionsOfAll

/-- They are the count and what stands in the lists, each as often as it stands there. -/
theorem expressions_perm (event : Builtin) :
    event.expressions.Perm
      (event.repeatCount.toList ++
        (event.conditionLists ++ event.actionLists).flatMap Instruction.expressionsOfAll) :=
  ((inTurn_perm event.conditionLists event.actionLists).flatMap_right _).append_left _

end Builtin

def BranchArm.expressions (arm : BranchArm) : List Expression :=
  Instruction.expressionsOfAll arm.conditions ++ Instruction.expressionsOfAll arm.actions

theorem Builtin.expressions_standard (standard : Standard) :
    (Builtin.standard standard).expressions =
      Instruction.expressionsOfAll standard.conditions ++
        Instruction.expressionsOfAll standard.actions := by
  simp [expressions, repeatCount, conditionLists, actionLists, inTurn]

theorem Builtin.expressions_repetition (repetition : Repetition) :
    (Builtin.repetition repetition).expressions =
      repetition.count ::
        (Instruction.expressionsOfAll repetition.conditions ++
          Instruction.expressionsOfAll repetition.actions) := by
  simp [expressions, repeatCount, conditionLists, actionLists, inTurn]

theorem Builtin.expressions_branch (branch : Branch) :
    (Builtin.branch branch).expressions =
      branch.arms.flatMap BranchArm.expressions ++
        Instruction.expressionsOfAll branch.otherwise := by
  have armOf (arm : BranchArm) :
      [arm.conditions, arm.actions].flatMap Instruction.expressionsOfAll = arm.expressions := by
    simp [BranchArm.expressions]
  simp only [expressions, repeatCount, conditionLists, actionLists, Branch.conditionLists,
    Branch.actionLists, inTurn_arms, List.flatMap_append, List.flatMap_assoc, armOf,
    List.flatMap_singleton, Option.toList_none, List.nil_append]

end Kind

/-! ## Rewriting -/

section

variable {State : Type} (edit : Expression → StateM State Expression)

/-- Expressions behind others are edited with the state that those leave. -/
theorem mapM_append_run (before behind : List Expression) (state : State) :
    (before ++ behind).mapM edit state =
      let rewritten := before.mapM edit state
      let others := behind.mapM edit rewritten.2
      (rewritten.1 ++ others.1, others.2) := by
  rw [List.mapM_append]
  rfl

/-- A run rewrites a value. It hands the expressions of the value to the edit, one after the
other; what it makes holds what came back, in the same order, and keeps the rest. -/
structure Rewrites {α : Type} (expressions : α → List Expression) (blanked : α → α)
    (value : α) (run : StateM State α) : Prop where
  visits : ∀ state,
    (expressions value).mapM edit state = (expressions (run state).1, (run state).2)
  keeps : ∀ state, blanked (run state).1 = blanked value

namespace Rewrites

variable {α β γ : Type} {expressions : α → List Expression} {blanked : α → α}
  {expressions' : β → List Expression} {blanked' : β → β}
  {expressions'' : γ → List Expression} {blanked'' : γ → γ}
  {first : StateM State α} {second : StateM State β} {left : α} {right : β}

/-- Without expressions there is nothing to hand to the edit. -/
theorem nothing (without : expressions left = []) :
    Rewrites edit expressions blanked left (pure left) where
  visits state := by rw [without]; exact congrArg (·, state) without.symm
  keeps _ := rfl

theorem single (expression : Expression) :
    Rewrites edit (fun expression => [expression]) Expression.blanked expression
      (edit expression) where
  visits state := by rw [List.mapM_cons]; rfl
  keeps _ := rfl

variable {edit}

/-- A value with one part that holds expressions. -/
theorem wrap (wrapped : Rewrites edit expressions blanked left first) (make : α → γ)
    (expressions_make : ∀ left, expressions'' (make left) = expressions left)
    (blanked_make : ∀ left, blanked'' (make left) = make (blanked left)) :
    Rewrites edit expressions'' blanked'' (make left) (do
      let left ← first
      return make left) where
  visits state := by
    rw [expressions_make, wrapped.visits]
    exact congrArg (·, (first state).2) (expressions_make (first state).1).symm
  keeps state := by
    have kept := congrArg make (wrapped.keeps state)
    exact (blanked_make (first state).1).trans (kept.trans (blanked_make left).symm)

/-- A value with two parts, the expressions of one before those of the other. -/
theorem both (before : Rewrites edit expressions blanked left first)
    (behind : Rewrites edit expressions' blanked' right second) (make : α → β → γ)
    (expressions_make : ∀ left right,
      expressions'' (make left right) = expressions left ++ expressions' right)
    (blanked_make : ∀ left right,
      blanked'' (make left right) = make (blanked left) (blanked' right)) :
    Rewrites edit expressions'' blanked'' (make left right) (do
      let left ← first
      let right ← second
      return make left right) where
  visits state := by
    rw [expressions_make, mapM_append_run]
    simp only [before.visits, behind.visits]
    rw [← expressions_make]
    rfl
  keeps state := by
    have kept := before.keeps state
    have kept' := behind.keeps (first state).2
    calc blanked'' (make (first state).1 (second (first state).2).1)
        = make (blanked (first state).1) (blanked' (second (first state).2).1) :=
          blanked_make _ _
      _ = make (blanked left) (blanked' right) := by rw [kept, kept']
      _ = blanked'' (make left right) := (blanked_make _ _).symm

/-- Items that are rewritten one after the other. -/
theorem mapM {rewrite : α → StateM State α}
    (each : ∀ item, Rewrites edit expressions blanked item (rewrite item)) (items : List α) :
    Rewrites edit (List.flatMap expressions) (List.map blanked) items (items.mapM rewrite) := by
  induction items with
  | nil => exact nothing edit rfl
  | cons head tail induction =>
      rw [List.mapM_cons]
      exact (each head).both induction List.cons (fun _ _ => List.flatMap_cons) (fun _ _ => rfl)

end Rewrites

mutual
/-- The parameters are rewritten first, and then what is nested. -/
theorem Instruction.rewrites : ∀ instruction : Instruction,
    Rewrites edit Instruction.expressions Instruction.blanked instruction
      (instruction.editExpressions edit)
  | ⟨name, parameters, inverted, nested⟩ => by
      rw [Instruction.editExpressions_eq]
      refine (Rewrites.mapM (Rewrites.single edit) parameters).both
        (Instruction.rewritesAll nested) (Instruction.mk name · inverted ·)
        (fun parameters nested => ?_) (fun _ _ => by rw [Instruction.blanked])
      rw [Instruction.expressions, List.flatMap_singleton']

theorem Instruction.rewritesAll : ∀ instructions : List Instruction,
    Rewrites edit Instruction.expressionsOfAll Instruction.blankedAll instructions
      (Instruction.editAll edit instructions)
  | [] => Rewrites.nothing edit rfl
  | head :: tail => by
      rw [Instruction.editAll, List.mapM_cons]
      exact (Instruction.rewrites head).both (Instruction.rewritesAll tail) List.cons
        (fun _ _ => by rw [Instruction.expressionsOfAll])
        (fun _ _ => by rw [Instruction.blankedAll])
end

namespace Kind

/-- Conditions and actions of an event or an arm. -/
theorem rewrites_lists (conditions actions : InstructionList) :
    Rewrites edit
      (fun lists => Instruction.expressionsOfAll lists.1 ++ Instruction.expressionsOfAll lists.2)
      (Prod.map Instruction.blankedAll Instruction.blankedAll) (conditions, actions)
      (editLists edit conditions actions) :=
  (Instruction.rewritesAll edit conditions).both (Instruction.rewritesAll edit actions)
    Prod.mk (fun _ _ => rfl) (fun _ _ => rfl)

theorem BranchArm.rewrites (arm : BranchArm) :
    Rewrites edit BranchArm.expressions BranchArm.blanked arm (arm.editExpressions edit) :=
  (rewrites_lists edit arm.conditions arm.actions).wrap
    (fun lists => BranchArm.mk lists.1 lists.2) (fun _ => rfl) (fun _ => rfl)

theorem Builtin.rewrites (event : Builtin) :
    Rewrites edit Builtin.expressions Builtin.blanked event (event.editExpressions edit) := by
  cases event with
  | standard event =>
      exact (rewrites_lists edit event.conditions event.actions).wrap
        (fun lists => Builtin.standard ⟨lists.1, lists.2⟩)
        (fun _ => by simp [Builtin.expressions_standard]) (fun _ => rfl)
  | comment event => exact Rewrites.nothing edit rfl
  | branch event =>
      exact (Rewrites.mapM (BranchArm.rewrites edit) event.arms).both
        (Instruction.rewritesAll edit event.otherwise)
        (fun arms otherwise => Builtin.branch ⟨arms, otherwise⟩)
        (fun _ _ => Builtin.expressions_branch _) (fun _ _ => rfl)
  | repetition event =>
      exact (Rewrites.single edit event.count).both
        (rewrites_lists edit event.conditions event.actions)
        (fun count lists => Builtin.repetition ⟨count, lists.1, lists.2⟩)
        (fun _ _ => by simp [Builtin.expressions_repetition]) (fun _ _ => rfl)
  | link event => exact Rewrites.nothing edit rfl

/-- Whatever an edit does, it is given every expression once and in the order of declaration,
and carries its state from one to the next. Afterwards these expressions have the texts that
came back. The event is the same otherwise: blanked, it and each of its lists are as before. -/
theorem Builtin.every_expression_rewritten_once (event : Builtin) (state : State) :
    let edited := EventKind.editExpressions edit event state
    event.expressions.mapM edit state = (edited.1.expressions, edited.2) ∧
      event.expressions.Perm
        (event.repeatCount.toList ++
          (event.conditionLists ++ event.actionLists).flatMap Instruction.expressionsOfAll) ∧
      edited.1.blanked = event.blanked ∧
      edited.1.conditionLists.map Instruction.blankedAll =
        event.conditionLists.map Instruction.blankedAll ∧
      edited.1.actionLists.map Instruction.blankedAll =
        event.actionLists.map Instruction.blankedAll := by
  have rewritten := Builtin.rewrites edit event
  have kept := rewritten.keeps state
  refine ⟨rewritten.visits state, event.expressions_perm, kept, ?_, ?_⟩
  · rw [← Builtin.conditionLists_blanked, ← Builtin.conditionLists_blanked]
    exact congrArg Builtin.conditionLists kept
  · rw [← Builtin.actionLists_blanked, ← Builtin.actionLists_blanked]
    exact congrArg Builtin.actionLists kept

/-- Nested instructions are declared behind the parameters, and an arm before `otherwise`. -/
example :
    (Builtin.branch
      { arms := [{
          conditions :=
            [⟨"or", [⟨"1"⟩], true, [⟨"a", [⟨"2"⟩], false, []⟩, ⟨"b", [⟨"3"⟩], false, []⟩]⟩]
          actions := [⟨"c", [⟨"4"⟩, ⟨"5"⟩], false, []⟩] }]
        otherwise := [⟨"d", [⟨"6"⟩], false, []⟩] }).expressions =
      [⟨"1"⟩, ⟨"2"⟩, ⟨"3"⟩, ⟨"4"⟩, ⟨"5"⟩, ⟨"6"⟩] := by
  decide

end Kind

end

end EventSheet
