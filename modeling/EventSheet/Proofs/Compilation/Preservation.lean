import EventSheet.Proofs.Compilation.Execution
import EventSheet.Proofs.Compilation.Text
import EventSheet.Proofs.Compilation.WellFormed
import Mathlib.Data.List.Nodup
namespace EventSheet

/-! # Compilation preserves meaning

The block program of a forest performs the calls the direct reading performs. Every
statement sees the flag or the counter bound right before it, whatever the blocks around
it have bound. -/

open BlockProgram

section

variable {σ : Type} (interpretation : Interpretation σ)

/-! ## Instructions -/

theorem BlockProgram.Operand.evaluate_negatedWhen (inverted : Bool) (operand : Operand) :
    (operand.negatedWhen inverted).evaluate interpretation = do
      let answer ← operand.evaluate interpretation
      return answer != inverted := by
  cases inverted with
  | false => simp only [negatedWhen, Bool.false_eq_true, ↓reduceIte, Bool.bne_false, bind_pure]
  | true => simp only [negatedWhen, ↓reduceIte, evaluate, Bool.bne_true]

mutual
theorem Instruction.evaluate_operand : ∀ (instruction : Instruction) {operand : Operand},
    instruction.operand? = some operand →
      operand.evaluate interpretation = instruction.perform interpretation
  | ⟨name, parameters, inverted, nested⟩, operand, isOperand => by
      rw [Instruction.operand?] at isOperand
      split at isOperand
      · cases isOperand
      · rw [Option.map_eq_some_iff] at isOperand
        rcases isOperand with ⟨operands, areOperands, isCall⟩
        rw [← isCall, Operand.evaluate, Instruction.perform,
          Instruction.evaluateAll_operands nested areOperands]

theorem Instruction.evaluateAll_operands : ∀ (instructions : List Instruction)
    {operands : List Operand}, Instruction.operands? instructions = some operands →
      Operand.evaluateAll interpretation operands =
        Instruction.evaluateAll interpretation instructions
  | [], operands, areOperands => by
      cases areOperands
      rfl
  | head :: tail, operands, areOperands => by
      rw [Instruction.operands?] at areOperands
      split at areOperands
      · next operand others isOperand areOthers =>
          cases areOperands
          rw [Operand.evaluateAll, Instruction.evaluateAll,
            Instruction.evaluateAll_operands tail areOthers,
            Operand.evaluate_negatedWhen, head.evaluate_operand isOperand]
          simp only [bind_assoc, pure_bind]
      · cases areOperands
end

mutual
theorem Instruction.isSome_operand? : ∀ instruction : Instruction,
    instruction.operand?.isSome = instruction.isCallable
  | ⟨name, parameters, inverted, nested⟩ => by
      have inside := Instruction.isSome_operands? nested
      rw [Instruction.operand?, Instruction.isCallable]
      cases Text.isBlankText name with
      | true => rfl
      | false =>
          rw [if_neg Bool.false_ne_true, Option.isSome_map, inside]
          rfl

theorem Instruction.isSome_operands? : ∀ instructions : List Instruction,
    (Instruction.operands? instructions).isSome = Instruction.allCallable instructions
  | [] => rfl
  | head :: tail => by
      rw [Instruction.operands?, Instruction.allCallable, ← head.isSome_operand?,
        ← Instruction.isSome_operands? tail]
      cases head.operand? with
      | none => rfl
      | some operand => cases Instruction.operands? tail <;> rfl
end

theorem Instruction.evaluate_condition (instruction : Instruction) :
    instruction.condition.evaluate interpretation = instruction.holds interpretation := by
  rw [condition, holds, ← instruction.isSome_operand?]
  cases called : instruction.operand? with
  | none => rfl
  | some operand =>
      simp only [Operand.evaluate_negatedWhen, instruction.evaluate_operand interpretation called,
        Option.isSome_some, ↓reduceIte]

theorem InstructionList.conjunction_operands (conditions : InstructionList) :
    conjunction interpretation (InstructionList.operands conditions) =
      InstructionList.hold interpretation conditions := by
  induction conditions with
  | nil => rfl
  | cons head tail induction =>
      rw [InstructionList.operands] at induction ⊢
      rw [List.map_cons, conjunction, hold, head.evaluate_condition, induction]

/-! ## Programs -/

/-- Wherever it stands, the program does what the action does. That no environment is
asked for makes programs compose: what the first one binds cannot disturb the second. -/
def Means (program : BlockProgram) (action : StateM (Machine σ) Unit) : Prop :=
  ∀ environment, (do let _ ← run interpretation program environment) = Execution.total action

variable {interpretation}

theorem Means.nil : Means interpretation [] (pure ()) := fun _ => rfl

theorem Means.append {first second : BlockProgram} {before after : StateM (Machine σ) Unit}
    (isFirst : Means interpretation first before) (isSecond : Means interpretation second after) :
    Means interpretation (first ++ second) (do before; after) := by
  intro environment
  rw [run_append, bind_assoc, Execution.total_bind, ← isFirst environment, bind_assoc]
  simp only [pure_bind]
  congr 1
  funext inner
  exact isSecond inner

theorem Means.block {body : BlockProgram} {action : StateM (Machine σ) Unit}
    (inside : Means interpretation body action) :
    Means interpretation [.block body] action := by
  intro environment
  rw [← inside environment]
  simp only [run, Statement.run, bind_assoc, pure_bind]

theorem Means.nested {program : BlockProgram} {action : StateM (Machine σ) Unit}
    (inside : Means interpretation program action) :
    Means interpretation program.nested action := by
  cases program with
  | nil => exact inside
  | cons head tail => exact inside.block

theorem Means.evaluate {operand : Operand} :
    Means interpretation [.evaluate operand] (do let _ ← operand.evaluate interpretation) := by
  intro environment
  rw [Execution.total_bind]
  simp only [run, Statement.run, bind_assoc, pure_bind, Execution.total_pure]

theorem Means.statements (actions : InstructionList) :
    Means interpretation (InstructionList.statements actions)
      (InstructionList.act interpretation actions) := by
  induction actions with
  | nil => exact Means.nil
  | cons head tail induction =>
      rw [InstructionList.statements] at induction ⊢
      rw [InstructionList.act, ← head.isSome_operand?]
      cases called : head.operand? with
      | none =>
          rw [List.filterMap_cons_none called]
          exact induction
      | some operand =>
          have first : Means interpretation [.evaluate operand]
              (do let _ ← head.perform interpretation) := by
            rw [← head.evaluate_operand interpretation called]
            exact Means.evaluate
          rw [List.filterMap_cons_some called]
          have both := first.append induction
          simp only [bind_assoc, pure_bind] at both
          exact both

/-- A block guarded by the flag bound right before it. -/
theorem Means.guarded {body : BlockProgram} {action : StateM (Machine σ) Unit}
    (inside : Means interpretation body action) (flag : String) (conditions : InstructionList) :
    Means interpretation
      [.bindFlag flag (InstructionList.operands conditions), .conditional flag body .done]
      (do if ← InstructionList.hold interpretation conditions then action) := by
  intro environment
  rw [Execution.total_bind, ← InstructionList.conjunction_operands]
  simp only [run, Statement.run, bind_assoc, pure_bind, Environment.flag?_bindFlag_self,
    Execution.known_some]
  congr 1
  funext holds
  cases holds with
  | true =>
      have inner := inside (environment.bindFlag flag true)
      simp only [↓reduceIte, bind_assoc, pure_bind]
      exact inner
  | false => rfl

theorem Means.loop {body : BlockProgram} {action : StateM (Machine σ) Unit}
    (inside : Means interpretation body action) (counter count : String) :
    Means interpretation [.bindCounter counter count, .loop counter body] (do
      let number ← interpretation.number count
      repeatTimes number action) := by
  intro environment
  rw [Execution.total_bind]
  simp only [run, Statement.run, bind_assoc, pure_bind, Environment.counter?_bindCounter_self,
    Execution.known_some]
  congr 1
  funext number
  rw [inside, Execution.total_repeatTimes]
  exact bind_pure_unit

theorem Means.standard {naming : Naming BlockProgram} {action : StateM (Machine σ) Unit}
    {names : Names}
    (inside : ∀ inner, Means interpretation (naming inner).1 action) (standard : Kind.Standard) :
    Means interpretation (standard.program naming names).1 (standard.read interpretation action) :=
  ((Means.statements standard.actions).append (inside _).nested).guarded _ standard.conditions

theorem Means.repetition {naming : Naming BlockProgram} {action : StateM (Machine σ) Unit}
    {names : Names} (repetition : Kind.Repetition)
    (inside : repetition.count.isEmpty = false →
      ∀ inner, Means interpretation (naming inner).1 action) :
    Means interpretation (repetition.program naming names).1
      (repetition.read interpretation action) := by
  rw [Kind.Repetition.program, Kind.Repetition.read]
  cases blank : repetition.count.isEmpty with
  | true => exact Means.nil
  | false => exact ((Means.standard (inside blank) _).loop _ _)

theorem Means.execute {program : BlockProgram} {action : StateM (Machine σ) Unit}
    (means : Means interpretation program action) (state : σ) :
    program.execute interpretation state = some (action { state }).2 := by
  have ends := congrFun (means []) { state }
  change ((run interpretation program [] { state }).bind fun result => some ((), result.2)) =
    some (action { state }) at ends
  rw [BlockProgram.execute]
  cases finished : run interpretation program [] { state } with
  | none =>
      rw [finished] at ends
      cases ends
  | some result =>
      rw [finished, Option.bind_some] at ends
      rw [Option.map_some, ← Option.some.inj ends]

/-! ## Branches -/

/-- Bind flags to their values, the first one first. -/
def bindAll : List (String × Bool) → Environment → Environment
  | [], environment => environment
  | (flag, holds) :: rest, environment => bindAll rest (environment.bindFlag flag holds)

theorem flag?_bindAll_of_not_mem {flag : String} {bound : List (String × Bool)}
    (other : flag ∉ bound.map Prod.fst) (environment : Environment) :
    (bindAll bound environment).flag? flag = environment.flag? flag := by
  induction bound generalizing environment with
  | nil => rfl
  | cons head tail induction =>
      rw [List.map_cons, List.mem_cons, not_or] at other
      rw [bindAll, induction other.2, Environment.flag?_bindFlag_of_ne other.1]

/-- Flags with different names do not hide each other. -/
theorem flag?_bindAll {flag : String} {holds : Bool} {bound : List (String × Bool)}
    (distinct : (bound.map Prod.fst).Nodup) (member : (flag, holds) ∈ bound)
    (environment : Environment) : (bindAll bound environment).flag? flag = some holds := by
  induction bound generalizing environment with
  | nil => cases member
  | cons head tail induction =>
      rw [List.map_cons, List.nodup_cons] at distinct
      rw [bindAll]
      cases member with
      | head => rw [flag?_bindAll_of_not_mem distinct.1, Environment.flag?_bindFlag_self]
      | tail _ later => exact induction distinct.2 later _

open Kind.Branch

theorem nodup_flags (arms : List Kind.BranchArm) (names : Names) :
    ((nameArms arms names).1.map Prod.snd).Nodup := by
  rw [map_snd_nameArms]
  exact List.Nodup.map (SharedScope.numbered_injective "condition") List.nodup_range'

theorem run_bindArms (named : List (Kind.BranchArm × String)) (environment : Environment) :
    run interpretation (named.map bindArm) environment = do
      let results ← Execution.total (holdArms interpretation (named.map Prod.fst))
      return bindAll ((named.map Prod.snd).zip results) environment := by
  induction named generalizing environment with
  | nil => rfl
  | cons first rest induction =>
      rcases first with ⟨arm, flag⟩
      simp only [List.map_cons, bindArm, run, Statement.run, bind_assoc, pure_bind,
        InstructionList.conjunction_operands, holdArms, Execution.total_bind, induction,
        Execution.total_pure, List.zip_cons_cons, bindAll]

theorem length_holdArms (arms : List Kind.BranchArm) (machine : Machine σ) :
    (holdArms interpretation arms machine).1.length = arms.length := by
  induction arms generalizing machine with
  | nil => rfl
  | cons head tail induction =>
      exact congrArg (· + 1) (induction _)

theorem run_alternative {otherwise : InstructionList} {named : List (Kind.BranchArm × String)}
    {results : List Bool} {environment : Environment} (complete : results.length = named.length)
    (bound : ∀ flag holds, (flag, holds) ∈ (named.map Prod.snd).zip results →
      environment.flag? flag = some holds) :
    (alternative otherwise named).run interpretation environment =
      Execution.total (InstructionList.act interpretation
        (chosen ⟨named.map Prod.fst, otherwise⟩ results)) := by
  -- along the arms and their results together: the first that holds ends both searches
  induction named generalizing results with
  | nil =>
      rw [alternative]
      cases otherwise with
      | nil => rfl
      | cons head tail => exact Means.statements (head :: tail) environment
  | cons first rest induction =>
      rcases first with ⟨arm, flag⟩
      cases results with
      | nil => cases complete
      | cons holds others =>
          have own : environment.flag? flag = some holds := by
            apply bound
            exact List.mem_cons_self
          rw [alternative, Alternative.run, own, Execution.known_some, pure_bind]
          cases holds with
          | true => exact Means.statements arm.actions environment
          | false =>
              apply induction (Nat.succ.inj complete)
              intro other otherHolds later
              apply bound
              exact List.mem_cons_of_mem _ later

theorem run_conditional (flag : String) (body : BlockProgram) (rest : Alternative)
    (environment : Environment) :
    run interpretation [.conditional flag body rest] environment = do
      (Alternative.elseIf flag body rest).run interpretation environment
      return environment := by
  simp only [run, Statement.run, Alternative.run, bind_assoc]
  congr 1
  funext holds
  cases holds with
  | true => simp only [↓reduceIte, bind_assoc, pure_bind]
  | false => simp only [Bool.false_eq_true, ↓reduceIte, bind_assoc, pure_bind]

/-- All flags are bound before the first one is looked at. -/
theorem run_assemble (otherwise : InstructionList) (named : List (Kind.BranchArm × String))
    (environment : Environment) :
    (do let _ ← run interpretation (assemble otherwise named) environment) = (do
      let results ← Execution.total (holdArms interpretation (named.map Prod.fst))
      (alternative otherwise named).run interpretation
        (bindAll ((named.map Prod.snd).zip results) environment)) := by
  cases named with
  | nil =>
      cases otherwise with
      | nil => rfl
      | cons head tail =>
          have acts : Means interpretation _ _ := Means.statements (head :: tail)
          exact (acts.block environment).trans (acts environment).symm
  | cons first rest =>
      rcases first with ⟨arm, flag⟩
      rw [assemble, ← List.map_cons, run_append, run_bindArms]
      simp only [run_conditional, bind_assoc, pure_bind]
      congr 1
      funext results
      exact bind_pure_unit

theorem Means.assemble {named : List (Kind.BranchArm × String)} (otherwise : InstructionList)
    (distinct : (named.map Prod.snd).Nodup) :
    Means interpretation (assemble otherwise named)
      (Kind.Branch.read interpretation ⟨named.map Prod.fst, otherwise⟩) := by
  intro environment
  rw [run_assemble, Kind.Branch.read, Execution.total_bind]
  funext machine
  -- the results are as many as the arms only once the conditions were evaluated
  let results := (holdArms interpretation (named.map Prod.fst) machine).1
  have complete : results.length = named.length := by
    rw [length_holdArms, List.length_map]
  have flags : ((named.map Prod.snd).zip results).map Prod.fst = named.map Prod.snd := by
    apply List.map_fst_zip
    rw [List.length_map]
    exact Nat.le_of_eq complete.symm
  have bound : ∀ flag holds, (flag, holds) ∈ (named.map Prod.snd).zip results →
      (bindAll ((named.map Prod.snd).zip results) environment).flag? flag = some holds := by
    intro flag holds member
    apply flag?_bindAll _ member
    rw [flags]
    exact distinct
  exact congrFun (run_alternative complete bound) _

theorem Means.branch (branch : Kind.Branch) (names : Names) :
    Means interpretation (branch.program names).1 (branch.read interpretation) := by
  have assembled : Means interpretation _ _ :=
    Means.assemble branch.otherwise (nodup_flags branch.arms names)
  rw [map_fst_nameArms] at assembled
  exact assembled

/-! ## Forests -/

theorem BlockProgram.withHooks_off (node : NodeId) (program : BlockProgram) :
    program.withHooks false node = program := by
  cases program <;> rfl

end

/-! Nothing of a forest is cut off when all of its blocks are within the limit. The body of
a repetition is a block of its own, around the block of its sub-events. -/

mutual
def Node.WithinNesting (limit depth : Nat) : Node Kind.Builtin → Prop
  | ⟨event, subEvents⟩ =>
      if event.disabled then True
      else match event.behavior with
        | .standard _ => Forest.WithinNesting limit (depth + 1) subEvents
        | .repetition repetition =>
            repetition.count.isEmpty = false → Forest.WithinNesting limit (depth + 2) subEvents
        | .branch _ | .comment _ | .link _ => True

/-- Every event that is compiled stands in a block at most `limit` deep. -/
def Forest.WithinNesting (limit depth : Nat) : List (Node Kind.Builtin) → Prop
  | [] => True
  | head :: tail =>
      depth ≤ limit ∧ head.WithinNesting limit depth ∧ Forest.WithinNesting limit depth tail
end

mutual
theorem Node.withinNesting_of_walk {limit : Nat} : ∀ (node : Node Kind.Builtin)
    (level depth : Nat), depth ≤ 2 * level →
      (∀ visit ∈ node.walk level, 2 * visit.2 ≤ limit) → node.WithinNesting limit depth
  | ⟨⟨id, behavior, disabled, folded, remembered⟩, subEvents⟩, level, depth, near, shallow => by
      rw [Node.walk, List.forall_mem_cons] at shallow
      rw [Node.WithinNesting]
      cases disabled with
      | true => trivial
      | false =>
          cases behavior with
          | standard standard =>
              exact Forest.withinNesting_of_walk subEvents (level + 1) (depth + 1)
                (by omega) shallow.2
          | repetition repetition =>
              exact fun _ => Forest.withinNesting_of_walk subEvents (level + 1) (depth + 2)
                (by omega) shallow.2
          | branch branch => trivial
          | comment comment => trivial
          | link link => trivial

/-- Two blocks for every level are always enough. -/
theorem Forest.withinNesting_of_walk {limit : Nat} : ∀ (forest : List (Node Kind.Builtin))
    (level depth : Nat), depth ≤ 2 * level →
      (∀ visit ∈ Forest.walkFrom level forest, 2 * visit.2 ≤ limit) →
      Forest.WithinNesting limit depth forest
  | [], _, _, _, _ => trivial
  | head :: tail, level, depth, near, shallow => by
      rw [Forest.walkFrom, List.forall_mem_append] at shallow
      have own : 2 * level ≤ limit := by
        rcases head with ⟨event, subEvents⟩
        exact shallow.1 _ List.mem_cons_self
      exact ⟨Nat.le_trans near own, Node.withinNesting_of_walk head level depth near shallow.1,
        Forest.withinNesting_of_walk tail level depth near shallow.2⟩
end

section

variable {settings : Settings} {population : Population}

theorem Forest.within_programs {limit depth : Nat} {forest : Forest Kind.Builtin}
    (within : Forest.WithinNesting limit depth forest) :
    Naming.within limit depth (Forest.programs settings population depth forest) =
      Forest.programs settings population depth forest := by
  rw [Naming.within]
  cases forest with
  | nil => rw [Forest.programs, ite_self]
  | cons head tail => rw [if_neg (Nat.not_lt_of_le within.1)]

variable {σ : Type} {interpretation : Interpretation σ}

mutual
/-- The statements of a node do what the node does. -/
theorem Node.means (hooksOff : settings.profiling.emitHooks = false) :
    ∀ (node : Node Kind.Builtin) (depth : Nat) (names : Names),
      node.WithinNesting settings.limits.maxNestingDepth.toNat depth →
      Means interpretation (node.program settings population depth names).1
        (node.read interpretation)
  | ⟨⟨id, behavior, disabled, folded, remembered⟩, subEvents⟩, depth, names, within => by
      rw [Node.program, Node.read]
      rw [Node.WithinNesting] at within
      cases disabled with
      | true => exact Means.nil
      | false =>
          cases behavior with
          | standard standard =>
              have inside : Forest.WithinNesting _ (depth + 1) subEvents := within
              apply Means.standard
              intro inner
              rw [Forest.within_programs inside]
              exact Forest.means hooksOff subEvents (depth + 1) inner inside
          | branch branch => exact Means.branch branch names
          | repetition repetition =>
              apply Means.repetition
              intro counted inner
              have inside : Forest.WithinNesting _ (depth + 2) subEvents := within counted
              rw [Forest.within_programs inside]
              exact Forest.means hooksOff subEvents (depth + 2) inner inside
          | comment comment => exact Means.nil
          | link link => exact Means.nil

theorem Forest.means (hooksOff : settings.profiling.emitHooks = false) :
    ∀ (forest : List (Node Kind.Builtin)) (depth : Nat) (names : Names),
      Forest.WithinNesting settings.limits.maxNestingDepth.toNat depth forest →
      Means interpretation (Forest.programs settings population depth forest names).1
        (Forest.read interpretation forest)
  | [], _, _, _ => Means.nil
  | head :: tail, depth, names, within => by
      rcases within with ⟨_, headWithin, tailWithin⟩
      have first := Node.means hooksOff head depth names headWithin
      have rest := Forest.means hooksOff tail depth
        (head.program settings population depth names).2 tailWithin
      rw [Forest.programs, Forest.read, hooksOff]
      have both := first.append rest
      rw [← BlockProgram.withHooks_off (head.event.sourceId population)
        (head.program settings population depth names).1] at both
      exact both
end

end

/-- Where the direct reading of a forest ends. -/
def Forest.readFrom {σ : Type} (interpretation : Interpretation σ)
    (forest : Forest Kind.Builtin) (state : σ) : Machine σ :=
  (Forest.read interpretation forest { state }).2

open Codegen in
/-- The generated function is the text of a block program that is never stuck, performs the
calls of the direct reading in the same order and ends in the same state. -/
theorem Forest.generate_preserves_meaning (settings : Settings) (population : Population)
    (forest : Forest Kind.Builtin) (generator : ProgramState)
    (hooksOff : settings.profiling.emitHooks = false)
    (within : Forest.WithinNesting settings.limits.maxNestingDepth.toNat 0 forest) :
    ∃ program : BlockProgram,
      (Forest.generate (Program.generator settings population) forest { generator }).1 =
        BlockProgram.print program ∧
      (Program.generate settings population forest generator).1 =
        Text.layoutBlocks (Program.frame settings.output (BlockProgram.print program))
          settings.indentUnit ∧
      (Forest.IsPlain forest → BlockProgram.WellFormed program) ∧
      ∀ (σ : Type) (interpretation : Interpretation σ) (state : σ),
        BlockProgram.execute interpretation program state =
          some (forest.readFrom interpretation state) := by
  have body := Forest.generate_eq_print settings population forest generator
  refine ⟨Forest.program settings population forest, body, ?_, ?_, ?_⟩
  · rw [← body]
    rfl
  · intro plain
    exact plain.wellFormed_program
  · intro σ interpretation state
    rw [Forest.program, Forest.within_programs within]
    exact (Forest.means hooksOff forest 0 {} within).execute state

/-- At night the lamp blinks three times. -/
def blinkingLamp : Forest Kind.Builtin :=
  [{ event := { id := 1, behavior := .standard { conditions := [{ name := "isNight" }] } }
     subEvents :=
       [{ event :=
            { id := 2
              behavior := .repetition
                { count := ⟨"3"⟩
                  actions := [{ name := "blink", parameters := [⟨"lamp"⟩] }] } } }] }]

open Codegen in
theorem blinkingLamp_preserved :
    ∃ program : BlockProgram,
      (Program.generate {} {} blinkingLamp {}).1 =
        Text.layoutBlocks (Program.frame {} (BlockProgram.print program)) "    " ∧
      ∀ (σ : Type) (interpretation : Interpretation σ) (state : σ),
        BlockProgram.execute interpretation program state =
          some (blinkingLamp.readFrom interpretation state) := by
  have within : Forest.WithinNesting (4096 : UInt64).toNat 0 blinkingLamp := by
    apply Forest.withinNesting_of_walk blinkingLamp 0 0 (Nat.zero_le _)
    simp [blinkingLamp, Forest.walkFrom, Node.walk]
  rcases Forest.generate_preserves_meaning {} {} blinkingLamp {} rfl within with
    ⟨program, _, source, _, means⟩
  exact ⟨program, source, means⟩

end EventSheet
