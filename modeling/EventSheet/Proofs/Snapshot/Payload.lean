import EventSheet.Proofs.Json.Decoding
import EventSheet.Registry
namespace EventSheet

/-! # Payloads

A payload is the record of an event's state with its members sorted. Reading it gives the
state back, however deeply instructions are nested in one another and whatever fields were
left out for having their default. -/

open Json (Distinct sorted sortedItems sortedItems_eq_map)
open Json.Decoder

/-! ## Instructions -/

namespace Instruction

/-- The members of an instruction; those with their default are left out. -/
def members : Instruction → List (String × Json)
  | ⟨name, parameters, inverted, nested⟩ =>
      [("name", .string name)] ++
        (if parameters.isEmpty then []
          else [("parameters", .array (parameters.map Expression.toJson))]) ++
        (if inverted then [("inverted", .bool true)] else []) ++
        (if nested.isEmpty then []
          else [("sub_instructions", .array (listItems nested))])

theorem toJson_eq (instruction : Instruction) :
    instruction.toJson = .object instruction.members := by
  cases instruction
  rw [toJson, members]

theorem distinct_members (instruction : Instruction) : Distinct instruction.members := by
  rcases instruction with ⟨name, parameters, inverted, nested⟩
  rw [members, Distinct]
  cases parameters.isEmpty <;> cases inverted <;> cases nested.isEmpty <;> simp

theorem lookup_members (instruction : Instruction) :
    (fieldNames.map fun name => (instruction.members.lookup name).map sorted) =
      [some (.string instruction.name),
       if instruction.parameters.isEmpty then none
         else some (.array (sortedItems (instruction.parameters.map Expression.toJson))),
       if !instruction.inverted then none else some (.bool instruction.inverted),
       if instruction.subInstructions.isEmpty then none
         else some (.array (sortedItems (listItems instruction.subInstructions)))] := by
  rcases instruction with ⟨name, parameters, inverted, nested⟩
  rw [members]
  dsimp only
  cases parameters.isEmpty <;> cases inverted <;> cases nested.isEmpty <;> rfl

theorem decode_eq_record :
    decode = record fieldNames fun levels => ofEntries (list decode levels) levels := by
  funext levels document
  match levels with
  | 0 => rfl
  | 1 => rfl
  | inner + 2 =>
      have entered : nestedItems (decode inner) = list decode (inner + 1) := by
        funext nested
        cases nested <;> rfl
      rw [decode, record, entered]

end Instruction

theorem Expression.reads (expression : Expression) :
    Reads Expression.decode expression.toJson.sorted expression := fun _ _ => rfl

theorem Expression.reads_list (expressions : List Expression) :
    Reads (list Expression.decode) (.array (sortedItems (expressions.map Expression.toJson)))
      expressions := by
  apply Reads.list
  rw [sortedItems_eq_map, List.map_map, List.forall₂_map_left_iff, List.forall₂_same]
  exact fun expression _ => expression.reads

mutual
theorem Instruction.reads : ∀ instruction : Instruction,
    Reads Instruction.decode instruction.toJson.sorted instruction
  | ⟨name, parameters, inverted, nested⟩ => by
      have inner := Reads.list (Instruction.reads_each nested)
      rw [Instruction.decode_eq_record, Instruction.toJson_eq]
      apply reads_sorted_record (Instruction.distinct_members _) (Instruction.lookup_members _)
      intro levels within
      have nameRead := (reads_string name).required (within _ (by simp))
      have parametersRead := (Expression.reads_list parameters).optional parameters.isEmpty
        List.isEmpty_iff.mp fun given => within _ (by simp [given])
      have notInverted : (!inverted) = true → inverted = false := Bool.not_eq_eq_eq_not.mp
      have invertedRead := (reads_bool inverted).optional (!inverted)
        notInverted fun given => within _ (by simp [given])
      -- the decoder of the nested instructions stands behind a lambda in `ofEntries`
      have nestedRead : withDefault [] (fun _ => list Instruction.decode levels) levels
          (Entry.ofOption (if nested.isEmpty then none
            else some (.array (sortedItems (Instruction.listItems nested))))) = some nested :=
        inner.optional nested.isEmpty List.isEmpty_iff.mp fun given => within _ (by simp [given])
      simp only [List.map_cons, List.map_nil, Instruction.ofEntries]
      rw [nameRead, parametersRead, invertedRead]
      simp only [Option.bind_eq_bind, Option.bind_some]
      rw [nestedRead]
      rfl

theorem Instruction.reads_each : ∀ instructions : List Instruction,
    List.Forall₂ (Reads Instruction.decode) (sortedItems (Instruction.listItems instructions))
      instructions
  | [] => .nil
  | head :: tail => .cons head.reads (Instruction.reads_each tail)
end

theorem InstructionList.reads (list : InstructionList) :
    Reads InstructionList.decode list.toJson.sorted list :=
  Reads.list (Instruction.reads_each list)

theorem InstructionList.read_field (list : InstructionList) {levels : Nat}
    (within : list.toJson.sorted.nesting ≤ levels) :
    withDefault [] InstructionList.decode levels (Entry.ofOption (some list.toJson.sorted)) =
      some list :=
  list.reads.withDefault within []

/-! ## The kinds -/

namespace Kind

theorem distinct_listFields (conditions actions : InstructionList) :
    Distinct (listFields conditions actions) :=
  (by decide : ["conditions", "actions"].Nodup)

theorem lookup_listFields (conditions actions : InstructionList) :
    (["conditions", "actions"].map fun name =>
      ((listFields conditions actions).lookup name).map sorted) =
      [some conditions.toJson.sorted, some actions.toJson.sorted] := rfl

theorem reads_listFields {α : Type} (build : InstructionList → InstructionList → α)
    (conditions actions : InstructionList) :
    Reads
      (record ["conditions", "actions"] fun levels entries => do
        match entries with
        | [conditions, actions] =>
            let conditions ← withDefault [] InstructionList.decode levels conditions
            let actions ← withDefault [] InstructionList.decode levels actions
            return build conditions actions
        | _ => none)
      (Json.object (listFields conditions actions)).sorted (build conditions actions) := by
  apply reads_sorted_record (distinct_listFields _ _) (lookup_listFields _ _)
  intro levels within
  have conditionsRead := conditions.read_field (within _ (by simp))
  have actionsRead := actions.read_field (within _ (by simp))
  simp only [List.map_cons, List.map_nil]
  rw [conditionsRead, actionsRead]
  rfl

theorem Standard.reads (standard : Standard) :
    Reads Standard.decode standard.toJson.sorted standard :=
  reads_listFields Standard.mk standard.conditions standard.actions

theorem Comment.reads (comment : Comment) :
    Reads Comment.decode comment.toJson.sorted comment := by
  have distinct : Distinct [("text", Json.string comment.text)] := (by decide : ["text"].Nodup)
  apply reads_sorted_record distinct rfl
  intro levels _
  rfl

theorem BranchArm.reads (arm : BranchArm) :
    Reads BranchArm.decode arm.toJson.sorted arm :=
  reads_listFields BranchArm.mk arm.conditions arm.actions

theorem BranchArm.reads_list (arms : List BranchArm) :
    Reads (list BranchArm.decode) (.array (sortedItems (arms.map BranchArm.toJson))) arms := by
  apply Reads.list
  rw [sortedItems_eq_map, List.map_map, List.forall₂_map_left_iff, List.forall₂_same]
  exact fun arm _ => arm.reads

theorem Branch.reads (branch : Branch) :
    Reads Branch.decode branch.toJson.sorted branch := by
  have distinct : Distinct [("arms", Json.array (branch.arms.map BranchArm.toJson)),
      ("otherwise", branch.otherwise.toJson)] := (by decide : ["arms", "otherwise"].Nodup)
  have found : (["arms", "otherwise"].map fun name =>
      ([("arms", Json.array (branch.arms.map BranchArm.toJson)),
        ("otherwise", branch.otherwise.toJson)].lookup name).map sorted) =
      [some (.array (sortedItems (branch.arms.map BranchArm.toJson))),
        some branch.otherwise.toJson.sorted] := rfl
  apply reads_sorted_record distinct found
  intro levels within
  have armsRead := (BranchArm.reads_list branch.arms).withDefault (within _ (by simp)) []
  have otherwiseRead := branch.otherwise.read_field (within _ (by simp))
  simp only [List.map_cons, List.map_nil]
  rw [armsRead, otherwiseRead]
  rfl

theorem Repetition.reads (repetition : Repetition) :
    Reads Repetition.decode repetition.toJson.sorted repetition := by
  have distinct : Distinct (("count", repetition.count.toJson) ::
      listFields repetition.conditions repetition.actions) :=
    (by decide : ["count", "conditions", "actions"].Nodup)
  have found : (["count", "conditions", "actions"].map fun name =>
      ((("count", repetition.count.toJson) ::
        listFields repetition.conditions repetition.actions).lookup name).map sorted) =
      [some repetition.count.toJson.sorted, some repetition.conditions.toJson.sorted,
        some repetition.actions.toJson.sorted] := rfl
  apply reads_sorted_record distinct found
  intro levels within
  have countRead := repetition.count.reads.withDefault (within _ (by simp)) ⟨""⟩
  have conditionsRead := repetition.conditions.read_field (within _ (by simp))
  have actionsRead := repetition.actions.read_field (within _ (by simp))
  simp only [List.map_cons, List.map_nil]
  rw [countRead, conditionsRead, actionsRead]
  rfl

theorem Link.reads (link : Link) : Reads Link.decode link.toJson.sorted link := by
  have distinct : Distinct [("target", Json.string link.target)] :=
    (by decide : ["target"].Nodup)
  apply reads_sorted_record distinct rfl
  intro levels _
  rfl

end Kind

/-! ## The registry of the built-in kinds -/

theorem Registry.create_of_reads {β State : Type} [EventKind β] {registry : Registry β}
    {kind stateName : String} {decoder : Json.Decoder State} {build : State → β} {json : Json}
    {state : State} (reads : Reads decoder json state) (given : json.isNull = false)
    (registered : registry.factory? kind = some (payloadFactory stateName decoder build))
    (ofKind : EventKind.kind (build state) = kind) :
    registry.create kind json = .ok (build state) := by
  rw [create, registered]
  simp only [payloadFactory, given, Bool.false_eq_true, ↓reduceIte, reads.ofValue?, ofKind]

/-- The registry of the built-in kinds builds every event from its own payload. -/
theorem Registry.builtin_create (builtin : Kind.Builtin) :
    (Registry.builtin id).create (EventKind.kind builtin) (EventKind.payload builtin) =
      .ok builtin := by
  cases builtin with
  | standard standard => exact create_of_reads standard.reads rfl rfl rfl
  | comment comment => exact create_of_reads comment.reads rfl rfl rfl
  | branch branch => exact create_of_reads branch.reads rfl rfl rfl
  | repetition repetition => exact create_of_reads repetition.reads rfl rfl rfl
  | link link => exact create_of_reads link.reads rfl rfl rfl

end EventSheet
