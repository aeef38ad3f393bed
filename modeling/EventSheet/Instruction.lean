import EventSheet.Text.Blank
namespace EventSheet

/-! Instructions: the conditions and actions that events carry. The event tree
never interprets them; only a code generator turns them into text. -/

/-- A parameter, kept as the text the user typed. -/
structure Expression where
  text : String
deriving DecidableEq

namespace Expression

/-- Nothing but blanks was typed. -/
def isEmpty (expression : Expression) : Bool :=
  Text.isBlankText expression.text

/-- What was typed, without the blanks around it. -/
def trimmed (expression : Expression) : String :=
  Text.trim expression.text

end Expression

/-- A single condition or action. Inversion negates a condition and means
nothing for an action. -/
structure Instruction where
  name : String
  parameters : List Expression := []
  inverted : Bool := false
  subInstructions : List Instruction := []

abbrev InstructionList := List Instruction

namespace Instruction

def withParameter (instruction : Instruction) (parameter : Expression) : Instruction :=
  { instruction with parameters := instruction.parameters ++ [parameter] }

def withSubInstruction (instruction nested : Instruction) : Instruction :=
  { instruction with subInstructions := instruction.subInstructions ++ [nested] }

def invert (instruction : Instruction) : Instruction :=
  { instruction with inverted := !instruction.inverted }

/-- A name of blanks cannot be called. -/
def isNameless (instruction : Instruction) : Bool :=
  Text.isBlankText instruction.name

/-- The short form shown to the user, without nested instructions. -/
def label (instruction : Instruction) : String :=
  (if instruction.inverted then "not " else "") ++ instruction.name ++ "(" ++
    ", ".intercalate (instruction.parameters.map Expression.text) ++ ")"

end Instruction

/-! Every expression of an instruction in declaration order: its own parameters,
then those of its nested instructions one after the other. -/

mutual
def Instruction.expressions : Instruction → List Expression
  | ⟨_, parameters, _, nested⟩ => parameters ++ Instruction.expressionsOfAll nested

def Instruction.expressionsOfAll : List Instruction → List Expression
  | [] => []
  | head :: tail => head.expressions ++ Instruction.expressionsOfAll tail
end

/-! Equality of instructions is decided member by member. -/

mutual
def Instruction.same : Instruction → Instruction → Bool
  | ⟨name, parameters, inverted, nested⟩, ⟨name', parameters', inverted', nested'⟩ =>
      decide (name = name') && decide (parameters = parameters') &&
        decide (inverted = inverted') && Instruction.sameAll nested nested'

def Instruction.sameAll : List Instruction → List Instruction → Bool
  | [], [] => true
  | head :: tail, head' :: tail' => head.same head' && Instruction.sameAll tail tail'
  | _, _ => false
end

mutual
theorem Instruction.same_iff :
    (left right : Instruction) → (left.same right = true ↔ left = right)
  | ⟨name, parameters, inverted, nested⟩, ⟨name', parameters', inverted', nested'⟩ => by
      simp [Instruction.same, Instruction.sameAll_iff nested nested', and_assoc]

theorem Instruction.sameAll_iff :
    (left right : List Instruction) → (Instruction.sameAll left right = true ↔ left = right)
  | [], [] => by simp [Instruction.sameAll]
  | [], _ :: _ => by simp [Instruction.sameAll]
  | _ :: _, [] => by simp [Instruction.sameAll]
  | head :: tail, head' :: tail' => by
      simp [Instruction.sameAll, Instruction.same_iff head head',
        Instruction.sameAll_iff tail tail']
end

instance : DecidableEq Instruction := fun left right =>
  decidable_of_iff _ (Instruction.same_iff left right)

end EventSheet
