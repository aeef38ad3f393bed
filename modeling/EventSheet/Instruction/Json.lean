import EventSheet.Instruction
import EventSheet.Json.Decoder
namespace EventSheet

/-! Instructions as JSON. An expression is its text. An instruction leaves out
empty lists and an inversion that does not hold. -/

namespace Expression

def toJson (expression : Expression) : Json := .string expression.text

def decode : Json.Decoder Expression := fun levels document =>
  (Json.Decoder.string levels document).map Expression.mk

end Expression

mutual
def Instruction.toJson : Instruction → Json
  | ⟨name, parameters, inverted, nested⟩ =>
      .object
        ([("name", .string name)] ++
          (if parameters.isEmpty then []
            else [("parameters", .array (parameters.map Expression.toJson))]) ++
          (if inverted then [("inverted", .bool true)] else []) ++
          (if nested.isEmpty then []
            else [("sub_instructions", .array (Instruction.listItems nested))]))

def Instruction.listItems : List Instruction → List Json
  | [] => []
  | head :: tail => head.toJson :: Instruction.listItems tail
end

/-- A list of instructions as JSON. -/
def InstructionList.toJson (list : InstructionList) : Json :=
  .array (Instruction.listItems list)

namespace Instruction

def fieldNames : List String := ["name", "parameters", "inverted", "sub_instructions"]

open Json.Decoder

/-- The items of an array; nothing else holds nested instructions. -/
def nestedItems (item : Json.Document → Option Instruction) :
    Json.Document → Option (List Instruction)
  | .array items => items.mapM item
  | _ => none

/-- An instruction from what its record holds for the fields; `nested` reads the list of nested
instructions. -/
def ofEntries (nested : Json.Document → Option (List Instruction)) (levels : Nat) :
    List Entry → Option Instruction
  | [name, parameters, inverted, subInstructions] => do
      let name ← required string levels name
      let parameters ← withDefault [] (list Expression.decode) levels parameters
      let inverted ← withDefault false bool levels inverted
      let subInstructions ← withDefault [] (fun _ => nested) levels subInstructions
      return ⟨name, parameters, inverted, subInstructions⟩
  | _ => none

/-- An instruction at a nesting of at most `levels`. The instruction itself is
one container and its list of nested instructions another. -/
def decode : Json.Decoder Instruction
  | 0, _ => none
  | 1, document => (fields? fieldNames document).bind (ofEntries (fun _ => none) 0)
  | inner + 2, document =>
      (fields? fieldNames document).bind (ofEntries (nestedItems (decode inner)) (inner + 1))

end Instruction

def InstructionList.decode : Json.Decoder InstructionList :=
  Json.Decoder.list Instruction.decode

end EventSheet
