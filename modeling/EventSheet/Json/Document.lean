import EventSheet.Json.Value
import EventSheet.Number.Scaled
namespace EventSheet.Json

/-! What a JSON text says before anybody asks for a value of some type. The
structure is checked, while a number out of range or a string with half of a
surrogate pair is only marked: such a piece spoils the text when it is used and
does no harm where it is ignored. Members keep their order and their
repetitions. -/

inductive Document where
  | null
  | bool (value : Bool)
  | number (value : Option Number)
  | string (text : Option String)
  | array (items : List Document)
  | object (members : List (Option String × Document))

/-! ## Numbers -/

/-- The number a literal stands for. An integer that fits in 64 bits stays an
integer, except that minus zero is a double; any other literal is a double. -/
def Number.ofLiteral (literal : Number.Literal) : Option Number :=
  let magnitude := Number.natOfDigits literal.whole
  if literal.integral && !literal.negative && magnitude < UInt64.size then
    some (.natural magnitude)
  else if literal.integral && literal.negative && 0 < magnitude && magnitude ≤ UInt64.size / 2 then
    some (.negative magnitude)
  else literal.double?.map fun value => .double value.toBits

/-! ## Values and documents -/

mutual
/-- Every value is a document without marks. -/
def toDocument : Json → Document
  | .null => .null
  | .bool value => .bool value
  | .number value => .number (some value)
  | .string text => .string (some text)
  | .array items => .array (itemDocuments items)
  | .object members => .object (memberDocuments members)

def itemDocuments : List Json → List Document
  | [] => []
  | head :: tail => toDocument head :: itemDocuments tail

def memberDocuments : List (String × Json) → List (Option String × Document)
  | [] => []
  | (name, value) :: tail => (some name, toDocument value) :: memberDocuments tail
end

mutual
/-- How many containers are nested in one another. -/
def Document.depth : Document → Nat
  | .array items => Document.itemsDepth items + 1
  | .object members => Document.membersDepth members + 1
  | _ => 0

def Document.itemsDepth : List Document → Nat
  | [] => 0
  | head :: tail => max head.depth (Document.itemsDepth tail)

def Document.membersDepth : List (Option String × Document) → Nat
  | [] => 0
  | (_, value) :: tail => max value.depth (Document.membersDepth tail)
end

end EventSheet.Json
