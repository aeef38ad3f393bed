import EventSheet.Codegen.Call
import EventSheet.Codegen.Generator
import EventSheet.Node.Walk
import EventSheet.Settings
namespace EventSheet.Codegen

/-! The program generator. Every condition list becomes a `let` of a flag, every
action a statement, and a whole forest the body of one function under a header
comment. Fragments are produced flat; the program is laid out once at the
end. Problems are collected with the event being compiled, and the offending
piece is left out. -/

/-- What the program generator keeps while it runs. -/
structure ProgramState where
  diagnostics : List Diagnostic := []
  /-- The event whose code is being generated. -/
  current : Option NodeId := none
deriving DecidableEq

namespace ProgramState

def report (diagnostic : Diagnostic) (state : ProgramState) : ProgramState :=
  { state with diagnostics := state.diagnostics ++ [diagnostic.attributedTo state.current] }

def reportAll (diagnostics : List Diagnostic) (state : ProgramState) : ProgramState :=
  diagnostics.foldl (fun state diagnostic => state.report diagnostic) state

end ProgramState

namespace Program

variable {β : Type}

def reportAll (diagnostics : List Diagnostic) : Emit ProgramState Unit :=
  Emit.onGenerator (ProgramState.reportAll diagnostics)

/-- The operand of a condition; one that cannot be called never holds. -/
def operand (rendered : Rendered String) : String := rendered.result.getD "false"

/-- The expression a flag is bound to; an empty list always holds. -/
def flagExpression (conditions : List (Rendered String)) : String :=
  if conditions.isEmpty then "true" else " && ".intercalate (conditions.map operand)

def bindFlag (flag expression : String) : String :=
  "let " ++ flag ++ " = " ++ expression ++ ";\n"

def compileConditions (conditions : InstructionList) : Emit ProgramState CompiledConditions := do
  let flag ← Emit.uniqueName "condition"
  let _ ← Emit.declare flag
  let rendered := conditions.map renderCondition
  reportAll (rendered.flatMap Rendered.reports)
  return { code := bindFlag flag (flagExpression rendered), flag }

def statement (call : String) : String := call ++ ";\n"

def compileActions (actions : InstructionList) : Emit ProgramState String := do
  let rendered := actions.map renderCall
  reportAll (rendered.flatMap Rendered.reports)
  return String.join ((rendered.filterMap Rendered.result).map statement)

def nestedTooDeeply (count limit : Nat) : Diagnostic :=
  { severity := .error
    message := Nat.repr count ++ " events nested deeper than " ++ Nat.repr limit ++
      " levels were not compiled" }

def hook (name : String) (node : NodeId) : String :=
  name ++ "(" ++ Nat.repr node ++ ");\n"

/-- The profiler calls around the code of an event, if they are asked for. -/
def withHooks (emitHooks : Bool) (node : NodeId) (code : String) : String :=
  if emitHooks then hook "profiler_begin" node ++ code ++ hook "profiler_end" node else code

/-- Run `action` while `node` is the event being compiled. -/
def whileCompiling (node : NodeId) (action : Emit ProgramState String) :
    Emit ProgramState String := do
  let parent := (← get).generator.current
  Emit.onGenerator fun state => { state with current := some node }
  let code ← action
  Emit.onGenerator fun state => { state with current := parent }
  return code

/-- Compile the nodes in order. Events that produce no code leave no trace. -/
def compileNodes (emitHooks : Bool) (population : Population) :
    List (Node β × Emit ProgramState String) → Emit ProgramState String
  | [] => return ""
  | (node, generate) :: rest => do
      let id := node.event.sourceId population
      let code ← whileCompiling id generate
      let tail ← compileNodes emitHooks population rest
      return (if code.isEmpty then "" else withHooks emitHooks id code) ++ tail

/-- Compile a forest, unless its scope is nested too deeply. -/
def compileForest (settings : Settings) (population : Population)
    (nodes : List (Node β × Emit ProgramState String)) : Emit ProgramState String := do
  let limit := settings.limits.maxNestingDepth.toNat
  if limit < (← get).scope.depth then
    reportAll [nestedTooDeeply (Forest.countNodes (nodes.map Prod.fst)) limit]
    return ""
  else compileNodes settings.profiling.emitHooks population nodes

/-- The generator of a settings value; which events exist decides whom a copy
stands for. -/
def generator (settings : Settings) (population : Population) : Generator β ProgramState where
  conditions := compileConditions
  actions := compileActions
  report := fun diagnostic => Emit.onGenerator (ProgramState.report diagnostic)
  indentUnit := ""
  forest := compileForest settings population

/-- The complete source around the body of the generated function. -/
def frame (output : OutputSettings) (body : String) : String :=
  output.header ++ "\n\npub fn " ++ output.entryPoint ++ "() \x7b\n" ++ body ++ "\x7d\n"

/-- Compile a forest into a complete source file. -/
def generate [Behavior β] (settings : Settings) (population : Population) (forest : Forest β)
    (state : ProgramState) : String × ProgramState :=
  let (body, after) :=
    Forest.generate (generator settings population) forest { generator := state }
  (Text.layoutBlocks (frame settings.output body) settings.indentUnit, after.generator)

end Program

end EventSheet.Codegen
