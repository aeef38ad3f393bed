import EventSheet.Compile
import EventSheet.Workspace
namespace EventSheet.Workspace

/-! Preprocessing and compiling what a workspace holds. The sheets that links can
include are moved out of the workspace into the context of the pass, and live as
long as the context does. -/

variable {β : Type}

/-- Destroy the external sheets of a context that is no longer needed. -/
def release (context : PreprocessContext β) : Edit β Unit :=
  onPopulation context.destroyExternals

/-- Run an action that needs a context; when it goes astray, the context is no
longer needed. -/
def holding {α : Type} (context : PreprocessContext β) (action : Edit β α) : Edit β α := do
  try action
  catch astray =>
    release context
    throw astray

/-- Move sheets into a context, each given as a link target and its name in the
workspace. A target that occurs again replaces the sheet before it. -/
def withExternals (context : PreprocessContext β) :
    List (String × String) → Edit β (PreprocessContext β)
  | [] => return context
  | (target, name) :: rest => do
      let events ← holding context (takeSheet name)
      let (old, context) := context.withExternal target events
      onPopulation (Forest.destroy (old.getD []))
      withExternals context rest

variable [Behavior β]

/-- Preprocess a sheet in place. The answer is the number of nodes whose behavior
was asked, and the context after the pass. -/
def preprocess (fuel : Nat) (context : PreprocessContext β) (name : String) :
    Edit β (Option (Nat × PreprocessContext β)) := do
  let forest ← holding context (sheet name)
  match Forest.preprocess fuel forest { context, population := (← get).population } with
  | none => return none
  | some ((forest, visited), state) =>
      modify fun workspace =>
        { workspace with
          population := state.population
          sheets := workspace.sheets.change name fun _ => forest }
      return some (visited, state.context)

/-- Compile the forest at an address. -/
def compile (fuel : Nat) (settings : Settings) (context : PreprocessContext β)
    (address : Address) : Edit β (Option GeneratedCode) := do
  let forest ← holding context (forestAt address)
  match compileEvents fuel settings context forest (← get).population with
  | none => return none
  | some (code, population) =>
      modify fun workspace => { workspace with population }
      return some code

end EventSheet.Workspace
