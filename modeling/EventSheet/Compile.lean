import EventSheet.Codegen.Program
import EventSheet.Preprocess.Traversal
namespace EventSheet

/-! Compilation: copy the events, preprocess the copy, generate the program. The
events being edited are never touched, and because the copy remembers them,
problems and statistics can be traced back to them. -/

structure GeneratedCode where
  source : String
  diagnostics : List Diagnostic
deriving DecidableEq

def GeneratedCode.hasErrors (code : GeneratedCode) : Bool :=
  code.diagnostics.any Diagnostic.isError

namespace PreprocessContext

/-- Destroy the event sheets of a context. -/
def destroyExternals {β : Type} (context : PreprocessContext β) : StateM Population Unit :=
  Forest.destroy (context.externals.flatMap Prod.snd)

end PreprocessContext

/-- Compile a forest. The working copy and the external sheets are gone
afterwards. The diagnostics of preprocessing come before those of generation.
Nothing when preprocessing does not finish within `fuel` steps. -/
def compileEvents {β : Type} [Behavior β] (fuel : Nat) (settings : Settings)
    (context : PreprocessContext β) (forest : Forest β) (population : Population) :
    Option (GeneratedCode × Population) :=
  let (working, population) := Forest.cloneRemembering forest population
  match Forest.preprocess fuel working { context, population } with
  | none => none
  | some ((working, _), state) =>
      let (source, generated) :=
        Codegen.Program.generate settings state.population working {}
      let ((), population) := Forest.destroy working state.population
      let ((), population) := state.context.destroyExternals population
      some (⟨source, state.context.diagnostics ++ generated.diagnostics⟩, population)

end EventSheet
