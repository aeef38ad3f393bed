import EventSheet.Behavior
import EventSheet.Codegen.Call
import EventSheet.Codegen.Emit
import EventSheet.Codegen.Generator
import EventSheet.Codegen.GuardedBlock
import EventSheet.Codegen.Program
import EventSheet.Compile
import EventSheet.Diagnostic
import EventSheet.Diagnostic.Json
import EventSheet.Failure
import EventSheet.Inspection
import EventSheet.Instruction
import EventSheet.Instruction.Json
import EventSheet.Instruction.Slot
import EventSheet.Json.Decoder
import EventSheet.Json.Document
import EventSheet.Json.Printer
import EventSheet.Json.Reader
import EventSheet.Json.Value
import EventSheet.Kind.Branch
import EventSheet.Kind.Builtin
import EventSheet.Kind.Comment
import EventSheet.Kind.Link
import EventSheet.Kind.Repetition
import EventSheet.Kind.Standard
import EventSheet.Named
import EventSheet.Node
import EventSheet.Node.Lifetime
import EventSheet.Node.Walk
import EventSheet.Number.Scaled
import EventSheet.Number.Shortest
import EventSheet.Population
import EventSheet.Preprocess
import EventSheet.Preprocess.Traversal
import EventSheet.Profile
import EventSheet.Profile.Json
import EventSheet.Registry
import EventSheet.Rendering.Cache
import EventSheet.Rendering.Metrics
import EventSheet.Scope
import EventSheet.Settings
import EventSheet.Settings.File
import EventSheet.Settings.Json
import EventSheet.Settings.Toml
import EventSheet.Shared
import EventSheet.Snapshot
import EventSheet.Snapshot.File
import EventSheet.Snapshot.Json
import EventSheet.Storage
import EventSheet.Storage.Path
import EventSheet.Text.Blank
import EventSheet.Text.Layout
import EventSheet.Text.Lines
import EventSheet.Toml.Printer
import EventSheet.Toml.Reader
import EventSheet.Toml.Scalar
import EventSheet.Toml.Table
import EventSheet.Toml.Value
import EventSheet.Workspace
import EventSheet.Workspace.Compile
import EventSheet.Proofs.Traversal.Recursive
import EventSheet.Proofs.Traversal.Refinement
import EventSheet.Proofs.Traversal.LinkBudget
import EventSheet.Proofs.Traversal.Passes
import EventSheet.Proofs.Traversal.Inclusion
import EventSheet.Proofs.Traversal.Inlining
import EventSheet.Proofs.Snapshot.Grammar
import EventSheet.Proofs.Snapshot.Restore
import EventSheet.Proofs.Json.Members
import EventSheet.Proofs.Json.Decoding
import EventSheet.Proofs.Ownership
import EventSheet.Proofs.Rewriting
import EventSheet.Proofs.Snapshot.Payload
import EventSheet.Proofs.Json.Text
import EventSheet.Proofs.Snapshot.RoundTrip
import EventSheet.Proofs.Snapshot.SavedText
import EventSheet.Proofs.Compilation.BlockProgram
import EventSheet.Proofs.Compilation.Execution
import EventSheet.Proofs.Compilation.Translation
import EventSheet.Proofs.Compilation.Emission
import EventSheet.Proofs.Compilation.Preservation
import EventSheet.Proofs.Compilation.WellFormed
import EventSheet.Proofs.Compilation.Recording
import EventSheet.Proofs.Ancestors
import EventSheet.Proofs.Compilation.Reach
import EventSheet.Proofs.Compilation.LinkLimit
import EventSheet.Proofs.Compilation.Outcome
import EventSheet.Proofs.Lineage.Accounts
import EventSheet.Proofs.Lineage.Pass
import EventSheet.Proofs.Lineage.Origins
import EventSheet.Proofs.Lineage.Places
import EventSheet.Proofs.Lineage.Workspace
import EventSheet.Proofs.Lineage.Edits
import EventSheet.Proofs.Lineage.Sheets
import EventSheet.Proofs.Lineage.Operations
import EventSheet.Proofs.Lineage.Session
import EventSheet.Proofs.Lineage.Subtrees
import EventSheet.Proofs.Walks
import EventSheet.Proofs.Lineage.Upkeep
import EventSheet.Proofs.Lineage.Numbering
import EventSheet.Proofs.Lineage.Frame
import EventSheet.Proofs.Lineage.Identity
import EventSheet.Proofs.Lineage.Undisturbed
import EventSheet.Proofs.Lineage.Cloning
import EventSheet.Proofs.Lineage.Predecessors
import EventSheet.Proofs.Lineage.Owners
import EventSheet.Proofs.Rendering.Measures
import EventSheet.Proofs.Rendering.Staleness
import EventSheet.Proofs.Toml.Strings
import EventSheet.Proofs.Toml.Documents
import EventSheet.Proofs.Storage.Files
import EventSheet.Proofs.Settings.Saving
import EventSheet.Proofs.Scope.Visibility
import EventSheet.Proofs.Scope.UniqueNames
import EventSheet.Proofs.Text.Relayout
import EventSheet.Proofs.Text.Indentation
import EventSheet.Proofs.Compilation.Composition
import EventSheet.Proofs.Compilation.Effects
import EventSheet.Proofs.Compilation.Calls
import EventSheet.Proofs.Compilation.Lines
import EventSheet.Proofs.Compilation.ProgramLines
import EventSheet.Proofs.Compilation.Rows
import EventSheet.Proofs.Compilation.Scoping
import EventSheet.Proofs.Compilation.Attribution
import EventSheet.Proofs.Compilation.Hooks
import EventSheet.Proofs.Compilation.Profiling
import EventSheet.Proofs.Compilation.Quiet
import EventSheet.Proofs.Compilation.HookedSource
import EventSheet.Proofs.Compilation.NestedText
import EventSheet.Proofs.Compilation.Leaves
import EventSheet.Proofs.Compilation.BlockDepth
import EventSheet.Proofs.Compilation.NestedLayout
import EventSheet.Proofs.Compilation.TypedText
import EventSheet.Proofs.Compilation.Thinning
import EventSheet.Proofs.Compilation.LeftOut
import EventSheet.Proofs.Compilation.Silence
import EventSheet.Proofs.Compilation.Persistence
import EventSheet.Proofs.Comparison.Positions
import EventSheet.Proofs.Rendering.Widening
import EventSheet.Proofs.Rendering.Visible
import EventSheet.Proofs.Comparison.Clones
