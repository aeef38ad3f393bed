import EventSheet.Proofs.Compilation.Attribution
import EventSheet.Proofs.Compilation.Profiling
import EventSheet.Proofs.Compilation.Quiet
namespace EventSheet

/-! # Sources with and without hooks

The source compiled with hooks is the one compiled without, with the hooks woven in behind the
header. Where the word that hooks begin with was not typed, erasing them gives back the source
without. -/

open BlockProgram Codegen

/-! ## Laid out lines -/

namespace Text

theorem length_indented (unit : List Char) (depth : Nat) (lines : List (List Char)) :
    (indented unit depth lines).length = lines.length := by
  induction lines generalizing depth with
  | nil => rfl
  | cons head tail induction => exact congrArg (· + 1) (induction _)

theorem Quiet.indented {lines : List (List Char)} (each : ∀ line ∈ lines, Quiet line)
    (width depth : Nat) :
    ∀ line ∈ Text.indented (List.replicate width ' ') depth lines, Quiet line := by
  induction lines generalizing depth with
  | nil => exact List.forall_mem_nil _
  | cons head tail induction =>
      rw [List.forall_mem_cons] at each
      rw [Text.indented, List.forall_mem_cons]
      refine ⟨?_, induction each.2 _⟩
      split
      · exact nil
      · rw [List.flatten_replicate_replicate]
        exact each.1.indent _

end Text

/-! ## The source of a forest -/

section

variable {settings : Settings} {population : Population} {forest : Forest Kind.Builtin}

/-- The number of lines in front of the body of the generated function. -/
def Codegen.Program.headLines (settings : Settings) : Nat :=
  (Text.trimmedLines (head settings.output).toList).length

theorem Codegen.Program.quiet_head {output : OutputSettings}
    (header : Text.Quiet output.header.toList) (entryPoint : Text.Quiet output.entryPoint.toList) :
    Text.Quiet (head output).toList := by
  have keyword {word : List Char} (absent : 'r' ∉ word) : Text.Quiet word :=
    Text.Quiet.of_not_mem (by decide : 'r' ∈ profilerWord) absent
  have parts : (head output).toList =
      output.header.toList ++ '\n' :: ("\npub fn".toList ++ ' ' ::
        (output.entryPoint.toList ++ '(' :: ") \x7b\n".toList)) := by
    simp [head]
  rw [parts]
  exact header.join (by decide) ((keyword (by decide)).join (by decide)
    (entryPoint.join (by decide) (keyword (by decide))))

/-- Laid out, the lines of the head are no hooks either. -/
theorem Codegen.Program.noHook_front
    (header : Text.Quiet settings.output.header.toList)
    (entryPoint : Text.Quiet settings.output.entryPoint.toList) :
    ∀ line ∈ Text.indented settings.indentUnit.toList 0
      (Text.trimmedLines (head settings.output).toList), Hook.read? line = none := by
  have quiet : ∀ line ∈ Text.trimmedLines (head settings.output).toList, Text.Quiet line :=
    fun line isLine =>
      (quiet_head header entryPoint).of_part (Text.infix_of_mem_trimmedLines isLine)
  rw [settings.toList_indentUnit]
  exact fun line isLine => (Text.Quiet.indented quiet _ _ line isLine).read?_eq_none

theorem Forest.hooked_program (settings : Settings) (population : Population)
    (forest : Forest Kind.Builtin) :
    ∃ hooks, Nested hooks (Program.hookedNodes settings population [] forest) ∧
      Hooked (Forest.program (settings.withHooks false) population forest) hooks
        (Forest.program (settings.withHooks true) population forest) :=
  ((Forest.hooked forest []).within rfl).woven {}

/-- The lines of a generated source without and with hooks: first those of the head, then those of
the body, with a pair of hooks for every event that produces code. -/
theorem Forest.exists_hooked_source (settings : Settings) (population : Population)
    (forest : Forest Kind.Builtin) :
    ∃ front plain hooked hooks,
      front = Text.indented settings.indentUnit.toList 0
        (Text.trimmedLines (Program.head settings.output).toList) ∧
      Text.pieces (Program.generate (settings.withHooks false) population forest {}).1.toList =
        front ++ plain ∧
      Text.pieces (Program.generate (settings.withHooks true) population forest {}).1.toList =
        front ++ hooked ∧
      Nested hooks (Program.hookedNodes settings population [] forest) ∧
      Weaves plain hooks hooked ∧
      ((∀ event ∈ Forest.members forest, AllQuiet event.behavior.texts) →
        ∀ line ∈ plain, Text.Quiet line) := by
  let headLines := Text.trimmedLines (Program.head settings.output).toList
  let body (emitHooks : Bool) := Text.trimmedLines (Text.unlines
    (lines (Forest.program (settings.withHooks emitHooks) population forest))) ++ ["\x7d".toList]
  have unit := settings.toList_indentUnit
  rcases Forest.hooked_program settings population forest with ⟨hooks, nested, isHooked⟩
  rcases Text.exists_indented_append settings.indentUnit.toList 0 headLines with ⟨depth, append⟩
  have source (emitHooks : Bool) :
      Text.pieces (Program.generate (settings.withHooks emitHooks) population forest {}).1.toList =
        Text.indented settings.indentUnit.toList 0 headLines ++
          (Text.indented settings.indentUnit.toList depth (body emitHooks) ++ [[]]) := by
    rw [← List.append_assoc, ← append, ← List.append_assoc]
    exact Program.pieces_generate
  have woven : Weaves (body false) hooks (body true) := by
    have whole := isHooked.weaves.trimmedLines.append (Weaves.refl ["\x7d".toList])
    rwa [List.append_nil] at whole
  refine ⟨_, _, _, hooks, rfl, source false, source true, nested, ?_, ?_⟩
  · rw [unit]
    have whole := (woven.indented settings.output.indentWidth.toNat depth).append
      (Weaves.refl [[]])
    rwa [List.append_nil] at whole
  · intro quiet
    have isQuiet : ∀ line ∈ body false, Text.Quiet line := by
      have program : BlockProgram.Quiet
          (Forest.program (settings.withHooks false) population forest) :=
        Forest.quiet_program rfl quiet
      exact List.forall_mem_append.mpr ⟨Text.Quiet.trimmedLines program,
        BlockProgram.Quiet.closing⟩
    rw [unit, List.forall_mem_append, List.forall_mem_singleton]
    exact ⟨Text.Quiet.indented isQuiet _ _, Text.Quiet.nil⟩

end

/-! ## Compiling with and without hooks -/

section

variable {context : PreprocessContext Kind.Builtin} {forest : Forest Kind.Builtin}
  {population : Population}

theorem Event.CopiesOneOf.quiet {sources : List (Event Kind.Builtin)} {first : NodeId}
    {event : Event Kind.Builtin} (copies : event.CopiesOneOf sources first)
    (quiet : ∀ source ∈ sources, AllQuiet source.behavior.texts) :
    AllQuiet event.behavior.texts := by
  rcases copies with ⟨-, source, isSource, isCopy⟩
  rw [isCopy.behavior_eq]
  exact quiet source isSource

/-- Compiling with and without hooks reports the same problems. The lines of the source with hooks
are those of the source without, with hooks in between that come in nested pairs: one for every node
of the working copy that code is generated for and that produces some, in pre-order, with the id of
the event it is a copy of. Unless a text typed has the word that hooks begin with, the hooks are all
lines behind the head that look like one, so erasing these gives back the source without hooks. -/
theorem compileEvents_hooks
    (alive : ∀ event ∈ compiledEvents context forest, population.isAlive event.id = true) :
    ∃ calls working state, CompilingPass context forest population calls working state ∧
      (∀ event ∈ Forest.members working,
        ∃ source ∈ compiledEvents context forest, event.IsCopyOf source) ∧
      ∀ settings : Settings,
        (∀ emitHooks, ∃ fuel outcome,
          compileEvents fuel (settings.withHooks emitHooks) context forest population =
            some outcome) ∧
        (∀ lineage ∈ Program.reachedLineages settings [] working, ∀ emitHooks emission,
          (lineage.node.generate (Program.generator (settings.withHooks emitHooks)
              state.population) emission).1.isEmpty =
            !lineage.node.event.producesCode) ∧
        ∀ fuel fuel' plain hooked behind behind',
          compileEvents fuel (settings.withHooks false) context forest population =
            some (plain, behind) →
          compileEvents fuel' (settings.withHooks true) context forest population =
            some (hooked, behind') →
          hooked.diagnostics = plain.diagnostics ∧
          ∃ hooks nodes,
            Nested hooks nodes ∧
            nodes.map some = (Program.producingLineages settings [] working).map
              (fun lineage => lineage.node.event.remembered) ∧
            Weaves (Text.pieces plain.source.toList) hooks (Text.pieces hooked.source.toList) ∧
            ((∀ event ∈ compiledEvents context forest, AllQuiet event.behavior.texts) →
              eraseHooks (Program.headLines settings) hooked.source = plain.source ∧
              hooksBehind (Program.headLines settings) hooked.source = hooks ∧
              (Text.Quiet settings.output.header.toList →
                Text.Quiet settings.output.entryPoint.toList →
                eraseHooks 0 hooked.source = plain.source ∧
                hooksBehind 0 hooked.source = hooks)) := by
  rcases exists_compilingPass context forest population with
    ⟨calls, working, state, pass, fuel, compiles⟩
  rcases pass.copies with ⟨ends, spares, -⟩
  refine ⟨calls, working, state, pass, fun event isMember => (ends event isMember).2,
    fun settings => ⟨fun emitHooks => ⟨fuel, _, compiles _⟩, ?_, ?_⟩⟩
  · exact fun lineage _ emitHooks emission =>
      lineage.node.isEmpty_generate (settings.withHooks emitHooks) state.population emission
  · intro fuel fuel' plain hooked behind behind' compilesPlain compilesHooked
    have isPlain : plain = codeOf (settings.withHooks false) working state :=
      congrArg Prod.fst (pass.outcome_eq compilesPlain)
    have isHooked : hooked = codeOf (settings.withHooks true) working state :=
      congrArg Prod.fst (pass.outcome_eq compilesHooked)
    rcases Forest.exists_hooked_source settings state.population working with
      ⟨front, plainBody, hookedBody, hooks, isFront, plainSource, hookedSource, nested, weaves,
        isQuiet⟩
    have plainLines : Text.pieces plain.source.toList = front ++ plainBody := by
      rw [isPlain]
      exact plainSource
    have hookedLines : Text.pieces hooked.source.toList = front ++ hookedBody := by
      rw [isHooked]
      exact hookedSource
    refine ⟨?diagnostics, hooks, _, nested, ?nodes, ?weaves, ?erased⟩
    case diagnostics =>
      rw [isPlain, isHooked, pass.diagnostics_codeOf, pass.diagnostics_codeOf]
      rfl
    case nodes =>
      rw [Program.hookedNodes, List.map_map]
      apply List.map_congr_left
      intro lineage isProducing
      have isReached := List.mem_of_mem_filter (List.mem_of_mem_filter isProducing)
      have isCopy := ends _ (Forest.mem_members_of_lineages isReached)
      rcases isCopy.standsFor spares alive with ⟨source, -, copies, stands⟩
      rw [copies.remembered_eq, Function.comp_apply, stands]
    case weaves =>
      rw [plainLines, hookedLines]
      exact (Weaves.refl front).append weaves
    case erased =>
      intro quiet
      have quietBody := isQuiet fun event isMember => (ends event isMember).quiet quiet
      have noHook : ∀ line ∈ plainBody, Hook.read? line = none :=
        fun line isLine => (quietBody line isLine).read?_eq_none
      have frontLines : front.length = Program.headLines settings := by
        rw [isFront, Text.length_indented, Program.headLines]
      have behindHead := weaves.erase noHook plainLines hookedLines
      rw [frontLines] at behindHead
      refine ⟨behindHead.1, behindHead.2, fun header entryPoint => ?_⟩
      have noHookInFront : ∀ line ∈ front, Hook.read? line = none := by
        rw [isFront]
        exact Program.noHook_front header entryPoint
      have whole := (Weaves.refl front).append weaves
      rw [← plainLines, ← hookedLines] at whole
      have noHookAtAll : ∀ line ∈ Text.pieces plain.source.toList, Hook.read? line = none := by
        rw [plainLines, List.forall_mem_append]
        exact ⟨noHookInFront, noHook⟩
      have erasedAll : eraseHooks ([] : List (List Char)).length hooked.source = plain.source ∧
          hooksBehind ([] : List (List Char)).length hooked.source = hooks :=
        whole.erase noHookAtAll rfl rfl
      exact erasedAll

end

/-- At night the watchman goes on his round, which is a sheet of its own. -/
def watchman : Forest Kind.Builtin :=
  [{ event := { id := 1, behavior := .standard { conditions := [{ name := "isNight" }] } }
     subEvents := [{ event := { id := 2, behavior := .link { target := "round" } } }] }]

def watchmanContext : PreprocessContext Kind.Builtin :=
  { scope := "scene"
    externals :=
      [("round",
        [{ event :=
            { id := 3
              behavior := .standard
                { actions := [{ name := "whistle", parameters := [⟨"tune"⟩] }] } } }])] }

/-- The hooks of the round have the id of its event in the sheet. -/
theorem watchman_hooked :
    ∃ plain behind hooked behind',
      compileEvents 20 (Settings.withHooks {} false) watchmanContext watchman ⟨#[{}, {}, {}]⟩ =
        some (plain, behind) ∧
      compileEvents 20 (Settings.withHooks {} true) watchmanContext watchman ⟨#[{}, {}, {}]⟩ =
        some (hooked, behind') ∧
      Nested (hooksBehind 0 hooked.source) [1, 3] ∧
      eraseHooks 0 hooked.source = plain.source := by
  have alive : ∀ event ∈ compiledEvents watchmanContext watchman,
      Population.isAlive ⟨#[{}, {}, {}]⟩ event.id = true := by
    decide
  have isLetter : 'p' ∈ profilerWord := by decide
  have quiet : ∀ event ∈ compiledEvents watchmanContext watchman,
      AllQuiet event.behavior.texts := by
    have absent : ∀ event ∈ compiledEvents watchmanContext watchman,
        ∀ text ∈ event.behavior.texts, 'p' ∉ text.toList := by
      decide
    exact fun event isEvent text isText =>
      Text.Quiet.of_not_mem isLetter (absent event isEvent text isText)
  have header : Text.Quiet (OutputSettings.header {}).toList :=
    Text.Quiet.of_not_mem isLetter (by decide)
  have entryPoint : Text.Quiet (OutputSettings.entryPoint {}).toList :=
    Text.Quiet.of_not_mem isLetter (by decide)
  have ends (emitHooks : Bool) : (compileEvents 20 (Settings.withHooks {} emitHooks)
      watchmanContext watchman ⟨#[{}, {}, {}]⟩).isSome = true := by
    cases emitHooks <;> decide +kernel
  have producing : ((Forest.cloneRemembering watchman ⟨#[{}, {}, {}]⟩).1.preprocess 20
      ⟨watchmanContext, (Forest.cloneRemembering watchman ⟨#[{}, {}, {}]⟩).2⟩).map
        (fun outcome => (Program.producingLineages {} [] outcome.1.1).map
          fun lineage => lineage.node.event.remembered) = some [some 1, some 3] := by
    decide +kernel
  rcases Option.isSome_iff_exists.mp (ends false) with ⟨⟨plain, behind⟩, compilesPlain⟩
  rcases Option.isSome_iff_exists.mp (ends true) with ⟨⟨hooked, behind'⟩, compilesHooked⟩
  rcases compileEvents_hooks alive with ⟨calls, working, state, pass, -, compiled⟩
  rcases (compiled {}).2.2 20 20 plain hooked behind behind' compilesPlain compilesHooked with
    ⟨-, hooks, nodes, nested, areNodes, -, erased⟩
  rcases (erased quiet).2.2 header entryPoint with ⟨isPlain, areHooks⟩
  rw [Forest.preprocess_eq_recorded, Option.map_map, Option.map_eq_some_iff] at producing
  rcases producing with ⟨⟨⟨final, visits⟩, last, others⟩, recorded, areProducing⟩
  rcases Preprocess.Traverses.unique pass (Forest.traverses_of_recorded recorded) with ⟨-, rfl, -⟩
  have sameNodes : nodes = [1, 3] := by
    apply List.map_injective_iff.mpr fun _ _ => Option.some.inj
    exact areNodes.trans areProducing
  rw [← areHooks, sameNodes] at nested
  exact ⟨plain, behind, hooked, behind', compilesPlain, compilesHooked, nested, isPlain⟩

end EventSheet
