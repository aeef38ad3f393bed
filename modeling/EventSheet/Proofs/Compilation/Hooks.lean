import EventSheet.Proofs.Compilation.Rows
namespace EventSheet

/-! # Profiler hooks

With profiling on, two calls of the profiler stand around the code of every event, each on a line of
its own. Such a line is told apart by its text, and laying a text out moves it without making
another line of it, so the hooks of a source can be read off it, and erased. -/

open BlockProgram

/-- A call of the profiler. -/
inductive Hook where
  | begins (node : NodeId)
  | ends (node : NodeId)
deriving DecidableEq

namespace Hook

def name : Hook → String
  | .begins _ => "profiler_begin"
  | .ends _ => "profiler_end"

def node : Hook → NodeId
  | .begins node | .ends node => node

/-- The line of a hook. -/
def line (hook : Hook) : List Char :=
  (hook.name ++ "(" ++ Nat.repr hook.node ++ ");").toList

/-! ## Reading -/

/-- The number in front of the end of a call. -/
def readNode? (rest : List Char) : Option NodeId :=
  let digits := rest.takeWhile Char.isDigit
  if digits.isEmpty || rest.dropWhile Char.isDigit ≠ ");".toList then none
  else some (Nat.ofDigitChars 10 digits 0)

/-- The hook a line is, whatever blanks are in front of it. -/
def read? (line : List Char) : Option Hook :=
  let text := Text.trimStart line
  ((behind? "profiler_begin(" text).bind readNode?).map .begins <|>
    ((behind? "profiler_end(" text).bind readNode?).map .ends

theorem isDigit_repr (node : NodeId) :
    ∀ character ∈ (Nat.repr node).toList, character.isDigit = true := by
  rw [Nat.toList_repr]
  exact fun _ isDigit => Nat.isDigit_of_mem_toDigits (by decide) (by decide) isDigit

theorem readNode?_repr (node : NodeId) :
    readNode? ((Nat.repr node).toList ++ ");".toList) = some node := by
  have written : (Nat.repr node).toList.isEmpty = false := by
    rw [Nat.toList_repr, List.isEmpty_eq_false_iff]
    exact Nat.toDigits_ne_nil
  have taken : ((Nat.repr node).toList ++ ");".toList).takeWhile Char.isDigit =
      (Nat.repr node).toList := by
    rw [List.takeWhile_append_of_pos (isDigit_repr node)]
    exact List.append_nil _
  have dropped : ((Nat.repr node).toList ++ ");".toList).dropWhile Char.isDigit =
      ");".toList := List.dropWhile_append_of_pos (isDigit_repr node)
  rw [readNode?, taken, dropped, written, if_neg (by simp), Nat.toList_repr,
    Nat.ofDigitChars_ten_toDigits]

theorem line_eq (hook : Hook) :
    hook.line = hook.name.toList ++ '(' :: ((Nat.repr hook.node).toList ++ ");".toList) := by
  simp [line]

theorem exists_line_eq_cons (hook : Hook) : ∃ rest, hook.line = 'p' :: rest := by
  have head : hook.name.toList = 'p' :: hook.name.toList.tail := by
    cases hook <;> rw [name] <;> decide
  rw [line_eq, head]
  exact ⟨_, List.cons_append⟩

theorem trimStart_line (margin : Nat) (hook : Hook) :
    Text.trimStart (List.replicate margin ' ' ++ hook.line) = hook.line := by
  have blank : ∀ character ∈ List.replicate margin ' ', Text.isBlank character = true := by
    intro character isSpace
    rw [List.eq_of_mem_replicate isSpace]
    decide
  rcases hook.exists_line_eq_cons with ⟨rest, isCons⟩
  rw [Text.trimStart_append blank, isCons]
  exact Text.trimStart_of_not_blank rest (by decide)

/-- A hook is read as what it is. -/
theorem read?_line (margin : Nat) (hook : Hook) :
    read? (List.replicate margin ' ' ++ hook.line) = some hook := by
  rw [read?, trimStart_line, line_eq]
  cases hook with
  | begins node =>
      have behind : behind? "profiler_begin(" ("profiler_begin".toList ++
          '(' :: ((Nat.repr node).toList ++ ");".toList)) =
          some ((Nat.repr node).toList ++ ");".toList) := rfl
      rw [name, Hook.node, behind, Option.bind_some, readNode?_repr]
      rfl
  | ends node =>
      have other : behind? "profiler_begin(" ("profiler_end".toList ++
          '(' :: ((Nat.repr node).toList ++ ");".toList)) = none := rfl
      have behind : behind? "profiler_end(" ("profiler_end".toList ++
          '(' :: ((Nat.repr node).toList ++ ");".toList)) =
          some ((Nat.repr node).toList ++ ");".toList) := rfl
      rw [name, Hook.node, other, behind, Option.bind_some, readNode?_repr]
      rfl

theorem oneLine_line (hook : Hook) : '\n' ∉ hook.line := by
  have inNumber : '\n' ∉ (Nat.repr hook.node).toList := fun isNewline =>
    absurd (isDigit_repr hook.node '\n' isNewline) (by decide)
  have inName : '\n' ∉ hook.name.toList := by
    cases hook <;> rw [name] <;> decide
  rw [line_eq, List.mem_append, List.mem_cons, List.mem_append]
  rintro (isName | isOpening | isNumber | isEnd)
  · exact inName isName
  · exact absurd isOpening (by decide)
  · exact inNumber isNumber
  · exact absurd isEnd (by decide)

theorem getLast?_append_line (margin : List Char) (hook : Hook) :
    (margin ++ hook.line).getLast? = some ';' := by
  rw [line_eq, List.getLast?_append, List.getLast?_append, List.getLast?_cons,
    List.getLast?_append]
  rfl

/-- A line of blanks and a hook is the line of that hook. -/
theorem trimmedLines_line (margin : Nat) (hook : Hook) :
    Text.trimmedLines (List.replicate margin ' ' ++ hook.line ++ Text.newline) = [hook.line] := by
  have oneLine : '\n' ∉ List.replicate margin ' ' ++ hook.line := by
    rw [List.mem_append, not_or]
    exact ⟨fun isSpace => absurd (List.eq_of_mem_replicate isSpace) (by decide), hook.oneLine_line⟩
  rw [Text.trimmedLines_line oneLine, trimStart_line]
  rw [Text.dropCarriageReturn, getLast?_append_line, if_neg (by decide)]

end Hook

/-! ## Weaving -/

/-- Hooks put in between lines, each on a line of its own with blanks in front. -/
inductive Weaves : List (List Char) → List Hook → List (List Char) → Prop
  | nil : Weaves [] [] []
  | line {plain hooked : List (List Char)} {hooks : List Hook} (line : List Char)
      (rest : Weaves plain hooks hooked) : Weaves (line :: plain) hooks (line :: hooked)
  | hook {plain hooked : List (List Char)} {hooks : List Hook} (margin : Nat) (hook : Hook)
      (rest : Weaves plain hooks hooked) :
      Weaves plain (hook :: hooks) ((List.replicate margin ' ' ++ hook.line) :: hooked)

namespace Weaves

variable {plain hooked others otherHooked : List (List Char)} {hooks more : List Hook}

theorem refl : ∀ lines : List (List Char), Weaves lines [] lines
  | [] => nil
  | head :: tail => line head (refl tail)

theorem append (first : Weaves plain hooks hooked) (second : Weaves others more otherHooked) :
    Weaves (plain ++ others) (hooks ++ more) (hooked ++ otherHooked) := by
  induction first with
  | nil => exact second
  | line head _ induction => exact line head induction
  | hook margin head _ induction => exact hook margin head induction

theorem single (hook : Hook) : Weaves [] [hook] [hook.line] :=
  Weaves.hook 0 hook nil

/-- Hooks stay hooks when the lines of a text are read. -/
theorem trimmedLines (weaves : Weaves plain hooks hooked) :
    Weaves (Text.trimmedLines (Text.unlines plain)) hooks
      (Text.trimmedLines (Text.unlines hooked)) := by
  rw [Text.trimmedLines_unlines, Text.trimmedLines_unlines]
  induction weaves with
  | nil => exact nil
  | line head _ induction =>
      rw [List.flatMap_cons, List.flatMap_cons]
      exact (refl _).append induction
  | hook margin head _ induction =>
      rw [List.flatMap_cons, head.trimmedLines_line]
      exact (single head).append induction

/-- Hooks open and close no block, so the other lines are laid out as without them. -/
theorem indented (weaves : Weaves plain hooks hooked) (width depth : Nat) :
    Weaves (Text.indented (List.replicate width ' ') depth plain) hooks
      (Text.indented (List.replicate width ' ') depth hooked) := by
  induction weaves generalizing depth with
  | nil => exact nil
  | line head _ induction => exact line _ (induction _)
  | @hook plain hooked hooks margin head _ induction =>
      let whole := List.replicate margin ' ' ++ head.line
      have notClosing : Text.closesBlock whole = false := by
        rcases head.exists_line_eq_cons with ⟨rest, isCons⟩
        change decide ((List.replicate margin ' ' ++ head.line).head? = some '\x7d') = false
        rw [isCons]
        cases margin <;> rfl
      have notOpening : Text.opensBlock whole = false := by
        rw [Text.opensBlock, head.getLast?_append_line]
        decide
      have notEmpty : whole.isEmpty = false := by
        rw [List.isEmpty_eq_false_iff]
        intro empty
        have last := head.getLast?_append_line (List.replicate margin ' ')
        rw [show List.replicate margin ' ' ++ head.line = [] from empty] at last
        cases last
      have margins : (List.replicate depth (List.replicate width ' ')).flatten ++ whole =
          List.replicate (depth * width + margin) ' ' ++ head.line := by
        rw [List.flatten_replicate_replicate, ← List.append_assoc, List.replicate_append_replicate]
      have laidOut : Text.indented (List.replicate width ' ') depth (whole :: hooked) =
          (List.replicate (depth * width + margin) ' ' ++ head.line) ::
            Text.indented (List.replicate width ' ') depth hooked := by
        rw [Text.indented, Text.lineDepth, notClosing, Text.depthAfter, notOpening, notEmpty,
          ← margins]
        rfl
      rw [laidOut]
      exact hook _ head (induction depth)

/-- Between lines that are not hooks, the hooks are those that were put there. -/
theorem read (weaves : Weaves plain hooks hooked)
    (noHook : ∀ line ∈ plain, Hook.read? line = none) :
    (hooked.filter fun line => (Hook.read? line).isNone) = plain ∧
      hooked.filterMap Hook.read? = hooks := by
  induction weaves with
  | nil => exact ⟨rfl, rfl⟩
  | line head _ induction =>
      rw [List.forall_mem_cons] at noHook
      rcases induction noHook.2 with ⟨erased, isRead⟩
      rw [List.filter_cons_of_pos (by rw [noHook.1]; rfl), List.filterMap_cons_none noHook.1]
      exact ⟨congrArg (head :: ·) erased, isRead⟩
  | hook margin head _ induction =>
      rcases induction noHook with ⟨erased, isRead⟩
      have isHead := head.read?_line margin
      rw [List.filter_cons_of_neg (by rw [isHead]; exact Bool.false_ne_true),
        List.filterMap_cons_some isHead]
      exact ⟨erased, congrArg (head :: ·) isRead⟩

end Weaves

/-! ## Nesting -/

/-- Hooks that come in pairs, one nested in the other or behind it, and the nodes of the pairs in
the order they begin in. -/
inductive Nested : List Hook → List NodeId → Prop
  | nil : Nested [] []
  | pair {inside behind : List Hook} {below others : List NodeId} (node : NodeId)
      (inner : Nested inside below) (rest : Nested behind others) :
      Nested (.begins node :: inside ++ .ends node :: behind) (node :: below ++ others)

namespace Nested

variable {hooks more : List Hook} {nodes others : List NodeId}

theorem append (first : Nested hooks nodes) (second : Nested more others) :
    Nested (hooks ++ more) (nodes ++ others) := by
  induction first with
  | nil => exact second
  | pair node inner _ _ induction =>
      rw [List.cons_append, List.cons_append, List.append_assoc, List.cons_append,
        List.append_assoc]
      exact pair node inner induction

theorem enclose (node : NodeId) (inner : Nested hooks nodes) :
    Nested (.begins node :: hooks ++ [.ends node]) (node :: nodes) := by
  have paired := pair node inner nil
  rwa [List.append_nil] at paired

end Nested

/-! ## Erasing -/

/-- The source without the hooks behind its first lines. -/
def eraseHooks (front : Nat) (source : String) : String :=
  let lines := Text.pieces source.toList
  String.ofList (['\n'].intercalate
    (lines.take front ++ (lines.drop front).filter fun line => (Hook.read? line).isNone))

/-- The hooks behind the first lines of a source, in order. -/
def hooksBehind (front : Nat) (source : String) : List Hook :=
  ((Text.pieces source.toList).drop front).filterMap Hook.read?

/-- Where no line of the source is a hook behind its first lines, weaving hooks in behind these is
undone by erasing them. -/
theorem Weaves.erase {source hookedSource : String} {front : List (List Char)}
    {plain hooked : List (List Char)} {hooks : List Hook}
    (weaves : Weaves plain hooks hooked) (noHook : ∀ line ∈ plain, Hook.read? line = none)
    (isSource : Text.pieces source.toList = front ++ plain)
    (isHooked : Text.pieces hookedSource.toList = front ++ hooked) :
    eraseHooks front.length hookedSource = source ∧
      hooksBehind front.length hookedSource = hooks := by
  rcases weaves.read noHook with ⟨erased, isRead⟩
  rw [eraseHooks, hooksBehind, isHooked, List.take_left, List.drop_left, erased, isRead,
    ← isSource, Text.intercalate_pieces, String.ofList_toList]
  exact ⟨rfl, rfl⟩

end EventSheet
