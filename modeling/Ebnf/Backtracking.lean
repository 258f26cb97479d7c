import Ebnf.Engine
import Ebnf.Reading.Rules

/-!
An engine that tries every derivation of the start symbol, in order, down to a fixed depth, and
answers with the first one that covers the input. The depth keeps left recursion finite, and a
repetition goes on only behind an item that has covered something, so every search ends.
-/

set_option autoImplicit false
set_option relaxedAutoImplicit false

namespace Ebnf.Backtracking

/-- One derivation of a beginning of the input: its trees, and the input behind it. -/
structure Match where
  trees : List ParseTree
  rest : List Char

namespace Match

/-- The match of nothing in front of `input`. -/
def nothing (input : List Char) : Match :=
  ⟨[], input⟩

/-- The match with more trees in front. -/
def after (trees : List ParseTree) (m : Match) : Match :=
  ⟨trees ++ m.trees, m.rest⟩

end Match

/-- All matches of one expression at the beginning of an input, in the order of preference. -/
abbrev Matcher := List Char → List Match

/-- What is behind `text`, if the input begins with it. -/
def dropPrefix? : (text input : List Char) → Option (List Char)
  | [], input => some input
  | c :: cs, d :: input => if c = d then dropPrefix? cs input else none
  | _ :: _, [] => none

/-- The matches of several expressions, one behind the other. -/
def sequence : List Matcher → Matcher
  | [], input => [.nothing input]
  | matcher :: matchers, input =>
    (matcher input).flatMap fun m ↦ (sequence matchers m.rest).map (.after m.trees)

/-- The matches that cover something. -/
def advancing (matcher : Matcher) (input : List Char) : List Match :=
  (matcher input).filter fun m ↦ m.rest.length < input.length

theorem length_rest_lt_of_mem_advancing {matcher : Matcher} {input : List Char} {m : Match}
    (h : m ∈ advancing matcher input) : m.rest.length < input.length := by
  simpa using (List.mem_filter.mp h).2

/-- The matches of one item or more, each item covering something: those of a single item, then
the longer ones, which go on first behind the last of the single items. -/
def extensions (matcher : Matcher) (input : List Char) : List Match :=
  let singles := advancing matcher input
  singles ++ singles.reverse.attach.flatMap fun m ↦
    (extensions matcher m.val.rest).map (.after m.val.trees)
termination_by input.length
decreasing_by exact length_rest_lt_of_mem_advancing (List.mem_reverse.mp m.property)

/-- The matches of any number of items, each covering something. -/
def repetitions (matcher : Matcher) (input : List Char) : List Match :=
  .nothing input :: extensions matcher input

/-- How many levels below the start symbol are looked at. -/
def maxDepth : Nat := 256

/-- The matches of an expression whose parts are looked at on `levels` levels, its own
included. -/
def derivations (g : Grammar) : (levels : Nat) → Expr → Matcher
  | 0, _, _ => []
  | levels + 1, e, input =>
    match e with
    | .symbol name =>
      match g.find? name with
      | none => []
      | some body =>
        (derivations g levels body input).map fun m ↦ ⟨[.node name m.trees], m.rest⟩
    | .terminal text =>
      match dropPrefix? text.toList input with
      | none => []
      | some rest => [⟨if text.isEmpty then [] else [.leaf text], rest⟩]
    | .range chars =>
      match input with
      | [] => []
      | c :: rest => if chars.contains c then [⟨[.leaf (String.singleton c)], rest⟩] else []
    | .choice es => es.flatMap fun e ↦ derivations g levels e input
    | .seq first second rest =>
      sequence ((first :: second :: rest).map (derivations g levels)) input
    | .optional body => .nothing input :: derivations g levels body input
    | .star body => repetitions (derivations g levels body) input
    | .plus body =>
      (derivations g levels body input).flatMap fun m ↦
        (repetitions (derivations g levels body) m.rest).map (.after m.trees)

/-- A grammar with a start symbol that it defines. -/
structure Compiled where
  grammar : Grammar
  start : String

/-- Reads a grammar text and looks up the start symbol. -/
def compile (text start : String) : Except Failure Compiled := do
  let grammar ← Grammar.read text
  if grammar.contains start then return ⟨grammar, start⟩
  else throw (.unknownStart start)

/-- All matches of the start symbol. -/
def startMatches (compiled : Compiled) (input : String) : List Match :=
  derivations compiled.grammar (maxDepth + 1) (.symbol compiled.start) input.toList

/-- How many bytes of the input a match covers. -/
def covered (input : String) (m : Match) : Nat :=
  input.utf8ByteSize - (String.ofList m.rest).utf8ByteSize

/-- The tree of the first match of the start symbol that covers the input. -/
def parse (compiled : Compiled) (input : String) : Except Failure ParseTree :=
  let found := startMatches compiled input
  match (found.find? fun m ↦ m.rest.isEmpty).bind fun m ↦ m.trees.getLast? with
  | some tree => .ok tree
  | none => .error (.rejected ((found.map (covered input)).foldl max 0))

end Ebnf.Backtracking

namespace Ebnf.Engine

/-- The engine that backtracks. -/
def backtracking : Engine where
  Compiled := Backtracking.Compiled
  compile := Backtracking.compile
  parse := Backtracking.parse

end Ebnf.Engine
