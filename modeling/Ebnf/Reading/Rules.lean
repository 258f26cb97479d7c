import Ebnf.Grammar.Basic
import Ebnf.Reading.Expr

/-!
Reading a text of grammar rules. A fault ends its rule only: reading goes on behind the next
semicolon, and all faults are reported together.
-/

set_option autoImplicit false
set_option relaxedAutoImplicit false

namespace Ebnf

namespace Reading

inductive Stage where
  /-- The name of a rule may come. -/
  | start
  /-- The equals sign behind the name is due. -/
  | named (name : String)
  /-- The expression of the rule is being read. -/
  | body (name : String) (state : State)
  /-- A fault has been met and its rule has not ended yet. -/
  | skipping

/-- The rules and faults so far, the latest first, and what is being read. -/
structure Progress where
  rules : List Rule := []
  problems : List Problem := []
  stage : Stage := .start

namespace Progress

/-- Notes a fault that shows at `t`, which may be the end of its rule. -/
def fail (p : Progress) (problem : Problem) (t : Token) : Progress :=
  ⟨p.rules, problem :: p.problems, if t.kind = .semicolon then .start else .skipping⟩

/-- Reads one token. -/
def step (p : Progress) (t : Token) : Progress :=
  match p.stage with
  | .start =>
    if t.kind = .name then { p with stage := .named t.text } else p.fail (.noName (some t)) t
  | .named name =>
    if t.kind = .equals then { p with stage := .body name {} }
    else p.fail (.noEquals (some t)) t
  | .body name s =>
    if t.kind = .semicolon then
      match s.finish (some t) with
      | .ok e => ⟨⟨name, e⟩ :: p.rules, p.problems, .start⟩
      | .error problem => p.fail problem t
    else
      match s.step t with
      | .ok s => { p with stage := .body name s }
      | .error problem => p.fail (problem.inRule name) t
  | .skipping => if t.kind = .semicolon then { p with stage := .start } else p

/-- The fault that the end of the text is, if a rule is being read. -/
def problemAtEnd? (p : Progress) : Option Problem :=
  match p.stage with
  | .start | .skipping => none
  | .named _ => some (.noEquals none)
  | .body name s =>
    match s.finish none with
    | .ok _ => some (.noSemicolon name none)
    | .error problem => some problem

/-- All faults of the text, in order, when there are no more tokens. -/
def allProblems (p : Progress) : List Problem :=
  p.problems.reverse ++ p.problemAtEnd?.toList

end Progress

/-- The rules that the tokens are, or the faults in them. -/
def rules (tokens : List Token) : Except (List Problem) (List Rule) :=
  let p : Progress := tokens.foldl Progress.step {}
  if p.allProblems.isEmpty then .ok p.rules.reverse else .error p.allProblems

end Reading

/-- Reads the rules of a text, in order and unmerged. -/
def Rule.readAll (text : String) : Except Failure (List Rule) :=
  match Reading.rules (Token.significant text) with
  | .ok rules => .ok rules
  | .error problems =>
    .error (.malformed (problems.map (Reading.Problem.diagnostic text.utf8ByteSize)))

/-- Reads the grammar of the rules of a text. -/
def Grammar.read (text : String) : Except Failure Grammar := do
  let rules ← Rule.readAll text
  return .ofRules rules

end Ebnf
