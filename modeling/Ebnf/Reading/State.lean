import Ebnf.Expr.Basic
import Ebnf.Reading.Problem

/-!
Reading an expression token by token. The state holds the groups that are open, innermost
first, what has been read at the innermost level, and what may come next. Two places need a
look at the token that follows: a string may turn out to be the first end of a range, and a
curly group directly behind its square bracket may turn out to be the whole of that group,
which then is a repetition that may be empty, not an option.
-/

set_option autoImplicit false
set_option relaxedAutoImplicit false

namespace Ebnf.Reading

/-- What has been read at one level of nesting in front of the operand in hand: the finished
alternatives, and the items of the sequence that is being read, the latest first in both. -/
structure Level where
  alternatives : List Expr := []
  items : List Expr := []

namespace Level

/-- The sequence that ends with `e`. -/
def sequence (level : Level) (e : Expr) : Expr :=
  match level.items.reverse with
  | [] => e
  | first :: rest => .inOrder first (rest ++ [e])

/-- All alternatives of the level, the last of them ending with `e`. -/
def choices (level : Level) (e : Expr) : List Expr :=
  level.alternatives.reverse ++ [level.sequence e]

/-- The expression that ends with `e`; a single alternative stands for itself. -/
def expr (level : Level) (e : Expr) : Expr :=
  match level.alternatives with
  | [] => level.sequence e
  | _ => .choice (level.choices e)

/-- The level behind a comma that follows `e`. -/
def addItem (level : Level) (e : Expr) : Level :=
  { level with items := e :: level.items }

/-- The level behind a bar that follows `e`. -/
def addAlternative (level : Level) (e : Expr) : Level :=
  ⟨level.sequence e :: level.alternatives, []⟩

end Level

/-- An open group: its bracket and the byte of it, whether it is a curly bracket directly
behind a square one, and the level on which the group stands. -/
structure Frame where
  bracket : Bracket
  offset : Nat
  attached : Bool
  outer : Level

inductive Phase where
  /-- An operand is due. -/
  | operand
  /-- A group has been opened by a bracket that ends at byte `stop`. -/
  | opened (bracket : Bracket) (stop : Nat)
  /-- A string has been read that three dots may make the first end of a range. -/
  | literal (string : Token)
  /-- The second end of a range is due. -/
  | boundary (first : Token)
  /-- A curly group directly behind a square bracket has been closed up to byte `stop`. -/
  | braced (body : Expr) (stop : Nat)
  /-- An operand has been read. -/
  | complete (e : Expr)

structure State where
  stack : List Frame := []
  level : Level := {}
  phase : Phase := .operand

namespace State

/-- Opens a group. -/
def descend (s : State) (bracket : Bracket) (attached : Bool) (t : Token) :
    Except Problem State :=
  if maxNesting ≤ s.stack.length then .error (.tooDeep t)
  else .ok ⟨⟨bracket, t.offset, attached, s.level⟩ :: s.stack, {}, .opened bracket t.stop⟩

/-- Reads the first token of an operand. -/
def startOperand (s : State) (t : Token) : Except Problem State :=
  match t.kind with
  | .name => .ok { s with phase := .complete (.symbol t.text) }
  | .string => .ok { s with phase := .literal t }
  | .opening bracket => s.descend bracket false t
  | .closing _ => .error (.strayCloser t)
  | .unterminatedString => .error (.unterminated t)
  | .invalid => .error (.invalidCharacter t)
  | _ => .error (.noOperand (some t))

/-- The phase behind a group that has been closed by `t` behind the operand `e`. -/
def closed (frame : Frame) (level : Level) (e : Expr) (t : Token) : Phase :=
  match frame.bracket with
  | .round => .complete (.choice (level.choices e))
  | .square => .complete (.optional (level.expr e))
  | .curly =>
    if frame.attached then .braced (level.expr e) t.stop else .complete (.plus (level.expr e))

/-- Reads the token behind the operand `e`. -/
def afterOperand (s : State) (e : Expr) (t : Token) : Except Problem State :=
  match t.kind with
  | .comma => .ok { s with level := s.level.addItem e, phase := .operand }
  | .pipe => .ok { s with level := s.level.addAlternative e, phase := .operand }
  | _ =>
    match s.stack with
    | [] => .error (.leftover t)
    | frame :: outer =>
      if t.kind = .closing frame.bracket then
        .ok ⟨outer, frame.outer, closed frame s.level e t⟩
      else .error (.unclosed frame.bracket frame.offset (some t))

/-- Closes the innermost group, whose whole value is `e`. -/
def closeAs (s : State) (e : Expr) : State :=
  match s.stack with
  | [] => { s with phase := .complete e }
  | frame :: outer => ⟨outer, frame.outer, .complete e⟩

/-- The one character that a string holds as it is written. -/
def boundary (t : Token) : Except Problem Char :=
  match Quoted.body t.text with
  | [c] => .ok c
  | _ => .error (.badBoundary t)

/-- Reads one token. -/
def step (s : State) (t : Token) : Except Problem State :=
  match s.phase with
  | .operand => s.startOperand t
  | .opened bracket stop =>
    if bracket = .round ∧ t.kind = .closing .round then .ok (s.closeAs (.choice []))
    else if bracket = .square ∧ t.kind = .opening .curly ∧ t.offset = stop then
      s.descend .curly true t
    else s.startOperand t
  | .literal string =>
    if t.kind = .ellipsis then .ok { s with phase := .boundary string }
    else s.afterOperand (.terminal (Quoted.decode string.text)) t
  | .boundary first =>
    if t.kind = .string then do
      let lower ← boundary first
      let upper ← boundary t
      .ok { s with phase := .complete (.range ⟨lower, upper⟩) }
    else .error (.noBoundary (some t))
  | .braced body stop =>
    if t.kind = .closing .square ∧ t.offset = stop then .ok (s.closeAs (.star body))
    else s.afterOperand (.plus body) t
  | .complete e => s.afterOperand e t

/-- The expression that ends with the operand `e` in front of `found`. -/
def conclude (s : State) (e : Expr) (found : Option Token) : Except Problem Expr :=
  match s.stack with
  | [] => .ok (s.level.expr e)
  | frame :: _ => .error (.unclosed frame.bracket frame.offset found)

/-- The expression that has been read when `found` or the end of the text ends it. -/
def finish (s : State) (found : Option Token) : Except Problem Expr :=
  match s.phase with
  | .operand | .opened _ _ => .error (.noOperand found)
  | .literal string => s.conclude (.terminal (Quoted.decode string.text)) found
  | .boundary _ => .error (.noBoundary found)
  | .braced body _ => s.conclude (.plus body) found
  | .complete e => s.conclude e found

/-- Reads tokens up to the first fault. -/
def run (s : State) (tokens : List Token) : Except Problem State :=
  tokens.foldlM step s

end State

end Ebnf.Reading
