/-!
Diagnostics for grammar text: a code that says what kind of fault it is, a message, the bytes it
is about, and possibly a hint. A diagnostic that is given no more than its code has the message
of the code and is about nothing at the start of the text.
-/

set_option autoImplicit false
set_option relaxedAutoImplicit false

namespace Ebnf

inductive Diagnostic.Code where
  | invalidCharacter
  | unterminatedString
  | missingSemicolon
  | unclosedCurly
  | unclosedRound
  | unclosedSquare
  | strayCloser
  | missingName
  | missingEquals
  | missingOperand
  | tooDeep
  | badBoundary
deriving DecidableEq, Inhabited, Repr

namespace Diagnostic.Code

/-- The code as it is displayed. The first two digits give the category. -/
def label : Code → String
  | .invalidCharacter => "E0101"
  | .unterminatedString => "E0102"
  | .missingSemicolon => "E0201"
  | .unclosedCurly => "E0202"
  | .unclosedRound => "E0203"
  | .unclosedSquare => "E0204"
  | .strayCloser => "E0205"
  | .missingName => "E0301"
  | .missingEquals => "E0302"
  | .missingOperand => "E0402"
  | .tooDeep => "E0403"
  | .badBoundary => "E0407"

def all : List Code :=
  [.invalidCharacter, .unterminatedString, .missingSemicolon, .unclosedCurly, .unclosedRound,
    .unclosedSquare, .strayCloser, .missingName, .missingEquals, .missingOperand, .tooDeep,
    .badBoundary]

/-- The code that is displayed as `text`. -/
def ofLabel? (text : String) : Option Code :=
  all.find? fun code ↦ code.label == text

/-- Whether the fault lies in separators or brackets. -/
def isStructural : Code → Bool
  | .missingSemicolon | .unclosedCurly | .unclosedRound | .unclosedSquare | .strayCloser => true
  | _ => false

def category : Code → String
  | .invalidCharacter | .unterminatedString => "lexical error"
  | .missingSemicolon | .unclosedCurly | .unclosedRound | .unclosedSquare
  | .strayCloser => "structural error"
  | .missingName | .missingEquals => "production error"
  | .missingOperand | .tooDeep | .badBoundary => "expression error"

def defaultMessage : Code → String
  | .invalidCharacter => "invalid character"
  | .unterminatedString => "unterminated string literal"
  | .missingSemicolon => "missing semicolon"
  | .unclosedCurly => "unclosed brace"
  | .unclosedRound => "unclosed parenthesis"
  | .unclosedSquare => "unclosed bracket"
  | .strayCloser => "unexpected closing delimiter"
  | .missingName => "missing symbol name"
  | .missingEquals => "missing '='"
  | .missingOperand => "missing operand"
  | .tooDeep => "groups nested too deeply"
  | .badBoundary => "range boundary must be a single character"

theorem mem_all (code : Code) : code ∈ all := by
  cases code <;> decide

theorem ofLabel?_label (code : Code) : ofLabel? code.label = some code := by
  cases code <;> decide

end Diagnostic.Code

/-- The bytes from `start` up to but not including `stop`. -/
structure Span where
  start : Nat
  stop : Nat
deriving DecidableEq, Inhabited, Repr

namespace Span

/-- No bytes, at a place in the text. -/
def empty (offset : Nat) : Span :=
  ⟨offset, offset⟩

end Span

structure Diagnostic where
  code : Diagnostic.Code
  message : String := code.defaultMessage
  span : Span := .empty 0
  hint : Option String := none
deriving DecidableEq, Inhabited, Repr

namespace Diagnostic

/-- The diagnostic as it is displayed, with the hint on a line of its own. -/
def text (d : Diagnostic) : String :=
  d.code.label ++ ": " ++ d.message ++ " at " ++ toString d.span.start ++ ".." ++
    toString d.span.stop ++
    match d.hint with
    | none => ""
    | some hint => "\n  hint: " ++ hint

end Diagnostic

end Ebnf
