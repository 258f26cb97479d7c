import Ebnf.Grammar.Basic

/-!
Drafts: rules collected one at a time, unmerged, until a grammar is built from them.
-/

set_option autoImplicit false
set_option relaxedAutoImplicit false

namespace Ebnf

structure Draft where
  rules : List Rule := []
deriving DecidableEq, Inhabited

namespace Draft

def add (draft : Draft) (rule : Rule) : Draft :=
  ⟨draft.rules ++ [rule]⟩

def addAll (draft : Draft) (rules : List Rule) : Draft :=
  ⟨draft.rules ++ rules⟩

/-- Adds every rule of a finished grammar. -/
def addGrammar (draft : Draft) (g : Grammar) : Draft :=
  draft.addAll g.rules

def size (draft : Draft) : Nat :=
  draft.rules.length

def isEmpty (draft : Draft) : Bool :=
  draft.rules.isEmpty

def build (draft : Draft) : Grammar :=
  Grammar.ofRules draft.rules

end Draft

end Ebnf
