import Ebnf.Backtracking
import Ebnf.CharSet.Members
import Ebnf.Expr.Choice
import Ebnf.Expr.Normal
import Ebnf.Expr.Readable
import Ebnf.Forest
import Ebnf.Grammar.Draft
import Ebnf.Reading.Phrase
import Ebnf.Proofs.Grammar.Stages
import Ebnf.Proofs.CharSet.Members
import Ebnf.Proofs.Token.Tiling
import Ebnf.Proofs.Phrase.Segments
import Ebnf.Proofs.Phrase.Spacing
import Ebnf.Proofs.Phrase.Parts
import Ebnf.Proofs.Phrase.Earliest
import Ebnf.Proofs.Written.Reread
import Ebnf.Proofs.Written.Append
import Ebnf.Proofs.Written.Union
import Ebnf.Proofs.Language.Merging
import Ebnf.Proofs.Parsing.Trees
import Ebnf.Proofs.Parsing.Compiled
import Ebnf.Proofs.Parsing.Literals
import Ebnf.Proofs.CharSet.Planes
import Ebnf.Proofs.Expr.Choices
import Ebnf.Proofs.Written.Rule
import Ebnf.Proofs.Phrase.Groups
import Ebnf.Proofs.Phrase.Places
import Ebnf.Proofs.Token.Junctions
import Ebnf.Proofs.Parsing.Termination
