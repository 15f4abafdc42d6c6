import Formulary.Operator
import Formulary.Token.Basic
import Formulary.Tree.Basic

/-!
This module contains the tokens that a tree stands for, read from left to right without parentheses.
-/

namespace Formulary

def Token.content (token : Token) : TokenKind × String :=
  (token.kind, token.text)

namespace Tree

def opSpelling (op : String) : List (TokenKind × String) :=
  op.toList.map fun c => (.symbol, c.toString)

/--
The tokens of a tree in the order of a formula, without parentheses.
-/
def spelling : Tree → List (TokenKind × String)
  | absent => []
  | constant value => [(.symbol, value)]
  | identifier name => [(.identifier, name)]
  | unary op operand => opSpelling op ++ operand.spelling
  | binary op left right => left.spelling ++ opSpelling op ++ right.spelling

theorem opSpelling_text (op : Operator) :
    opSpelling op.text = op.spelling.map (TokenKind.symbol, ·) := by
  cases op <;> decide

end Tree

end Formulary
