/-!
This module contains places in a text and the tokens that a formula is made of.
-/

namespace Formulary

/--
A place in a text: a line and a column. Lines count from 1. So do the columns of characters; column
0 is the place before the first character of a line.
-/
structure Place where
  line : Int
  column : Int
  deriving DecidableEq, Repr

namespace Place

def origin : Place :=
  ⟨1, 0⟩

def right (place : Place) (n : Nat) : Place :=
  ⟨place.line, place.column + n⟩

/--
The place of a character that is read after the one at `place`. A line feed belongs to the line that
it opens.
-/
def advance (place : Place) (c : Char) : Place :=
  if c = '\n' then
    ⟨place.line + 1, 0⟩
  else
    place.right 1

end Place

structure Span where
  start : Place
  stop : Place
  deriving DecidableEq, Repr

/--
What a token is by itself. Tokens that are neither symbols nor identifiers have no part in any
formula.
-/
inductive TokenKind where
  | symbol
  | identifier
  | other
  deriving DecidableEq, Repr

structure Token where
  kind : TokenKind
  text : String
  span : Option Span
  deriving DecidableEq, Repr

namespace Token

def isSymbol (token : Token) (text : String) : Bool :=
  token.kind = .symbol && token.text = text

def isIdentifier (token : Token) : Bool :=
  token.kind = .identifier

@[simp]
theorem isSymbol_iff {token : Token} {text : String} :
    token.isSymbol text = true ↔ token.kind = .symbol ∧ token.text = text := by
  simp [isSymbol]

@[simp]
theorem isIdentifier_iff {token : Token} :
    token.isIdentifier = true ↔ token.kind = .identifier := by
  simp [isIdentifier]

end Token

end Formulary
