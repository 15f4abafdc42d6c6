import Formulary.Text.Blank
import Formulary.Text.Lines
import Formulary.Fault
import Formulary.Token.Basic

/-!
This module contains the scanner, which cuts a text into tokens: the operator characters, one by
one, and the maximal runs of ASCII letters and digits. A run is an identifier, save that `T` and `F`
alone are symbols, and it starts with a letter. Blanks stand between tokens and leave no trace but
the places of what follows.
-/

namespace Formulary

def isOperatorChar (c : Char) : Bool :=
  c ∈ ['~', '&', '|', '(', ')', '<', '>', '-']

def wordKind (word : String) : TokenKind :=
  if word = "T" ∨ word = "F" then
    .symbol
  else
    .identifier

/--
A text that cannot be cut into tokens: the place of the first character that fits nowhere, and the
line that the message shows.
-/
structure LexError where
  place : Place
  line : Option String
  deriving DecidableEq, Repr

/--
The wording of the error. A line that the text does not have cannot be shown.
-/
def LexError.message (error : LexError) : Except Fault String :=
  match error.line with
  | some line =>
    .ok ("cannot tokenize data: " ++ toString error.place.line ++ "," ++ toString error.place.column
      ++ ": \x22" ++ line ++ "\x22")
  | none => .error .noSuchPosition

def scan (text : String) : Except LexError (List Token) :=
  match go [] .origin false text.toList with
  | .ok tokens => .ok tokens
  | .error place => .error ⟨place, (splitLines text)[(place.line - 1).toNat]?⟩
where
  /--
  Adds the tokens of the characters after `place` to `tokens`, the latest of which comes first.
  `inWord` says that a token that is already there goes on.
  -/
  go (tokens : List Token) (place : Place) (inWord : Bool) :
      List Char → Except Place (List Token)
    | [] => .ok tokens.reverse
    | c :: cs =>
      if c.isAlphanum then
        if inWord then
          go tokens (place.advance c) true cs
        else if c.isAlpha then
          let word := c :: cs.takeWhile Char.isAlphanum
          let text := String.ofList word
          let span := ⟨place.right 1, place.right word.length⟩
          go (⟨wordKind text, text, some span⟩ :: tokens) (place.advance c) true cs
        else
          .error (place.right 1)
      else if isOperatorChar c then
        let span := ⟨place.right 1, place.right 1⟩
        go (⟨.symbol, c.toString, some span⟩ :: tokens) (place.advance c) false cs
      else if isBlank c then
        go tokens (place.advance c) false cs
      else
        .error (place.right 1)

end Formulary
