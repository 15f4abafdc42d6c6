import Formulary.Grammar.Levels
import Formulary.Grammar.Reason
import Formulary.Token.Scanner

/-!
This module contains whole formulas: the reading of tokens and of texts that are a formula from
their start to their end, and the errors of those that are not.
-/

namespace Formulary

/--
What should stand where a token, or the end of the input, is a surprise.
-/
inductive Wanted where
  | literal
  | endOfInput
  | symbol (text : String)
  deriving DecidableEq, Repr

def Wanted.title : Wanted → String
  | literal => Phrase.literal.title
  | endOfInput => "end of input"
  | symbol text => quote text

/--
Why tokens are no formula. `pos` is the number of tokens in front of the error and `furthest` the
number of tokens that were read before it showed, those of a stub included.
-/
inductive SyntaxError where
  /--
  No formula starts here, or the input goes on after the formula. `found` is the token after the
  furthest one.
  -/
  | unexpected (pos furthest : Nat) (found : Option Token) (wanted : Wanted)
  | incomplete (pos furthest : Nat) (part : Part) (obstacle : Obstacle)
  | tooDeep
  deriving DecidableEq, Repr

namespace SyntaxError

def location (token : Token) : String :=
  match token.span with
  | none => ""
  | some span =>
    toString span.start.line ++ "," ++ toString span.start.column ++ "-"
      ++ toString span.stop.line ++ "," ++ toString span.stop.column ++ ": "

def message : SyntaxError → String
  | unexpected _ _ (some token) wanted =>
    location token ++ Obstacle.token.message ++ ": " ++ quote token.text ++ ", expected: "
      ++ wanted.title
  | unexpected _ _ none wanted => Obstacle.endOfInput.message ++ ", expected: " ++ wanted.title
  | incomplete _ _ part obstacle =>
    "incomplete formula: " ++ (Reason.incomplete part obstacle).message
  | tooDeep => "formula " ++ Reason.tooDeep.message

/--
Where the error is and how far reading got. A formula that is too deep has no such place.
-/
def state : SyntaxError → Nat × Nat
  | unexpected pos furthest _ _ => (pos, furthest)
  | incomplete pos furthest _ _ => (pos, furthest)
  | tooDeep => (0, 0)

end SyntaxError

def readCount (tokens rest : List Token) : Nat :=
  tokens.length - rest.length

def stubLength (stub : Option Stub) : Nat :=
  (stub.map Stub.read).getD 0

def Tree.ofTokens [RecursionLimit] (tokens : List Token) : Except SyntaxError Tree :=
  match Phrase.biconditional.read tokens with
  | .ok ⟨tree, [], _⟩ => .ok tree
  | .ok ⟨_, rest, stub⟩ =>
    let pos := readCount tokens rest
    let ahead := stubLength stub
    let wanted := (stub.map (Wanted.symbol ·.wanted)).getD .endOfInput
    .error (.unexpected pos (pos + ahead) rest[ahead]? wanted)
  | .error .mismatch => .error (.unexpected 0 0 tokens.head? .literal)
  | .error (.missing part rest stub) =>
    let pos := readCount tokens rest
    .error (.incomplete pos (pos + stubLength stub) part (.ofTokens rest))
  | .error .tooDeep => .error .tooDeep

inductive FormulaError where
  | lexical (error : LexError)
  | grammatical (error : SyntaxError)
  deriving DecidableEq, Repr

def Tree.ofText [RecursionLimit] (text : String) : Except FormulaError Tree :=
  match scan text with
  | .error error => .error (.lexical error)
  | .ok tokens =>
    match Tree.ofTokens tokens with
    | .error error => .error (.grammatical error)
    | .ok tree => .ok tree

end Formulary
