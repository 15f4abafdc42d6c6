import Formulary.Text.Quoted

/-!
This module contains the phrases of the grammar. Each is built from the ones before it:

* an atom is `T`, `F`, an identifier or a biconditional in parentheses,
* a literal is an atom or the negation of an atom,
* a conjunction is a chain of literals, a disjunction a chain of conjunctions,
* an implication is a disjunction, or two of them with an arrow in between,
* a biconditional is an implication, or two of them with a double arrow in between.
-/

namespace Formulary

inductive Phrase where
  | identifier
  | atom
  | literal
  | conjunction
  | disjunction
  | implication
  | biconditional
  deriving DecidableEq, Repr

def Phrase.title : Phrase → String
  | identifier => "identifier"
  | atom => "atom"
  | literal => "literal"
  | conjunction => "conjunction"
  | disjunction => "disjunction"
  | implication => "implication"
  | biconditional => "formula"

/--
What has to follow once a phrase has begun: the operand of an operator, the inside of parentheses,
or the parenthesis that closes them.
-/
inductive Part where
  | phrase (phrase : Phrase)
  | closing
  deriving DecidableEq, Repr

def Part.title : Part → String
  | phrase operand => operand.title
  | closing => quote ")"

end Formulary
