/-!
This module contains the five operators of propositional formulas, with their two alphabets and
their spelling in tokens.
-/

namespace Formulary

/--
The operators, from the tightest to the loosest.
-/
inductive Operator where
  | not
  | and
  | or
  | implies
  | iff
  deriving DecidableEq, Repr

namespace Operator

def all : List Operator :=
  [not, and, or, implies, iff]

theorem mem_all (op : Operator) : op ∈ all := by
  cases op <;> simp [all]

def binary : List Operator :=
  [and, or, implies, iff]

/--
The operator in ASCII, which is also its text in trees.
-/
def text : Operator → String
  | not => "~"
  | and => "&"
  | or => "|"
  | implies => "->"
  | iff => "<->"

def sign : Operator → String
  | not => "¬"
  | and => "∧"
  | or => "∨"
  | implies => "→"
  | iff => "↔"

def ofText? (text : String) : Option Operator :=
  all.find? (·.text == text)

@[simp]
theorem ofText?_text (op : Operator) : ofText? op.text = some op := by
  cases op <;> decide

def spelling : Operator → List String
  | not => ["~"]
  | and => ["&"]
  | or => ["|"]
  | implies => ["-", ">"]
  | iff => ["<", "-", ">"]

end Operator

inductive Alphabet where
  | ascii
  | unicode
  deriving DecidableEq, Repr

end Formulary
