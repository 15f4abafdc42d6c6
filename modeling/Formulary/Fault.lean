import Formulary.Text.Quoted

/-!
This module contains the faults that stop an operation. They are not about what a formula says but
about a tree, a position or an input that is not there.
-/

namespace Formulary

/--
What can stop an operation: an absent node, an operator that has no sign, a position before the first
element, and input that ends where a line is due.
-/
inductive Fault where
  | missingNode
  | unknownOperator (op : String)
  | noSuchPosition
  | endOfInput
  deriving DecidableEq, Repr

def Fault.message : Fault → String
  | missingNode => "not a formula node: None"
  | unknownOperator op => quote op
  | noSuchPosition => "list index out of range"
  | endOfInput => "EOF when reading a line"

end Formulary
