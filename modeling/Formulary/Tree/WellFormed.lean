import Formulary.Operator
import Formulary.Text.Name
import Formulary.Tree.Basic

/-!
This module contains the trees that formulas have: no node is absent, and every text is one that can
stand in its place.
-/

namespace Formulary

namespace Tree

def WellFormed : Tree → Prop
  | absent => False
  | constant value => value = "T" ∨ value = "F"
  | identifier name => isName name ∧ name ≠ "T" ∧ name ≠ "F"
  | unary op operand => op = Operator.not.text ∧ operand.WellFormed
  | binary op left right =>
    op ∈ Operator.binary.map Operator.text ∧ left.WellFormed ∧ right.WellFormed

instance WellFormed.decidable : (tree : Tree) → Decidable tree.WellFormed
  | absent => inferInstanceAs (Decidable False)
  | constant value => inferInstanceAs (Decidable (value = "T" ∨ value = "F"))
  | identifier name => inferInstanceAs (Decidable (isName name ∧ name ≠ "T" ∧ name ≠ "F"))
  | unary op operand =>
    have := decidable operand
    inferInstanceAs (Decidable (op = Operator.not.text ∧ operand.WellFormed))
  | binary op left right =>
    have := decidable left
    have := decidable right
    inferInstanceAs (Decidable (op ∈ Operator.binary.map Operator.text
      ∧ left.WellFormed ∧ right.WellFormed))

end Tree

end Formulary
