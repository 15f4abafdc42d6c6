import Formulary.Text.Quoted
import Formulary.Tree.Basic

/-!
This module contains the description of a tree node by node, for inspection.
-/

namespace Formulary

namespace Tree

def describe (tree : Tree) : String :=
  go "" tree
where
  go (written : String) : Tree → String
    | absent => written ++ "None"
    | constant value => written ++ "Constant(value=" ++ quote value ++ ")"
    | identifier name => written ++ "Identifier(name=" ++ quote name ++ ")"
    | unary op operand =>
      go (written ++ "UnaryExpr(op=" ++ quote op ++ ", value=") operand ++ ")"
    | binary op left right =>
      let written := go (written ++ "BinaryExpr(op=" ++ quote op ++ ", left=") left
      go (written ++ ", right=") right ++ ")"

end Tree

end Formulary
