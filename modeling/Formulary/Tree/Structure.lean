import Formulary.Tree.Render

/-!
This module contains the printed form, the depth and the identifiers of a tree by recursion on the
tree, in the shape that proofs about trees are stated in.
-/

namespace Formulary

namespace Tree

def Complete : Tree → Prop
  | absent => False
  | constant _ => True
  | identifier _ => True
  | unary _ operand => operand.Complete
  | binary _ left right => left.Complete ∧ right.Complete

/--
The depth of a tree, where an absent node counts as none.
-/
def height : Tree → Nat
  | absent => 0
  | constant _ => 1
  | identifier _ => 1
  | unary _ operand => operand.height + 1
  | binary _ left right => max left.height right.height + 1

def occurrences : Tree → List String
  | absent => []
  | constant _ => []
  | identifier name => [name]
  | unary _ operand => operand.occurrences
  | binary _ left right => left.occurrences ++ right.occurrences

def preorder : Tree → List Tree
  | absent => [absent]
  | constant value => [constant value]
  | identifier name => [identifier name]
  | unary op operand => unary op operand :: operand.preorder
  | binary op left right => binary op left right :: (left.preorder ++ right.preorder)

/--
The fault of a node by itself, when it is printed in `alphabet`.
-/
def nodeFault? (alphabet : Alphabet) : Tree → Option Fault
  | absent => some .missingNode
  | constant _ => none
  | identifier _ => none
  | unary op _ => opFault? op
  | binary op _ _ => opFault? op
where
  opFault? (op : String) : Option Fault :=
    match alphabet.write op with
    | .ok _ => none
    | .error fault => some fault

/--
The printed form of a tree whose operators `write` writes.
-/
def form (write : String → String) : Tree → String
  | absent => ""
  | constant value => value
  | identifier name => name
  | unary op operand => "(" ++ write op ++ operand.form write ++ ")"
  | binary op left right =>
    "(" ++ left.form write ++ " " ++ write op ++ " " ++ right.form write ++ ")"

end Tree

end Formulary
