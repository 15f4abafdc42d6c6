import Formulary.Operator
import Formulary.Tree.Basic

/-!
This module contains the printed form of trees, in which parentheses enclose every application of an
operator. The work list of the printer grows on the heap, so deep trees print as well as flat ones.
-/

namespace Formulary

/--
How `alphabet` writes the operator of a node. Plain text goes as it is, the signs exist for the five
operators only.
-/
def Alphabet.write (alphabet : Alphabet) (op : String) : Except Fault String :=
  match alphabet with
  | .ascii => .ok op
  | .unicode =>
    match Operator.ofText? op with
    | some op => .ok op.sign
    | none => .error (.unknownOperator op)

namespace Tree

/--
What is still to be printed: finished text or a tree.
-/
inductive Piece where
  | text (text : String)
  | node (tree : Tree)

def Piece.weight : Piece → Nat
  | text _ => 1
  | node tree => 4 * tree.size

/--
The printed form of a tree. An absent tree prints as nothing, but inside a tree no node may be
absent. The node that comes first decides which fault is reported.
-/
def render (tree : Tree) (alphabet : Alphabet) : Except Fault String :=
  match tree with
  | absent => .ok ""
  | tree => go "" [.node tree]
where
  go (written : String) : List Piece → Except Fault String
    | [] => .ok written
    | .text text :: pieces => go (written ++ text) pieces
    | .node absent :: _ => .error .missingNode
    | .node (constant value) :: pieces => go (written ++ value) pieces
    | .node (identifier name) :: pieces => go (written ++ name) pieces
    | .node (unary op operand) :: pieces =>
      match alphabet.write op with
      | .error fault => .error fault
      | .ok sign => go (written ++ "(" ++ sign) (.node operand :: .text ")" :: pieces)
    | .node (binary op left right) :: pieces =>
      match alphabet.write op with
      | .error fault => .error fault
      | .ok sign =>
        go (written ++ "(")
          (.node left :: .text (" " ++ sign ++ " ") :: .node right :: .text ")" :: pieces)
  termination_by pieces => (pieces.map Piece.weight).foldr (· + ·) 0
  decreasing_by
    all_goals
      simp only [List.map_cons, List.foldr_cons, Piece.weight, size]
      omega

end Tree

end Formulary
