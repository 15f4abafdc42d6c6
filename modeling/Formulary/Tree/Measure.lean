import Formulary.Tree.Basic

/-!
This module contains what is read off a tree without printing it: its depth and its identifiers.
Both walk a work list, and both stop at an absent node.
-/

namespace Formulary

namespace Tree

/--
The length of the longest path from the root, counted in nodes. An absent tree has depth 0.
-/
def depth : Tree → Except Fault Nat
  | absent => .ok 0
  | tree => go 0 [(tree, 1)]
where
  go (deepest : Nat) : List (Tree × Nat) → Except Fault Nat
    | [] => .ok deepest
    | (absent, _) :: _ => .error .missingNode
    | (constant _, level) :: rest => go (max deepest level) rest
    | (identifier _, level) :: rest => go (max deepest level) rest
    | (unary _ operand, level) :: rest => go (max deepest level) ((operand, level + 1) :: rest)
    | (binary _ left right, level) :: rest =>
      go (max deepest level) ((left, level + 1) :: (right, level + 1) :: rest)
  termination_by trees => (trees.map fun entry => entry.1.size).foldr (· + ·) 0
  decreasing_by
    all_goals
      simp only [List.map_cons, List.foldr_cons, size]
      omega

/--
The distinct names of the identifiers in a tree, in the order of their code points.
-/
def identifiers (tree : Tree) : Except Fault (List String) :=
  match go [] [tree] with
  | .error fault => .error fault
  | .ok names => .ok (names.mergeSort (· ≤ ·)).eraseReps
where
  go (names : List String) : List Tree → Except Fault (List String)
    | [] => .ok names
    | absent :: _ => .error .missingNode
    | constant _ :: rest => go names rest
    | identifier name :: rest => go (name :: names) rest
    | unary _ operand :: rest => go names (operand :: rest)
    | binary _ left right :: rest => go names (left :: right :: rest)
  termination_by trees => (trees.map size).foldr (· + ·) 0
  decreasing_by
    all_goals
      simp only [List.map_cons, List.foldr_cons, size]
      omega

end Tree

end Formulary
