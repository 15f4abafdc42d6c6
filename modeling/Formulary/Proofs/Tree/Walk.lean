import Formulary.Proofs.Tree.Traversal
import Mathlib.Data.Finset.Insert

/-!
This module contains the runs of the work lists that measure a tree. A run may take the trees of its
list in any order: an absent node stops it wherever it stands, and without one every order comes to
the same answer.
-/

namespace Formulary

namespace Tree

/--
The runs from a list of trees that are still to be visited, each at its level, to an answer. Any of
them may be visited next, and its children are to be visited after it.
-/
inductive Walk {σ : Type} (visit : σ → Tree × Nat → σ) :
    σ → List (Tree × Nat) → Except Fault σ → Prop where
  | done (state : σ) : Walk visit state [] (.ok state)
  | fault {state : σ} {pending rest : List (Tree × Nat)} {tree : Tree} {level : Nat} {fault : Fault}
      (hnext : pending.Perm ((tree, level) :: rest)) (hchildren : tree.children = .error fault) :
      Walk visit state pending (.error fault)
  | step {state : σ} {pending rest : List (Tree × Nat)} {tree : Tree} {level : Nat}
      {trees : List Tree} {answer : Except Fault σ}
      (hnext : pending.Perm ((tree, level) :: rest)) (hchildren : tree.children = .ok trees)
      (hrest : Walk visit (visit state (tree, level)) (trees.map (·, level + 1) ++ rest) answer) :
      Walk visit state pending answer

def nodesAt : Tree → Nat → List (Tree × Nat)
  | absent, level => [(absent, level)]
  | constant value, level => [(constant value, level)]
  | identifier name, level => [(identifier name, level)]
  | unary op operand, level => (unary op operand, level) :: operand.nodesAt (level + 1)
  | binary op left right, level =>
    (binary op left right, level) :: (left.nodesAt (level + 1) ++ right.nodesAt (level + 1))

def nodesOf (pending : List (Tree × Nat)) : List (Tree × Nat) :=
  pending.flatMap fun entry => entry.1.nodesAt entry.2

def visitAll {σ : Type} (visit : σ → Tree × Nat → σ) (state : σ) (nodes : List (Tree × Nat)) :
    Except Fault σ :=
  if absent ∈ nodes.map Prod.fst then
    .error .missingNode
  else
    .ok (nodes.foldl visit state)

theorem map_fst_nodesAt (tree : Tree) (level : Nat) :
    (tree.nodesAt level).map Prod.fst = tree.preorder := by
  induction tree generalizing level with
  | absent => rfl
  | constant => rfl
  | identifier => rfl
  | unary _ _ ih => rw [nodesAt, List.map_cons, ih, preorder]
  | binary _ _ _ lih rih => rw [nodesAt, List.map_cons, List.map_append, lih, rih, preorder]

theorem nodesOf_cons (tree : Tree) (level : Nat) (rest : List (Tree × Nat)) :
    nodesOf ((tree, level) :: rest) = tree.nodesAt level ++ nodesOf rest :=
  List.flatMap_cons

theorem nodesOf_singleton (tree : Tree) (level : Nat) :
    nodesOf [(tree, level)] = tree.nodesAt level :=
  List.flatMap_singleton ..

theorem nodesOf_append (pending other : List (Tree × Nat)) :
    nodesOf (pending ++ other) = nodesOf pending ++ nodesOf other :=
  List.flatMap_append

section

variable {tree : Tree} {trees : List Tree} {fault : Fault}

theorem children_eq_error_iff :
    tree.children = .error fault ↔ tree = absent ∧ fault = .missingNode := by
  cases tree <;> simp [children, eq_comm]

theorem ne_absent_of_children (h : tree.children = .ok trees) : tree ≠ absent := by
  rintro rfl
  cases h

theorem nodesAt_of_children (h : tree.children = .ok trees) (level : Nat) :
    tree.nodesAt level = (tree, level) :: nodesOf (trees.map (·, level + 1)) := by
  cases tree with
  | absent => cases h
  | _ =>
    cases h
    simp [nodesAt, nodesOf]

end

section

variable {σ : Type} {visit : σ → Tree × Nat → σ} {state : σ} {answer : Except Fault σ}

theorem visitAll_absent (level : Nat) (rest : List (Tree × Nat)) :
    visitAll visit state ((absent, level) :: rest) = .error .missingNode := by
  simp [visitAll]

theorem visitAll_cons {tree : Tree} (h : tree ≠ absent) (level : Nat) (rest : List (Tree × Nat)) :
    visitAll visit state ((tree, level) :: rest)
      =
    visitAll visit (visit state (tree, level)) rest := by
  have hmem : absent ∈ ((tree, level) :: rest).map Prod.fst ↔ absent ∈ rest.map Prod.fst := by
    rw [List.map_cons, List.mem_cons, or_iff_right h.symm]
  simp only [visitAll, hmem, List.foldl_cons]

theorem visitAll_perm [RightCommutative visit] {pending other : List (Tree × Nat)}
    (h : pending.Perm other) :
    visitAll visit state (nodesOf pending) = visitAll visit state (nodesOf other) := by
  have hnodes : (nodesOf pending).Perm (nodesOf other) := h.flatMap_right _
  simp only [visitAll, (hnodes.map Prod.fst).mem_iff, hnodes.foldl_eq]

theorem visitAll_nodesAt_eq_error_iff {tree : Tree} {level : Nat} :
    visitAll visit state (tree.nodesAt level) = .error .missingNode ↔ absent ∈ tree.preorder := by
  rw [visitAll, map_fst_nodesAt]
  split
  . next h => simp [h]
  . next h => simp [h]

theorem Walk.eq_visitAll [RightCommutative visit] {pending : List (Tree × Nat)}
    (h : Walk visit state pending answer) : answer = visitAll visit state (nodesOf pending) := by
  induction h with
  | done => rfl
  -- Visits may change places, so the tree that comes next may be put in front.
  | fault hnext hchildren =>
    obtain ⟨rfl, rfl⟩ := children_eq_error_iff.1 hchildren
    rw [visitAll_perm hnext, nodesOf_cons, nodesAt, List.cons_append, visitAll_absent]
  | step hnext hchildren _ ih =>
    have hpresent := ne_absent_of_children hchildren
    rw [visitAll_perm hnext, nodesOf_cons, nodesAt_of_children hchildren, List.cons_append,
      visitAll_cons hpresent, ← nodesOf_append, ih]

theorem Walk.iff_eq [RightCommutative visit] {pending : List (Tree × Nat)}
    (h : Walk visit state pending answer) (other : Except Fault σ) :
    Walk visit state pending other ↔ other = answer := by
  constructor
  . intro hother
    rw [hother.eq_visitAll, h.eq_visitAll]
  . rintro rfl
    exact h

end

def deepen (deepest : Nat) (entry : Tree × Nat) : Nat :=
  max deepest entry.2

def collect (names : Finset String) (entry : Tree × Nat) : Finset String :=
  match entry.1 with
  | identifier name => insert name names
  | _ => names

instance : RightCommutative deepen where
  right_comm deepest entry other := Nat.max_right_comm deepest entry.2 other.2

instance : RightCommutative collect where
  right_comm names entry other := by
    unfold collect
    split
    . split
      . apply Finset.insert_comm
      . rfl
    . rfl

theorem depth.go_walk (deepest : Nat) (pending : List (Tree × Nat)) :
    Walk deepen deepest pending (depth.go deepest pending) := by
  -- The loop takes what stands in front of its list, which is one of the orders there are.
  fun_induction go deepest pending with
  | case1 deepest => exact .done deepest
  | case2 => exact .fault (.refl _) rfl
  | case3 _ _ _ _ ih => exact .step (.refl _) rfl ih
  | case4 _ _ _ _ ih => exact .step (.refl _) rfl ih
  | case5 _ _ _ _ _ ih => exact .step (.refl _) rfl ih
  | case6 _ _ _ _ _ _ ih => exact .step (.refl _) rfl ih

theorem identifiers.go_walk (names : List String) (pending : List (Tree × Nat)) :
    Walk collect names.toFinset pending
      ((identifiers.go names (pending.map Prod.fst)).map List.toFinset) := by
  -- The loop keeps no levels, so that those of the walk are arbitrary.
  generalize htrees : pending.map Prod.fst = trees
  fun_induction go names trees generalizing pending with
  | case1 names =>
    rw [List.map_eq_nil_iff.1 htrees]
    exact .done names.toFinset
  | case2 names rest =>
    obtain ⟨⟨tree, level⟩, rest, rfl, rfl, _⟩ := List.map_eq_cons_iff.1 htrees
    exact .fault (.refl _) rfl
  | case3 names value rest ih =>
    obtain ⟨⟨tree, level⟩, rest, rfl, rfl, hrest⟩ := List.map_eq_cons_iff.1 htrees
    exact .step (.refl _) rfl (ih rest hrest)
  | case4 names name rest ih =>
    obtain ⟨⟨tree, level⟩, rest, rfl, rfl, hrest⟩ := List.map_eq_cons_iff.1 htrees
    have hnext := ih rest hrest
    rw [List.toFinset_cons] at hnext
    exact .step (.refl _) rfl hnext
  | case5 names op operand rest ih =>
    obtain ⟨⟨tree, level⟩, rest, rfl, rfl, hrest⟩ := List.map_eq_cons_iff.1 htrees
    exact .step (.refl _) rfl (ih ((operand, level + 1) :: rest) (by rw [List.map_cons, hrest]))
  | case6 names op left right rest ih =>
    obtain ⟨⟨tree, level⟩, rest, rfl, rfl, hrest⟩ := List.map_eq_cons_iff.1 htrees
    have hnext := ih ((left, level + 1) :: (right, level + 1) :: rest)
      (by rw [List.map_cons, List.map_cons, hrest])
    exact .step (.refl _) rfl hnext

end Tree

end Formulary
