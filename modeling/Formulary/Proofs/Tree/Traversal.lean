import Formulary.Tree.Measure
import Formulary.Tree.Structure
import Formulary.Tree.WellFormed

/-!
This module contains the agreement of the work lists that print and measure a tree with the
recursions on the tree.
-/

namespace Formulary

/--
What `alphabet` writes for an operator, where it can write it.
-/
def Alphabet.spell (alphabet : Alphabet) (op : String) : String :=
  match alphabet.write op with
  | .ok sign => sign
  | .error _ => ""

@[simp]
theorem Alphabet.spell_ascii (op : String) : Alphabet.ascii.spell op = op := rfl

namespace Tree

theorem render.go_node (alphabet : Alphabet) (tree : Tree) (written : String)
    (pieces : List Piece) :
    render.go alphabet written (.node tree :: pieces)
      =
    match tree.preorder.findSome? (nodeFault? alphabet) with
    | some fault => .error fault
    | none => render.go alphabet (written ++ tree.form alphabet.spell) pieces := by
  -- The rest of the work list and the text so far stay arbitrary for the trees below.
  induction tree generalizing written pieces with
  | absent => simp [go, preorder, nodeFault?]
  | constant value => simp [go, preorder, nodeFault?, form]
  | identifier name => simp [go, preorder, nodeFault?, form]
  | unary op operand ih =>
    rw [go, preorder, List.findSome?_cons]
    cases hop : alphabet.write op with
    | error fault => simp [nodeFault?, nodeFault?.opFault?, hop]
    | ok sign =>
      simp only [nodeFault?, nodeFault?.opFault?, hop, ih]
      cases operand.preorder.findSome? (nodeFault? alphabet) with
      | some fault => rfl
      | none => simp [go, form, Alphabet.spell, hop, String.append_assoc]
  | binary op left right lih rih =>
    rw [go, preorder, List.findSome?_cons]
    cases hop : alphabet.write op with
    | error fault => simp [nodeFault?, nodeFault?.opFault?, hop]
    | ok sign =>
      simp only [nodeFault?, nodeFault?.opFault?, hop, lih, List.findSome?_append]
      cases left.preorder.findSome? (nodeFault? alphabet) with
      | some fault => rfl
      | none =>
        simp only [go, rih, Option.none_or]
        cases right.preorder.findSome? (nodeFault? alphabet) with
        | some fault => rfl
        | none => simp [form, Alphabet.spell, hop, String.append_assoc]

theorem render_eq {tree : Tree} (h : tree ≠ absent) (alphabet : Alphabet) :
    tree.render alphabet
      =
    match tree.preorder.findSome? (nodeFault? alphabet) with
    | some fault => .error fault
    | none => .ok (tree.form alphabet.spell) := by
  have hstart : tree.render alphabet = render.go alphabet "" [.node tree] := by
    cases tree with
    | absent => contradiction
    | _ => rfl
  rw [hstart, render.go_node, String.empty_append, render.go]

theorem nodeFault?_eq_none_of_wellFormed {tree : Tree} (h : tree.WellFormed)
    (alphabet : Alphabet) : tree.preorder.findSome? (nodeFault? alphabet) = none := by
  have hwrite : ∀ op : Operator, nodeFault?.opFault? alphabet op.text = none := by
    intro op
    cases alphabet <;> simp [nodeFault?.opFault?, Alphabet.write]
  induction tree with
  | absent => cases h
  | constant => rfl
  | identifier => rfl
  | unary op operand ih =>
    obtain ⟨rfl, hoperand⟩ := h
    simp [preorder, nodeFault?, hwrite, ih hoperand]
  | binary op left right lih rih =>
    obtain ⟨hop, hleft, hright⟩ := h
    obtain ⟨op, _, rfl⟩ := List.mem_map.1 hop
    simp [preorder, nodeFault?, hwrite, lih hleft, rih hright]

theorem render_of_wellFormed {tree : Tree} (h : tree.WellFormed) (alphabet : Alphabet) :
    tree.render alphabet = .ok (tree.form alphabet.spell) := by
  have hpresent : tree ≠ absent := by
    rintro rfl
    cases h
  rw [render_eq hpresent, nodeFault?_eq_none_of_wellFormed h]

theorem WellFormed.complete {tree : Tree} (h : tree.WellFormed) : tree.Complete := by
  induction tree with
  | absent => exact h
  | constant => trivial
  | identifier => trivial
  | unary op operand ih => apply ih h.2
  | binary op left right lih rih => exact ⟨lih h.2.1, rih h.2.2⟩

theorem height_pos {tree : Tree} (h : tree.Complete) : 0 < tree.height := by
  cases tree with
  | absent => cases h
  | _ => simp [height]

theorem depth.go_cons {tree : Tree} (h : tree.Complete) (deepest level : Nat)
    (rest : List (Tree × Nat)) :
    depth.go deepest ((tree, level) :: rest)
      =
    depth.go (max deepest (level + tree.height - 1)) rest := by
  induction tree generalizing deepest level rest with
  | absent => cases h
  | constant => simp [go, height]
  | identifier => simp [go, height]
  | unary op operand ih =>
    have : 0 < operand.height := height_pos h
    have hmax : max (max deepest level) (level + 1 + operand.height - 1)
        = max deepest (level + (operand.height + 1) - 1) := by
      omega
    rw [go, ih h, height, hmax]
  | binary op left right lih rih =>
    have := height_pos h.1
    have := height_pos h.2
    have hmax : max (max (max deepest level) (level + 1 + left.height - 1))
          (level + 1 + right.height - 1)
        = max deepest (level + (max left.height right.height + 1) - 1) := by
      omega
    rw [go, lih h.1, rih h.2, height, hmax]

theorem depth_of_complete {tree : Tree} (h : tree.Complete) : tree.depth = .ok tree.height := by
  have hgo := depth.go_cons h 0 1 []
  have := height_pos h
  cases tree with
  | absent => cases h
  | _ =>
    rw [depth, hgo, depth.go]
    . simp
    . simp

theorem identifiers.go_cons {tree : Tree} (h : tree.Complete) (names : List String)
    (rest : List Tree) :
    identifiers.go names (tree :: rest)
      =
    identifiers.go (tree.occurrences.reverse ++ names) rest := by
  induction tree generalizing names rest with
  | absent => cases h
  | constant => simp [go, occurrences]
  | identifier => simp [go, occurrences]
  | unary op operand ih => rw [go, ih h, occurrences]
  | binary op left right lih rih =>
    rw [go, lih h.1, rih h.2, occurrences, List.reverse_append, List.append_assoc]

theorem identifiers_of_complete {tree : Tree} (h : tree.Complete) :
    tree.identifiers = .ok (tree.occurrences.reverse.mergeSort (· ≤ ·)).eraseReps := by
  rw [identifiers, identifiers.go_cons h, identifiers.go, List.append_nil]

end Tree

section

variable {α : Type} [BEq α]

theorem eraseRepsBy_loop_eq_append (a : α) (as seen : List α) :
    List.eraseRepsBy.loop (· == ·) a as seen
      =
    seen.reverse ++ List.eraseRepsBy.loop (· == ·) a as [] := by
  induction as generalizing a seen with
  | nil => simp [List.eraseRepsBy.loop]
  | cons b as ih =>
    rw [List.eraseRepsBy.loop, List.eraseRepsBy.loop]
    split
    . apply ih
    . rw [ih, ih b [a], List.reverse_cons, List.append_assoc]
      rfl

theorem eraseReps_cons_cons (a b : α) (as : List α) :
    (a :: b :: as).eraseReps = if a == b then (a :: as).eraseReps else a :: (b :: as).eraseReps := by
  simp only [List.eraseReps, List.eraseRepsBy]
  rw [List.eraseRepsBy.loop]
  cases a == b with
  | true => rfl
  | false => exact eraseRepsBy_loop_eq_append b as [a]

variable [LawfulBEq α] {b : α} {as : List α}

theorem mem_eraseReps : b ∈ as.eraseReps ↔ b ∈ as := by
  cases as with
  | nil => rfl
  | cons a as =>
    induction as generalizing a with
    | nil => rfl
    | cons c as ih =>
      rw [eraseReps_cons_cons]
      split
      . next h =>
        obtain rfl := eq_of_beq h
        simp [ih]
      . simp [ih]

end

end Formulary
