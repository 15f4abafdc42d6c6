import Formulary.Proofs.Tree.Traversal

/-!
This module contains what printing gives for any tree, however it was built: the printed form by
recursion on the tree, or the fault of the first node that cannot be printed.
-/

namespace Formulary

theorem Operator.ofText?_eq_none_iff {text : String} :
    ofText? text = none ↔ text ∉ all.map Operator.text := by
  simp [ofText?]

theorem Alphabet.write_eq_error_iff {alphabet : Alphabet} {op : String} {fault : Fault} :
    alphabet.write op = .error fault
      ↔
    alphabet = .unicode ∧ op ∉ Operator.all.map Operator.text ∧ fault = .unknownOperator op := by
  rw [← Operator.ofText?_eq_none_iff]
  cases alphabet with
  | ascii => simp [write]
  | unicode => cases hop : Operator.ofText? op <;> simp [write, hop, eq_comm]

@[simp]
theorem Alphabet.spell_unicode_text (op : Operator) : unicode.spell op.text = op.sign := by
  simp [spell, write]

namespace Tree

/--
`NodeFault alphabet node fault`: the node by itself cannot be printed in `alphabet`, since it is
absent or since its operator has no sign.
-/
inductive NodeFault : Alphabet → Tree → Fault → Prop where
  | missingNode (alphabet : Alphabet) : NodeFault alphabet absent .missingNode
  | unary {op : String} (operand : Tree) (h : op ∉ Operator.all.map Operator.text) :
    NodeFault .unicode (unary op operand) (.unknownOperator op)
  | binary {op : String} (left right : Tree) (h : op ∉ Operator.all.map Operator.text) :
    NodeFault .unicode (binary op left right) (.unknownOperator op)

/--
The tree has a node that cannot be printed because of `fault`, and all nodes before it can.
-/
def FirstFault (alphabet : Alphabet) (tree : Tree) (fault : Fault) : Prop :=
  ∃ before node after, tree.preorder = before ++ node :: after ∧ NodeFault alphabet node fault
    ∧ ∀ other ∈ before, ∀ fault, ¬ NodeFault alphabet other fault

section

variable {alphabet : Alphabet} {tree node : Tree} {fault : Fault}

theorem opFault?_eq_some_iff {op : String} :
    nodeFault?.opFault? alphabet op = some fault ↔ alphabet.write op = .error fault := by
  unfold nodeFault?.opFault?
  split
  . next h => simp [h]
  . next h => simp [h]

theorem nodeFault?_eq_some_iff :
    nodeFault? alphabet node = some fault ↔ NodeFault alphabet node fault := by
  constructor
  . intro h
    cases node with
    | absent =>
      obtain rfl := Option.some.inj h
      exact .missingNode alphabet
    | constant => cases h
    | identifier => cases h
    | unary op operand =>
      obtain ⟨rfl, hop, rfl⟩ := Alphabet.write_eq_error_iff.1 (opFault?_eq_some_iff.1 h)
      exact .unary operand hop
    | binary op left right =>
      obtain ⟨rfl, hop, rfl⟩ := Alphabet.write_eq_error_iff.1 (opFault?_eq_some_iff.1 h)
      exact .binary left right hop
  . intro h
    cases h with
    | missingNode => rfl
    | unary _ hop => exact opFault?_eq_some_iff.2 (Alphabet.write_eq_error_iff.2 ⟨rfl, hop, rfl⟩)
    | binary _ _ hop => exact opFault?_eq_some_iff.2 (Alphabet.write_eq_error_iff.2 ⟨rfl, hop, rfl⟩)

theorem nodeFault?_eq_none_iff :
    nodeFault? alphabet node = none ↔ ∀ fault, ¬ NodeFault alphabet node fault := by
  simp only [← nodeFault?_eq_some_iff, Option.eq_none_iff_forall_ne_some, ne_eq]

theorem firstFault_iff :
    FirstFault alphabet tree fault
      ↔
    tree.preorder.findSome? (nodeFault? alphabet) = some fault := by
  simp only [FirstFault, List.findSome?_eq_some_iff, nodeFault?_eq_some_iff, nodeFault?_eq_none_iff]

theorem render_eq_error_iff (h : tree ≠ absent) :
    tree.render alphabet = .error fault ↔ FirstFault alphabet tree fault := by
  rw [render_eq h, firstFault_iff]
  cases tree.preorder.findSome? (nodeFault? alphabet) with
  | none => simp
  | some => simp

theorem render_eq_ok_iff (h : tree ≠ absent) {text : String} :
    tree.render alphabet = .ok text
      ↔
    text = tree.form alphabet.spell
      ∧ ∀ node ∈ tree.preorder, ∀ fault, ¬ NodeFault alphabet node fault := by
  simp only [← nodeFault?_eq_none_iff, ← List.findSome?_eq_none_iff]
  rw [render_eq h]
  cases tree.preorder.findSome? (nodeFault? alphabet) with
  | none => simp [eq_comm]
  | some => simp

end

theorem render_form_or_first_fault (tree : Tree) (alphabet : Alphabet) :
    (tree = absent → tree.render alphabet = .ok "")
      ∧ (tree ≠ absent →
        (∀ text, tree.render alphabet = .ok text ↔ text = tree.form alphabet.spell
          ∧ ∀ node ∈ tree.preorder, ∀ fault, ¬ NodeFault alphabet node fault)
        ∧ ∀ fault, tree.render alphabet = .error fault ↔ FirstFault alphabet tree fault)
      ∧ (∀ op, Alphabet.ascii.spell op = op)
      ∧ (∀ op : Operator, Alphabet.unicode.spell op.text = op.sign)
      ∧ Fault.missingNode.message = "not a formula node: None"
      ∧ ∀ op, (Fault.unknownOperator op).message = quote op := by
  refine ⟨?_, ?_, Alphabet.spell_ascii, Alphabet.spell_unicode_text, rfl, fun _ => rfl⟩
  . rintro rfl
    rfl
  . intro h
    exact ⟨fun _ => render_eq_ok_iff h, fun _ => render_eq_error_iff h⟩

/--
An absent node comes before the operator without a sign in the first tree, and after it in the
second one.
-/
theorem render_form_or_first_fault_below_operators :
    let tree := binary "->" (unary "~" absent) (unary "!" (identifier "a"))
    let other := binary "->" (unary "!" (identifier "a")) (unary "~" absent)
    let printable := binary "->" (unary "!" (identifier "a")) (unary "~" (constant "?"))
    tree ≠ absent ∧ other ≠ absent ∧ printable ≠ absent
      ∧ tree.render .unicode = .error .missingNode
      ∧ other.render .unicode = .error (.unknownOperator "!")
      ∧ other.render .ascii = .error .missingNode
      ∧ printable.render .ascii = .ok "((!a) -> (~?))" := by
  intro tree other printable
  have htree : tree ≠ absent := Tree.noConfusion
  have hother : other ≠ absent := Tree.noConfusion
  have hprintable : printable ≠ absent := Tree.noConfusion
  have hascii : printable.preorder.findSome? (nodeFault? .ascii) = none := by rfl
  simp only [List.findSome?_eq_none_iff, nodeFault?_eq_none_iff] at hascii
  obtain ⟨_, hfault⟩ := (render_form_or_first_fault tree .unicode).2.1 htree
  obtain ⟨_, hsign⟩ := (render_form_or_first_fault other .unicode).2.1 hother
  obtain ⟨_, hmissing⟩ := (render_form_or_first_fault other .ascii).2.1 hother
  obtain ⟨htext, _⟩ := (render_form_or_first_fault printable .ascii).2.1 hprintable
  refine ⟨htree, hother, hprintable, ?_, ?_, ?_, ?_⟩
  . exact (hfault _).2 (firstFault_iff.2 rfl)
  . exact (hsign _).2 (firstFault_iff.2 rfl)
  . exact (hmissing _).2 (firstFault_iff.2 rfl)
  . exact (htext _).2 ⟨rfl, hascii⟩

end Tree

end Formulary
