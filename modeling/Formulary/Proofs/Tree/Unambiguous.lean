import Formulary.Proofs.Tree.Printing
import Formulary.Proofs.Tree.RoundTrip
import Mathlib.Data.List.Basic

/-!
This module contains what the printed form of a formula says about its tree: all of it, in either
alphabet and at any depth. The limit on nesting plays no part, since it is a limit of reading and not
of the grammar.
-/

namespace Formulary

def asciiOf (c : Char) : List Char :=
  match Operator.all.find? (·.sign == c.toString) with
  | some op => op.text.toList
  | none => [c]

/--
The text with the text of an operator in the place of each of its signs.
-/
def inAscii (text : String) : String :=
  String.ofList (text.toList.flatMap asciiOf)

theorem flatMap_asciiOf_sign (op : Operator) : op.sign.toList.flatMap asciiOf = op.text.toList := by
  cases op <;> rfl

theorem isAlphanum_of_mem_sign (op : Operator) : ∀ c ∈ op.sign.toList, c.isAlphanum = false := by
  have hall : (op.sign.toList.all fun c => !c.isAlphanum) = true := by
    cases op <;> rfl
  simpa using hall

theorem asciiOf_of_isAlphanum {c : Char} (h : c.isAlphanum = true) : asciiOf c = [c] := by
  have hnone : Operator.all.find? (·.sign == c.toString) = none := by
    rw [List.find?_eq_none]
    intro op _ hsign
    have hmem : c ∈ op.sign.toList := by simp [eq_of_beq hsign]
    rw [isAlphanum_of_mem_sign op c hmem] at h
    cases h
  rw [asciiOf, hnone]

theorem flatMap_asciiOf_name {name : String} (h : isName name = true) :
    name.toList.flatMap asciiOf = name.toList := by
  have hword : ∀ c ∈ name.toList, asciiOf c = [c] := fun c hc =>
    asciiOf_of_isAlphanum (isAlphanum_of_mem_name h c hc)
  rw [List.flatMap_congr hword, List.flatMap_singleton']

namespace Tree

theorem flatMap_asciiOf_form {tree : Tree} (h : tree.WellFormed) :
    (tree.form Alphabet.unicode.spell).toList.flatMap asciiOf
      =
    (tree.form Alphabet.ascii.spell).toList := by
  have hopening : "(".toList.flatMap asciiOf = "(".toList := rfl
  have hclosing : ")".toList.flatMap asciiOf = ")".toList := rfl
  have hblank : " ".toList.flatMap asciiOf = " ".toList := rfl
  induction tree with
  | absent => cases h
  | constant value =>
    apply flatMap_asciiOf_name
    rcases h with rfl | rfl
    . decide
    . decide
  | identifier name => apply flatMap_asciiOf_name h.1
  | unary op operand ih =>
    obtain ⟨rfl, hoperand⟩ := h
    simp only [form, String.toList_append, List.flatMap_append, hopening, hclosing,
      Alphabet.spell_unicode_text, Alphabet.spell_ascii, flatMap_asciiOf_sign, ih hoperand]
  | binary op left right lih rih =>
    obtain ⟨hop, hleft, hright⟩ := h
    obtain ⟨op, _, rfl⟩ := List.mem_map.1 hop
    simp only [form, String.toList_append, List.flatMap_append, hopening, hclosing, hblank,
      Alphabet.spell_unicode_text, Alphabet.spell_ascii, flatMap_asciiOf_sign, lih hleft, rih hright]

theorem inAscii_form {tree : Tree} (h : tree.WellFormed) :
    inAscii (tree.form Alphabet.unicode.spell) = tree.form Alphabet.ascii.spell := by
  rw [inAscii, flatMap_asciiOf_form h, String.ofList_toList]

theorem eq_of_form_ascii_eq {tree other : Tree} (h : tree.WellFormed) (hother : other.WellFormed)
    (heq : tree.form Alphabet.ascii.spell = other.form Alphabet.ascii.spell) : tree = other := by
  obtain ⟨tokens, hscan, hderives, _⟩ := exists_tokens_of_wellFormed h
  obtain ⟨others, hscanOther, hderivesOther, _⟩ := exists_tokens_of_wellFormed hother
  rw [heq, hscanOther] at hscan
  obtain rfl := Except.ok.inj hscan
  apply hderives.unique hderivesOther

theorem form_eq_iff {tree other : Tree} (h : tree.WellFormed) (hother : other.WellFormed)
    (alphabet : Alphabet) :
    tree.form alphabet.spell = other.form alphabet.spell ↔ tree = other := by
  constructor
  . intro heq
    cases alphabet with
    | ascii => apply eq_of_form_ascii_eq h hother heq
    | unicode =>
      apply eq_of_form_ascii_eq h hother
      rw [← inAscii_form h, ← inAscii_form hother, heq]
  . rintro rfl
    rfl

theorem render_determines_tree {tree other : Tree} (h : tree.WellFormed)
    (hother : other.WellFormed) :
    (∀ alphabet, ∃ text otherText, tree.render alphabet = .ok text
        ∧ other.render alphabet = .ok otherText ∧ (text = otherText ↔ tree = other))
      ∧ ∃ text signed, tree.render .ascii = .ok text ∧ tree.render .unicode = .ok signed
        ∧ inAscii signed = text := by
  constructor
  . intro alphabet
    exact ⟨_, _, render_of_wellFormed h alphabet, render_of_wellFormed hother alphabet,
      form_eq_iff h hother alphabet⟩
  . exact ⟨_, _, render_of_wellFormed h .ascii, render_of_wellFormed h .unicode, inAscii_form h⟩

/--
Two trees that are too deep to be read again and differ in one arrow.
-/
theorem render_determines_tree_below_arrows :
    let tree := binary "->" (negations (2 * maxNesting)) (identifier "T1")
    let other := binary "<->" (negations (2 * maxNesting)) (identifier "T1")
    tree.WellFormed ∧ other.WellFormed
      ∧ (∀ alphabet, ∃ text otherText, tree.render alphabet = .ok text
        ∧ other.render alphabet = .ok otherText ∧ text ≠ otherText)
      ∧ ∃ text signed, other.render .ascii = .ok text ∧ other.render .unicode = .ok signed
        ∧ inAscii signed = text := by
  intro tree other
  have hname : (identifier "T1").WellFormed := by decide
  have htree : tree.WellFormed := ⟨by decide, wellFormed_negations _, hname⟩
  have hother : other.WellFormed := ⟨by decide, wellFormed_negations _, hname⟩
  refine ⟨htree, hother, ?_, (render_determines_tree hother htree).2⟩
  intro alphabet
  obtain ⟨text, otherText, htext, hotherText, hiff⟩ :=
    (render_determines_tree htree hother).1 alphabet
  refine ⟨text, otherText, htext, hotherText, ?_⟩
  intro heq
  have hop : "->" = "<->" := (Tree.binary.inj (hiff.1 heq)).1
  contradiction

end Tree

end Formulary
