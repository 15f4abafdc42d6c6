import Formulary.Proofs.Token.Depth
import Formulary.Proofs.Tree.Printing

/-!
This module contains how deep the parentheses of a printed form are nested: one level less than the
tree is high, whatever stands in its nodes, as long as there are no parentheses among it.
-/

namespace Formulary

def charTokens (text : String) : List Token :=
  text.toList.map fun c => ⟨.symbol, c.toString, none⟩

def nesting (text : String) : Nat :=
  deepest 0 (charTokens text)

def Plain (text : String) : Prop :=
  '(' ∉ text.toList ∧ ')' ∉ text.toList

instance (text : String) : Decidable (Plain text) :=
  inferInstanceAs (Decidable (_ ∧ _))

theorem charTokens_append (text other : String) :
    charTokens (text ++ other) = charTokens text ++ charTokens other := by
  simp [charTokens]

theorem deepest_charTokens_parentheses {text : String} {opened : Nat}
    (h : openAfter (opened + 1) (charTokens text) = opened + 1) :
    openAfter opened (charTokens ("(" ++ text ++ ")")) = opened
      ∧ deepest opened (charTokens ("(" ++ text ++ ")"))
        = deepest (opened + 1) (charTokens text) := by
  have hopening : (⟨.symbol, "(", none⟩ : Token).isSymbol "(" := by decide
  have hclosing : (⟨.symbol, ")", none⟩ : Token).isSymbol ")" := by decide
  have htokens : charTokens ("(" ++ text ++ ")")
      = ⟨.symbol, "(", none⟩ :: charTokens text ++ [⟨.symbol, ")", none⟩] := by
    rw [charTokens_append, charTokens_append]
    rfl
  rw [htokens]
  exact ⟨openAfter_parentheses hopening hclosing h, deepest_parentheses hopening hclosing h⟩

theorem isSymbol_char_eq_false {c d : Char} (h : c ≠ d) :
    (⟨.symbol, c.toString, none⟩ : Token).isSymbol d.toString = false := by
  simp [Token.isSymbol, h]

theorem Plain.flat {text : String} (h : Plain text) : Flat (charTokens text) := by
  intro token htoken
  obtain ⟨c, hc, rfl⟩ := List.mem_map.1 htoken
  have hopening : c ≠ '(' := fun heq => h.1 (heq ▸ hc)
  have hclosing : c ≠ ')' := fun heq => h.2 (heq ▸ hc)
  exact ⟨isSymbol_char_eq_false hopening, isSymbol_char_eq_false hclosing⟩

theorem Plain.append {text other : String} (h : Plain text) (hother : Plain other) :
    Plain (text ++ other) := by
  simp only [Plain, String.toList_append, List.mem_append, not_or]
  exact ⟨⟨h.1, hother.1⟩, h.2, hother.2⟩

theorem Operator.plain_sign (op : Operator) : Plain op.sign := by
  cases op <;> decide

theorem Plain.spell {op : String} (h : Plain op) (alphabet : Alphabet) :
    Plain (alphabet.spell op) := by
  cases alphabet with
  | ascii => exact h
  | unicode =>
    cases hop : Operator.ofText? op with
    | none => simp [Alphabet.spell, Alphabet.write, hop, Plain]
    | some op => simp [Alphabet.spell, Alphabet.write, hop, op.plain_sign]

namespace Tree

def texts : Tree → List String
  | absent => []
  | constant value => [value]
  | identifier name => [name]
  | unary op operand => op :: operand.texts
  | binary op left right => op :: (left.texts ++ right.texts)

theorem form_unary (write : String → String) (op : String) (operand : Tree) :
    (unary op operand).form write = "(" ++ (write op ++ operand.form write) ++ ")" := by
  simp only [form, String.append_assoc]

theorem form_binary (write : String → String) (op : String) (left right : Tree) :
    (binary op left right).form write
      =
    "(" ++ (left.form write ++ (" " ++ write op ++ " ") ++ right.form write) ++ ")" := by
  simp only [form, String.append_assoc]

theorem deepest_form {tree : Tree} (h : tree.Complete) (htexts : ∀ text ∈ tree.texts, Plain text)
    (alphabet : Alphabet) (opened : Nat) :
    openAfter opened (charTokens (tree.form alphabet.spell)) = opened
      ∧ deepest opened (charTokens (tree.form alphabet.spell)) = opened + (tree.height - 1) := by
  induction tree generalizing opened with
  | absent => cases h
  | constant value =>
    have hflat := (htexts value List.mem_cons_self).flat
    exact ⟨openAfter_of_flat hflat opened, deepest_of_flat hflat opened⟩
  | identifier name =>
    have hflat := (htexts name List.mem_cons_self).flat
    exact ⟨openAfter_of_flat hflat opened, deepest_of_flat hflat opened⟩
  | unary op operand ih =>
    rw [texts, List.forall_mem_cons] at htexts
    have hsign := (htexts.1.spell alphabet).flat
    obtain ⟨hopen, hdeepest⟩ := ih h htexts.2 (opened + 1)
    have hinside : openAfter (opened + 1)
        (charTokens (alphabet.spell op ++ operand.form alphabet.spell)) = opened + 1 := by
      rw [charTokens_append, openAfter_append, openAfter_of_flat hsign, hopen]
    obtain ⟨houter, hdeeper⟩ := deepest_charTokens_parentheses hinside
    rw [form_unary]
    refine ⟨houter, ?_⟩
    have : 0 < operand.height := height_pos h
    rw [hdeeper, charTokens_append, deepest_append, deepest_of_flat hsign, openAfter_of_flat hsign,
      hdeepest, height]
    omega
  | binary op left right lih rih =>
    rw [texts, List.forall_mem_cons, List.forall_mem_append] at htexts
    obtain ⟨hop, hleft, hright⟩ := htexts
    have hblank : Plain " " := by decide
    have hsign := ((hblank.append (hop.spell alphabet)).append hblank).flat
    obtain ⟨hleftOpen, hleftDeepest⟩ := lih h.1 hleft (opened + 1)
    obtain ⟨hrightOpen, hrightDeepest⟩ := rih h.2 hright (opened + 1)
    have hinside : openAfter (opened + 1)
        (charTokens (left.form alphabet.spell ++ (" " ++ alphabet.spell op ++ " ")
          ++ right.form alphabet.spell)) = opened + 1 := by
      rw [charTokens_append, charTokens_append, openAfter_append, openAfter_append, hleftOpen,
        openAfter_of_flat hsign, hrightOpen]
    obtain ⟨houter, hdeeper⟩ := deepest_charTokens_parentheses hinside
    rw [form_binary]
    refine ⟨houter, ?_⟩
    have := height_pos h.1
    have := height_pos h.2
    rw [hdeeper, charTokens_append, charTokens_append, deepest_append, deepest_append,
      openAfter_append, hleftOpen, deepest_of_flat hsign, openAfter_of_flat hsign, hleftDeepest,
      hrightDeepest, height]
    omega

theorem nesting_form {tree : Tree} (h : tree.Complete) (htexts : ∀ text ∈ tree.texts, Plain text)
    (alphabet : Alphabet) : tree.height = nesting (tree.form alphabet.spell) + 1 := by
  have := height_pos h
  rw [nesting, (deepest_form h htexts alphabet 0).2]
  omega

end Tree

end Formulary
