import Formulary.Proofs.Grammar.Acceptance
import Formulary.Proofs.Token.Layout
import Formulary.Proofs.Tree.Traversal

/-!
This module contains the way from a tree to its printed form and back. The printed form is a layout
of tokens, and these are derived as an atom, as deep as the tree is high.
-/

namespace Formulary

namespace Layout

variable {cs : List Char} {contents : List (TokenKind × String)}

theorem append_signs {op : String} (hop : ∀ c ∈ op.toList, isOperatorChar c = true)
    (h : Layout cs contents) : Layout (op.toList ++ cs) (Tree.opSpelling op ++ contents) := by
  unfold Tree.opSpelling
  generalize op.toList = signs at hop
  induction signs with
  | nil => exact h
  | cons c signs ih =>
    simp only [List.mem_cons, forall_eq_or_imp] at hop
    exact .sign hop.1 (ih hop.2)

end Layout

theorem Operator.isOperatorChar_of_mem_text (op : Operator) :
    ∀ c ∈ op.text.toList, isOperatorChar c = true := by
  apply List.all_eq_true.1
  cases op <;> rfl

theorem Operator.spelled_of_content {op : Operator} {tokens : List Token}
    (h : tokens.map Token.content = Tree.opSpelling op.text) : op.Spelled tokens := by
  rw [Tree.opSpelling_text] at h
  constructor
  . intro token htoken
    have hmem := List.mem_map_of_mem (f := Token.content) htoken
    rw [h] at hmem
    obtain ⟨text, _, htext⟩ := List.mem_map.1 hmem
    apply (congrArg Prod.fst htext).symm
  . have htexts := congrArg (List.map Prod.snd) h
    simpa [Function.comp_def, Token.content] using htexts

namespace Tree

def printed : Tree → List (TokenKind × String)
  | absent => []
  | constant value => [(.symbol, value)]
  | identifier name => [(.identifier, name)]
  | unary op operand => (.symbol, "(") :: (opSpelling op ++ operand.printed) ++ [(.symbol, ")")]
  | binary op left right =>
    (.symbol, "(") :: (left.printed ++ opSpelling op ++ right.printed) ++ [(.symbol, ")")]

theorem layout_form {tree : Tree} (h : tree.WellFormed) {cs : List Char}
    {contents : List (TokenKind × String)} (hend : EndsWord cs) (hrest : Layout cs contents) :
    Layout ((tree.form Alphabet.ascii.spell).toList ++ cs) (tree.printed ++ contents) := by
  induction tree generalizing cs contents with
  | absent => cases h
  | constant value =>
    rcases h with rfl | rfl
    . apply Layout.append_name (by decide) hend hrest
    . apply Layout.append_name (by decide) hend hrest
  | identifier name =>
    obtain ⟨hname, htrue, hfalse⟩ := h
    have hlayout := Layout.append_name hname hend hrest
    rwa [wordKind, if_neg (by simp [htrue, hfalse])] at hlayout
  | unary op operand ih =>
    obtain ⟨rfl, hoperand⟩ := h
    have hclosing := Layout.sign (c := ')') (by decide) hrest
    have hoperand := ih hoperand (.of_head (by decide) cs) hclosing
    have hsign := hoperand.append_signs Operator.not.isOperatorChar_of_mem_text
    have hopening := Layout.sign (c := '(') (by decide) hsign
    simpa [form, printed] using hopening
  | binary op left right lih rih =>
    obtain ⟨hop, hleft, hright⟩ := h
    obtain ⟨op, _, rfl⟩ := List.mem_map.1 hop
    -- From the end to the front, since each part has to know that it ends the word before it.
    have hclosing := Layout.sign (c := ')') (by decide) hrest
    have hright := rih hright (.of_head (by decide) cs) hclosing
    have hsign := (hright.blank (c := ' ') (by decide)).append_signs op.isOperatorChar_of_mem_text
    have hleft := lih hleft (.of_head (by decide) _) (hsign.blank (c := ' ') (by decide))
    have hopening := Layout.sign (c := '(') (by decide) hleft
    simpa [form, printed] using hopening

theorem derives_negation {sign tokens : List Token} {operand : Tree}
    (hop : Operator.not.Spelled sign) (h : Derives .atom tokens operand) :
    Derives .biconditional (sign ++ tokens) (unary Operator.not.text operand) :=
  .biconditional (.implication (.disjunction (.conjunction (.not hop h))))

theorem derives_operation {op : Operator} {leftTokens sign rightTokens : List Token}
    {left right : Tree} (hbinary : op ∈ Operator.binary) (hop : op.Spelled sign)
    (hleft : Derives .atom leftTokens left) (hright : Derives .atom rightTokens right) :
    Derives .biconditional (leftTokens ++ sign ++ rightTokens) (binary op.text left right) := by
  cases op with
  | not => simp [Operator.binary] at hbinary
  | and =>
    have := Derives.and hop (hleft.of_atom (by decide)) (hright.of_atom (by decide))
    exact .biconditional (.implication (.disjunction this))
  | or =>
    have := Derives.or hop (hleft.of_atom (by decide)) (hright.of_atom (by decide))
    exact .biconditional (.implication this)
  | implies =>
    have := Derives.implies hop (hleft.of_atom (by decide)) (hright.of_atom (by decide))
    exact .biconditional this
  | iff => exact .iff hop (hleft.of_atom (by decide)) (hright.of_atom (by decide))

theorem isSymbol_of_content {token : Token} {text : String}
    (h : token.content = (.symbol, text)) : token.isSymbol text := by
  rw [Token.isSymbol_iff]
  exact ⟨congrArg Prod.fst h, congrArg Prod.snd h⟩

theorem exists_parentheses {tokens : List Token} {contents : List (TokenKind × String)}
    (h : tokens.map Token.content = (.symbol, "(") :: contents ++ [(.symbol, ")")]) :
    ∃ opening closing inside, tokens = opening :: inside ++ [closing] ∧ opening.isSymbol "("
      ∧ closing.isSymbol ")" ∧ inside.map Token.content = contents := by
  obtain ⟨front, last, rfl, hfront, hlast⟩ := List.map_eq_append_iff.1 h
  obtain ⟨closing, rfl, hclosing⟩ := List.map_eq_singleton_iff.1 hlast
  obtain ⟨opening, inside, rfl, hopening, hinside⟩ := List.map_eq_cons_iff.1 hfront
  exact ⟨opening, closing, inside, rfl, isSymbol_of_content hopening,
    isSymbol_of_content hclosing, hinside⟩

theorem derives_of_printed {tree : Tree} (h : tree.WellFormed) {tokens : List Token}
    (htokens : tokens.map Token.content = tree.printed) :
    Derives .atom tokens tree ∧ ∀ opened, deepest opened tokens = opened + (tree.height - 1) := by
  induction tree generalizing tokens with
  | absent => cases h
  | constant value =>
    obtain ⟨token, rfl, htoken⟩ := List.map_eq_singleton_iff.1 htokens
    obtain rfl : token.text = value := congrArg Prod.snd htoken
    have hsymbol := isSymbol_of_content htoken
    have hconstant : token.isSymbol "T" ∨ token.isSymbol "F" := by
      rcases h with h | h
      . exact .inl (h ▸ hsymbol)
      . exact .inr (h ▸ hsymbol)
    exact ⟨.constant hconstant, deepest_of_flat (flat_of_constant hconstant)⟩
  | identifier name =>
    obtain ⟨token, rfl, htoken⟩ := List.map_eq_singleton_iff.1 htokens
    obtain rfl : token.text = name := congrArg Prod.snd htoken
    have hidentifier : token.isIdentifier := Token.isIdentifier_iff.2 (congrArg Prod.fst htoken)
    exact ⟨.atom (.identifier hidentifier), deepest_of_flat (flat_of_identifier hidentifier)⟩
  -- The tokens fall apart like the printed form, from its outer parentheses inwards.
  | unary op operand ih =>
    obtain ⟨rfl, hoperand⟩ := h
    obtain ⟨opening, closing, inside, rfl, hopening, hclosing, hinside⟩ :=
      exists_parentheses htokens
    obtain ⟨sign, operandTokens, rfl, hsign, htokens⟩ := List.map_eq_append_iff.1 hinside
    have hop := Operator.spelled_of_content hsign
    obtain ⟨hderives, hdeepest⟩ := ih hoperand htokens
    have hinside := derives_negation hop hderives
    refine ⟨.parentheses hopening hclosing hinside, ?_⟩
    intro opened
    have := height_pos hoperand.complete
    rw [deepest_parentheses hopening hclosing (hinside.openAfter_eq _), deepest_append,
      deepest_of_flat hop.flat, openAfter_of_flat hop.flat, hdeepest, height]
    omega
  | binary op left right lih rih =>
    obtain ⟨hop, hleft, hright⟩ := h
    obtain ⟨op, hbinary, rfl⟩ := List.mem_map.1 hop
    obtain ⟨opening, closing, inside, rfl, hopening, hclosing, hinside⟩ :=
      exists_parentheses htokens
    obtain ⟨front, rightTokens, rfl, hfront, hrightTokens⟩ := List.map_eq_append_iff.1 hinside
    obtain ⟨leftTokens, sign, rfl, hleftTokens, hsign⟩ := List.map_eq_append_iff.1 hfront
    have hop := Operator.spelled_of_content hsign
    obtain ⟨hleftDerives, hleftDeepest⟩ := lih hleft hleftTokens
    obtain ⟨hrightDerives, hrightDeepest⟩ := rih hright hrightTokens
    have hinside := derives_operation hbinary hop hleftDerives hrightDerives
    refine ⟨.parentheses hopening hclosing hinside, ?_⟩
    intro opened
    have := height_pos hleft.complete
    have := height_pos hright.complete
    rw [deepest_parentheses hopening hclosing (hinside.openAfter_eq _), deepest_append,
      deepest_append, openAfter_append, hleftDerives.openAfter_eq, deepest_of_flat hop.flat,
      openAfter_of_flat hop.flat, hleftDeepest, hrightDeepest, height]
    omega

theorem exists_tokens_of_wellFormed {tree : Tree} (h : tree.WellFormed) :
    ∃ tokens, scan (tree.form Alphabet.ascii.spell) = .ok tokens
      ∧ Derives .biconditional tokens tree ∧ deepest 0 tokens = tree.height - 1 := by
  have hlayout := layout_form h .nil Layout.nil
  rw [List.append_nil, List.append_nil] at hlayout
  obtain ⟨tokens, hscan, htokens⟩ := scan_of_layout hlayout
  obtain ⟨hderives, hdeepest⟩ := derives_of_printed h htokens
  refine ⟨tokens, hscan, hderives.of_atom (by decide), ?_⟩
  rw [hdeepest, Nat.zero_add]

theorem ofText_render [RecursionLimit] {tree : Tree} (h : tree.WellFormed) :
    ∃ text depth, tree.render .ascii = .ok text ∧ tree.depth = .ok depth
      ∧ (depth - 1 ≤ maxNesting → ofText text = .ok tree)
      ∧ (maxNesting < depth - 1 → ∃ error, ofText text = .error (.grammatical error)
        ∧ error.message = "formula nested too deeply" ∧ error.state = (0, 0)) := by
  obtain ⟨tokens, hscan, hderives, hdeepest⟩ := exists_tokens_of_wellFormed h
  refine ⟨_, _, render_of_wellFormed h .ascii, depth_of_complete h.complete, ?_, ?_⟩
  . intro hle
    have hnested : NestedWithin maxNesting tokens := by
      rw [nestedWithin_iff, hdeepest]
      exact hle
    simp only [ofText, hscan, ofTokens_of_derives hnested hderives]
  . intro hlt
    rw [← hdeepest] at hlt
    refine ⟨.tooDeep, ?_, by decide, rfl⟩
    simp only [ofText, hscan, ofTokens_of_deep hderives hlt]

/--
The `n`-fold negation of `a`, whose printed form opens `n` parentheses.
-/
def negations : Nat → Tree
  | 0 => identifier "a"
  | n + 1 => unary Operator.not.text (negations n)

theorem wellFormed_negations (n : Nat) : (negations n).WellFormed := by
  induction n with
  | zero => decide
  | succ n ih => exact ⟨rfl, ih⟩

theorem height_negations (n : Nat) : (negations n).height = n + 1 := by
  induction n with
  | zero => rfl
  | succ n ih => rw [negations, height, ih]

theorem ofText_render_negations :
    (negations maxNesting).WellFormed ∧ (negations (maxNesting + 1)).WellFormed
      ∧ (∃ text, (negations maxNesting).render .ascii = .ok text
        ∧ ofText text = .ok (negations maxNesting))
      ∧ ∃ text error, (negations (maxNesting + 1)).render .ascii = .ok text
        ∧ ofText text = .error (.grammatical error)
        ∧ error.message = "formula nested too deeply" ∧ error.state = (0, 0) := by
  have hshallow := wellFormed_negations maxNesting
  have hdeep := wellFormed_negations (maxNesting + 1)
  obtain ⟨text, depth, htext, hdepth, hok, _⟩ := ofText_render hshallow
  obtain ⟨other, height, hother, hheight, _, herror⟩ := ofText_render hdeep
  rw [depth_of_complete hshallow.complete, height_negations, Except.ok.injEq] at hdepth
  rw [depth_of_complete hdeep.complete, height_negations, Except.ok.injEq] at hheight
  obtain ⟨error, herror⟩ := herror (by omega)
  exact ⟨hshallow, hdeep, ⟨text, htext, hok (by omega)⟩, other, error, hother, herror⟩

end Tree

end Formulary
