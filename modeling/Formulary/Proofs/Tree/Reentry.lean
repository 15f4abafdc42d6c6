import Formulary.Proofs.Tree.RoundTrip
import Formulary.Proofs.Tree.WellFormed

/-!
This module contains which formulas can be entered again in their printed form. A chain needs no
parentheses when it is read, but it is printed with a pair of them for each of its operators, so that
the printed form of a long chain is nested too deeply.
-/

namespace Formulary

namespace Tree

theorem ofText_form [RecursionLimit] {tree : Tree} (h : tree.WellFormed) :
    ofText (tree.form Alphabet.ascii.spell)
      =
    if tree.height - 1 ≤ maxNesting then
      .ok tree
    else
      .error (.grammatical .tooDeep) := by
  obtain ⟨tokens, hscan, hderives, hdeepest⟩ := exists_tokens_of_wellFormed h
  rw [← hdeepest]
  split
  . next hle =>
    have hread := ofTokens_of_derives (nestedWithin_iff.2 hle) hderives
    simp only [ofText, hscan, hread]
  . next hdeep =>
    have hread := ofTokens_of_deep hderives (Nat.lt_of_not_le hdeep)
    simp only [ofText, hscan, hread]

def chain : Nat → Tree
  | 0 => identifier "a"
  | n + 1 => binary Operator.and.text (chain n) (identifier "a")

def chainText (n : Nat) : String :=
  String.ofList ('a' :: (List.replicate n [' ', '&', ' ', 'a']).flatten)

def chainContents (n : Nat) : List (TokenKind × String) :=
  (.identifier, "a") :: (List.replicate n [(.symbol, "&"), (.identifier, "a")]).flatten

theorem layout_chainText (n : Nat) : Layout (chainText n).toList (chainContents n) := by
  have hname : isName "a" = true := by decide
  have hends (n : Nat) : EndsWord (List.replicate n [' ', '&', ' ', 'a']).flatten := by
    cases n with
    | zero => simp [EndsWord]
    | succ n => apply EndsWord.of_head (by decide)
  have hrest : Layout (List.replicate n [' ', '&', ' ', 'a']).flatten
      (List.replicate n [(.symbol, "&"), (.identifier, "a")]).flatten := by
    induction n with
    | zero => exact .nil
    | succ n ih =>
      have hoperand := Layout.append_name hname (hends n) ih
      have hsign := Layout.sign (c := '&') (by decide) (hoperand.blank (c := ' ') (by decide))
      exact hsign.blank (c := ' ') (by decide)
  rw [chainText, String.toList_ofList]
  exact Layout.append_name hname (hends n) hrest

theorem chainContents_succ (n : Nat) :
    chainContents (n + 1) = chainContents n ++ [(.symbol, "&"), (.identifier, "a")] := by
  rw [chainContents, List.replicate_succ', List.flatten_append, chainContents, List.cons_append]
  rfl

theorem derives_operand {token : Token} (h : token.content = (.identifier, "a")) :
    Derives .literal [token] (identifier "a") := by
  obtain ⟨hkind, htext⟩ := Prod.mk.inj h
  rw [← htext]
  exact .literal (.atom (.identifier (Token.isIdentifier_iff.2 hkind)))

theorem derives_chain {n : Nat} {tokens : List Token}
    (h : tokens.map Token.content = chainContents n) : Derives .conjunction tokens (chain n) := by
  induction n generalizing tokens with
  | zero =>
    obtain ⟨token, rfl, htoken⟩ := List.map_eq_singleton_iff.1 h
    exact .conjunction (derives_operand htoken)
  | succ n ih =>
    rw [chainContents_succ] at h
    obtain ⟨front, last, rfl, hfront, hlast⟩ := List.map_eq_append_iff.1 h
    obtain ⟨sign, rest, rfl, hsign, hrest⟩ := List.map_eq_cons_iff.1 hlast
    obtain ⟨operand, rfl, hoperand⟩ := List.map_eq_singleton_iff.1 hrest
    have hop : Operator.and.Spelled [sign] := by
      apply Operator.spelled_of_content
      rw [List.map_singleton, hsign]
      rfl
    rw [List.append_cons]
    exact .and hop (ih hfront) (derives_operand hoperand)

theorem mem_chainContents {n : Nat} {content : TokenKind × String} (h : content ∈ chainContents n) :
    content.2 = "a" ∨ content.2 = "&" := by
  induction n with
  | zero =>
    rw [List.mem_singleton.1 h]
    exact .inl rfl
  | succ n ih =>
    rw [chainContents_succ, List.mem_append] at h
    rcases h with h | h
    . apply ih h
    . simp only [List.mem_cons, List.not_mem_nil, or_false] at h
      rcases h with rfl | rfl
      . exact .inr rfl
      . exact .inl rfl

theorem flat_chain {n : Nat} {tokens : List Token}
    (h : tokens.map Token.content = chainContents n) : Flat tokens := by
  apply flat_of_text
  intro token htoken _
  have hmem := List.mem_map_of_mem (f := Token.content) htoken
  rw [h] at hmem
  rcases mem_chainContents hmem with htext | htext
  . change token.text = "a" at htext
    simp [htext]
  . change token.text = "&" at htext
    simp [htext]

theorem ofText_chainText [RecursionLimit] (n : Nat) : ofText (chainText n) = .ok (chain n) := by
  obtain ⟨tokens, hscan, htokens⟩ := scan_of_layout (layout_chainText n)
  have hderives : Derives .biconditional tokens (chain n) :=
    .biconditional (.implication (.disjunction (derives_chain htokens)))
  have hnested : NestedWithin maxNesting tokens := by
    rw [nestedWithin_iff, deepest_of_flat (flat_chain htokens)]
    apply Nat.zero_le
  simp only [ofText, hscan, ofTokens_of_derives hnested hderives]

theorem height_chain (n : Nat) : (chain n).height = n + 1 := by
  induction n with
  | zero => rfl
  | succ n ih =>
    rw [chain, height, ih, height]
    omega

/--
A chain of 200 operators is read, but not its printed form.
-/
theorem chain_not_read_again :
    ofText (chainText 200) = .ok (chain 200)
      ∧ ∃ printed, (chain 200).render .ascii = .ok printed
        ∧ ofText printed = .error (.grammatical .tooDeep) := by
  have hformed := wellFormed_of_ofText (ofText_chainText 200)
  have hdeep : ¬ (chain 200).height - 1 ≤ maxNesting := by
    rw [height_chain]
    decide
  have hread := ofText_form hformed
  rw [if_neg hdeep] at hread
  exact ⟨ofText_chainText 200, _, render_of_wellFormed hformed .ascii, hread⟩

theorem read_again_up_to_limit [RecursionLimit] {text : String} {tree : Tree}
    (h : ofText text = .ok tree) :
    ∃ printed depth, tree.render .ascii = .ok printed ∧ tree.depth = .ok depth
      ∧ (depth - 1 ≤ maxNesting →
        ∃ again, ofText printed = .ok again ∧ again = tree ∧ again.render .ascii = .ok printed)
      ∧ (maxNesting < depth - 1 → ∃ error, ofText printed = .error (.grammatical error)
        ∧ error.message = "formula nested too deeply" ∧ error.state = (0, 0)) := by
  have hformed := wellFormed_of_ofText h
  have hrender := render_of_wellFormed hformed .ascii
  have hread := ofText_form hformed
  refine ⟨_, _, hrender, depth_of_complete hformed.complete, ?_, ?_⟩
  . intro hle
    rw [if_pos hle] at hread
    exact ⟨tree, hread, rfl, hrender⟩
  . intro hdeep
    rw [if_neg (Nat.not_le_of_lt hdeep)] at hread
    exact ⟨.tooDeep, hread, by decide, rfl⟩

/--
The longest chain that can be entered again, and the next one.
-/
theorem read_again_longest_chain :
    (∃ printed, ofText (chainText maxNesting) = .ok (chain maxNesting)
      ∧ (chain maxNesting).render .ascii = .ok printed ∧ ofText printed = .ok (chain maxNesting))
      ∧ ∃ printed error, ofText (chainText (maxNesting + 1)) = .ok (chain (maxNesting + 1))
        ∧ (chain (maxNesting + 1)).render .ascii = .ok printed
        ∧ ofText printed = .error (.grammatical error)
        ∧ error.message = "formula nested too deeply" ∧ error.state = (0, 0) := by
  have hread := ofText_chainText maxNesting
  have hnext := ofText_chainText (maxNesting + 1)
  obtain ⟨printed, depth, hprinted, hdepth, hok, _⟩ := read_again_up_to_limit hread
  obtain ⟨other, height, hother, hheight, _, herror⟩ := read_again_up_to_limit hnext
  rw [depth_of_complete (wellFormed_of_ofText hread).complete, height_chain, Except.ok.injEq]
    at hdepth
  rw [depth_of_complete (wellFormed_of_ofText hnext).complete, height_chain, Except.ok.injEq]
    at hheight
  obtain ⟨again, hagain, rfl, _⟩ := hok (by omega)
  obtain ⟨error, herror⟩ := herror (by omega)
  exact ⟨⟨printed, hread, hprinted, hagain⟩, other, error, hnext, hother, herror⟩

end Tree

end Formulary
