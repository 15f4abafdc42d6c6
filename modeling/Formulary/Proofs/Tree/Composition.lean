import Formulary.Proofs.Tree.Nesting
import Formulary.Proofs.Tree.RoundTrip
import Formulary.Proofs.Tree.Spacing

/-!
This module contains formulas that are put together from the texts of other formulas. Within
parentheses a text keeps the tree that it has by itself, whatever operators and blanks it contains,
and all that is left to be looked at is how deep the parentheses are nested.
-/

namespace Formulary

theorem Operator.endsWord_text (op : Operator) (cs : List Char) :
    EndsWord (op.text.toList ++ cs) := by
  cases op <;> exact .of_head rfl _

def SameDepth (tokens others : List Token) : Prop :=
  ∀ opened, openAfter opened tokens = openAfter opened others
    ∧ deepest opened tokens = deepest opened others

namespace SameDepth

variable {tokens others more : List Token}

theorem append {later : List Token} (h : SameDepth tokens others) (hlater : SameDepth more later) :
    SameDepth (tokens ++ more) (others ++ later) := by
  intro opened
  obtain ⟨hopen, hdeepest⟩ := h opened
  obtain ⟨hopenLater, hdeepestLater⟩ := hlater (openAfter opened others)
  rw [openAfter_append, openAfter_append, deepest_append, deepest_append, hopen, hopenLater,
    hdeepest, hdeepestLater]
  exact ⟨rfl, rfl⟩

theorem of_flat (h : Flat tokens) (hothers : Flat others) : SameDepth tokens others := by
  intro opened
  rw [openAfter_of_flat h, openAfter_of_flat hothers, deepest_of_flat h, deepest_of_flat hothers]
  exact ⟨rfl, rfl⟩

theorem of_content {token other : Token} (h : token.content = other.content) :
    SameDepth [token] [other] := by
  obtain ⟨hkind, htext⟩ := Prod.mk.inj h
  intro opened
  simp [deepest, openAfter, Token.isSymbol, hkind, htext]

end SameDepth

theorem openAfter_succ_le (opened : Nat) (tokens : List Token) :
    openAfter (opened + 1) tokens ≤ openAfter opened tokens + 1 := by
  induction tokens generalizing opened with
  | nil => apply Nat.le_refl
  | cons token tokens ih =>
    rw [openAfter, openAfter]
    split
    . apply ih
    . split
      . cases opened with
        -- Nothing but the additional parenthesis is there to be closed.
        | zero => apply Nat.le_succ
        | succ opened => apply ih
      . apply ih

theorem deepest_succ_le (opened : Nat) (tokens : List Token) :
    deepest (opened + 1) tokens ≤ deepest opened tokens + 1 := by
  obtain ⟨before, later, rfl, hbefore⟩ := exists_openAfter_eq_deepest (opened + 1) tokens
  have := openAfter_succ_le opened before
  have := openAfter_le_deepest opened before later
  omega

theorem flat_word {token : Token} {name : String} (hname : isName name = true)
    (h : token.content = (wordKind name, name)) : Flat [token] := by
  obtain rfl : token.text = name := congrArg Prod.snd h
  have hother {text : String} (htext : isName text = false) : token.isSymbol text = false := by
    rw [← Bool.not_eq_true, Token.isSymbol_iff]
    rintro ⟨_, rfl⟩
    rw [hname] at htext
    cases htext
  intro other hmem
  rw [List.mem_singleton.1 hmem]
  exact ⟨hother (by decide), hother (by decide)⟩

theorem plain_of_isAlphanum {word : List Char} (h : ∀ c ∈ word, c.isAlphanum = true) :
    Plain (String.ofList word) := by
  rw [Plain, String.toList_ofList]
  constructor
  . intro hopening
    cases h _ hopening
  . intro hclosing
    cases h _ hclosing

theorem Layout.sameDepth {cs : List Char} {contents : List (TokenKind × String)}
    (h : Layout cs contents) {tokens : List Token} (htokens : tokens.map Token.content = contents) :
    SameDepth (charTokens (String.ofList cs)) tokens := by
  have hsplit (front cs : List Char) : charTokens (String.ofList (front ++ cs))
      = charTokens (String.ofList front) ++ charTokens (String.ofList cs) := by
    rw [String.ofList_append, charTokens_append]
  induction h generalizing tokens with
  | nil =>
    obtain rfl := List.map_eq_nil_iff.1 htokens
    exact .of_flat nofun nofun
  | @blank c cs _ hc _ ih =>
    have hplain : Plain (String.ofList [c]) := by
      simp only [Plain, String.toList_ofList, List.mem_singleton]
      constructor
      . rintro rfl
        cases hc
      . rintro rfl
        cases hc
    have hflat : Flat [] := nofun
    rw [← List.singleton_append, hsplit]
    exact (SameDepth.of_flat hplain.flat hflat).append (ih htokens)
  | @sign c cs _ _ _ ih =>
    obtain ⟨token, tokens, rfl, htoken, htokens⟩ := List.map_eq_cons_iff.1 htokens
    have hsign : SameDepth [⟨.symbol, c.toString, none⟩] [token] := .of_content htoken.symm
    have hchar : charTokens (String.ofList [c]) = [⟨.symbol, c.toString, none⟩] := by
      rw [charTokens, String.toList_ofList, List.map_singleton]
    rw [← List.singleton_append, hsplit, hchar]
    exact hsign.append (ih htokens)
  | @word c word cs _ hc hword _ _ ih =>
    -- Many characters become one token here, but none of them is a parenthesis.
    obtain ⟨token, tokens, rfl, htoken, htokens⟩ := List.map_eq_cons_iff.1 htokens
    have hname : isName (String.ofList (c :: word)) = true :=
      isName_eq_true_iff.2 ⟨c, word, String.toList_ofList, hc, hword⟩
    have hplain := plain_of_isAlphanum (isAlphanum_of_mem_word hc hword)
    rw [hsplit, ← List.singleton_append]
    exact (SameDepth.of_flat hplain.flat (flat_word hname htoken)).append (ih htokens)

/--
`Written phrase text tree depth`: the text is a layout of tokens that the tree is derived from as
`phrase`, with no more than `depth` parentheses open in it.
-/
def Written (phrase : Phrase) (text : String) (tree : Tree) (depth : Nat) : Prop :=
  ∃ contents, Layout text.toList contents ∧ ∀ tokens, tokens.map Token.content = contents →
    Derives phrase tokens tree ∧ deepest 0 tokens ≤ depth

namespace Written

variable {text other : String} {tree otherTree : Tree} {depth otherDepth : Nat}

theorem of_ofText [RecursionLimit] (h : Tree.ofText text = .ok tree) :
    Written .biconditional text tree (nesting text) := by
  obtain ⟨tokens, hscan, hread⟩ := Tree.ofText_eq_ok_iff.1 h
  have hlayout := (placed_of_scan hscan).layout
  refine ⟨_, hlayout, ?_⟩
  intro others hothers
  have hnested := (hlayout.sameDepth hothers 0).2
  rw [String.ofList_toList] at hnested
  refine ⟨?_, Nat.le_of_eq hnested.symm⟩
  rcases Tree.ofTokens_like (forall₂_like_iff.2 hothers) with hsame | ⟨_, _, _, _, _, _, hother, _⟩
  . exact Tree.derives_of_ofTokens (hsame.trans hread)
  . rw [hread] at hother
    cases hother

theorem ofText_eq [RecursionLimit] (h : Written .biconditional text tree depth)
    (hdepth : depth ≤ maxNesting) : Tree.ofText text = .ok tree := by
  obtain ⟨contents, hlayout, htokens⟩ := h
  obtain ⟨tokens, hscan, hcontents⟩ := scan_of_layout hlayout
  obtain ⟨hderives, hdeepest⟩ := htokens tokens hcontents
  have hnested : NestedWithin maxNesting tokens := nestedWithin_iff.2 (hdeepest.trans hdepth)
  simp only [Tree.ofText, hscan, Tree.ofTokens_of_derives hnested hderives]

theorem parentheses (h : Written .biconditional text tree depth) :
    Written .atom ("(" ++ text ++ ")") tree (depth + 1) := by
  obtain ⟨contents, hlayout, htokens⟩ := h
  have hclosing : Layout [')'] [(.symbol, ")")] := .sign (by decide) .nil
  have hinside := hlayout.append (.of_head (by decide) []) hclosing
  have hopening := Layout.sign (c := '(') (by decide) hinside
  refine ⟨(.symbol, "(") :: contents ++ [(.symbol, ")")], by simpa using hopening, ?_⟩
  intro tokens hcontents
  obtain ⟨opening, closing, inside, rfl, hopening, hclosing, hcontents⟩ :=
    Tree.exists_parentheses hcontents
  obtain ⟨hderives, hdeepest⟩ := htokens inside hcontents
  refine ⟨.parentheses hopening hclosing hderives, ?_⟩
  have := deepest_succ_le 0 inside
  rw [deepest_parentheses hopening hclosing (hderives.openAfter_eq _)]
  omega

theorem of_atom (h : Written .atom text tree depth) : Written .biconditional text tree depth := by
  obtain ⟨contents, hlayout, htokens⟩ := h
  refine ⟨contents, hlayout, ?_⟩
  intro tokens hcontents
  obtain ⟨hderives, hdeepest⟩ := htokens tokens hcontents
  exact ⟨hderives.of_atom (by decide), hdeepest⟩

theorem negation (h : Written .atom text tree depth) :
    Written .biconditional (Operator.not.text ++ text) (.unary Operator.not.text tree) depth := by
  obtain ⟨contents, hlayout, htokens⟩ := h
  have hsigns := hlayout.append_signs Operator.not.isOperatorChar_of_mem_text
  refine ⟨_, by simpa using hsigns, ?_⟩
  intro tokens hcontents
  obtain ⟨sign, operand, rfl, hsign, hoperand⟩ := List.map_eq_append_iff.1 hcontents
  have hop := Operator.spelled_of_content hsign
  obtain ⟨hderives, hdeepest⟩ := htokens operand hoperand
  refine ⟨Tree.derives_negation hop hderives, ?_⟩
  rw [deepest_append, deepest_of_flat hop.flat, openAfter_of_flat hop.flat]
  omega

theorem operation {op : Operator} (hbinary : op ∈ Operator.binary)
    (h : Written .atom text tree depth) (hother : Written .atom other otherTree otherDepth) :
    Written .biconditional (text ++ op.text ++ other) (.binary op.text tree otherTree)
      (max depth otherDepth) := by
  obtain ⟨contents, hlayout, htokens⟩ := h
  obtain ⟨later, hlater, hothers⟩ := hother
  have hsigns := hlater.append_signs op.isOperatorChar_of_mem_text
  have hwhole := hlayout.append (op.endsWord_text _) hsigns
  refine ⟨_, by simpa using hwhole, ?_⟩
  intro tokens hcontents
  obtain ⟨left, rest, rfl, hleft, hrest⟩ := List.map_eq_append_iff.1 hcontents
  obtain ⟨sign, right, rfl, hsign, hright⟩ := List.map_eq_append_iff.1 hrest
  have hop := Operator.spelled_of_content hsign
  obtain ⟨hleftDerives, hleftDeepest⟩ := htokens left hleft
  obtain ⟨hrightDerives, hrightDeepest⟩ := hothers right hright
  have hderives := Tree.derives_operation hbinary hop hleftDerives hrightDerives
  rw [List.append_assoc] at hderives
  refine ⟨hderives, ?_⟩
  rw [deepest_append, deepest_append, hleftDerives.openAfter_eq, deepest_of_flat hop.flat,
    openAfter_of_flat hop.flat]
  omega

end Written

/--
Texts that are read alone are read in parentheses as well, as long as one more pair of parentheses
may be opened.
-/
theorem Tree.ofText_composed [RecursionLimit] {text other : String} {tree otherTree : Tree}
    (h : ofText text = .ok tree) (hnested : nesting text < maxNesting)
    (hother : ofText other = .ok otherTree) (hotherNested : nesting other < maxNesting) :
    ofText ("(" ++ text ++ ")") = .ok tree
      ∧ ofText ("~(" ++ text ++ ")") = .ok (.unary Operator.not.text tree)
      ∧ ∀ op ∈ Operator.binary, ofText ("(" ++ text ++ ")" ++ op.text ++ "(" ++ other ++ ")")
        = .ok (.binary op.text tree otherTree) := by
  have hatom := (Written.of_ofText h).parentheses
  have hotherAtom := (Written.of_ofText hother).parentheses
  refine ⟨?_, ?_, ?_⟩
  . exact hatom.of_atom.ofText_eq hnested
  . have hnegation := hatom.negation.ofText_eq hnested
    rw [String.append_assoc, ← String.append_assoc] at hnegation
    exact hnegation
  . intro op hbinary
    have hoperation := (hatom.operation hbinary hotherAtom).ofText_eq (by omega)
    rw [← String.append_assoc, ← String.append_assoc] at hoperation
    exact hoperation

theorem Tree.ofText_composed_implication_and_equivalence :
    let text := "\n p -> q|F\n"
    let other := "~a<->\tT "
    let tree := binary "->" (identifier "p") (binary "|" (identifier "q") (constant "F"))
    let otherTree := binary "<->" (unary "~" (identifier "a")) (constant "T")
    ofText text = .ok tree ∧ ofText other = .ok otherTree
      ∧ ofText ("(" ++ text ++ ")") = .ok tree
      ∧ ofText ("~(" ++ other ++ ")") = .ok (unary "~" otherTree)
      ∧ ofText ("(" ++ text ++ ")" ++ "&" ++ "(" ++ other ++ ")") = .ok (binary "&" tree otherTree)
      ∧ ofText ("(" ++ other ++ ")" ++ "->" ++ "(" ++ text ++ ")")
        = .ok (binary "->" otherTree tree) := by
  intro text other tree otherTree
  have h : ofText "\n p -> q|F\n" = .ok tree := by rfl
  have hother : ofText "~a<->\tT " = .ok otherTree := by rfl
  have hnested : nesting text < maxNesting := by decide
  have hotherNested : nesting other < maxNesting := by decide
  obtain ⟨hparentheses, _, hoperation⟩ := ofText_composed h hnested hother hotherNested
  obtain ⟨_, hnegation, hreverse⟩ := ofText_composed hother hotherNested h hnested
  exact ⟨h, hother, hparentheses, hnegation, hoperation .and (by decide),
    hreverse .implies (by decide)⟩

end Formulary
