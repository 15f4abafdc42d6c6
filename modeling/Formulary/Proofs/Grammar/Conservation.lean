import Formulary.Proofs.Grammar.Attempt
import Formulary.Proofs.Grammar.Contents
import Formulary.Proofs.Tree.Traversal
import Formulary.Tree.Spelling

/-!
This module contains what becomes of the tokens of a phrase: the parentheses among them pair off and
vanish, and all others are found in the tree, in the same order.
-/

namespace Formulary

def Token.isParenthesis (token : Token) : Bool :=
  token.isSymbol "(" || token.isSymbol ")"

/--
The tokens are those of the tree, with parentheses added.
-/
structure Spells (tokens : List Token) (tree : Tree) : Prop where
  spelling_eq :
    (tokens.filter fun token => !token.isParenthesis).map Token.content = tree.spelling
  balanced :
    tokens.countP (Token.isSymbol · "(") = tokens.countP (Token.isSymbol · ")")

theorem Flat.filter_eq {tokens : List Token} (h : Flat tokens) :
    (tokens.filter fun token => !token.isParenthesis) = tokens := by
  rw [List.filter_eq_self]
  intro token htoken
  simp [Token.isParenthesis, h token htoken]

theorem Flat.countP_eq {tokens : List Token} (h : Flat tokens) :
    tokens.countP (Token.isSymbol · "(") = tokens.countP (Token.isSymbol · ")") := by
  have hopening : tokens.countP (Token.isSymbol · "(") = 0 := by
    rw [List.countP_eq_zero]
    intro token htoken
    simp [(h token htoken).1]
  have hclosing : tokens.countP (Token.isSymbol · ")") = 0 := by
    rw [List.countP_eq_zero]
    intro token htoken
    simp [(h token htoken).2]
  rw [hopening, hclosing]

theorem Operator.Spelled.content_eq {op : Operator} {tokens : List Token} (h : op.Spelled tokens) :
    tokens.map Token.content = Tree.opSpelling op.text := by
  rw [Tree.opSpelling_text, h.map_content]

namespace Spells

variable {tokens leftTokens sign rightTokens : List Token} {tree left right : Tree} {op : Operator}

theorem leaf {token : Token} (hflat : Flat [token]) (htree : tree.spelling = [token.content]) :
    Spells [token] tree := by
  refine ⟨?_, hflat.countP_eq⟩
  rw [hflat.filter_eq, htree]
  rfl

theorem unary (hop : op.Spelled sign) (h : Spells tokens tree) :
    Spells (sign ++ tokens) (.unary op.text tree) := by
  constructor
  . rw [List.filter_append, List.map_append, hop.flat.filter_eq, hop.content_eq, h.spelling_eq]
    rfl
  . rw [List.countP_append, List.countP_append, hop.flat.countP_eq, h.balanced]

theorem binary (hop : op.Spelled sign) (hleft : Spells leftTokens left)
    (hright : Spells rightTokens right) :
    Spells (leftTokens ++ sign ++ rightTokens) (.binary op.text left right) := by
  constructor
  . simp only [List.filter_append, List.map_append, hop.flat.filter_eq, hop.content_eq,
      hleft.spelling_eq, hright.spelling_eq]
    rfl
  . simp only [List.countP_append, hop.flat.countP_eq, hleft.balanced, hright.balanced]

theorem parentheses {opening closing : Token} (hopening : opening.isSymbol "(")
    (hclosing : closing.isSymbol ")") (h : Spells tokens tree) :
    Spells (opening :: tokens ++ [closing]) tree := by
  have hopening' : opening.isSymbol ")" = false := by
    simp [Token.isSymbol, (Token.isSymbol_iff.1 hopening).2]
  have hclosing' : closing.isSymbol "(" = false := by
    simp [Token.isSymbol, (Token.isSymbol_iff.1 hclosing).2]
  constructor
  . simp [Token.isParenthesis, List.filter_append, hopening, hclosing, ← h.spelling_eq]
  . simp [List.countP_append, hopening, hclosing, hopening', hclosing', h.balanced]

end Spells

theorem Derives.spells {phrase : Phrase} {tokens : List Token} {tree : Tree}
    (h : Derives phrase tokens tree) : Spells tokens tree := by
  induction h with
  | identifier h =>
    apply Spells.leaf (flat_of_identifier h)
    rw [Token.isIdentifier_iff] at h
    rw [Token.content, h]
    rfl
  | @constant token h =>
    apply Spells.leaf (flat_of_constant h)
    have hkind : token.kind = .symbol := by
      simp only [Token.isSymbol_iff] at h
      exact h.elim And.left And.left
    rw [Token.content, hkind]
    rfl
  | parentheses hopening hclosing _ ih => apply ih.parentheses hopening hclosing
  | atom _ ih => exact ih
  | literal _ ih => exact ih
  | conjunction _ ih => exact ih
  | disjunction _ ih => exact ih
  | implication _ ih => exact ih
  | biconditional _ ih => exact ih
  | not hop _ ih => apply ih.unary hop
  | and hop _ _ lih rih
  | or hop _ _ lih rih
  | implies hop _ _ lih rih
  | iff hop _ _ lih rih => apply lih.binary hop rih

theorem Derives.complete {phrase : Phrase} {tokens : List Token} {tree : Tree}
    (h : Derives phrase tokens tree) : tree.Complete := by
  induction h with
  | identifier => trivial
  | constant => trivial
  | parentheses _ _ _ ih
  | atom _ ih
  | literal _ ih
  | not _ _ ih
  | conjunction _ ih
  | disjunction _ ih
  | implication _ ih
  | biconditional _ ih => exact ih
  | and _ _ _ lih rih
  | or _ _ _ lih rih
  | implies _ _ _ lih rih
  | iff _ _ _ lih rih => exact ⟨lih, rih⟩

theorem Tree.mem_occurrences_iff {tree : Tree} {name : String} :
    name ∈ tree.occurrences ↔ (.identifier, name) ∈ tree.spelling := by
  have hsigns (op : String) : (TokenKind.identifier, name) ∉ opSpelling op := by
    simp [opSpelling]
  induction tree with
  | absent => simp [occurrences, spelling]
  | constant => simp [occurrences, spelling]
  | identifier => simp [occurrences, spelling]
  | unary op operand ih => simp [occurrences, spelling, hsigns, ih]
  | binary op left right lih rih => simp [occurrences, spelling, hsigns, lih, rih]

theorem Spells.mem_occurrences_iff {tokens : List Token} {tree : Tree} (h : Spells tokens tree)
    {name : String} :
    name ∈ tree.occurrences ↔ ∃ token ∈ tokens, token.isIdentifier ∧ token.text = name := by
  rw [Tree.mem_occurrences_iff, ← h.spelling_eq]
  simp only [List.mem_map, List.mem_filter, Token.content, Prod.mk.injEq, Token.isIdentifier_iff]
  constructor
  . rintro ⟨token, ⟨htoken, _⟩, hkind, htext⟩
    exact ⟨token, htoken, hkind, htext⟩
  . rintro ⟨token, htoken, hkind, htext⟩
    refine ⟨token, ⟨htoken, ?_⟩, hkind, htext⟩
    simp [Token.isParenthesis, Token.isSymbol, hkind]

theorem derives_of_attempt [RecursionLimit] {part : Phrase} {tokens : List Token} {pos : Nat}
    {attempt : Attempt} {tree : Tree} {stop : Int} (h : part.attempt tokens pos = .ok attempt)
    (hresult : attempt.result = some (tree, stop)) :
    pos < stop ∧ stop ≤ tokens.length ∧ Derives part (tokens.extract pos stop.toNat) tree := by
  have hjustified := part.read_justified (tokens.drop pos)
  rw [attempt_natCast] at h
  cases hread : part.read (tokens.drop pos) with
  | error =>
    simp only [hread] at h
    obtain rfl := Except.ok.inj h
    cases hresult
  | ok reading =>
    rw [hread] at hjustified
    simp only [hread] at h
    obtain rfl := Except.ok.inj h
    obtain ⟨rfl, rfl⟩ := Prod.mk.inj (Option.some.inj hresult)
    obtain ⟨front, hahead, hfront, _⟩ := hjustified
    have hpos := List.length_pos_iff.2 hfront.ne_nil
    have hlength := congrArg List.length hahead
    rw [List.length_drop, List.length_append] at hlength
    have hcount : readCount tokens reading.rest = pos + front.length := by
      rw [readCount]
      omega
    have hextract : tokens.extract pos (pos + front.length) = front := by
      rw [List.extract_eq_take_drop, hahead, Nat.add_sub_cancel_left, List.take_left]
    refine ⟨by omega, by omega, ?_⟩
    rw [Int.toNat_natCast, hcount, hextract]
    exact hfront

theorem reading_conserves_tokens [RecursionLimit] (tokens : List Token) :
    (∀ (part : Phrase) (pos : Int) (attempt : Attempt) (tree : Tree) (stop : Int),
        0 ≤ pos → part.attempt tokens pos = .ok attempt → attempt.result = some (tree, stop) →
        pos < stop ∧ stop ≤ tokens.length ∧ Spells (tokens.extract pos.toNat stop.toNat) tree)
      ∧ ∀ tree, Tree.ofTokens tokens = .ok tree → Spells tokens tree
        ∧ ∃ names, tree.identifiers = .ok names ∧ ∀ name, name ∈ names ↔
          ∃ token ∈ tokens, token.isIdentifier ∧ token.text = name := by
  constructor
  . intro part pos attempt tree stop hpos h hresult
    obtain ⟨pos, rfl⟩ := Int.eq_ofNat_of_zero_le hpos
    obtain ⟨hlt, hle, hderives⟩ := derives_of_attempt h hresult
    exact ⟨hlt, hle, hderives.spells⟩
  . intro tree h
    have hderives := Tree.derives_of_ofTokens h
    have hspells := hderives.spells
    refine ⟨hspells, _, Tree.identifiers_of_complete hderives.complete, ?_⟩
    intro name
    rw [mem_eraseReps, List.mem_mergeSort, List.mem_reverse]
    apply hspells.mem_occurrences_iff

/--
The tokens of `( a - > T ) & b < - c`, where the double arrow is not whole.
-/
def halfArrowTokens : List Token :=
  [⟨.symbol, "(", none⟩, ⟨.identifier, "a", none⟩, ⟨.symbol, "-", none⟩, ⟨.symbol, ">", none⟩,
    ⟨.symbol, "T", none⟩, ⟨.symbol, ")", none⟩, ⟨.symbol, "&", none⟩, ⟨.identifier, "b", none⟩,
    ⟨.symbol, "<", none⟩, ⟨.symbol, "-", none⟩, ⟨.identifier, "c", none⟩]

theorem reading_conserves_halfArrowTokens :
    let tree := Tree.binary "&" (.binary "->" (.identifier "a") (.constant "T")) (.identifier "b")
    Phrase.biconditional.attempt halfArrowTokens 0 = .ok ⟨some (tree, 8), []⟩
      ∧ Spells (halfArrowTokens.extract 0 8) tree
      ∧ Tree.ofTokens (halfArrowTokens.take 8) = .ok tree
      ∧ Spells (halfArrowTokens.take 8) tree
      ∧ ∃ names, tree.identifiers = .ok names ∧ "a" ∈ names ∧ "b" ∈ names ∧ "c" ∉ names := by
  intro tree
  have hattempt : Phrase.biconditional.attempt halfArrowTokens 0 = .ok ⟨some (tree, 8), []⟩ := rfl
  have hwhole : Tree.ofTokens (halfArrowTokens.take 8) = .ok tree := rfl
  obtain ⟨hattempts, _⟩ := reading_conserves_tokens halfArrowTokens
  obtain ⟨_, hformula⟩ := reading_conserves_tokens (halfArrowTokens.take 8)
  obtain ⟨_, _, hspells⟩ := hattempts _ _ _ _ _ (Int.le_refl 0) hattempt rfl
  obtain ⟨hall, names, hnames, hmem⟩ := hformula tree hwhole
  refine ⟨hattempt, hspells, hwhole, hall, names, hnames, ?_⟩
  rw [hmem, hmem, hmem]
  decide

end Formulary
