import Formulary.Proofs.Grammar.Acceptance
import Formulary.Proofs.Grammar.Descent
import Formulary.Proofs.Grammar.Position

/-!
This module contains the agreement of attempts with the plain recursive descent. Positions are those
of the tokens that are left, so that readers and descent see the same tokens ahead.
-/

namespace Formulary

theorem drop_readCount {tokens rest : List Token} (h : rest <:+ tokens) :
    tokens.drop (readCount tokens rest) = rest := by
  rw [readCount]
  apply (List.suffix_iff_eq_drop.1 h).symm

theorem suffix_of_dropSymbol {tokens ahead rest : List Token} {text : String}
    (hahead : ahead <:+ tokens) (h : dropSymbol text ahead = some rest) : rest <:+ tokens := by
  obtain ⟨token, _, rfl⟩ := dropSymbol_eq_some_iff.1 h
  apply (List.suffix_cons token rest).trans hahead

theorem suffix_of_dropSymbols {tokens ahead rest : List Token} {texts : List String}
    (hahead : ahead <:+ tokens) (h : dropSymbols texts ahead = .ok rest) : rest <:+ tokens := by
  obtain ⟨sign, _, _, rfl⟩ := dropSymbols_eq_ok_iff.1 h
  apply (List.suffix_append sign rest).trans hahead

theorem accept_natCast (tokens : List Token) (pos : Nat) (text : String) :
    accept tokens pos text
      =
    .ok ((dropSymbol text (tokens.drop pos)).map fun rest => (readCount tokens rest : Int)) := by
  rw [accept_eq (by omega), tokensAhead_natCast]
  cases hahead : dropSymbol text (tokens.drop pos) with
  | none => rfl
  | some rest =>
    obtain ⟨token, _, hdrop⟩ := dropSymbol_eq_some_iff.1 hahead
    have hlength := congrArg List.length hdrop
    rw [List.length_drop, List.length_cons] at hlength
    have hcount : readCount tokens rest = pos + 1 := by
      rw [readCount]
      omega
    rw [Option.map_some, Option.map_some, hcount]
    rfl

def found (tokens : List Token) : Except Failure Reading → Option (Tree × Int)
  | .ok reading => some (reading.tree, readCount tokens reading.rest)
  | .error _ => none

@[simp]
theorem found_require (tokens : List Token) (part : Phrase) (reader : Reader) (ahead : List Token) :
    found tokens (require part reader ahead) = found tokens (reader ahead) := by
  unfold require
  split
  . next h =>
    rw [h]
    rfl
  . rfl

theorem suffix_of_read [RecursionLimit] {part : Phrase} {ahead : List Token} {reading : Reading}
    (h : part.read ahead = .ok reading) : reading.rest <:+ ahead := by
  have := part.read_justified ahead
  rw [h] at this
  obtain ⟨front, hahead, _⟩ := this
  exact ⟨front, hahead.symm⟩

theorem shortens_read [RecursionLimit] (part : Phrase) : Shortens part.read :=
  fun _ _ h => (suffix_of_read h).length_le

theorem attempt_natCast [RecursionLimit] (part : Phrase) (tokens : List Token) (pos : Nat) :
    part.attempt tokens pos
      =
    match part.read (tokens.drop pos) with
    | .ok reading => .ok ⟨some (reading.tree, (readCount tokens reading.rest : Int)), []⟩
    | .error failure => .ok ⟨none, [.noPhrase part pos (failure.reason (tokens.drop pos))]⟩ := by
  rw [attempt_eq (by omega), tokensAhead_natCast]
  have hjustified := part.read_justified (tokens.drop pos)
  cases hread : part.read (tokens.drop pos) with
  | error => rfl
  | ok reading =>
    rw [hread] at hjustified
    obtain ⟨front, hahead, hfront, _⟩ := hjustified
    have hpos := List.length_pos_iff.2 hfront.ne_nil
    have hlength := congrArg List.length hahead
    rw [List.length_drop, List.length_append] at hlength
    have hplace : (pos : Int) + ((tokens.drop pos).length - reading.rest.length)
        = readCount tokens reading.rest := by
      rw [List.length_drop, readCount]
      omega
    simp only [hplace]

namespace Descent

theorem symbol_natCast (tokens : List Token) (text : String) (pos : Nat) :
    symbol tokens text pos
      =
    of ((dropSymbol text (tokens.drop pos)).map fun rest => (readCount tokens rest : Int)) := by
  rw [symbol, accept_natCast]
  rfl

theorem sign_readCount {tokens rest : List Token} (op : Operator) (h : rest <:+ tokens) :
    sign tokens op (readCount tokens rest)
      =
    of ((dropSymbols op.spelling rest).toOption.map fun rest => (readCount tokens rest : Int)) := by
  unfold sign
  generalize op.spelling = texts
  induction texts generalizing rest with
  | nil => rfl
  | cons text texts ih =>
    rw [List.foldlM_cons, symbol_natCast, drop_readCount h, dropSymbols]
    cases hrest : dropSymbol text rest with
    | none => rfl
    | some later =>
      rw [Option.map_some, of_some_bind, ih (suffix_of_dropSymbol h hrest)]
      dsimp only
      cases dropSymbols texts later with
      | ok => rfl
      | error => rfl

theorem constant_natCast (tokens : List Token) (text : String) (pos : Nat) :
    constant tokens text pos
      =
    of ((dropSymbol text (tokens.drop pos)).map fun rest =>
      (.constant text, (readCount tokens rest : Int))) := by
  rw [constant, symbol_natCast]
  cases dropSymbol text (tokens.drop pos) with
  | none => rfl
  | some => rfl

variable [RecursionLimit]

theorem phrase_natCast (tokens : List Token) (part : Phrase) (pos : Nat) :
    phrase tokens part pos = of (found tokens (part.read (tokens.drop pos))) := by
  rw [phrase, attempt_natCast]
  cases part.read (tokens.drop pos) with
  | ok => rfl
  | error => rfl

theorem phrase_readCount {tokens rest : List Token} (part : Phrase) (h : rest <:+ tokens) :
    phrase tokens part (readCount tokens rest) = of (found tokens (part.read rest)) := by
  rw [phrase_natCast, drop_readCount h]

theorem read_inside {opening : Token} {rest : List Token} (hopening : opening.isSymbol "(")
    (h : NestedWithin maxNesting (opening :: rest)) :
    require .biconditional (readNested maxNesting) rest
      =
    require .biconditional Phrase.biconditional.read rest := by
  -- A formula of its own may open one pair more than what stands inside of another one.
  have happrox := (readNested_approximates (Nat.le_succ maxNesting)).require .biconditional rest
  cases happrox with
  | inl htooDeep =>
    have := Phrase.read_ne_tooDeep h .atom
    rw [Phrase.read, readAtom_of_opening hopening, htooDeep] at this
    contradiction
  | inr hsame => exact hsame

theorem parentheses_natCast {tokens rest : List Token} {opening : Token} {pos : Nat}
    (hopening : opening.isSymbol "(") (hahead : tokens.drop pos = opening :: rest)
    (h : NestedWithin maxNesting (tokens.drop pos)) :
    parentheses tokens pos = of (found tokens (Phrase.atom.read (tokens.drop pos))) := by
  have hdrop := dropSymbol_cons_of_isSymbol hopening rest
  rw [← hahead] at hdrop
  have hrest := suffix_of_dropSymbol (List.drop_suffix pos tokens) hdrop
  rw [hahead] at h
  rw [parentheses, symbol_natCast, hdrop, hahead, Option.map_some, of_some_bind,
    phrase_readCount _ hrest, Phrase.read, readAtom_of_opening hopening, read_inside hopening h,
    ← found_require tokens .biconditional]
  cases hbody : require .biconditional Phrase.biconditional.read rest with
  | error => rfl
  | ok body =>
    have hlater := (suffix_of_read (require_eq_ok_iff.1 hbody)).trans hrest
    simp only [found, of_some_bind, symbol_natCast, drop_readCount hlater]
    cases dropSymbol ")" body.rest with
    | none => rfl
    | some => rfl

theorem phrase_atom {tokens : List Token} {pos : Nat}
    (h : NestedWithin maxNesting (tokens.drop pos)) :
    phrase tokens .atom pos = atom tokens pos := by
  rw [atom, constant_natCast, constant_natCast, phrase_natCast, phrase_natCast]
  cases hahead : tokens.drop pos with
  | nil =>
    rw [parentheses, symbol_natCast, hahead]
    rfl
  | cons token rest =>
    by_cases hopening : token.isSymbol "("
    . rw [parentheses_natCast hopening hahead h, hahead]
      rw [Token.isSymbol_iff] at hopening
      simp [dropSymbol, Phrase.read, readIdentifier, found, Token.isSymbol, Token.isIdentifier,
        hopening.1, hopening.2]
    . have hparentheses : parentheses tokens pos = of none := by
        rw [parentheses, symbol_natCast, hahead, dropSymbol, if_neg hopening]
        rfl
      rw [hparentheses]
      simp only [dropSymbol, Phrase.read, readAtom, readIdentifier, hopening]
      by_cases htrue : token.isSymbol "T"
      . simp [htrue, found, (Token.isSymbol_iff.1 htrue).2]
      . by_cases hfalse : token.isSymbol "F"
        . simp [htrue, hfalse, found, (Token.isSymbol_iff.1 hfalse).2]
        . by_cases hidentifier : token.isIdentifier
          . simp [htrue, hfalse, hidentifier, found]
          . simp [htrue, hfalse, hidentifier, found]

theorem phrase_literal (tokens : List Token) (pos : Nat) :
    phrase tokens .literal pos = literal tokens pos := by
  rw [literal, negation, phrase_natCast, phrase_natCast, symbol_natCast]
  simp only [Phrase.read, readLiteral]
  cases hnot : dropSymbol Operator.not.text (tokens.drop pos) with
  | none =>
    cases readAtom (readNested maxNesting) (tokens.drop pos) with
    | ok => rfl
    | error failure => cases failure <;> rfl
  | some rest =>
    have hrest := suffix_of_dropSymbol (List.drop_suffix pos tokens) hnot
    rw [readAtom_of_dropSymbol_not hnot]
    simp only [Option.map_some, of_some_bind, phrase_readCount _ hrest, Phrase.read]
    rw [← found_require tokens .atom]
    cases require .atom (readAtom (readNested maxNesting)) rest with
    | ok => rfl
    | error => rfl

theorem phrase_pair {tokens : List Token} {whole part : Phrase} {op : Operator}
    (hread : whole.read = readPair op part part.read) (pos : Nat) :
    phrase tokens whole pos = pair tokens op part pos := by
  rw [pair, phrase_natCast, phrase_natCast, hread, readPair]
  cases hleft : part.read (tokens.drop pos) with
  | error => rfl
  | ok left =>
    have hsuffix := (suffix_of_read hleft).trans (List.drop_suffix pos tokens)
    simp only [found, of_some_bind, sign_readCount op hsuffix, lift_run_of_bind]
    cases hsign : dropSymbols op.spelling left.rest with
    | error => rfl
    | ok rest =>
      have hrest := suffix_of_dropSymbols hsuffix hsign
      simp only [Except.toOption, Option.map_some, phrase_readCount _ hrest]
      rw [← found_require tokens part]
      cases require part part.read rest with
      | ok => rfl
      | error => rfl

theorem folds_found {tokens : List Token} {part : Phrase} {op : Operator} (chain : Reading)
    (h : chain.rest <:+ tokens) :
    Folds tokens op part chain.tree (readCount tokens chain.rest)
      (found tokens (readOn op part part.read chain)) := by
  have hsign := sign_readCount op h
  cases hread : dropSymbols op.spelling chain.rest with
  | error stub =>
    rw [hread] at hsign
    rw [readOn_of_error hread]
    exact .done (congrArg OptionT.run hsign)
  | ok rest =>
    have hrest := suffix_of_dropSymbols h hread
    have hlt := length_lt_of_dropSymbols hread
    have hright := phrase_readCount part hrest
    rw [hread] at hsign
    rw [← found_require tokens part] at hright
    rw [readOn_of_ok (shortens_read part) hread]
    cases hnext : require part part.read rest with
    | error failure =>
      rw [hnext] at hright
      exact .missing (congrArg OptionT.run hsign) (congrArg OptionT.run hright)
    | ok next =>
      rw [hnext] at hright
      have hsuffix := suffix_of_read (require_eq_ok_iff.1 hnext)
      have hle := hsuffix.length_le
      refine .next (congrArg OptionT.run hsign) (congrArg OptionT.run hright) ?_
      apply folds_found { next with tree := .binary op.text chain.tree next.tree }
        (hsuffix.trans hrest)
termination_by chain.rest.length

theorem phrase_chain {tokens : List Token} {whole part : Phrase} {op : Operator}
    (hread : whole.read = readChain op part part.read) (pos : Nat)
    (result : Option (Tree × Int)) :
    (phrase tokens whole pos).run = .ok result ↔ Chain tokens op part pos result := by
  have hchain : Chain tokens op part pos (found tokens (whole.read (tokens.drop pos))) := by
    have hfirst := phrase_natCast tokens part pos
    rw [hread, readChain_eq (shortens_read part)]
    cases hoperand : part.read (tokens.drop pos) with
    | error failure =>
      rw [hoperand] at hfirst
      exact .none (congrArg OptionT.run hfirst)
    | ok first =>
      rw [hoperand] at hfirst
      apply Chain.some (congrArg OptionT.run hfirst)
      apply folds_found first
      apply (suffix_of_read hoperand).trans (List.drop_suffix pos tokens)
  rw [phrase_natCast, run_of, Except.ok.injEq]
  constructor
  . rintro rfl
    exact hchain
  . intro hresult
    apply hchain.unique hresult

end Descent

theorem attempts_descend [RecursionLimit] {tokens : List Token} {pos : Int}
    (hnested : NestedThroughout maxNesting tokens) (hpos : 0 ≤ pos) :
    (∀ part, ∃ result, (Descent.phrase tokens part pos).run = .ok result)
      ∧ Descent.phrase tokens .atom pos = Descent.atom tokens pos
      ∧ Descent.phrase tokens .literal pos = Descent.literal tokens pos
      ∧ (∀ result, (Descent.phrase tokens .conjunction pos).run = .ok result
        ↔ Descent.Chain tokens .and .literal pos result)
      ∧ (∀ result, (Descent.phrase tokens .disjunction pos).run = .ok result
        ↔ Descent.Chain tokens .or .conjunction pos result)
      ∧ Descent.phrase tokens .implication pos = Descent.pair tokens .implies .disjunction pos
      ∧ Descent.phrase tokens .biconditional pos = Descent.pair tokens .iff .implication pos := by
  obtain ⟨pos, rfl⟩ := Int.eq_ofNat_of_zero_le hpos
  refine ⟨?_, ?_, ?_, ?_, ?_, ?_, ?_⟩
  . intro part
    exact ⟨_, congrArg OptionT.run (Descent.phrase_natCast tokens part pos)⟩
  . apply Descent.phrase_atom (hnested.drop pos)
  . apply Descent.phrase_literal tokens pos
  . apply Descent.phrase_chain rfl pos
  . apply Descent.phrase_chain rfl pos
  . apply Descent.phrase_pair rfl pos
  . apply Descent.phrase_pair rfl pos

/--
The tokens of `( a - > ~ T ) & b &`, where the last operand of the chain is missing.
-/
def openChainTokens : List Token :=
  [⟨.symbol, "(", none⟩, ⟨.identifier, "a", none⟩, ⟨.symbol, "-", none⟩, ⟨.symbol, ">", none⟩,
    ⟨.symbol, "~", none⟩, ⟨.symbol, "T", none⟩, ⟨.symbol, ")", none⟩, ⟨.symbol, "&", none⟩,
    ⟨.identifier, "b", none⟩, ⟨.symbol, "&", none⟩]

theorem attempts_descend_openChainTokens :
    NestedThroughout maxNesting openChainTokens
      ∧ (Descent.pair openChainTokens .implies .disjunction 1).run
        = .ok (some (.binary "->" (.identifier "a") (.unary "~" (.constant "T")), 6))
      ∧ (Descent.atom openChainTokens 0).run
        = .ok (some (.binary "->" (.identifier "a") (.unary "~" (.constant "T")), 7))
      ∧ Descent.Chain openChainTokens .and .literal 0 none := by
  have hnested : NestedThroughout maxNesting openChainTokens :=
    nestedThroughout_of_length_le (by decide)
  obtain ⟨_, hatom, _, hchain, _⟩ := attempts_descend hnested (Int.le_refl 0)
  obtain ⟨_, _, _, _, _, hpair, _⟩ := attempts_descend hnested (by decide : (0 : Int) ≤ 1)
  refine ⟨hnested, ?_, ?_, (hchain none).1 rfl⟩
  . rw [← hpair]
    rfl
  . rw [← hatom]
    rfl

end Formulary
