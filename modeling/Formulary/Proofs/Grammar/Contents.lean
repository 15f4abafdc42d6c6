import Formulary.Grammar.Formula
import Formulary.Proofs.Grammar.Justified
import Formulary.Tree.Spelling
import Mathlib.Data.List.Forall2

/-!
This module contains what reading sees of tokens: their kinds and texts, but not their places. Tokens
that differ in their places only are read alike, and the errors that are found in them differ in the
place that the message starts with.
-/

namespace Formulary

def Token.Like (token other : Token) : Prop :=
  token.content = other.content

inductive Alike : Except Failure Reading → Except Failure Reading → Prop where
  | ok {tree : Tree} {rest later : List Token} {stub : Option Stub}
      (hrest : rest.Forall₂ Token.Like later) :
    Alike (.ok ⟨tree, rest, stub⟩) (.ok ⟨tree, later, stub⟩)
  | mismatch : Alike (.error .mismatch) (.error .mismatch)
  | missing {part : Part} {rest later : List Token} {stub : Option Stub}
      (hrest : rest.Forall₂ Token.Like later) :
    Alike (.error (.missing part rest stub)) (.error (.missing part later stub))
  | tooDeep : Alike (.error .tooDeep) (.error .tooDeep)

def ReadsContents (reader : Reader) : Prop :=
  ∀ tokens others, tokens.Forall₂ Token.Like others → Alike (reader tokens) (reader others)

section

variable {token other : Token} {tokens others : List Token}

theorem Token.Like.kind_eq (h : token.Like other) : token.kind = other.kind :=
  congrArg Prod.fst h

theorem Token.Like.text_eq (h : token.Like other) : token.text = other.text :=
  congrArg Prod.snd h

theorem Token.Like.isSymbol_eq (h : token.Like other) (text : String) :
    token.isSymbol text = other.isSymbol text := by
  rw [isSymbol, isSymbol, h.kind_eq, h.text_eq]

theorem Token.Like.isIdentifier_eq (h : token.Like other) :
    token.isIdentifier = other.isIdentifier := by
  rw [isIdentifier, isIdentifier, h.kind_eq]

theorem forall₂_like_iff :
    tokens.Forall₂ Token.Like others
      ↔
    tokens.map Token.content = others.map Token.content := by
  rw [← List.forall₂_eq_eq_eq, List.forall₂_map_left_iff, List.forall₂_map_right_iff]
  rfl

theorem Operator.Spelled.map_content {op : Operator} {sign : List Token} (h : op.Spelled sign) :
    sign.map Token.content = op.spelling.map fun text => (.symbol, text) := by
  rw [← h.2, List.map_map]
  apply List.map_congr_left
  intro token htoken
  simp [Token.content, h.1 token htoken]

theorem dropSymbol_like (text : String) (h : tokens.Forall₂ Token.Like others) :
    (dropSymbol text tokens = none ∧ dropSymbol text others = none)
      ∨ ∃ rest later, dropSymbol text tokens = some rest ∧ dropSymbol text others = some later
        ∧ rest.Forall₂ Token.Like later := by
  cases h with
  | nil => exact .inl ⟨rfl, rfl⟩
  | cons htoken hrest =>
    simp only [dropSymbol, htoken.isSymbol_eq]
    split
    . exact .inr ⟨_, _, rfl, rfl, hrest⟩
    . exact .inl ⟨rfl, rfl⟩

theorem dropSymbols_like (texts : List String) (h : tokens.Forall₂ Token.Like others) :
    (∃ stub, dropSymbols texts tokens = .error stub ∧ dropSymbols texts others = .error stub)
      ∨ ∃ rest later, dropSymbols texts tokens = .ok rest ∧ dropSymbols texts others = .ok later
        ∧ rest.Forall₂ Token.Like later := by
  induction texts generalizing tokens others with
  | nil => exact .inr ⟨_, _, rfl, rfl, h⟩
  | cons text texts ih =>
    rcases dropSymbol_like text h with ⟨hnone, hother⟩ | ⟨rest, later, hsome, hother, hrest⟩
    . exact .inl ⟨_, by rw [dropSymbols, hnone], by rw [dropSymbols, hother]⟩
    . simp only [dropSymbols, hsome, hother]
      rcases ih hrest with ⟨stub, herror, hlater⟩ | ⟨rest, later, hok, hlater, hrest⟩
      . simp only [herror, hlater]
        exact .inl ⟨_, rfl, rfl⟩
      . simp only [hok, hlater]
        exact .inr ⟨_, _, rfl, rfl, hrest⟩

end

section

variable {tokens others : List Token} {reader inner : Reader} {op : Operator} {part : Phrase}

theorem ReadsContents.bind (h : ReadsContents reader) (htokens : tokens.Forall₂ Token.Like others)
    {f g : Reading → Except Failure Reading}
    (hf : ∀ tree rest later stub, rest.Forall₂ Token.Like later →
      Alike (f ⟨tree, rest, stub⟩) (g ⟨tree, later, stub⟩)) :
    Alike
      (match reader tokens with
      | .error failure => .error failure
      | .ok reading => f reading)
      (match reader others with
      | .error failure => .error failure
      | .ok reading => g reading) := by
  have hanswer := h tokens others htokens
  generalize reader tokens = answer, reader others = other at hanswer ⊢
  cases hanswer with
  | ok hrest => apply hf _ _ _ _ hrest
  | mismatch => exact .mismatch
  | missing hrest => exact .missing hrest
  | tooDeep => exact .tooDeep

theorem ReadsContents.require (h : ReadsContents reader) (part : Phrase) :
    ReadsContents (require part reader) := by
  intro tokens others htokens
  unfold Formulary.require
  have hanswer := h tokens others htokens
  generalize reader tokens = answer, reader others = other at hanswer ⊢
  cases hanswer with
  | ok hrest => exact .ok hrest
  | mismatch => exact .missing htokens
  | missing hrest => exact .missing hrest
  | tooDeep => exact .tooDeep

theorem readIdentifier_readsContents : ReadsContents readIdentifier := by
  intro tokens others htokens
  cases htokens with
  | nil => exact .mismatch
  | cons htoken hrest =>
    simp only [readIdentifier, htoken.isIdentifier_eq, htoken.text_eq]
    split
    . exact .ok hrest
    . exact .mismatch

theorem ReadsContents.readAtom (h : ReadsContents inner) : ReadsContents (readAtom inner) := by
  intro tokens others htokens
  cases htokens with
  | nil => exact .mismatch
  | cons htoken hrest =>
    simp only [Formulary.readAtom, htoken.isSymbol_eq, htoken.isIdentifier_eq, htoken.text_eq]
    split
    . exact .ok hrest
    . split
      . exact .ok hrest
      . split
        . apply (h.require .biconditional).bind hrest
          intro tree rest later stub hbody
          rcases dropSymbol_like ")" hbody with ⟨hnone, hother⟩ | ⟨_, _, hsome, hother, hrest⟩
          . simp only [hnone, hother]
            exact .missing hbody
          . simp only [hsome, hother]
            exact .ok hrest
        . exact .mismatch

theorem ReadsContents.readLiteral (h : ReadsContents inner) : ReadsContents (readLiteral inner) := by
  intro tokens others htokens
  unfold Formulary.readLiteral
  have hanswer := h.readAtom tokens others htokens
  generalize Formulary.readAtom inner tokens = answer, Formulary.readAtom inner others = other
    at hanswer ⊢
  cases hanswer with
  | ok hrest => exact .ok hrest
  | mismatch =>
    rcases dropSymbol_like Operator.not.text htokens with
      ⟨hnone, hother⟩ | ⟨_, _, hsome, hother, hrest⟩
    . simp only [hnone, hother]
      exact .mismatch
    . simp only [hsome, hother]
      apply (h.readAtom.require .atom).bind hrest
      intro tree rest later stub hoperand
      exact .ok hoperand
  | missing hrest => exact .missing hrest
  | tooDeep => exact .tooDeep

theorem ReadsContents.readChain_go (h : ReadsContents reader) {bound length : List Token}
    (hbound : bound.Forall₂ Token.Like length) {tree : Tree} {rest later : List Token}
    {stub : Option Stub} (hrest : rest.Forall₂ Token.Like later) :
    Alike (readChain.go op part reader bound ⟨tree, rest, stub⟩)
      (readChain.go op part reader length ⟨tree, later, stub⟩) := by
  induction hbound generalizing tree rest later stub with
  | nil => exact .ok hrest
  | cons _ _ ih =>
    unfold readChain.go
    rcases dropSymbols_like op.spelling hrest with
      ⟨_, herror, hother⟩ | ⟨_, _, hok, hother, hoperand⟩
    . simp only [herror, hother]
      exact .ok hrest
    . simp only [hok, hother]
      apply (h.require part).bind hoperand
      intro right rest later stub hrest
      apply ih hrest

theorem ReadsContents.readChain (h : ReadsContents reader) :
    ReadsContents (readChain op part reader) := by
  intro tokens others htokens
  apply h.bind htokens
  intro tree rest later stub hrest
  apply h.readChain_go htokens hrest

theorem ReadsContents.readPair (h : ReadsContents reader) :
    ReadsContents (readPair op part reader) := by
  intro tokens others htokens
  apply h.bind htokens
  intro left rest later stub hrest
  rcases dropSymbols_like op.spelling hrest with
    ⟨_, herror, hother⟩ | ⟨_, _, hok, hother, hoperand⟩
  . simp only [herror, hother]
    exact .ok hrest
  . simp only [hok, hother]
    apply (h.require part).bind hoperand
    intro right rest later stub hrest
    exact .ok hrest

theorem ReadsContents.phrase (h : ReadsContents inner) (phrase : Phrase) :
    ReadsContents (phrase.reader inner) := by
  have hdisjunction : ReadsContents (readDisjunction inner) := h.readLiteral.readChain.readChain
  have himplication : ReadsContents (readImplication inner) := hdisjunction.readPair
  cases phrase with
  | identifier => exact readIdentifier_readsContents
  | atom => exact h.readAtom
  | literal => exact h.readLiteral
  | conjunction => exact h.readLiteral.readChain
  | disjunction => exact hdisjunction
  | implication => exact himplication
  | biconditional => exact himplication.readPair

theorem readNested_readsContents (depth : Nat) : ReadsContents (readNested depth) := by
  induction depth with
  | zero => exact fun _ _ _ => .tooDeep
  | succ depth ih => exact ih.phrase .biconditional

theorem Phrase.read_readsContents [RecursionLimit] (phrase : Phrase) :
    ReadsContents phrase.read := by
  rw [phrase.read_eq_reader]
  exact (readNested_readsContents maxNesting).phrase phrase

end

end Formulary
