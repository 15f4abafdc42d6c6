import Formulary.Grammar.Derivation
import Formulary.Proofs.Token.Depth

/-!
This module contains the beginnings of phrases. It states the rules for operators once for all
levels of the grammar, and that phrases leave no parenthesis open.
-/

namespace Formulary

def Begins (phrase : Phrase) (tokens : List Token) : Prop :=
  ∃ later tree, Derives phrase (tokens ++ later) tree

structure Joins (whole : Phrase) (op : Operator) (left right : Phrase) : Prop where
  single {tokens : List Token} {tree : Tree} (h : Derives right tokens tree) :
    Derives whole tokens tree
  join {leftTokens sign rightTokens : List Token} {leftTree rightTree : Tree}
      (hop : op.Spelled sign) (hleft : Derives left leftTokens leftTree)
      (hright : Derives right rightTokens rightTree) :
    Derives whole (leftTokens ++ sign ++ rightTokens) (.binary op.text leftTree rightTree)

theorem joins_conjunction : Joins .conjunction .and .conjunction .literal :=
  ⟨.conjunction, .and⟩

theorem joins_disjunction : Joins .disjunction .or .disjunction .conjunction :=
  ⟨.disjunction, .or⟩

theorem joins_implication : Joins .implication .implies .disjunction .disjunction :=
  ⟨.implication, .implies⟩

theorem joins_biconditional : Joins .biconditional .iff .implication .implication :=
  ⟨.biconditional, .iff⟩

theorem Derives.of_atom {phrase : Phrase} {tokens : List Token} {tree : Tree}
    (h : Derives .atom tokens tree) (hphrase : phrase ≠ .identifier) :
    Derives phrase tokens tree := by
  have hliteral := Derives.literal h
  have hconjunction := Derives.conjunction hliteral
  have hdisjunction := Derives.disjunction hconjunction
  have himplication := Derives.implication hdisjunction
  cases phrase with
  | identifier => contradiction
  | atom => exact h
  | literal => exact hliteral
  | conjunction => exact hconjunction
  | disjunction => exact hdisjunction
  | implication => exact himplication
  | biconditional => exact .biconditional himplication

theorem Derives.begins {phrase : Phrase} {tokens : List Token} {tree : Tree}
    (h : Derives phrase tokens tree) : Begins phrase tokens := by
  refine ⟨[], tree, ?_⟩
  rw [List.append_nil]
  exact h

namespace Begins

theorem nil (phrase : Phrase) : Begins phrase [] := by
  let token : Token := ⟨.identifier, "a", none⟩
  have h : Derives .identifier [token] (.identifier token.text) := .identifier rfl
  cases phrase with
  | identifier => exact ⟨[token], _, h⟩
  | _ => exact ⟨[token], _, Derives.of_atom (.atom h) (by simp)⟩

theorem parentheses {opening : Token} {tokens : List Token} (hopening : opening.isSymbol "(")
    (h : Begins .biconditional tokens) : Begins .atom (opening :: tokens) := by
  obtain ⟨later, tree, hderives⟩ := h
  let closing : Token := ⟨.symbol, ")", none⟩
  have hclosing : closing.isSymbol ")" := by decide
  have := Derives.parentheses hopening hclosing hderives
  refine ⟨later ++ [closing], tree, ?_⟩
  simpa using this

theorem single {whole left right : Phrase} {op : Operator} {tokens : List Token}
    (hjoins : Joins whole op left right) (h : Begins right tokens) : Begins whole tokens := by
  obtain ⟨later, tree, hderives⟩ := h
  exact ⟨later, tree, hjoins.single hderives⟩

theorem join {whole left right : Phrase} {op : Operator} {leftTokens sign rightTokens : List Token}
    {leftTree : Tree} (hjoins : Joins whole op left right) (hop : op.Spelled sign)
    (hleft : Derives left leftTokens leftTree) (h : Begins right rightTokens) :
    Begins whole (leftTokens ++ sign ++ rightTokens) := by
  obtain ⟨later, rightTree, hderives⟩ := h
  refine ⟨later, .binary op.text leftTree rightTree, ?_⟩
  rw [List.append_assoc]
  apply hjoins.join hop hleft hderives

theorem stub {whole left right : Phrase} {op : Operator} {leftTokens ahead missing : List Token}
    {leftTree : Tree} (hjoins : Joins whole op left right) (hop : op.Spelled (ahead ++ missing))
    (hleft : Derives left leftTokens leftTree) : Begins whole (leftTokens ++ ahead) := by
  obtain ⟨later, tree, hderives⟩ := join hjoins hop hleft (.nil right)
  refine ⟨missing ++ later, tree, ?_⟩
  simpa using hderives

end Begins

theorem flat_of_text {tokens : List Token}
    (h : ∀ token ∈ tokens, token.kind = .symbol → token.text ≠ "(" ∧ token.text ≠ ")") :
    Flat tokens := by
  intro token htoken
  simp only [← Bool.not_eq_true, Token.isSymbol_iff]
  constructor
  . rintro ⟨hkind, htext⟩
    apply (h token htoken hkind).1 htext
  . rintro ⟨hkind, htext⟩
    apply (h token htoken hkind).2 htext

theorem flat_of_identifier {token : Token} (h : token.isIdentifier) : Flat [token] := by
  apply flat_of_text
  rw [Token.isIdentifier_iff] at h
  simp [h]

theorem flat_of_constant {token : Token} (h : token.isSymbol "T" ∨ token.isSymbol "F") :
    Flat [token] := by
  apply flat_of_text
  simp only [Token.isSymbol_iff] at h
  rcases h with h | h
  . simp [h.2]
  . simp [h.2]

theorem Operator.Spelled.flat {op : Operator} {tokens : List Token} (h : op.Spelled tokens) :
    Flat tokens := by
  apply flat_of_text
  intro token htoken _
  have hmem : token.text ∈ op.spelling := by
    rw [← h.2]
    apply List.mem_map_of_mem htoken
  have hspelling : ∀ text ∈ op.spelling, text ≠ "(" ∧ text ≠ ")" := by
    cases op <;> decide
  apply hspelling token.text hmem

theorem Derives.openAfter_eq {phrase : Phrase} {tokens : List Token} {tree : Tree}
    (h : Derives phrase tokens tree) (opened : Nat) : openAfter opened tokens = opened := by
  induction h generalizing opened with
  | identifier h => apply openAfter_of_flat (flat_of_identifier h)
  | constant h => apply openAfter_of_flat (flat_of_constant h)
  | parentheses hopening hclosing _ ih => apply openAfter_parentheses hopening hclosing (ih _)
  | atom _ ih => apply ih
  | literal _ ih => apply ih
  | conjunction _ ih => apply ih
  | disjunction _ ih => apply ih
  | implication _ ih => apply ih
  | biconditional _ ih => apply ih
  | not hop _ ih => rw [openAfter_append, openAfter_of_flat hop.flat, ih]
  | and hop _ _ lih rih =>
    rw [openAfter_append, openAfter_append, lih, openAfter_of_flat hop.flat, rih]
  | or hop _ _ lih rih =>
    rw [openAfter_append, openAfter_append, lih, openAfter_of_flat hop.flat, rih]
  | implies hop _ _ lih rih =>
    rw [openAfter_append, openAfter_append, lih, openAfter_of_flat hop.flat, rih]
  | iff hop _ _ lih rih =>
    rw [openAfter_append, openAfter_append, lih, openAfter_of_flat hop.flat, rih]

end Formulary
