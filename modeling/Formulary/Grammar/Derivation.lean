import Formulary.Grammar.Phrase
import Formulary.Operator
import Formulary.Token.Basic
import Formulary.Tree.Basic

/-!
This module contains the grammar as a relation: which tokens are a phrase, and with which tree. It
knows nothing of readers, of an order of trial or of a limit on nesting.
-/

namespace Formulary

def Operator.Spelled (op : Operator) (tokens : List Token) : Prop :=
  (∀ token ∈ tokens, token.kind = .symbol) ∧ tokens.map Token.text = op.spelling

/--
`Derives phrase tokens tree`: the whole of `tokens` is a `phrase` with the tree `tree`. Chains group
to the left, and parentheses leave no node.
-/
inductive Derives : Phrase → List Token → Tree → Prop where
  | identifier {token : Token} (h : token.isIdentifier) :
    Derives .identifier [token] (.identifier token.text)
  | constant {token : Token} (h : token.isSymbol "T" ∨ token.isSymbol "F") :
    Derives .atom [token] (.constant token.text)
  | atom (h : Derives .identifier tokens tree) : Derives .atom tokens tree
  | parentheses {opening closing : Token} (hopening : opening.isSymbol "(")
      (hclosing : closing.isSymbol ")") (h : Derives .biconditional tokens tree) :
    Derives .atom (opening :: tokens ++ [closing]) tree
  | literal (h : Derives .atom tokens tree) : Derives .literal tokens tree
  | not (hop : Operator.not.Spelled sign) (h : Derives .atom tokens tree) :
    Derives .literal (sign ++ tokens) (.unary Operator.not.text tree)
  | conjunction (h : Derives .literal tokens tree) : Derives .conjunction tokens tree
  | and (hop : Operator.and.Spelled sign) (hleft : Derives .conjunction leftTokens left)
      (hright : Derives .literal rightTokens right) :
    Derives .conjunction (leftTokens ++ sign ++ rightTokens) (.binary Operator.and.text left right)
  | disjunction (h : Derives .conjunction tokens tree) : Derives .disjunction tokens tree
  | or (hop : Operator.or.Spelled sign) (hleft : Derives .disjunction leftTokens left)
      (hright : Derives .conjunction rightTokens right) :
    Derives .disjunction (leftTokens ++ sign ++ rightTokens) (.binary Operator.or.text left right)
  | implication (h : Derives .disjunction tokens tree) : Derives .implication tokens tree
  | implies (hop : Operator.implies.Spelled sign) (hleft : Derives .disjunction leftTokens left)
      (hright : Derives .disjunction rightTokens right) :
    Derives .implication (leftTokens ++ sign ++ rightTokens)
      (.binary Operator.implies.text left right)
  | biconditional (h : Derives .implication tokens tree) : Derives .biconditional tokens tree
  | iff (hop : Operator.iff.Spelled sign) (hleft : Derives .implication leftTokens left)
      (hright : Derives .implication rightTokens right) :
    Derives .biconditional (leftTokens ++ sign ++ rightTokens)
      (.binary Operator.iff.text left right)

theorem Derives.ne_nil (h : Derives phrase tokens tree) : tokens ≠ [] := by
  induction h with
  | identifier => simp
  | constant => simp
  | parentheses => simp
  | atom _ ih => exact ih
  | literal _ ih => exact ih
  | conjunction _ ih => exact ih
  | disjunction _ ih => exact ih
  | implication _ ih => exact ih
  | biconditional _ ih => exact ih
  | not _ _ ih => simp [ih]
  | and _ _ _ _ ih => simp [ih]
  | or _ _ _ _ ih => simp [ih]
  | implies _ _ _ _ ih => simp [ih]
  | iff _ _ _ _ ih => simp [ih]

def Viable (tokens : List Token) : Prop :=
  ∃ later tree, Derives .biconditional (tokens ++ later) tree

end Formulary
