import Formulary.Proofs.Grammar.Acceptance
import Formulary.Proofs.Token.Place
import Formulary.Tree.WellFormed

/-!
This module contains where well-formed trees come from: every formula that is read from a text has
one.
-/

namespace Formulary

theorem Derives.wellFormed {phrase : Phrase} {tokens : List Token} {tree : Tree}
    (h : Derives phrase tokens tree) (hnamed : ∀ token ∈ tokens, token.Named) :
    tree.WellFormed := by
  induction h with
  | identifier h => exact hnamed _ List.mem_cons_self h
  | constant h =>
    simp only [Token.isSymbol_iff] at h
    exact h.imp And.right And.right
  | atom _ ih => apply ih hnamed
  | parentheses _ _ _ ih =>
    apply ih
    intro token htoken
    apply hnamed token
    simp [htoken]
  | literal _ ih => apply ih hnamed
  | not _ _ ih =>
    rw [List.forall_mem_append] at hnamed
    exact ⟨rfl, ih hnamed.2⟩
  | conjunction _ ih => apply ih hnamed
  | disjunction _ ih => apply ih hnamed
  | implication _ ih => apply ih hnamed
  | biconditional _ ih => apply ih hnamed
  | and _ _ _ lih rih
  | or _ _ _ lih rih
  | implies _ _ _ lih rih
  | iff _ _ _ lih rih =>
    rw [List.forall_mem_append, List.forall_mem_append] at hnamed
    exact ⟨by decide, lih hnamed.1.1, rih hnamed.2⟩

theorem Tree.wellFormed_of_ofText [RecursionLimit] {text : String} {tree : Tree}
    (h : ofText text = .ok tree) :
    tree.WellFormed := by
  obtain ⟨tokens, hscan, hread⟩ := ofText_eq_ok_iff.1 h
  exact (derives_of_ofTokens hread).wellFormed (named_of_scan hscan)

end Formulary
