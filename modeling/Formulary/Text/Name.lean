/-!
This module contains the form of names, both of stored formulas and of the identifiers in them.
-/

namespace Formulary

def isName (text : String) : Bool :=
  match text.toList with
  | [] => false
  | c :: cs => c.isAlpha && cs.all Char.isAlphanum

theorem isName_eq_true_iff {text : String} :
    isName text = true ↔
      ∃ c cs, text.toList = c :: cs ∧ c.isAlpha = true ∧ ∀ d ∈ cs, d.isAlphanum = true := by
  simp only [isName]
  split
  . simp_all
  . next c cs h =>
    simp only [h, List.cons.injEq, Bool.and_eq_true, List.all_eq_true]
    constructor
    . exact fun hname => ⟨c, cs, ⟨rfl, rfl⟩, hname⟩
    . rintro ⟨_, _, ⟨rfl, rfl⟩, hname⟩
      exact hname

end Formulary
