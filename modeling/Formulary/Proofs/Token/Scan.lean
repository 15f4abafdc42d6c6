import Formulary.Proofs.Token.Layout
import Formulary.Text.Name

/-!
This module contains how far scanning gets: up to the first character that fits nowhere, or to the
end of the text.
-/

namespace Formulary

def endsInWord (before : List Char) : Bool :=
  before.getLast?.any Char.isAlphanum

/--
The character `c` fits nowhere behind `before`. It is a digit that starts a word, or it is neither a
character of tokens nor a blank.
-/
def Misfit (before : List Char) (c : Char) : Prop :=
  (c.isDigit = true ∧ endsInWord before = false)
    ∨ (c.isAlphanum = false ∧ isOperatorChar c = false ∧ isBlank c = false)

def Fits (seen cs : List Char) : Prop :=
  ∀ before c after, cs = before ++ c :: after → ¬ Misfit (seen ++ before) c

section

variable {seen cs before : List Char} {c : Char}

theorem isDigit_of_isAlpha (h : c.isAlpha = true) : c.isDigit = false := by
  rw [← Bool.not_eq_true]
  intro hdigit
  have hnat : 48 ≤ c.toNat ∧ c.toNat ≤ 57 := Char.isDigit_iff_toNat.1 hdigit
  have := toNat_of_isAlpha h
  omega

theorem isAlphanum_of_isDigit (h : c.isDigit = true) : c.isAlphanum = true := by
  simp [Char.isAlphanum, h]

theorem Misfit.isBlank_eq_false (h : Misfit before c) : isBlank c = false := by
  rcases h with ⟨hdigit, _⟩ | ⟨_, _, hblank⟩
  . apply isBlank_of_isAlphanum (isAlphanum_of_isDigit hdigit)
  . exact hblank

theorem Fits.nil (seen : List Char) : Fits seen [] := by
  intro before c after h
  simp at h

theorem Fits.cons (hc : ¬ Misfit seen c) (h : Fits (seen ++ [c]) cs) : Fits seen (c :: cs) := by
  intro before d after hcs
  cases before with
  | nil =>
    obtain ⟨rfl, _⟩ := List.cons.inj hcs
    rw [List.append_nil]
    exact hc
  | cons e before =>
    obtain ⟨rfl, hrest⟩ := List.cons.inj hcs
    rw [List.append_cons]
    apply h before d after hrest

end

namespace scan

variable {tokens found : List Token} {place : Place} {inWord : Bool} {seen cs : List Char} {c : Char}

theorem go_of_misfit (h : Misfit seen c) (tokens : List Token) (place : Place) (cs : List Char) :
    go tokens place (endsInWord seen) (c :: cs) = .error (place.right 1) := by
  rcases h with ⟨hdigit, hends⟩ | ⟨hword, hop, hblank⟩
  . have halpha : c.isAlpha = false := by
      rw [← Bool.not_eq_true]
      intro halpha
      rw [isDigit_of_isAlpha halpha] at hdigit
      cases hdigit
    simp [go, isAlphanum_of_isDigit hdigit, hends, halpha]
  . simp [go, hword, hop, hblank]

theorem exists_go_of_not_misfit (h : ¬ Misfit seen c) (tokens : List Token) (place : Place)
    (cs : List Char) :
    ∃ found, go tokens place (endsInWord seen) (c :: cs)
      = go found (place.advance c) (endsInWord (seen ++ [c])) cs := by
  have hends : endsInWord (seen ++ [c]) = c.isAlphanum := by simp [endsInWord]
  rw [hends, go]
  cases hword : c.isAlphanum with
  | true =>
    cases hseen : endsInWord seen with
    | true => exact ⟨_, rfl⟩
    | false =>
      cases halpha : c.isAlpha with
      | true => exact ⟨_, rfl⟩
      | false =>
        have hdigit : c.isDigit = true := by simpa [Char.isAlphanum, halpha] using hword
        exact absurd (.inl ⟨hdigit, hseen⟩) h
  | false =>
    cases hop : isOperatorChar c with
    | true => exact ⟨_, rfl⟩
    | false =>
      cases hblank : isBlank c with
      | true => exact ⟨_, rfl⟩
      | false => exact absurd (.inr ⟨hword, hop, hblank⟩) h

theorem go_eq (tokens : List Token) (place : Place) (seen cs : List Char) :
    (Fits seen cs ∧ ∃ found, go tokens place (endsInWord seen) cs = .ok found)
      ∨ ∃ before c after, cs = before ++ c :: after ∧ Fits seen before
        ∧ Misfit (seen ++ before) c
        ∧ go tokens place (endsInWord seen) cs
          = .error ((before.foldl Place.advance place).right 1) := by
  induction cs generalizing tokens place seen with
  | nil => exact .inl ⟨.nil seen, _, rfl⟩
  | cons c cs ih =>
    by_cases hc : Misfit seen c
    . refine .inr ⟨[], c, cs, rfl, .nil seen, ?_, go_of_misfit hc tokens place cs⟩
      rw [List.append_nil]
      exact hc
    . obtain ⟨found, hgo⟩ := exists_go_of_not_misfit hc tokens place cs
      rw [hgo]
      rcases ih found (place.advance c) (seen ++ [c]) with ⟨hfits, hok⟩ | herror
      . exact .inl ⟨hfits.cons hc, hok⟩
      . obtain ⟨before, d, after, rfl, hfits, hd, herror⟩ := herror
        refine .inr ⟨c :: before, d, after, rfl, hfits.cons hc, ?_, herror⟩
        rw [List.append_cons]
        exact hd

theorem go_eq_error {stop : Place} (h : go [] .origin false cs = .error stop) :
    ∃ before c after, cs = before ++ c :: after ∧ Fits [] before ∧ Misfit before c
      ∧ stop = (before.foldl Place.advance .origin).right 1 := by
  rcases go_eq [] .origin [] cs with ⟨_, found, hok⟩ | herror
  . cases h.symm.trans hok
  . obtain ⟨before, c, after, hcs, hfits, hmisfit, hgo⟩ := herror
    exact ⟨before, c, after, hcs, hfits, hmisfit, Except.error.inj (h.symm.trans hgo)⟩

end scan

end Formulary
