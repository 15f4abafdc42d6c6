import Formulary.Token.Nesting

/-!
This module contains the depth of a list of tokens, and how it follows from the depths of the parts
of the list.
-/

namespace Formulary

/--
The most parentheses that are open at a point of `tokens`, when `opened` of them were open before.
-/
def deepest (opened : Nat) : List Token → Nat
  | [] => opened
  | token :: tokens => max opened (deepest (openAfter opened [token]) tokens)

def Flat (tokens : List Token) : Prop :=
  ∀ token ∈ tokens, token.isSymbol "(" = false ∧ token.isSymbol ")" = false

theorem openAfter_cons (opened : Nat) (token : Token) (tokens : List Token) :
    openAfter opened (token :: tokens) = openAfter (openAfter opened [token]) tokens := by
  rw [← List.singleton_append]
  apply openAfter_append

theorem openAfter_opening_cons {token : Token} (h : token.isSymbol "(") (opened : Nat)
    (tokens : List Token) : openAfter opened (token :: tokens) = openAfter (opened + 1) tokens := by
  simp only [openAfter, h, ↓reduceIte]

theorem openAfter_le (opened : Nat) (tokens : List Token) :
    openAfter opened tokens ≤ opened + tokens.length := by
  induction tokens generalizing opened with
  | nil => apply Nat.le_refl _
  | cons token tokens ih =>
    rw [openAfter, List.length_cons]
    split
    . have := ih (opened + 1)
      omega
    . split
      . have := ih (opened - 1)
        omega
      . have := ih opened
        omega

theorem openAfter_closing {token : Token} (h : token.isSymbol ")") (opened : Nat) :
    openAfter opened [token] = opened - 1 := by
  have : token.isSymbol "(" = false := by
    rw [Token.isSymbol_iff] at h
    simp [Token.isSymbol, h.2]
  simp only [openAfter, h, this, Bool.false_eq_true, ↓reduceIte]

theorem openAfter_of_flat {tokens : List Token} (h : Flat tokens) (opened : Nat) :
    openAfter opened tokens = opened := by
  induction tokens with
  | nil => rfl
  | cons token tokens ih =>
    have htoken := h token List.mem_cons_self
    have htokens : Flat tokens := fun other hother => h other (List.mem_cons_of_mem _ hother)
    simp only [openAfter, htoken.1, htoken.2, Bool.false_eq_true, ↓reduceIte]
    apply ih htokens

theorem le_deepest (opened : Nat) (tokens : List Token) : opened ≤ deepest opened tokens := by
  cases tokens with
  | nil => apply Nat.le_refl _
  | cons => apply Nat.le_max_left

theorem deepest_opening_cons {token : Token} (h : token.isSymbol "(") (opened : Nat)
    (tokens : List Token) : deepest opened (token :: tokens) = deepest (opened + 1) tokens := by
  have := le_deepest (opened + 1) tokens
  rw [deepest, openAfter_opening_cons h]
  change max opened (deepest (opened + 1) tokens) = _
  omega

theorem deepest_closing {token : Token} (h : token.isSymbol ")") (opened : Nat) :
    deepest opened [token] = opened := by
  rw [deepest, openAfter_closing h]
  change max opened (opened - 1) = opened
  omega

theorem openAfter_parentheses {opening closing : Token} {tokens : List Token} {opened : Nat}
    (hopening : opening.isSymbol "(") (hclosing : closing.isSymbol ")")
    (h : openAfter (opened + 1) tokens = opened + 1) :
    openAfter opened (opening :: tokens ++ [closing]) = opened := by
  rw [openAfter_append, openAfter_opening_cons hopening, h, openAfter_closing hclosing]
  omega

theorem deepest_append (opened : Nat) (tokens later : List Token) :
    deepest opened (tokens ++ later)
      =
    max (deepest opened tokens) (deepest (openAfter opened tokens) later) := by
  induction tokens generalizing opened with
  | nil =>
    simp [deepest, openAfter, le_deepest]
  | cons token tokens ih =>
    rw [openAfter_cons]
    simp only [List.cons_append, deepest, ih]
    omega

theorem deepest_parentheses {opening closing : Token} {tokens : List Token} {opened : Nat}
    (hopening : opening.isSymbol "(") (hclosing : closing.isSymbol ")")
    (h : openAfter (opened + 1) tokens = opened + 1) :
    deepest opened (opening :: tokens ++ [closing]) = deepest (opened + 1) tokens := by
  have := le_deepest (opened + 1) tokens
  rw [deepest_append, deepest_opening_cons hopening, openAfter_opening_cons hopening, h,
    deepest_closing hclosing]
  omega

theorem deepest_of_flat {tokens : List Token} (h : Flat tokens) (opened : Nat) :
    deepest opened tokens = opened := by
  induction tokens with
  | nil => rfl
  | cons token tokens ih =>
    have htoken : Flat [token] := fun other hother => by
      rw [List.mem_singleton.1 hother]
      apply h token List.mem_cons_self
    have htokens : Flat tokens := fun other hother => h other (List.mem_cons_of_mem _ hother)
    simp [deepest, openAfter_of_flat htoken, ih htokens]

theorem openAfter_le_deepest (opened : Nat) (before later : List Token) :
    openAfter opened before ≤ deepest opened (before ++ later) := by
  rw [deepest_append]
  have := le_deepest (openAfter opened before) later
  omega

theorem exists_openAfter_eq_deepest (opened : Nat) (tokens : List Token) :
    ∃ before later, tokens = before ++ later ∧ openAfter opened before = deepest opened tokens := by
  induction tokens generalizing opened with
  | nil => exact ⟨[], [], rfl, rfl⟩
  | cons token tokens ih =>
    obtain ⟨before, later, htokens, hbefore⟩ := ih (openAfter opened [token])
    cases Nat.le_total opened (deepest (openAfter opened [token]) tokens) with
    | inl hle =>
      refine ⟨token :: before, later, ?_, ?_⟩
      . rw [htokens, List.cons_append]
      . rw [openAfter_cons, hbefore, deepest]
        omega
    | inr hle =>
      refine ⟨[], token :: tokens, rfl, ?_⟩
      change opened = _
      rw [deepest]
      omega

theorem nestedWithin_iff {limit : Nat} {tokens : List Token} :
    NestedWithin limit tokens ↔ deepest 0 tokens ≤ limit := by
  constructor
  . intro h
    obtain ⟨before, later, htokens, hbefore⟩ := exists_openAfter_eq_deepest 0 tokens
    rw [← hbefore]
    apply h before later htokens
  . intro h before later htokens
    rw [htokens] at h
    have := openAfter_le_deepest 0 before later
    omega

/--
No more than `limit` parentheses are opened by any stretch of `tokens`.
-/
def NestedThroughout (limit : Nat) (tokens : List Token) : Prop :=
  ∀ before stretch later, tokens = before ++ stretch ++ later → openAfter 0 stretch ≤ limit

theorem NestedThroughout.drop {limit : Nat} {tokens : List Token}
    (h : NestedThroughout limit tokens) (pos : Nat) : NestedWithin limit (tokens.drop pos) := by
  intro stretch later htokens
  apply h (tokens.take pos) stretch later
  rw [List.append_assoc, ← htokens, List.take_append_drop]

theorem nestedThroughout_of_length_le {limit : Nat} {tokens : List Token}
    (h : tokens.length ≤ limit) : NestedThroughout limit tokens := by
  rintro before stretch later rfl
  have := openAfter_le 0 stretch
  simp only [List.length_append] at h
  omega

end Formulary
