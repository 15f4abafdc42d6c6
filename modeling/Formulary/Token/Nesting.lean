import Formulary.Token.Basic

/-!
This module contains the nesting of parentheses in a list of tokens.
-/

namespace Formulary

/--
How many parentheses are open after `tokens`, when `opened` of them were open before. A closing
parenthesis that closes nothing does not count.
-/
def openAfter (opened : Nat) : List Token → Nat
  | [] => opened
  | token :: tokens =>
    if token.isSymbol "(" then
      openAfter (opened + 1) tokens
    else if token.isSymbol ")" then
      openAfter (opened - 1) tokens
    else
      openAfter opened tokens

theorem openAfter_append (opened : Nat) (tokens later : List Token) :
    openAfter opened (tokens ++ later) = openAfter (openAfter opened tokens) later := by
  induction tokens generalizing opened with
  | nil => rfl
  | cons token tokens ih =>
    simp only [List.cons_append, openAfter]
    split
    . apply ih
    . split
      . apply ih
      . apply ih

/--
No more than `limit` parentheses are open at any point of `tokens`.
-/
def NestedWithin (limit : Nat) (tokens : List Token) : Prop :=
  ∀ before later, tokens = before ++ later → openAfter 0 before ≤ limit

end Formulary
