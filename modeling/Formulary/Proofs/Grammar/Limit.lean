import Formulary.Proofs.Grammar.Justified

/-!
This module contains the effect of the limit on nesting: a larger limit changes no answer but the
one that parentheses are nested too deeply.
-/

namespace Formulary

/--
The answer is `other`, unless parentheses are found to be nested too deeply.
-/
def Below (answer other : Except Failure Reading) : Prop :=
  answer = .error .tooDeep ∨ answer = other

def Approximates (reader other : Reader) : Prop :=
  ∀ tokens, Below (reader tokens) (other tokens)

section

variable {reader other inner outer : Reader} {op : Operator} {part : Phrase}

theorem Below.refl (answer : Except Failure Reading) : Below answer answer :=
  .inr rfl

theorem Approximates.bind (h : Approximates reader other) (tokens : List Token)
    {f g : Reading → Except Failure Reading} (hf : ∀ reading, Below (f reading) (g reading)) :
    Below
      (match reader tokens with
      | .error failure => .error failure
      | .ok reading => f reading)
      (match other tokens with
      | .error failure => .error failure
      | .ok reading => g reading) := by
  cases h tokens with
  | inl h =>
    left
    rw [h]
  | inr h =>
    rw [h]
    cases other tokens with
    | error => apply Below.refl
    | ok reading => apply hf reading

theorem Approximates.require (h : Approximates reader other) (part : Phrase) :
    Approximates (require part reader) (require part other) := by
  intro tokens
  unfold Formulary.require
  cases h tokens with
  | inl h =>
    left
    rw [h]
  | inr h =>
    right
    rw [h]

theorem Approximates.readAtom (h : Approximates inner outer) :
    Approximates (readAtom inner) (readAtom outer) := by
  intro tokens
  unfold Formulary.readAtom
  cases tokens with
  | nil => apply Below.refl
  | cons token tokens =>
    dsimp only
    split
    . apply Below.refl
    . split
      . apply Below.refl
      . split
        . apply (h.require .biconditional).bind tokens
          intro body
          apply Below.refl
        . apply Below.refl

theorem Approximates.readLiteral (h : Approximates inner outer) :
    Approximates (readLiteral inner) (readLiteral outer) := by
  intro tokens
  unfold Formulary.readLiteral
  cases h.readAtom tokens with
  | inl h =>
    left
    rw [h]
  | inr hatom =>
    rw [← hatom]
    split
    . split
      . apply Below.refl
      . next rest _ =>
        apply (h.readAtom.require .atom).bind rest
        intro operand
        apply Below.refl
    . apply Below.refl

theorem Approximates.readChain_go (h : Approximates reader other) (bound : List Token)
    (chain : Reading) :
    Below (readChain.go op part reader bound chain) (readChain.go op part other bound chain) := by
  induction bound generalizing chain with
  | nil => apply Below.refl
  | cons _ bound ih =>
    unfold readChain.go
    split
    . apply Below.refl
    . next rest _ =>
      apply (h.require part).bind rest
      intro next
      apply ih

theorem Approximates.readChain (h : Approximates reader other) :
    Approximates (readChain op part reader) (readChain op part other) := by
  intro tokens
  apply h.bind tokens
  intro first
  apply h.readChain_go

theorem Approximates.readPair (h : Approximates reader other) :
    Approximates (readPair op part reader) (readPair op part other) := by
  intro tokens
  apply h.bind tokens
  intro left
  split
  . apply Below.refl
  . next rest _ =>
    apply (h.require part).bind rest
    intro right
    apply Below.refl

theorem Approximates.phrase (h : Approximates inner outer) (phrase : Phrase) :
    Approximates (phrase.reader inner) (phrase.reader outer) := by
  have hconjunction : Approximates (readConjunction inner) (readConjunction outer) :=
    h.readLiteral.readChain
  have hdisjunction : Approximates (readDisjunction inner) (readDisjunction outer) :=
    hconjunction.readChain
  have himplication : Approximates (readImplication inner) (readImplication outer) :=
    hdisjunction.readPair
  cases phrase with
  | identifier => exact fun _ => .inr rfl
  | atom => apply h.readAtom
  | literal => apply h.readLiteral
  | conjunction => exact hconjunction
  | disjunction => exact hdisjunction
  | implication => exact himplication
  | biconditional => apply himplication.readPair

end

theorem readNested_approximates {depth limit : Nat} (h : depth ≤ limit) :
    Approximates (readNested depth) (readNested limit) := by
  induction depth generalizing limit with
  | zero => exact fun _ => .inl rfl
  | succ depth ih =>
    cases limit with
    | zero => omega
    | succ limit => apply (ih (by omega)).phrase .biconditional

end Formulary
