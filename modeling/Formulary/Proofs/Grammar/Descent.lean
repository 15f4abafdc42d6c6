import Formulary.Grammar.Attempt

/-!
This module contains a plain recursive descent over positions. Each level of the grammar looks at
the symbols from its position on, one at a time, and attempts the phrases that it is built from.
-/

namespace Formulary

/--
A step of a descent. That it comes to nothing is no fault.
-/
abbrev Descent (α : Type) :=
  OptionT (Except Fault) α

namespace Descent

def of {α : Type} (result : Option α) : Descent α :=
  OptionT.mk (.ok result)

section

variable {α β : Type}

@[simp]
theorem run_of (result : Option α) : (of result).run = .ok result := rfl

@[simp]
theorem of_some_bind (a : α) (f : α → Descent β) : of (some a) >>= f = f a := rfl

@[simp]
theorem of_none_orElse (other : Descent α) : (of none <|> other) = other := rfl

@[simp]
theorem of_some_orElse (a : α) (other : Descent α) : (of (some a) <|> other) = of (some a) := rfl

@[simp]
theorem lift_run_of_bind (result : Option α) (f : Option α → Descent β) :
    OptionT.lift (of result).run >>= f = f result := rfl

end

section

variable [RecursionLimit] (tokens : List Token)

def symbol (text : String) (pos : Int) : Descent Int :=
  OptionT.mk (accept tokens pos text)

def sign (op : Operator) (pos : Int) : Descent Int :=
  op.spelling.foldlM (fun pos text => symbol tokens text pos) pos

def phrase (phrase : Phrase) (pos : Int) : Descent (Tree × Int) :=
  OptionT.mk ((phrase.attempt tokens pos).map Attempt.result)

def constant (text : String) (pos : Int) : Descent (Tree × Int) := do
  let rest ← symbol tokens text pos
  return (.constant text, rest)

def parentheses (pos : Int) : Descent (Tree × Int) := do
  let inside ← symbol tokens "(" pos
  let (tree, stop) ← phrase tokens .biconditional inside
  let rest ← symbol tokens ")" stop
  return (tree, rest)

def atom (pos : Int) : Descent (Tree × Int) :=
  constant tokens "T" pos <|> constant tokens "F" pos <|> phrase tokens .identifier pos
    <|> parentheses tokens pos

def negation (pos : Int) : Descent (Tree × Int) := do
  let start ← symbol tokens Operator.not.text pos
  let (operand, rest) ← phrase tokens .atom start
  return (.unary Operator.not.text operand, rest)

def literal (pos : Int) : Descent (Tree × Int) :=
  phrase tokens .atom pos <|> negation tokens pos

def pair (op : Operator) (part : Phrase) (pos : Int) : Descent (Tree × Int) := do
  let (left, stop) ← phrase tokens part pos
  match ← OptionT.lift (sign tokens op stop).run with
  | none => return (left, stop)
  | some start =>
    let (right, rest) ← phrase tokens part start
    return (.binary op.text left right, rest)

/--
`Folds tokens op part left stop result`: operands that follow the one that ends at `stop` are folded
into `left` as long as `op` is there, and `result` is what comes of it.
-/
inductive Folds (op : Operator) (part : Phrase) : Tree → Int → Option (Tree × Int) → Prop where
  | done {left : Tree} {stop : Int} (hsign : (sign tokens op stop).run = .ok none) :
    Folds op part left stop (some (left, stop))
  | missing {left : Tree} {stop start : Int} (hsign : (sign tokens op stop).run = .ok (some start))
      (hright : (phrase tokens part start).run = .ok none) :
    Folds op part left stop none
  | next {left right : Tree} {stop start rest : Int} {result : Option (Tree × Int)}
      (hsign : (sign tokens op stop).run = .ok (some start))
      (hright : (phrase tokens part start).run = .ok (some (right, rest)))
      (hrest : Folds op part (.binary op.text left right) rest result) :
    Folds op part left stop result

/--
A chain of operands from `pos` on, which comes to `result`.
-/
inductive Chain (op : Operator) (part : Phrase) (pos : Int) : Option (Tree × Int) → Prop where
  | none (hfirst : (phrase tokens part pos).run = .ok none) : Chain op part pos none
  | some {first : Tree} {stop : Int} {result : Option (Tree × Int)}
      (hfirst : (phrase tokens part pos).run = .ok (some (first, stop)))
      (hfolds : Folds tokens op part first stop result) :
    Chain op part pos result

end

section

variable [RecursionLimit] {tokens : List Token} {op : Operator} {part : Phrase}

theorem Folds.unique {left : Tree} {stop : Int} {result other : Option (Tree × Int)}
    (h : Folds tokens op part left stop result) (hother : Folds tokens op part left stop other) :
    result = other := by
  induction h with
  | done hsign =>
    cases hother with
    | done => rfl
    | missing hsign' => simp [hsign] at hsign'
    | next hsign' => simp [hsign] at hsign'
  | missing hsign hright =>
    cases hother with
    | done hsign' => simp [hsign] at hsign'
    | missing => rfl
    | next hsign' hright' =>
      obtain rfl : _ = _ := by simpa [hsign] using hsign'
      simp [hright] at hright'
  | next hsign hright _ ih =>
    cases hother with
    | done hsign' => simp [hsign] at hsign'
    | missing hsign' hright' =>
      obtain rfl : _ = _ := by simpa [hsign] using hsign'
      simp [hright] at hright'
    | next hsign' hright' hrest' =>
      obtain rfl : _ = _ := by simpa [hsign] using hsign'
      obtain ⟨rfl, rfl⟩ : _ = _ ∧ _ = _ := by simpa [hright] using hright'
      apply ih hrest'

theorem Chain.unique {pos : Int} {result other : Option (Tree × Int)}
    (h : Chain tokens op part pos result) (hother : Chain tokens op part pos other) :
    result = other := by
  cases h with
  | none hfirst =>
    cases hother with
    | none => rfl
    | some hfirst' => simp [hfirst] at hfirst'
  | some hfirst hfolds =>
    cases hother with
    | none hfirst' => simp [hfirst] at hfirst'
    | some hfirst' hfolds' =>
      obtain ⟨rfl, rfl⟩ : _ = _ ∧ _ = _ := by simpa [hfirst] using hfirst'
      apply hfolds.unique hfolds'

end

end Descent

end Formulary
