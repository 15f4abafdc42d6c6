import Formulary.Grammar.Levels

/-!
This module contains the single steps of readers. Chains lose the bound on the number of their
operands: it is never met, because every operand takes tokens away.
-/

namespace Formulary

def Shortens (reader : Reader) : Prop :=
  ∀ tokens reading, reader tokens = .ok reading → reading.rest.length ≤ tokens.length

def readOn (op : Operator) (part : Phrase) (operand : Reader) (chain : Reading) :
    Except Failure Reading :=
  readChain.go op part operand chain.rest chain

def mapTree (f : Tree → Tree) : Except Failure Reading → Except Failure Reading
  | .error failure => .error failure
  | .ok reading => .ok { reading with tree := f reading.tree }

section

variable {op : Operator} {part : Phrase} {operand inner : Reader}

theorem require_eq_ok_iff {tokens : List Token} {reading : Reading} :
    require part operand tokens = .ok reading ↔ operand tokens = .ok reading := by
  unfold require
  split
  . next h => simp [h]
  . rfl

theorem require_ne_mismatch (part : Phrase) (reader : Reader) (tokens : List Token) :
    require part reader tokens ≠ .error .mismatch := by
  unfold require
  split
  . simp
  . assumption

theorem readAtom_of_opening {opening : Token} (h : opening.isSymbol "(") (tokens : List Token) :
    readAtom inner (opening :: tokens)
      =
    match require .biconditional inner tokens with
    | .error failure => .error failure
    | .ok body =>
      match dropSymbol ")" body.rest with
      | none => .error (.missing .closing body.rest body.stub)
      | some rest => .ok ⟨body.tree, rest, none⟩ := by
  have hsymbol := Token.isSymbol_iff.1 h
  have hconstant : ¬ (opening.isSymbol "T" || opening.isSymbol "F") = true := by
    simp [Token.isSymbol, hsymbol.2]
  have hidentifier : ¬ opening.isIdentifier = true := by
    simp [Token.isIdentifier, hsymbol.1]
  apply (if_neg hconstant).trans ((if_neg hidentifier).trans (if_pos h))

theorem readAtom_of_dropSymbol_not {tokens rest : List Token}
    (h : dropSymbol Operator.not.text tokens = some rest) :
    readAtom inner tokens = .error .mismatch := by
  obtain ⟨sign, hsign, rfl⟩ := dropSymbol_eq_some_iff.1 h
  rw [Token.isSymbol_iff] at hsign
  simp [readAtom, Token.isSymbol, Token.isIdentifier, Operator.text, hsign.1, hsign.2]

theorem dropSymbol_cons_of_isSymbol {token : Token} {text : String} (h : token.isSymbol text)
    (tokens : List Token) : dropSymbol text (token :: tokens) = some tokens := by
  simp only [dropSymbol, h, ↓reduceIte]

theorem length_lt_of_dropSymbols {tokens rest : List Token}
    (h : dropSymbols op.spelling tokens = .ok rest) : rest.length < tokens.length := by
  obtain ⟨sign, _, htext, rfl⟩ := dropSymbols_eq_ok_iff.1 h
  have : 0 < sign.length := by
    rw [← List.length_map (f := Token.text), htext]
    cases op <;> decide
  rw [List.length_append]
  omega

theorem readChain.go_of_rest_eq_nil {chain : Reading} (h : chain.rest = []) (bound : List Token) :
    readChain.go op part operand bound chain = .ok chain := by
  cases bound with
  | nil => rfl
  | cons => cases op <;> simp [go, h, dropSymbols, dropSymbol, Operator.spelling]

theorem readChain.go_eq_go (hoperand : Shortens operand) {bound longer : List Token}
    {chain : Reading} (hbound : chain.rest.length ≤ bound.length)
    (hlonger : chain.rest.length ≤ longer.length) :
    readChain.go op part operand bound chain = readChain.go op part operand longer chain := by
  -- A bound that is long enough runs out only after the tokens have.
  induction bound generalizing chain longer with
  | nil =>
    rw [List.length_nil, Nat.le_zero, List.length_eq_zero_iff] at hbound
    rw [go_of_rest_eq_nil hbound, go_of_rest_eq_nil hbound]
  | cons _ bound ih =>
    cases longer with
    | nil =>
      rw [List.length_nil, Nat.le_zero, List.length_eq_zero_iff] at hlonger
      rw [go_of_rest_eq_nil hlonger, go_of_rest_eq_nil hlonger]
    | cons _ longer =>
      unfold go
      split
      . rfl
      . next rest hrest =>
        have hlength := length_lt_of_dropSymbols hrest
        split
        . rfl
        . next next hnext =>
          have := hoperand _ _ (require_eq_ok_iff.1 hnext)
          rw [List.length_cons] at hbound hlonger
          apply ih
          . dsimp
            omega
          . dsimp
            omega

theorem readChain_eq (hoperand : Shortens operand) (tokens : List Token) :
    readChain op part operand tokens
      =
    match operand tokens with
    | .error failure => .error failure
    | .ok first => readOn op part operand first := by
  unfold readChain
  cases h : operand tokens with
  | error => rfl
  | ok first =>
    apply readChain.go_eq_go hoperand
    . apply hoperand _ _ h
    . apply Nat.le_refl

theorem readChain_of_ok (hoperand : Shortens operand) {tokens : List Token} {first : Reading}
    (h : operand tokens = .ok first) :
    readChain op part operand tokens = readOn op part operand first := by
  rw [readChain_eq hoperand, h]

theorem readOn_of_error {chain : Reading} {stub : Stub}
    (h : dropSymbols op.spelling chain.rest = .error stub) :
    readOn op part operand chain = .ok chain := by
  unfold readOn readChain.go
  split
  . rfl
  . simp only [h]

theorem readOn_of_ok (hoperand : Shortens operand) {chain : Reading} {rest : List Token}
    (h : dropSymbols op.spelling chain.rest = .ok rest) :
    readOn op part operand chain
      =
    match require part operand rest with
    | .error failure => .error failure
    | .ok next =>
      readOn op part operand { next with tree := .binary op.text chain.tree next.tree } := by
  have hlength := length_lt_of_dropSymbols h
  unfold readOn
  generalize hbound : chain.rest = bound
  cases bound with
  | nil =>
    rw [hbound, List.length_nil] at hlength
    omega
  | cons token bound =>
    rw [hbound, List.length_cons] at hlength
    simp only [readChain.go, h]
    cases hnext : require part operand rest with
    | error => rfl
    | ok next =>
      have := hoperand _ _ (require_eq_ok_iff.1 hnext)
      apply readChain.go_eq_go hoperand
      . dsimp
        omega
      . apply Nat.le_refl

end

end Formulary
