import Formulary.Proofs.Grammar.Stub

/-!
This module contains how far readers look: no further than one token after what they have read,
the stub included. What stands behind that token has no influence on the answer.
-/

namespace Formulary

/--
The answer is settled in front of the last `n` tokens.
-/
def Settled (n : Nat) : Except Failure Reading → Prop
  | .ok reading => n + stubLength reading.stub < reading.rest.length
  | .error .mismatch => True
  | .error (.missing _ rest stub) => n + stubLength stub < rest.length
  | .error .tooDeep => False

/--
The answer is the same for all tokens that may come later, but for these tokens themselves.
-/
def Uniform (answer : List Token → Except Failure Reading) : Prop :=
  (∃ tree rest stub, stubLength stub < rest.length
    ∧ ∀ later, answer later = .ok ⟨tree, rest ++ later, stub⟩)
  ∨ (∃ part rest stub, stubLength stub < rest.length
    ∧ ∀ later, answer later = .error (.missing part (rest ++ later) stub))
  ∨ (∀ later, answer later = .error .mismatch)

def Local (reader : Reader) : Prop :=
  ∀ seen later, seen ≠ [] → Settled later.length (reader (seen ++ later)) →
    Uniform fun later => reader (seen ++ later)

section

variable {op : Operator} {part : Phrase} {operand inner : Reader} {opened limit : Nat}

theorem Uniform.ok (tree : Tree) {rest : List Token} {stub : Option Stub}
    (h : stubLength stub < rest.length) :
    Uniform fun later => .ok ⟨tree, rest ++ later, stub⟩ :=
  .inl ⟨tree, rest, stub, h, fun _ => rfl⟩

theorem Uniform.missing (part : Part) {rest : List Token} {stub : Option Stub}
    (h : stubLength stub < rest.length) :
    Uniform fun later => .error (.missing part (rest ++ later) stub) :=
  .inr (.inl ⟨part, rest, stub, h, fun _ => rfl⟩)

theorem Uniform.mismatch : Uniform fun _ => .error .mismatch :=
  .inr (.inr fun _ => rfl)

theorem Uniform.congr {answer other : List Token → Except Failure Reading} (h : Uniform answer)
    (heq : ∀ later, other later = answer later) : Uniform other := by
  have : other = answer := funext heq
  rwa [this]

theorem Uniform.bind {answer : List Token → Except Failure Reading}
    {f : Reading → Except Failure Reading} (h : Uniform answer)
    (hf : ∀ tree rest stub, stubLength stub < rest.length →
      (∀ later, answer later = .ok ⟨tree, rest ++ later, stub⟩) →
      Uniform fun later => f ⟨tree, rest ++ later, stub⟩) :
    Uniform fun later =>
      match answer later with
      | .error failure => .error failure
      | .ok reading => f reading := by
  rcases h with ⟨tree, rest, stub, hlt, hall⟩ | ⟨part, rest, stub, hlt, hall⟩ | hall
  . simp only [hall]
    apply hf tree rest stub hlt hall
  . simp only [hall]
    apply Uniform.missing part hlt
  . simp only [hall]
    apply Uniform.mismatch

theorem Uniform.mapTree {answer : List Token → Except Failure Reading} (h : Uniform answer)
    (f : Tree → Tree) : Uniform fun later => mapTree f (answer later) := by
  apply h.bind
  intro tree rest stub hlt _
  apply Uniform.ok (f tree) hlt

theorem Settled.of_bind {n : Nat} {answer : Except Failure Reading}
    {f : Reading → Except Failure Reading}
    (h : Settled n (match answer with
      | .error failure => .error failure
      | .ok reading => f reading))
    (hf : ∀ reading, answer = .ok reading → Settled n (f reading) → Settled n (.ok reading)) :
    Settled n answer := by
  cases answer with
  | error => exact h
  | ok reading => apply hf reading rfl h

theorem Uniform.exists_ok {answer : List Token → Except Failure Reading} (h : Uniform answer)
    {later : List Token} {reading : Reading} (hok : answer later = .ok reading) :
    ∃ tree rest stub, reading = ⟨tree, rest ++ later, stub⟩ ∧ stubLength stub < rest.length
      ∧ ∀ later, answer later = .ok ⟨tree, rest ++ later, stub⟩ := by
  rcases h with ⟨tree, rest, stub, hlt, hall⟩ | ⟨_, _, _, _, hall⟩ | hall
  . rw [hall] at hok
    exact ⟨tree, rest, stub, (Except.ok.inj hok).symm, hlt, hall⟩
  . rw [hall] at hok
    cases hok
  . rw [hall] at hok
    cases hok

theorem Uniform.ne_tooDeep {answer : List Token → Except Failure Reading} (h : Uniform answer)
    (later : List Token) : answer later ≠ .error .tooDeep := by
  rcases h with ⟨_, _, _, _, hall⟩ | ⟨_, _, _, _, hall⟩ | hall
  . simp [hall]
  . simp [hall]
  . simp [hall]

theorem Justified.lt_of_settled {tokens : List Token} {outcome : Except Failure Reading} {n : Nat}
    (h : Justified part opened limit tokens outcome) (hne : outcome ≠ .error .mismatch)
    (hsettled : Settled n outcome) : n < tokens.length := by
  match outcome with
  | .ok reading =>
    obtain ⟨front, rfl, _⟩ := h
    simp only [Settled, List.length_append] at hsettled ⊢
    omega
  | .error .mismatch => contradiction
  | .error (.missing _ rest stub) =>
    obtain ⟨front, rfl, _⟩ := h
    simp only [Settled, List.length_append] at hsettled ⊢
    omega
  | .error .tooDeep => cases hsettled

theorem exists_eq_append_of_le {tokens front rest later : List Token}
    (h : tokens ++ later = front ++ rest) (hle : later.length ≤ rest.length) :
    ∃ between, rest = between ++ later ∧ tokens = front ++ between := by
  obtain ⟨between, hfront, hlater⟩ | ⟨between, htokens, hrest⟩ := List.append_eq_append_iff.1 h
  . rw [hlater, List.length_append] at hle
    have : between = [] := by
      apply List.length_eq_zero_iff.1
      omega
    subst this
    exact ⟨[], by simpa using hlater.symm, by simpa using hfront.symm⟩
  . exact ⟨between, hrest, htokens⟩

theorem dropSymbols_ok_local {texts : List String} {tokens later rest : List Token}
    (h : dropSymbols texts (tokens ++ later) = .ok rest) (hle : later.length ≤ rest.length) :
    ∃ between, rest = between ++ later
      ∧ ∀ later, dropSymbols texts (tokens ++ later) = .ok (between ++ later) := by
  obtain ⟨sign, hkind, htext, hsign⟩ := dropSymbols_eq_ok_iff.1 h
  obtain ⟨between, rfl, rfl⟩ := exists_eq_append_of_le hsign hle
  refine ⟨between, rfl, ?_⟩
  intro later
  rw [dropSymbols_eq_ok_iff]
  exact ⟨sign, hkind, htext, by rw [List.append_assoc]⟩

theorem dropSymbols_error_local {texts : List String} {tokens later : List Token} {stub : Stub}
    (h : dropSymbols texts (tokens ++ later) = .error stub) (hlt : stub.read < tokens.length)
    (other : List Token) : dropSymbols texts (tokens ++ other) = .error stub := by
  induction texts generalizing tokens stub with
  | nil => simp [dropSymbols] at h
  | cons text texts ih =>
    cases tokens with
    | nil => simp at hlt
    | cons token tokens =>
      cases htoken : token.isSymbol text with
      | false =>
        simp only [List.cons_append, dropSymbols, dropSymbol, htoken, Bool.false_eq_true,
          ↓reduceIte] at h ⊢
        exact h
      | true =>
        simp only [List.cons_append, dropSymbols, dropSymbol, htoken, ↓reduceIte] at h ⊢
        cases hfound : dropSymbols texts (tokens ++ later) with
        | ok => simp [hfound] at h
        | error found =>
          simp only [hfound, Except.error.injEq] at h
          rw [← h, List.length_cons] at hlt
          have hlt : found.read < tokens.length := Nat.lt_of_succ_lt_succ hlt
          simp only [ih hfound hlt, h]

theorem dropSymbol_local {text : String} {tokens : List Token} (hne : tokens ≠ [])
    (later : List Token) :
    dropSymbol text (tokens ++ later) = (dropSymbol text tokens).map (· ++ later) := by
  cases tokens with
  | nil => contradiction
  | cons token tokens => cases h : token.isSymbol text <;> simp [dropSymbol, h]

theorem Local.require (h : Local operand) : Local (require part operand) := by
  intro seen later hseen hsettled
  have hoperand : Settled later.length (operand (seen ++ later)) := by
    unfold Formulary.require at hsettled
    split at hsettled
    . next hmismatch =>
      rw [hmismatch]
      trivial
    . exact hsettled
  unfold Formulary.require
  rcases h seen later hseen hoperand with ⟨tree, rest, stub, hlt, hall⟩
    | ⟨missing, rest, stub, hlt, hall⟩ | hall
  . simp only [hall]
    exact .ok _ hlt
  . simp only [hall]
    exact .missing _ hlt
  . simp only [hall]
    exact .missing _ (List.length_pos_iff.2 hseen)

theorem require_uniform
    (hjustified : ∀ tokens, Justified part opened limit tokens (operand tokens))
    (hlocal : Local operand) {seen later : List Token}
    (h : Settled later.length (require part operand (seen ++ later))) :
    Uniform fun later => require part operand (seen ++ later) := by
  apply hlocal.require seen later _ h
  rintro rfl
  have hne := require_ne_mismatch part operand ([] ++ later)
  have := (require_justified (hjustified _)).lt_of_settled hne h
  simp at this

theorem uniform_of_token (tree : Tree) {seen later : List Token}
    (h : Settled later.length (.ok ⟨tree, seen ++ later, none⟩)) :
    Uniform fun later => .ok ⟨tree, seen ++ later, none⟩ := by
  simp only [Settled, List.length_append] at h
  exact .ok tree (by omega)

theorem readIdentifier_local : Local readIdentifier := by
  intro seen later hseen hsettled
  cases seen with
  | nil => contradiction
  | cons token seen =>
    simp only [List.cons_append, readIdentifier] at hsettled ⊢
    split at hsettled
    . next hidentifier =>
      simp only [hidentifier, ↓reduceIte]
      apply uniform_of_token _ hsettled
    . next hidentifier =>
      simp only [hidentifier]
      exact .mismatch

theorem readParentheses_uniform
    (hjustified : ∀ tokens, Justified .biconditional opened limit tokens (inner tokens))
    (hleaves : Leaves Phrase.biconditional.stubbed inner) (hlocal : Local inner) {opening : Token}
    (hopening : opening.isSymbol "(") {seen later : List Token}
    (h : Settled later.length (readAtom inner (opening :: (seen ++ later)))) :
    Uniform fun later => readAtom inner (opening :: (seen ++ later)) := by
  simp only [readAtom_of_opening hopening] at h ⊢
  have hbody : Settled later.length (require .biconditional inner (seen ++ later)) := by
    apply h.of_bind
    intro body hbody hsettled
    have hstub := hleaves _ _ (require_eq_ok_iff.1 hbody)
    cases hclosing : dropSymbol ")" body.rest with
    | none =>
      simp only [hclosing] at hsettled
      exact hsettled
    | some rest =>
      simp only [hclosing] at hsettled
      obtain ⟨closing, hisClosing, hrest⟩ := dropSymbol_eq_some_iff.1 hclosing
      rw [hrest] at hstub
      simp only [Settled, hstub.eq_none_of_closing hisClosing, hrest, List.length_cons]
        at hsettled ⊢
      omega
  apply (require_uniform hjustified hlocal hbody).bind
  intro tree rest stub hlt hall
  have hne : rest ≠ [] := List.ne_nil_of_length_pos (by omega)
  simp only [hall, dropSymbol_local hne] at h ⊢
  cases hclosing : dropSymbol ")" rest with
  | none => exact .missing _ hlt
  | some after =>
    simp only [hclosing, Option.map_some, Settled, List.length_append] at h
    exact .ok _ (by omega)

theorem readAtom_local
    (hjustified : ∀ tokens, Justified .biconditional opened limit tokens (inner tokens))
    (hleaves : Leaves Phrase.biconditional.stubbed inner) (hlocal : Local inner) :
    Local (readAtom inner) := by
  intro seen later hseen hsettled
  cases seen with
  | nil => contradiction
  | cons token seen =>
    cases hopening : token.isSymbol "(" with
    | true => apply readParentheses_uniform hjustified hleaves hlocal hopening hsettled
    | false =>
      simp only [List.cons_append, readAtom, hopening, Bool.false_eq_true, ↓reduceIte]
        at hsettled ⊢
      split at hsettled
      . next hconstant =>
        simp only [hconstant, ↓reduceIte]
        apply uniform_of_token _ hsettled
      . next hconstant =>
        simp only [hconstant]
        split at hsettled
        . next hidentifier =>
          simp only [hidentifier, ↓reduceIte]
          apply uniform_of_token _ hsettled
        . next hidentifier =>
          simp only [hidentifier]
          exact .mismatch

theorem readLiteral_local
    (hjustified : ∀ tokens, Justified .atom opened limit tokens (readAtom inner tokens))
    (hlocal : Local (readAtom inner)) : Local (readLiteral inner) := by
  intro seen later hseen hsettled
  have hatom : Settled later.length (readAtom inner (seen ++ later)) := by
    unfold readLiteral at hsettled
    split at hsettled
    . next hmismatch =>
      rw [hmismatch]
      trivial
    . exact hsettled
  rcases hlocal seen later hseen hatom with ⟨tree, rest, stub, hlt, hall⟩
    | ⟨missing, rest, stub, hlt, hall⟩ | hall
  . simp only [readLiteral, hall]
    exact .ok _ hlt
  . simp only [readLiteral, hall]
    exact .missing _ hlt
  . simp only [readLiteral, hall, dropSymbol_local hseen] at hsettled ⊢
    cases hsign : dropSymbol Operator.not.text seen with
    | none => exact .mismatch
    | some seen =>
      simp only [hsign, Option.map_some] at hsettled ⊢
      have hoperand := hsettled.of_bind fun _ _ h => h
      apply (require_uniform hjustified hlocal hoperand).mapTree

theorem lt_of_settled_readOn
    (hjustified : ∀ tokens, Justified part opened limit tokens (operand tokens))
    {n : Nat} (chain : Reading) (h : Settled n (readOn op part operand chain)) :
    n < chain.rest.length := by
  have hshortens := shortens_of_justified hjustified
  cases hdrop : dropSymbols op.spelling chain.rest with
  | error =>
    rw [readOn_of_error hdrop] at h
    simp only [Settled] at h
    omega
  | ok rest =>
    have hrest := length_lt_of_dropSymbols hdrop
    rw [readOn_of_ok hshortens hdrop] at h
    have hjustified' := require_justified (hjustified rest)
    cases hnext : require part operand rest with
    | error failure =>
      simp only [hnext] at h
      rw [← hnext] at h
      have := hjustified'.lt_of_settled (require_ne_mismatch part operand rest) h
      omega
    | ok next =>
      simp only [hnext] at h
      have hlength := hshortens _ _ (require_eq_ok_iff.1 hnext)
      have := lt_of_settled_readOn hjustified _ h
      dsimp at this
      omega
termination_by chain.rest.length

theorem readOn_uniform (hjustified : ∀ tokens, Justified part opened limit tokens (operand tokens))
    (hleaves : Leaves [] operand) (hlocal : Local operand) (hop : op.spelling.length = 1)
    (tree : Tree) (rest later : List Token)
    (h : Settled later.length (readOn op part operand ⟨tree, rest ++ later, none⟩)) :
    Uniform fun later => readOn op part operand ⟨tree, rest ++ later, none⟩ := by
  -- One operand at a time: each is settled by itself, because what follows it reads even further.
  have hshortens := shortens_of_justified hjustified
  have hlt := lt_of_settled_readOn hjustified _ h
  rw [List.length_append] at hlt
  cases hdrop : dropSymbols op.spelling (rest ++ later) with
  | error stub =>
    have hread := read_lt_of_dropSymbols hdrop
    apply Uniform.congr _ fun later =>
      readOn_of_error (dropSymbols_error_local hdrop (by omega) later)
    apply Uniform.ok tree
    rw [stubLength_none]
    omega
  | ok after =>
    rw [readOn_of_ok hshortens hdrop] at h
    have hsettled : Settled later.length (require part operand after) := by
      apply h.of_bind
      intro next hnext hrest
      have hnone := (hleaves _ _ (require_eq_ok_iff.1 hnext)).eq_none
      simp only [Settled, hnone]
      apply lt_of_settled_readOn hjustified _ hrest
    have hafter := (require_justified (hjustified after)).lt_of_settled
      (require_ne_mismatch part operand after) hsettled
    obtain ⟨between, rfl, hall⟩ := dropSymbols_ok_local hdrop (by omega)
    apply Uniform.congr _ fun later => readOn_of_ok hshortens (hall later)
    dsimp only
    apply (require_uniform hjustified hlocal hsettled).bind
    intro operandTree fewer stub _ hreadings
    obtain rfl : stub = none := (hleaves _ _ (require_eq_ok_iff.1 (hreadings []))).eq_none
    have hlength := hshortens _ _ (require_eq_ok_iff.1 (hreadings []))
    have hshorter := length_lt_of_dropSymbols (hall [])
    simp only [hreadings] at h
    apply readOn_uniform hjustified hleaves hlocal hop (.binary op.text tree operandTree) fewer
      later h
termination_by rest.length
decreasing_by
  simp only [List.append_nil] at hlength hshorter
  omega

theorem readChain_local (hjustified : ∀ tokens, Justified part opened limit tokens (operand tokens))
    (hleaves : Leaves [] operand) (hlocal : Local operand) (hop : op.spelling.length = 1) :
    Local (readChain op part operand) := by
  have hshortens := shortens_of_justified hjustified
  intro seen later hseen hsettled
  simp only [readChain_eq hshortens] at hsettled ⊢
  have hoperand : Settled later.length (operand (seen ++ later)) := by
    apply hsettled.of_bind
    intro first hfirst h
    simp only [Settled, (hleaves _ _ hfirst).eq_none]
    apply lt_of_settled_readOn hjustified _ h
  apply (hlocal seen later hseen hoperand).bind
  intro tree rest stub _ hall
  obtain rfl : stub = none := (hleaves _ _ (hall [])).eq_none
  simp only [hall] at hsettled
  apply readOn_uniform hjustified hleaves hlocal hop tree rest later hsettled

theorem readPair_local (hjustified : ∀ tokens, Justified part opened limit tokens (operand tokens))
    {operators : List Operator} (hleaves : Leaves operators operand) (hmem : op ∉ operators)
    (hlocal : Local operand) : Local (readPair op part operand) := by
  intro seen later hseen hsettled
  unfold readPair at hsettled ⊢
  have hoperand : Settled later.length (operand (seen ++ later)) := by
    apply hsettled.of_bind
    intro left hleft h
    have hstub := hleaves _ _ hleft
    cases hdrop : dropSymbols op.spelling left.rest with
    | error found =>
      have hle : stubLength left.stub ≤ stubLength (left.stub <|> found.proper?) := by
        cases left.stub with
        | none => apply Nat.zero_le
        | some => apply Nat.le_refl
      simp only [hdrop, Settled] at h ⊢
      omega
    | ok rest =>
      simp only [hdrop] at h
      have hright := h.of_bind fun _ _ h => h
      have hrest := (require_justified (hjustified rest)).lt_of_settled
        (require_ne_mismatch part operand rest) hright
      have hlength := length_lt_of_dropSymbols hdrop
      simp only [Settled, hstub.eq_none_of_sign hmem hdrop, stubLength_none]
      omega
  apply (hlocal seen later hseen hoperand).bind
  intro tree rest stub _ hall
  have hstub := hleaves _ _ (hall later)
  simp only [hall] at hsettled
  dsimp only
  cases hdrop : dropSymbols op.spelling (rest ++ later) with
  | error found =>
    have hread := hstub.read_le_stubLength hmem hdrop
    simp only [hdrop, Settled, List.length_append] at hsettled
    simp only [dropSymbols_error_local hdrop (by dsimp only at hread; omega)]
    apply Uniform.ok tree
    omega
  | ok after =>
    simp only [hdrop] at hsettled
    have hright := hsettled.of_bind fun _ _ h => h
    have hafter := (require_justified (hjustified after)).lt_of_settled
      (require_ne_mismatch part operand after) hright
    obtain ⟨between, rfl, hdrops⟩ := dropSymbols_ok_local hdrop (by omega)
    simp only [hdrops]
    apply (require_uniform hjustified hlocal hright).mapTree

end

theorem Phrase.reader_local {inner : Reader} {opened limit : Nat} (hopened : opened ≤ limit)
    (hjustified : ∀ tokens, Justified .biconditional (opened + 1) limit tokens (inner tokens))
    (hleaves : Leaves Phrase.biconditional.stubbed inner) (hlocal : Local inner) (phrase : Phrase) :
    Local (phrase.reader inner) := by
  have hreaders := Phrase.reader_justified hopened hjustified
  have hatom := readAtom_local hjustified hleaves hlocal
  have hliteral := readLiteral_local (hreaders .atom) hatom
  have hconjunction : Local (readConjunction inner) :=
    readChain_local (hreaders .literal) (Phrase.reader_leaves inner .literal) hliteral rfl
  have hdisjunction : Local (readDisjunction inner) :=
    readChain_local (hreaders .conjunction) (Phrase.reader_leaves inner .conjunction) hconjunction
      rfl
  have himplication : Local (readImplication inner) :=
    readPair_local (hreaders .disjunction) (Phrase.reader_leaves inner .disjunction) (by decide)
      hdisjunction
  cases phrase with
  | identifier => exact readIdentifier_local
  | atom => exact hatom
  | literal => exact hliteral
  | conjunction => exact hconjunction
  | disjunction => exact hdisjunction
  | implication => exact himplication
  | biconditional =>
    apply readPair_local (hreaders .implication) (Phrase.reader_leaves inner .implication)
      (by decide) himplication

theorem readNested_local {depth opened limit : Nat} (hlimit : opened + depth = limit + 1) :
    Local (readNested depth) := by
  induction depth generalizing opened with
  | zero =>
    intro seen later _ hsettled
    cases hsettled
  | succ depth ih =>
    have hinner : opened + 1 + depth = limit + 1 := by omega
    apply Phrase.reader_local (by omega) (readNested_justified hinner) (readNested_leaves depth)
      (ih hinner) .biconditional

theorem Phrase.read_local [RecursionLimit] (phrase : Phrase) : Local phrase.read := by
  have hlimit : 0 + 1 + maxNesting = maxNesting + 1 := by omega
  rw [phrase.read_eq_reader]
  apply Phrase.reader_local (Nat.zero_le _) (readNested_justified hlimit)
    (readNested_leaves maxNesting) (readNested_local hlimit) phrase

end Formulary
