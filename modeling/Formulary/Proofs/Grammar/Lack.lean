import Formulary.Proofs.Grammar.Contents
import Formulary.Proofs.Grammar.Location

/-!
This module contains what a missing part is to the tokens in front of it. An operand is awaited by
the parenthesis or operator right in front of the place where it is missing. A closing parenthesis
is missing behind a formula, and the opening one is right in front of that formula. So it is always
the innermost construct that reports the lack, and those around it hand the report on.
-/

namespace Formulary

/--
`Awaits front operand`: the tokens in `front` end with an opening parenthesis, or with an operator
behind its left operand if it has one, and an `operand` has to follow.
-/
inductive Awaits : List Token → Phrase → Prop where
  | parentheses (before : List Token) {opening : Token} (hopening : opening.isSymbol "(") :
    Awaits (before ++ [opening]) .biconditional
  | not (before : List Token) {sign : List Token} (hop : Operator.not.Spelled sign) :
    Awaits (before ++ sign) .atom
  | and (before : List Token) {leftTokens sign : List Token} {left : Tree}
      (hleft : Derives .conjunction leftTokens left) (hop : Operator.and.Spelled sign) :
    Awaits (before ++ (leftTokens ++ sign)) .literal
  | or (before : List Token) {leftTokens sign : List Token} {left : Tree}
      (hleft : Derives .disjunction leftTokens left) (hop : Operator.or.Spelled sign) :
    Awaits (before ++ (leftTokens ++ sign)) .conjunction
  | implies (before : List Token) {leftTokens sign : List Token} {left : Tree}
      (hleft : Derives .disjunction leftTokens left) (hop : Operator.implies.Spelled sign) :
    Awaits (before ++ (leftTokens ++ sign)) .disjunction
  | iff (before : List Token) {leftTokens sign : List Token} {left : Tree}
      (hleft : Derives .implication leftTokens left) (hop : Operator.iff.Spelled sign) :
    Awaits (before ++ (leftTokens ++ sign)) .implication

def awaited? (front : List Token) : Option Phrase :=
  match (front.map Token.content).reverse with
  | (.symbol, "(") :: _ => some .biconditional
  | (.symbol, "~") :: _ => some .atom
  | (.symbol, "&") :: _ => some .literal
  | (.symbol, "|") :: _ => some .conjunction
  | (.symbol, ">") :: (.symbol, "-") :: (.symbol, "<") :: _ => some .implication
  | (.symbol, ">") :: (.symbol, "-") :: _ => some .disjunction
  | _ => none

/--
`Lacks tokens part rest stub`: in `tokens`, a part is missing in front of `rest`.
-/
inductive Lacks [RecursionLimit] : List Token → Part → List Token → Option Stub → Prop where
  | operand {front rest : List Token} {operand : Phrase} (hfront : Awaits front operand)
      (hrest : ∀ token ∈ rest.head?, ¬ Begins operand [token]) :
    Lacks (front ++ rest) (.phrase operand) rest none
  | closing (before : List Token) {body rest : List Token} {opening : Token} {tree : Tree}
      {stub : Option Stub}
      (hopening : opening.isSymbol "(")
      (hbody : Phrase.biconditional.read (body ++ rest) = .ok ⟨tree, rest, stub⟩)
      (hrest : dropSymbol ")" rest = none) :
    Lacks (before ++ opening :: (body ++ rest)) .closing rest stub

section

variable {front tokens rest : List Token} {part : Part} {stub : Option Stub} {operand : Phrase}

theorem Awaits.prepend (h : Awaits front operand) (before : List Token) :
    Awaits (before ++ front) operand := by
  cases h with
  | parentheses _ hopening =>
    rw [← List.append_assoc]
    exact .parentheses _ hopening
  | not _ hop =>
    rw [← List.append_assoc]
    exact .not _ hop
  | and _ hleft hop =>
    rw [← List.append_assoc]
    exact .and _ hleft hop
  | or _ hleft hop =>
    rw [← List.append_assoc]
    exact .or _ hleft hop
  | implies _ hleft hop =>
    rw [← List.append_assoc]
    exact .implies _ hleft hop
  | iff _ hleft hop =>
    rw [← List.append_assoc]
    exact .iff _ hleft hop

theorem Lacks.prepend [RecursionLimit] (h : Lacks tokens part rest stub) (before : List Token) :
    Lacks (before ++ tokens) part rest stub := by
  cases h with
  | operand hfront hrest =>
    rw [← List.append_assoc]
    exact .operand (hfront.prepend before) hrest
  | closing _ hopening hbody hrest =>
    rw [← List.append_assoc]
    exact .closing _ hopening hbody hrest

theorem Derives.exists_concat {phrase : Phrase} {tree : Tree} (h : Derives phrase tokens tree) :
    ∃ before last, tokens = before ++ [last] ∧ last.content ≠ (.symbol, "<") := by
  have hprepend (front : List Token) {tokens : List Token}
      (h : ∃ before last, tokens = before ++ [last] ∧ last.content ≠ (.symbol, "<")) :
      ∃ before last, front ++ tokens = before ++ [last] ∧ last.content ≠ (.symbol, "<") := by
    obtain ⟨before, last, rfl, hlast⟩ := h
    exact ⟨front ++ before, last, (List.append_assoc ..).symm, hlast⟩
  induction h with
  | @identifier token htoken =>
    refine ⟨[], token, rfl, ?_⟩
    rw [Token.isIdentifier_iff] at htoken
    simp [Token.content, htoken]
  | @constant token htoken =>
    refine ⟨[], token, rfl, ?_⟩
    simp only [Token.isSymbol_iff] at htoken
    rcases htoken with htoken | htoken
    . simp [Token.content, htoken.2]
    . simp [Token.content, htoken.2]
  | @parentheses tokens _ opening closing _ hclosing =>
    refine ⟨opening :: tokens, closing, rfl, ?_⟩
    rw [Token.isSymbol_iff] at hclosing
    simp [Token.content, hclosing.2]
  | atom _ ih => exact ih
  | literal _ ih => exact ih
  | conjunction _ ih => exact ih
  | disjunction _ ih => exact ih
  | implication _ ih => exact ih
  | biconditional _ ih => exact ih
  | not _ _ ih => apply hprepend _ ih
  | and _ _ _ _ ih => apply hprepend _ ih
  | or _ _ _ _ ih => apply hprepend _ ih
  | implies _ _ _ _ ih => apply hprepend _ ih
  | iff _ _ _ _ ih => apply hprepend _ ih

theorem Awaits.awaited?_eq (h : Awaits front operand) : awaited? front = some operand := by
  cases h with
  | @parentheses before opening hopening =>
    rw [Token.isSymbol_iff] at hopening
    simp [awaited?, Token.content, hopening.1, hopening.2]
  | not _ hop => simp [awaited?, hop.map_content, Operator.spelling]
  | and _ _ hop => simp [awaited?, hop.map_content, Operator.spelling]
  | or _ _ hop => simp [awaited?, hop.map_content, Operator.spelling]
  | implies _ hleft hop =>
    obtain ⟨before, last, rfl, hlast⟩ := hleft.exists_concat
    simp [awaited?, hop.map_content, Operator.spelling, hlast]
  | iff _ _ hop => simp [awaited?, hop.map_content, Operator.spelling]

theorem Awaits.ne_nil (h : Awaits front operand) : front ≠ [] := by
  rintro rfl
  cases h.awaited?_eq

theorem Awaits.unique {other : Phrase} (h : Awaits front operand) (hother : Awaits front other) :
    operand = other := by
  have hoperand := h.awaited?_eq
  rw [hother.awaited?_eq] at hoperand
  exact (Option.some.inj hoperand).symm

end

/--
What is known of the answers of a reader: a phrase that is read is derived, one that is not there does
not begin with the first token, and where a part is missing its construct is to be found.
-/
structure Attributes [RecursionLimit] (phrase : Phrase) (reader : Reader) : Prop where
  derives {tokens : List Token} {reading : Reading} (h : reader tokens = .ok reading) :
    ∃ front, tokens = front ++ reading.rest ∧ Derives phrase front reading.tree
  not_begins {tokens : List Token} (h : reader tokens = .error .mismatch) :
    ∀ token ∈ tokens.head?, ¬ Begins phrase [token]
  lacks {tokens rest : List Token} {part : Part} {stub : Option Stub}
      (h : reader tokens = .error (.missing part rest stub)) :
    Lacks tokens part rest stub

section

variable [RecursionLimit] {tokens front rest : List Token} {missing : Part} {stub : Option Stub}
variable {op : Operator} {whole part : Phrase} {operand inner : Reader} {depth : Nat}

theorem Attributes.lacks_of_require (h : Attributes part operand) (hfront : Awaits front part)
    (hread : require part operand tokens = .error (.missing missing rest stub)) :
    Lacks (front ++ tokens) missing rest stub := by
  unfold require at hread
  split at hread
  . next hmismatch =>
    obtain ⟨rfl, rfl, rfl⟩ := Failure.missing.inj (Except.error.inj hread)
    exact .operand hfront (h.not_begins hmismatch)
  . apply (h.lacks hread).prepend

theorem readIdentifier_lacks (h : readIdentifier tokens = .error (.missing missing rest stub)) :
    Lacks tokens missing rest stub := by
  unfold readIdentifier at h
  split at h
  . cases h
  . split at h
    . cases h
    . cases h

theorem readAtom_lacks (hinner : Attributes .biconditional inner)
    (happrox : Approximates inner Phrase.biconditional.read)
    (h : readAtom inner tokens = .error (.missing missing rest stub)) :
    Lacks tokens missing rest stub := by
  unfold readAtom at h
  split at h
  . cases h
  . next opening tokens =>
    split at h
    . cases h
    . split at h
      . cases h
      . split at h
        . next hopening =>
          have hfront : Awaits [opening] .biconditional := .parentheses [] hopening
          split at h
          . next hbody =>
            obtain rfl := Except.error.inj h
            apply hinner.lacks_of_require hfront hbody
          . next body hbody =>
            split at h
            . next hclosing =>
              obtain ⟨rfl, rfl, rfl⟩ := Failure.missing.inj (Except.error.inj h)
              rw [require_eq_ok_iff] at hbody
              obtain ⟨front, rfl, _⟩ := hinner.derives hbody
              rcases happrox (front ++ body.rest) with htooDeep | hsame
              . rw [hbody] at htooDeep
                cases htooDeep
              . rw [hbody] at hsame
                exact .closing [] hopening hsame.symm hclosing
            . cases h
        . cases h

theorem readLiteral_lacks (hatom : Attributes .atom (readAtom inner))
    (h : readLiteral inner tokens = .error (.missing missing rest stub)) :
    Lacks tokens missing rest stub := by
  unfold readLiteral at h
  split at h
  . split at h
    . cases h
    . next after hafter =>
      obtain ⟨sign, hsign, rfl⟩ := dropSymbol_eq_some_iff.1 hafter
      split at h
      . next hoperand =>
        obtain rfl := Except.error.inj h
        apply hatom.lacks_of_require (.not [] (Operator.spelled_not hsign)) hoperand
      . cases h
  . apply hatom.lacks h

theorem Attributes.lacks_of_operator (h : Attributes part operand) {left after : List Token}
    (hawaits : ∀ sign, op.Spelled sign → Awaits (front ++ sign) part)
    (hdrop : dropSymbols op.spelling left = .ok after)
    (hread : require part operand after = .error (.missing missing rest stub)) :
    Lacks (front ++ left) missing rest stub := by
  obtain ⟨sign, hkind, htext, rfl⟩ := dropSymbols_eq_ok_iff.1 hdrop
  rw [← List.append_assoc]
  apply h.lacks_of_require (hawaits sign ⟨hkind, htext⟩) hread

theorem readChain.go_lacks (hoperand : Attributes part operand) (hjoins : Joins whole op whole part)
    (hawaits : ∀ leftTokens left sign, Derives whole leftTokens left → op.Spelled sign →
      Awaits (leftTokens ++ sign) part)
    (bound : List Token) {chain : Reading} (hfront : Derives whole front chain.tree)
    (h : readChain.go op part operand bound chain = .error (.missing missing rest stub)) :
    Lacks (front ++ chain.rest) missing rest stub := by
  induction bound generalizing front chain with
  | nil => cases h
  | cons _ bound ih =>
    unfold go at h
    split at h
    . cases h
    . next after hafter =>
      split at h
      . next hnext =>
        obtain rfl := Except.error.inj h
        apply hoperand.lacks_of_operator (hawaits _ _ · hfront) hafter hnext
      . next next hnext =>
        obtain ⟨sign, hkind, htext, hsign⟩ := dropSymbols_eq_ok_iff.1 hafter
        obtain ⟨right, hright, hderives⟩ := hoperand.derives (require_eq_ok_iff.1 hnext)
        have hwhole := hjoins.join ⟨hkind, htext⟩ hfront hderives
        have := ih hwhole h
        rw [hsign, hright]
        simpa using this

theorem readChain_lacks (hoperand : Attributes part operand) (hjoins : Joins whole op whole part)
    (hawaits : ∀ leftTokens left sign, Derives whole leftTokens left → op.Spelled sign →
      Awaits (leftTokens ++ sign) part)
    (h : readChain op part operand tokens = .error (.missing missing rest stub)) :
    Lacks tokens missing rest stub := by
  unfold readChain at h
  split at h
  . next hfirst =>
    obtain rfl := Except.error.inj h
    apply hoperand.lacks hfirst
  . next hfirst =>
    obtain ⟨front, rfl, hfront⟩ := hoperand.derives hfirst
    apply readChain.go_lacks hoperand hjoins hawaits _ (hjoins.single hfront) h

theorem readPair_lacks (hoperand : Attributes part operand)
    (hawaits : ∀ leftTokens left sign, Derives part leftTokens left → op.Spelled sign →
      Awaits (leftTokens ++ sign) part)
    (h : readPair op part operand tokens = .error (.missing missing rest stub)) :
    Lacks tokens missing rest stub := by
  unfold readPair at h
  split at h
  . next hleft =>
    obtain rfl := Except.error.inj h
    apply hoperand.lacks hleft
  . next hleft =>
    obtain ⟨front, rfl, hfront⟩ := hoperand.derives hleft
    split at h
    . cases h
    . next hafter =>
      split at h
      . next hright =>
        obtain rfl := Except.error.inj h
        apply hoperand.lacks_of_operator (hawaits _ _ · hfront) hafter hright
      . cases h

theorem not_begins_of_mismatch {phrase : Phrase} (h : phrase.read tokens = .error .mismatch) :
    ∀ token ∈ tokens.head?, ¬ Begins phrase [token] := by
  intro token htoken
  obtain ⟨later, rfl⟩ := List.head?_eq_some_iff.1 htoken
  have hsettled : Settled later.length (phrase.read ([token] ++ later)) := by
    rw [List.singleton_append, h]
    trivial
  apply not_begins_of_settled (List.cons_ne_nil _ _) hsettled

theorem attributes_of_lacks (hdepth : depth ≤ maxNesting) (phrase : Phrase)
    (hlacks : ∀ tokens missing rest stub,
      phrase.reader (readNested depth) tokens = .error (.missing missing rest stub) →
      Lacks tokens missing rest stub) :
    Attributes phrase (phrase.reader (readNested depth)) := by
  refine ⟨?_, ?_, hlacks _ _ _ _⟩
  . intro tokens reading h
    have hlimit : 0 + 1 + depth = depth + 1 := by omega
    have hjustified := phrase.reader_justified (Nat.zero_le depth) (readNested_justified hlimit)
      tokens
    rw [h] at hjustified
    obtain ⟨front, htokens, hderives, _⟩ := hjustified
    exact ⟨front, htokens, hderives⟩
  . intro tokens h
    apply not_begins_of_mismatch
    -- The limit on nesting spoils nothing but the answers that mention it.
    rcases (readNested_approximates hdepth).phrase phrase tokens with htooDeep | hsame
    . rw [h] at htooDeep
      cases htooDeep
    . rw [phrase.read_eq_reader, ← hsame, h]

theorem Phrase.reader_attributes (hdepth : depth ≤ maxNesting)
    (hinner : Attributes .biconditional (readNested depth)) (phrase : Phrase) :
    Attributes phrase (phrase.reader (readNested depth)) := by
  have happrox : Approximates (readNested depth) Phrase.biconditional.read :=
    readNested_approximates (Nat.le_succ_of_le hdepth)
  have hatom : Attributes .atom (readAtom (readNested depth)) :=
    attributes_of_lacks hdepth .atom fun _ _ _ _ => readAtom_lacks hinner happrox
  have hliteral : Attributes .literal (readLiteral (readNested depth)) :=
    attributes_of_lacks hdepth .literal fun _ _ _ _ => readLiteral_lacks hatom
  have hconjunction : Attributes .conjunction (readConjunction (readNested depth)) :=
    attributes_of_lacks hdepth .conjunction fun _ _ _ _ =>
      readChain_lacks hliteral joins_conjunction fun _ _ _ => .and []
  have hdisjunction : Attributes .disjunction (readDisjunction (readNested depth)) :=
    attributes_of_lacks hdepth .disjunction fun _ _ _ _ =>
      readChain_lacks hconjunction joins_disjunction fun _ _ _ => .or []
  have himplication : Attributes .implication (readImplication (readNested depth)) :=
    attributes_of_lacks hdepth .implication fun _ _ _ _ =>
      readPair_lacks hdisjunction fun _ _ _ => .implies []
  cases phrase with
  | identifier => exact attributes_of_lacks hdepth .identifier fun _ _ _ _ => readIdentifier_lacks
  | atom => exact hatom
  | literal => exact hliteral
  | conjunction => exact hconjunction
  | disjunction => exact hdisjunction
  | implication => exact himplication
  | biconditional =>
    exact attributes_of_lacks hdepth .biconditional fun _ _ _ _ =>
      readPair_lacks himplication fun _ _ _ => .iff []

theorem readNested_attributes (hdepth : depth ≤ maxNesting) :
    Attributes .biconditional (readNested depth) := by
  induction depth with
  | zero => exact ⟨nofun, nofun, nofun⟩
  | succ depth ih =>
    have hdepth : depth ≤ maxNesting := Nat.le_of_succ_le hdepth
    apply Phrase.reader_attributes hdepth (ih hdepth) .biconditional

theorem Phrase.read_attributes (phrase : Phrase) : Attributes phrase phrase.read := by
  rw [phrase.read_eq_reader]
  apply Phrase.reader_attributes (Nat.le_refl _) (readNested_attributes (Nat.le_refl _))

end

end Formulary
