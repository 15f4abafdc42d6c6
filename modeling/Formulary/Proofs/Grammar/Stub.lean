import Formulary.Proofs.Grammar.Completeness

/-!
This module contains what stubs are: the beginnings of arrows, left in front of the rest by the
phrases that an arrow can follow.
-/

namespace Formulary

/--
A stub at the start of `rest` is one of the operators, broken off after some of its symbols.
-/
def StubOf (operators : List Operator) (rest : List Token) (stub : Option Stub) : Prop :=
  ∀ found ∈ stub, 0 < found.read ∧ ∃ op ∈ operators, dropSymbols op.spelling rest = .error found

def Phrase.stubbed : Phrase → List Operator
  | identifier => []
  | atom => []
  | literal => []
  | conjunction => []
  | disjunction => []
  | implication => [.implies]
  | biconditional => [.implies, .iff]

section

variable {operators others : List Operator} {op : Operator} {part : Phrase} {rest : List Token}
variable {operand inner : Reader}

theorem stubOf_none : StubOf operators rest none := by
  intro found hfound
  cases hfound

theorem StubOf.subset {stub : Option Stub} (h : StubOf operators rest stub)
    (hsubset : operators ⊆ others) : StubOf others rest stub := by
  intro found hfound
  obtain ⟨hread, op, hop, hdrop⟩ := h found hfound
  exact ⟨hread, op, hsubset hop, hdrop⟩

theorem StubOf.eq_none {stub : Option Stub} (h : StubOf [] rest stub) : stub = none := by
  cases stub with
  | none => rfl
  | some found =>
    obtain ⟨_, op, hop, _⟩ := h found rfl
    cases hop

theorem read_lt_of_dropSymbols {texts : List String} {tokens : List Token} {stub : Stub}
    (h : dropSymbols texts tokens = .error stub) : stub.read < texts.length := by
  induction texts generalizing tokens stub with
  | nil => simp [dropSymbols] at h
  | cons text texts ih =>
    simp only [dropSymbols] at h
    split at h
    . obtain rfl : ⟨0, text⟩ = stub := by simpa using h
      simp
    . split at h
      . simp at h
      . next later hlater =>
        obtain rfl : ⟨later.read + 1, later.wanted⟩ = stub := by simpa using h
        have := ih hlater
        simp only [List.length_cons]
        omega

theorem StubOf.ends {found : Stub} (h : StubOf operators rest (some found))
    (hop : op ∉ operators) : ∃ wanted, dropSymbols op.spelling rest = .error ⟨0, wanted⟩ := by
  obtain ⟨hread, other, hother, hdrop⟩ := h found rfl
  obtain ⟨ahead, later, missing, rfl, hlength, _, htexts, _⟩ := dropSymbols_eq_error hdrop
  cases ahead with
  | nil =>
    rw [List.length_nil] at hlength
    omega
  | cons token ahead =>
    have hhead : other.spelling.head? = some token.text := by
      rw [← htexts]
      rfl
    have hne : op ≠ other := fun heq => hop (heq ▸ hother)
    apply dropSymbols_of_ne hne hhead

theorem StubOf.eq_none_of_closing {token : Token} {tokens : List Token} {stub : Option Stub}
    (htoken : token.isSymbol ")") (h : StubOf operators (token :: tokens) stub) : stub = none := by
  cases stub with
  | none => rfl
  | some found =>
    obtain ⟨hread, op, _, hdrop⟩ := h found rfl
    obtain ⟨wanted, hwanted⟩ := dropSymbols_closing htoken op tokens
    rw [hdrop] at hwanted
    obtain rfl := Except.error.inj hwanted
    contradiction

@[simp]
theorem stubLength_none : stubLength none = 0 := rfl

theorem stubLength_proper? (stub : Stub) : stubLength stub.proper? = stub.read := by
  unfold Stub.proper?
  split
  . next h => exact h.symm
  . rfl

theorem StubOf.eq_none_of_sign {after : List Token} {stub : Option Stub}
    (h : StubOf operators rest stub) (hop : op ∉ operators)
    (hdrop : dropSymbols op.spelling rest = .ok after) : stub = none := by
  cases stub with
  | none => rfl
  | some found =>
    obtain ⟨wanted, hwanted⟩ := h.ends hop
    rw [hdrop] at hwanted
    cases hwanted

theorem StubOf.read_le_stubLength {found : Stub} {stub : Option Stub}
    (h : StubOf operators rest stub) (hop : op ∉ operators)
    (hdrop : dropSymbols op.spelling rest = .error found) :
    found.read ≤ stubLength (stub <|> found.proper?) := by
  cases stub with
  | none => apply Nat.le_of_eq (stubLength_proper? found).symm
  | some old =>
    -- Where there is an old stub, the new one holds no symbols.
    obtain ⟨wanted, hwanted⟩ := h.ends hop
    rw [hdrop] at hwanted
    obtain rfl := Except.error.inj hwanted
    apply Nat.zero_le

def Leaves (operators : List Operator) (reader : Reader) : Prop :=
  ∀ tokens reading, reader tokens = .ok reading → StubOf operators reading.rest reading.stub

theorem readIdentifier_leaves : Leaves [] readIdentifier := by
  intro tokens reading h
  unfold readIdentifier at h
  split at h
  . simp at h
  . split at h
    . obtain rfl := Except.ok.inj h
      apply stubOf_none
    . simp at h

theorem readAtom_leaves (inner : Reader) : Leaves [] (readAtom inner) := by
  intro tokens reading h
  unfold readAtom at h
  split at h
  . simp at h
  . split at h
    . obtain rfl := Except.ok.inj h
      apply stubOf_none
    . split at h
      . obtain rfl := Except.ok.inj h
        apply stubOf_none
      . split at h
        . split at h
          . simp at h
          . split at h
            . simp at h
            . obtain rfl := Except.ok.inj h
              apply stubOf_none
        . simp at h

theorem readLiteral_leaves (inner : Reader) : Leaves [] (readLiteral inner) := by
  intro tokens reading h
  unfold readLiteral at h
  split at h
  . split at h
    . simp at h
    . split at h
      . simp at h
      . next hoperand =>
        obtain rfl := Except.ok.inj h
        have := readAtom_leaves inner _ _ (require_eq_ok_iff.1 hoperand)
        exact this
  . apply readAtom_leaves inner _ _ h

theorem readChain.go_leaves (h : Leaves operators operand) (bound : List Token)
    {chain reading : Reading} (hchain : StubOf operators chain.rest chain.stub)
    (hreading : readChain.go op part operand bound chain = .ok reading) :
    StubOf operators reading.rest reading.stub := by
  induction bound generalizing chain with
  | nil =>
    obtain rfl := Except.ok.inj hreading
    exact hchain
  | cons _ bound ih =>
    unfold go at hreading
    split at hreading
    . obtain rfl := Except.ok.inj hreading
      exact hchain
    . split at hreading
      . simp at hreading
      . next hnext =>
        have := h _ _ (require_eq_ok_iff.1 hnext)
        apply ih _ hreading
        exact this

theorem readChain_leaves (h : Leaves operators operand) :
    Leaves operators (readChain op part operand) := by
  intro tokens reading hreading
  unfold readChain at hreading
  split at hreading
  . simp at hreading
  . next hfirst => exact readChain.go_leaves h _ (h _ _ hfirst) hreading

theorem readPair_leaves (h : Leaves operators operand) (hsubset : operators ⊆ others)
    (hop : op ∈ others) : Leaves others (readPair op part operand) := by
  intro tokens reading hreading
  unfold readPair at hreading
  split at hreading
  . simp at hreading
  . next left hleft =>
    have hold := h _ _ hleft
    split at hreading
    . next stub hstub =>
      obtain rfl := Except.ok.inj hreading
      cases hnone : left.stub with
      | none =>
        intro found hfound
        simp only [Stub.proper?] at hfound
        split at hfound
        . cases hfound
        . obtain rfl := Option.some.inj hfound
          exact ⟨by omega, op, hop, hstub⟩
      | some =>
        rw [hnone] at hold
        apply hold.subset hsubset
    . split at hreading
      . simp at hreading
      . next hright =>
        obtain rfl := Except.ok.inj hreading
        apply (h _ _ (require_eq_ok_iff.1 hright)).subset hsubset

def BreaksOff (operators : List Operator) (reader : Reader) : Prop :=
  ∀ tokens missing rest stub, reader tokens = .error (.missing missing rest stub) →
    StubOf operators rest stub

theorem BreaksOff.subset (h : BreaksOff operators operand) (hsubset : operators ⊆ others) :
    BreaksOff others operand :=
  fun _ _ _ _ hread => (h _ _ _ _ hread).subset hsubset

theorem BreaksOff.require (h : BreaksOff operators operand) :
    BreaksOff operators (require part operand) := by
  intro tokens missing rest stub hread
  unfold Formulary.require at hread
  split at hread
  . obtain ⟨_, _, rfl⟩ := Failure.missing.inj (Except.error.inj hread)
    apply stubOf_none
  . apply h _ _ _ _ hread

theorem readIdentifier_breaksOff : BreaksOff [] readIdentifier := by
  intro tokens missing rest stub hread
  unfold readIdentifier at hread
  split at hread
  . cases hread
  . split at hread
    . cases hread
    . cases hread

theorem readAtom_breaksOff (hleaves : Leaves operators inner) (h : BreaksOff operators inner) :
    BreaksOff operators (readAtom inner) := by
  intro tokens missing rest stub hread
  unfold readAtom at hread
  split at hread
  . cases hread
  . split at hread
    . cases hread
    . split at hread
      . cases hread
      . split at hread
        . split at hread
          . next hbody =>
            obtain rfl := Except.error.inj hread
            apply h.require _ _ _ _ hbody
          . next hbody =>
            split at hread
            . obtain ⟨_, rfl, rfl⟩ := Failure.missing.inj (Except.error.inj hread)
              apply hleaves _ _ (require_eq_ok_iff.1 hbody)
            . cases hread
        . cases hread

theorem readLiteral_breaksOff (h : BreaksOff operators (readAtom inner)) :
    BreaksOff operators (readLiteral inner) := by
  intro tokens missing rest stub hread
  unfold readLiteral at hread
  split at hread
  . split at hread
    . cases hread
    . split at hread
      . next hoperand =>
        obtain rfl := Except.error.inj hread
        apply h.require _ _ _ _ hoperand
      . cases hread
  . apply h _ _ _ _ hread

theorem readChain.go_breaksOff (h : BreaksOff operators operand) (bound : List Token)
    {chain : Reading} {missing : Part} {stub : Option Stub}
    (hread : readChain.go op part operand bound chain = .error (.missing missing rest stub)) :
    StubOf operators rest stub := by
  induction bound generalizing chain with
  | nil => cases hread
  | cons _ bound ih =>
    unfold go at hread
    split at hread
    . cases hread
    . split at hread
      . next hnext =>
        obtain rfl := Except.error.inj hread
        apply h.require _ _ _ _ hnext
      . apply ih hread

theorem readChain_breaksOff (h : BreaksOff operators operand) :
    BreaksOff operators (readChain op part operand) := by
  intro tokens missing rest stub hread
  unfold readChain at hread
  split at hread
  . next hfirst =>
    obtain rfl := Except.error.inj hread
    apply h _ _ _ _ hfirst
  . apply readChain.go_breaksOff h _ hread

theorem readPair_breaksOff (h : BreaksOff operators operand) :
    BreaksOff operators (readPair op part operand) := by
  intro tokens missing rest stub hread
  unfold readPair at hread
  split at hread
  . next hleft =>
    obtain rfl := Except.error.inj hread
    apply h _ _ _ _ hleft
  . split at hread
    . cases hread
    . split at hread
      . next hright =>
        obtain rfl := Except.error.inj hread
        apply h.require _ _ _ _ hright
      . cases hread

end

theorem Phrase.reader_leaves (inner : Reader) (phrase : Phrase) :
    Leaves phrase.stubbed (phrase.reader inner) := by
  have hdisjunction : Leaves [] (readDisjunction inner) :=
    readChain_leaves (readChain_leaves (readLiteral_leaves inner))
  have himplication : Leaves [.implies] (readImplication inner) :=
    readPair_leaves hdisjunction (by decide) (by decide)
  cases phrase with
  | identifier => exact readIdentifier_leaves
  | atom => apply readAtom_leaves inner
  | literal => apply readLiteral_leaves inner
  | conjunction => apply readChain_leaves (readLiteral_leaves inner)
  | disjunction => exact hdisjunction
  | implication => exact himplication
  | biconditional => apply readPair_leaves himplication (by decide) (by decide)

theorem Phrase.reader_breaksOff {inner : Reader} {operators : List Operator}
    (hleaves : Leaves operators inner) (h : BreaksOff operators inner) (phrase : Phrase) :
    BreaksOff operators (phrase.reader inner) := by
  have hatom := readAtom_breaksOff hleaves h
  have hliteral := readLiteral_breaksOff hatom
  have hconjunction : BreaksOff operators (readConjunction inner) := readChain_breaksOff hliteral
  have hdisjunction : BreaksOff operators (readDisjunction inner) :=
    readChain_breaksOff hconjunction
  have himplication : BreaksOff operators (readImplication inner) :=
    readPair_breaksOff hdisjunction
  cases phrase with
  | identifier => apply readIdentifier_breaksOff.subset (List.nil_subset _)
  | atom => exact hatom
  | literal => exact hliteral
  | conjunction => exact hconjunction
  | disjunction => exact hdisjunction
  | implication => exact himplication
  | biconditional => apply readPair_breaksOff himplication

theorem readNested_leaves (depth : Nat) :
    Leaves Phrase.biconditional.stubbed (readNested depth) := by
  cases depth with
  | zero =>
    intro tokens reading h
    cases h
  | succ depth => apply Phrase.reader_leaves (readNested depth) .biconditional

theorem readNested_breaksOff (depth : Nat) :
    BreaksOff Phrase.biconditional.stubbed (readNested depth) := by
  induction depth with
  | zero =>
    intro tokens missing rest stub h
    cases h
  | succ depth ih => apply Phrase.reader_breaksOff (readNested_leaves depth) ih .biconditional

theorem Phrase.read_breaksOff [RecursionLimit] (phrase : Phrase) :
    BreaksOff Phrase.biconditional.stubbed phrase.read := by
  rw [phrase.read_eq_reader]
  apply Phrase.reader_breaksOff (readNested_leaves _) (readNested_breaksOff _)

end Formulary
