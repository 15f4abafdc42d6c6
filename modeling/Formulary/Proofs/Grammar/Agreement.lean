import Formulary.Proofs.Grammar.Attempt
import Formulary.Proofs.Grammar.Wording

/-!
This module contains the agreement of whole formulas with attempts at the loosest phrase. Both run
the same reader: a formula adds that nothing is left, and turns reasons into errors of its own.
-/

namespace Formulary

/--
The errors that a formula has, for the reason why no phrase was read.
-/
inductive SyntaxError.For : Reason → SyntaxError → Prop where
  | unexpected {obstacle : Obstacle} {found : Option Token} {wanted : Wanted} :
    For (.unexpected obstacle) (.unexpected 0 0 found wanted)
  | incomplete {part : Part} {obstacle : Obstacle} {pos furthest : Nat} :
    For (.incomplete part obstacle) (.incomplete pos furthest part obstacle)
  | tooDeep : For .tooDeep .tooDeep

namespace SyntaxError.For

variable {reason : Reason} {error : SyntaxError}

theorem message_eq_tooDeep_iff (h : For reason error) :
    reason.message = "nested too deeply" ↔
      error.message = "formula nested too deeply" ∧ error.state = (0, 0) := by
  rw [Reason.message_eq_tooDeep_iff, SyntaxError.message_eq_tooDeep_iff]
  cases h with
  | unexpected => simp
  | incomplete => simp
  | tooDeep => simp [state]

theorem message_eq_incomplete_iff (h : For reason error) :
    (∃ wanted got, reason.message = "expected " ++ wanted ++ " (" ++ got ++ ")") ↔
      error.message = "incomplete formula: " ++ reason.message := by
  rw [Reason.message_eq_incomplete_iff]
  cases h with
  | @unexpected obstacle found wanted =>
    constructor
    . rintro ⟨_, _, h⟩
      cases h
    . intro h
      have hstarts := starts_incomplete (Reason.unexpected obstacle).message
      rw [← h] at hstarts
      exact absurd hstarts (not_starts_unexpected (.inl rfl) _ _ _ _)
  | @incomplete part obstacle =>
    constructor
    . intro _
      rfl
    . intro _
      exact ⟨part, obstacle, rfl⟩
  | tooDeep =>
    constructor
    . rintro ⟨_, _, h⟩
      cases h
    . intro h
      have hstarts := starts_incomplete Reason.tooDeep.message
      rw [← h] at hstarts
      cases hstarts.unique starts_tooDeep

theorem message_eq_unexpected_iff (h : For reason error) :
    reason.message = "got unexpected token" ∨ reason.message = "got unexpected end of input" ↔
      error.Plain ∧ error.state = (0, 0) := by
  rw [Reason.message_eq_unexpected_iff, plain_iff]
  cases h with
  | unexpected => simp [state]
  | incomplete => simp
  | tooDeep => simp

end SyntaxError.For

namespace Tree

section

variable [RecursionLimit] {tokens : List Token}

theorem ofTokens_eq_ok_iff {tree : Tree} :
    ofTokens tokens = .ok tree ↔
      ∃ stub, Phrase.biconditional.read tokens = .ok ⟨tree, [], stub⟩ := by
  unfold ofTokens
  split
  . next hread => simp [hread]
  . next hrest hread =>
    simp only [hread, Except.ok.injEq, Reading.mk.injEq, reduceCtorEq, false_iff]
    rintro ⟨stub, _, hnil, _⟩
    exact hrest hnil
  . next hread => simp [hread]
  . next hread => simp [hread]
  . next hread => simp [hread]

theorem getElem?_of_read {phrase : Phrase} {reading : Reading}
    (h : phrase.read tokens = .ok reading) (n : Nat) :
    reading.rest[n]? = tokens[readCount tokens reading.rest + n]? := by
  rw [← List.getElem?_drop, drop_readCount (suffix_of_read h)]

theorem ofTokens_of_trailing {reading : Reading}
    (hread : Phrase.biconditional.read tokens = .ok reading) (hrest : reading.rest ≠ []) :
    let pos := readCount tokens reading.rest
    let furthest := pos + stubLength reading.stub
    ofTokens tokens
      =
    .error (.unexpected pos furthest tokens[furthest]?
      ((reading.stub.map (Wanted.symbol ·.wanted)).getD .endOfInput)) := by
  have hfound := getElem?_of_read hread (stubLength reading.stub)
  obtain ⟨tree, rest, stub⟩ := reading
  cases rest with
  | nil => contradiction
  | cons token rest => simp only [ofTokens, hread, hfound]

theorem ofTokens_of_rest_ne_nil {reading : Reading}
    (hread : Phrase.biconditional.read tokens = .ok reading) (hrest : reading.rest ≠ []) :
    ∃ furthest found wanted,
      ofTokens tokens
        =
      .error (.unexpected (readCount tokens reading.rest) furthest found wanted) :=
  ⟨_, _, _, ofTokens_of_trailing hread hrest⟩

theorem exists_ofTokens_eq_error {failure : Failure}
    (hread : Phrase.biconditional.read tokens = .error failure) :
    ∃ error, ofTokens tokens = .error error ∧ SyntaxError.For (failure.reason tokens) error := by
  cases failure with
  | mismatch =>
    have herror : ofTokens tokens = .error (.unexpected 0 0 tokens.head? .literal) := by
      simp only [ofTokens, hread]
    exact ⟨_, herror, .unexpected⟩
  | missing part rest stub =>
    have herror : ∃ pos furthest,
        ofTokens tokens = .error (.incomplete pos furthest part (.ofTokens rest)) := by
      simp only [ofTokens, hread]
      exact ⟨_, _, rfl⟩
    obtain ⟨pos, furthest, herror⟩ := herror
    exact ⟨_, herror, .incomplete⟩
  | tooDeep =>
    have herror : ofTokens tokens = .error .tooDeep := by
      simp only [ofTokens, hread]
    exact ⟨_, herror, .tooDeep⟩

theorem ofTokens_agrees_with_attempt (tokens : List Token) :
    ∃ attempt, Phrase.biconditional.attempt tokens 0 = .ok attempt
      ∧ (∀ tree, ofTokens tokens = .ok tree ↔ attempt.result = some (tree, (tokens.length : Int)))
      ∧ (∀ tree pos, attempt.result = some (tree, pos) → pos ≤ tokens.length
        ∧ (pos < tokens.length →
          ∃ error, ofTokens tokens = .error error ∧ error.Plain ∧ error.state.1 = pos))
      ∧ (attempt.result = none →
        ∃ reason, attempt.log = [.noPhrase .biconditional 0 reason]
          ∧ (reason.message = "nested too deeply" ↔
            ∃ error, ofTokens tokens = .error error
              ∧ error.message = "formula nested too deeply" ∧ error.state = (0, 0))
          ∧ ((∃ wanted got, reason.message = "expected " ++ wanted ++ " (" ++ got ++ ")") ↔
            ∃ error, ofTokens tokens = .error error
              ∧ error.message = "incomplete formula: " ++ reason.message)
          ∧ (reason.message = "got unexpected token"
              ∨ reason.message = "got unexpected end of input" ↔
            ∃ error, ofTokens tokens = .error error ∧ error.Plain ∧ error.state = (0, 0))) := by
  have hattempt := attempt_natCast .biconditional tokens 0
  rw [List.drop_zero] at hattempt
  cases hread : Phrase.biconditional.read tokens with
  | ok reading =>
    have hlength := (suffix_of_read hread).length_le
    have hend : readCount tokens reading.rest = tokens.length ↔ reading.rest = [] := by
      rw [readCount, ← List.length_eq_zero_iff]
      omega
    rw [hread] at hattempt
    refine ⟨_, hattempt, ?_, ?_, ?_⟩
    . intro tree
      rw [ofTokens_eq_ok_iff, hread]
      dsimp only
      rw [Option.some.injEq, Prod.mk.injEq, Int.natCast_inj, hend]
      constructor
      . rintro ⟨stub, h⟩
        rw [Except.ok.inj h]
        exact ⟨rfl, rfl⟩
      . rintro ⟨rfl, hnil⟩
        refine ⟨reading.stub, ?_⟩
        rw [← hnil]
    . intro tree pos hresult
      obtain ⟨rfl, rfl⟩ := Prod.mk.inj (Option.some.inj hresult)
      refine ⟨?_, ?_⟩
      . rw [readCount]
        omega
      . intro hlt
        have hrest : reading.rest ≠ [] := by
          rw [Ne, ← hend]
          omega
        obtain ⟨furthest, found, wanted, herror⟩ := ofTokens_of_rest_ne_nil hread hrest
        exact ⟨_, herror, SyntaxError.plain_iff.2 ⟨_, _, _, _, rfl⟩, rfl⟩
    . intro hnone
      cases hnone
  | error failure =>
    obtain ⟨error, herror, hfor⟩ := exists_ofTokens_eq_error hread
    rw [hread] at hattempt
    refine ⟨_, hattempt, ?_, ?_, ?_⟩
    . intro tree
      simp [herror]
    . intro tree pos hresult
      cases hresult
    . intro _
      refine ⟨_, rfl, ?_, ?_, ?_⟩
      . rw [hfor.message_eq_tooDeep_iff]
        simp [herror]
      . rw [hfor.message_eq_incomplete_iff]
        simp [herror]
      . rw [hfor.message_eq_unexpected_iff]
        simp [herror]

end

theorem ofTokens_agrees_with_attempt_arrowTokens :
    Phrase.biconditional.attempt (arrowTokens.take 5) 0
        = .ok ⟨some (.unary "~" (.identifier "a"), 4), []⟩
      ∧ (∃ error, ofTokens (arrowTokens.take 5) = .error error
        ∧ error.Plain ∧ (error.state.1 : Int) = 4)
      ∧ Phrase.biconditional.attempt (arrowTokens.take 6) 0
        = .ok ⟨none, [.noPhrase .biconditional 0
          (.incomplete (.phrase .disjunction) .endOfInput)]⟩
      ∧ ∃ error, ofTokens (arrowTokens.take 6) = .error error
        ∧ error.message
          = "incomplete formula: expected disjunction (got unexpected end of input)" := by
  have hformula : Phrase.biconditional.attempt (arrowTokens.take 5) 0
      = .ok ⟨some (.unary "~" (.identifier "a"), 4), []⟩ := rfl
  have harrow : Phrase.biconditional.attempt (arrowTokens.take 6) 0
      = .ok ⟨none, [.noPhrase .biconditional 0
        (.incomplete (.phrase .disjunction) .endOfInput)]⟩ := rfl
  obtain ⟨_, hattempt, _, htrailing, _⟩ := ofTokens_agrees_with_attempt (arrowTokens.take 5)
  rw [hformula, Except.ok.injEq] at hattempt
  subst hattempt
  obtain ⟨_, herror⟩ := htrailing _ _ rfl
  obtain ⟨_, hattempt, _, _, hfailed⟩ := ofTokens_agrees_with_attempt (arrowTokens.take 6)
  rw [harrow, Except.ok.injEq] at hattempt
  subst hattempt
  obtain ⟨reason, hlog, _, hincomplete, _⟩ := hfailed rfl
  simp only [List.cons.injEq, LogEntry.noPhrase.injEq, true_and, and_true] at hlog
  subst hlog
  exact ⟨hformula, herror (by decide), harrow, hincomplete.1 ⟨_, _, rfl⟩⟩

end Tree

end Formulary
