import Formulary.Proofs.Grammar.Attempt
import Formulary.Proofs.Grammar.Wording

/-!
This module contains the tokens that phrases begin with, and what attempts log because of them. The
first token alone decides whether a phrase has begun. From then on every part that is not there is
missing from the phrase, so that a plain mismatch is always one of the first token.
-/

namespace Formulary

/--
The symbols that a phrase can begin with. Every phrase can begin with an identifier as well.
-/
def Phrase.firstSymbols : Phrase → List String
  | identifier => []
  | atom => ["T", "F", "("]
  | _ => ["T", "F", "(", "~"]

def Phrase.startsWith (phrase : Phrase) (token : Token) : Bool :=
  token.isIdentifier || phrase.firstSymbols.any token.isSymbol

/--
The phrase has begun: it is read, or the answer is about a part of it.
-/
def Begun (answer : Except Failure Reading) : Prop :=
  answer ≠ .error .mismatch

section

variable {op : Operator} {part : Phrase} {operand inner : Reader} {token : Token}
variable {tokens : List Token} {answer : Except Failure Reading}
variable {f : Reading → Except Failure Reading}

theorem begun_ok (reading : Reading) : Begun (.ok reading) :=
  nofun

theorem begun_missing (part : Part) (rest : List Token) (stub : Option Stub) :
    Begun (.error (.missing part rest stub)) :=
  nofun

theorem not_begun_mismatch : ¬ Begun (.error .mismatch) :=
  fun h => h rfl

theorem begun_require (part : Phrase) (reader : Reader) (tokens : List Token) :
    Begun (require part reader tokens) :=
  require_ne_mismatch part reader tokens

theorem begun_bind_iff (hf : ∀ reading, Begun (f reading)) :
    Begun
        (match answer with
        | .error failure => .error failure
        | .ok reading => f reading)
      ↔
    Begun answer := by
  cases answer with
  | error => rfl
  | ok reading => exact iff_of_true (hf reading) (begun_ok reading)

theorem Phrase.startsWith_literal (token : Token) :
    literal.startsWith token = (atom.startsWith token || token.isSymbol Operator.not.text) := by
  simp [startsWith, firstSymbols, Operator.text, Bool.or_assoc]

theorem not_begun_nil (phrase : Phrase) : ¬ Begun (phrase.reader inner []) := by
  cases phrase <;> exact not_begun_mismatch

theorem begun_readIdentifier_iff :
    Begun (readIdentifier (token :: tokens)) ↔ Phrase.identifier.startsWith token = true := by
  cases h : token.isIdentifier with
  | false => simp [readIdentifier, Phrase.startsWith, Phrase.firstSymbols, h, not_begun_mismatch]
  | true => simp [readIdentifier, Phrase.startsWith, h, begun_ok]

theorem begun_readAtom_of_opening (h : token.isSymbol "(") (tokens : List Token) :
    Begun (readAtom inner (token :: tokens)) := by
  rw [readAtom_of_opening h]
  apply (begun_bind_iff _).2 (begun_require .biconditional inner tokens)
  intro body
  split
  . apply begun_missing
  . apply begun_ok

theorem begun_readAtom_iff :
    Begun (readAtom inner (token :: tokens)) ↔ Phrase.atom.startsWith token = true := by
  cases hopening : token.isSymbol "(" with
  | true =>
    have hbegun : Begun (readAtom inner (token :: tokens)) := begun_readAtom_of_opening hopening tokens
    simp [hbegun, Phrase.startsWith, Phrase.firstSymbols, hopening]
  | false =>
    simp only [readAtom, hopening]
    split
    . next h =>
      rw [Bool.or_eq_true] at h
      rcases h with h | h <;> simp [begun_ok, Phrase.startsWith, Phrase.firstSymbols, h]
    . next hconstant =>
      split
      . next h => simp [begun_ok, Phrase.startsWith, h]
      . next hidentifier =>
        simp only [Bool.or_eq_true, not_or, Bool.not_eq_true] at hconstant hidentifier
        simp [not_begun_mismatch, Phrase.startsWith, Phrase.firstSymbols, hopening, hconstant,
          hidentifier]

theorem begun_readLiteral_iff :
    Begun (readLiteral inner (token :: tokens)) ↔ Phrase.literal.startsWith token = true := by
  have hatom :
      Begun (readAtom inner (token :: tokens)) ↔ Phrase.atom.startsWith token = true :=
    begun_readAtom_iff
  rw [Phrase.startsWith_literal, Bool.or_eq_true, ← hatom]
  unfold readLiteral
  split
  . next hmismatch =>
    cases hsign : token.isSymbol Operator.not.text with
    | false => simp [dropSymbol, hsign, hmismatch]
    | true =>
      simp only [dropSymbol_cons_of_isSymbol hsign, or_true, iff_true]
      apply (begun_bind_iff fun _ => begun_ok _).2 (begun_require .atom (readAtom inner) tokens)
  . next hresult =>
    have hbegun : Begun (readAtom inner (token :: tokens)) := hresult
    simp [hbegun]

theorem begun_readChain_go (bound : List Token) (chain : Reading) :
    Begun (readChain.go op part operand bound chain) := by
  induction bound generalizing chain with
  | nil => apply begun_ok
  | cons _ bound ih =>
    unfold readChain.go
    split
    . apply begun_ok
    . apply (begun_bind_iff fun _ => ih _).2 (begun_require _ _ _)

theorem begun_readChain_iff : Begun (readChain op part operand tokens) ↔ Begun (operand tokens) := by
  apply begun_bind_iff
  intro first
  apply begun_readChain_go

theorem begun_readPair_iff : Begun (readPair op part operand tokens) ↔ Begun (operand tokens) := by
  apply begun_bind_iff
  intro left
  split
  . apply begun_ok
  . apply (begun_bind_iff fun _ => begun_ok _).2 (begun_require _ _ _)

theorem begun_reader_iff (phrase : Phrase) :
    Begun (phrase.reader inner (token :: tokens)) ↔ phrase.startsWith token = true := by
  -- The levels above the literals begin like the literals.
  have hconjunction : Begun (readConjunction inner (token :: tokens)) ↔ _ :=
    begun_readChain_iff.trans begun_readLiteral_iff
  have hdisjunction : Begun (readDisjunction inner (token :: tokens)) ↔ _ :=
    begun_readChain_iff.trans hconjunction
  have himplication : Begun (readImplication inner (token :: tokens)) ↔ _ :=
    begun_readPair_iff.trans hdisjunction
  cases phrase with
  | identifier => exact begun_readIdentifier_iff
  | atom => exact begun_readAtom_iff
  | literal => exact begun_readLiteral_iff
  | conjunction => exact hconjunction
  | disjunction => exact hdisjunction
  | implication => exact himplication
  | biconditional => exact begun_readPair_iff.trans himplication

theorem begun_read_iff [RecursionLimit] (phrase : Phrase) :
    Begun (phrase.read tokens) ↔ ∃ token ∈ tokens.head?, phrase.startsWith token = true := by
  rw [phrase.read_eq_reader]
  cases tokens with
  | nil => simp [not_begun_nil]
  | cons token tokens => simp [begun_reader_iff]

end

def failureLine (part : Phrase) (pos : Int) (message : String) : String :=
  "DEBUG [treeform.parser] "
    ++ ("no " ++ part.title ++ " at token " ++ toString pos ++ ": " ++ message)

structure Attempt.Reports (attempt : Attempt) (part : Phrase) (pos : Int) (message : String) :
    Prop where
  result_eq : attempt.result = none
  log_eq : attempt.log.map LogEntry.line = [failureLine part pos message]

section

variable {part : Phrase} {pos : Int} {reason : Reason} {text : String}

theorem LogEntry.line_noPhrase_eq_iff :
    (noPhrase part pos reason).line = failureLine part pos text ↔ reason.message = text := by
  unfold line failureLine
  dsimp only [message]
  exact (String.append_right_inj _).trans (String.append_right_inj _)

theorem Attempt.reports_iff :
    Reports ⟨none, [.noPhrase part pos reason]⟩ part pos text ↔ reason.message = text := by
  rw [← LogEntry.line_noPhrase_eq_iff]
  constructor
  . intro h
    exact (List.cons.inj h.log_eq).1
  . intro h
    exact ⟨rfl, congrArg ([·]) h⟩

end

section

variable {part : Phrase} {ahead : List Token} {failure : Failure} {obstacle : Obstacle}

theorem Failure.reason_eq_unexpected_iff :
    failure.reason ahead = .unexpected obstacle
      ↔
    failure = .mismatch ∧ obstacle = .ofTokens ahead := by
  cases failure <;> simp [reason, eq_comm]

variable [RecursionLimit]

theorem mismatch_iff (h : part.read ahead = .error failure) :
    failure = .mismatch ↔ ∀ token ∈ ahead.head?, part.startsWith token = false := by
  have hbegun : Begun (part.read ahead) ↔ _ := begun_read_iff part
  rw [h, Begun, Ne, Except.error.injEq] at hbegun
  grind

theorem reason_eq_endOfInput_iff (h : part.read ahead = .error failure) :
    failure.reason ahead = .unexpected .endOfInput ↔ ahead = [] := by
  rw [Failure.reason_eq_unexpected_iff, mismatch_iff h]
  cases ahead with
  | nil => simp [Obstacle.ofTokens]
  | cons token ahead => simp [Obstacle.ofTokens]

theorem reason_eq_token_iff (h : part.read ahead = .error failure) :
    failure.reason ahead = .unexpected .token
      ↔
    ∃ token ∈ ahead.head?, part.startsWith token = false := by
  rw [Failure.reason_eq_unexpected_iff, mismatch_iff h]
  cases ahead with
  | nil => simp [Obstacle.ofTokens]
  | cons token ahead => simp [Obstacle.ofTokens]

end

/--
An attempt never fails with an error. It is silent about the phrases it finds and logs one line about
each phrase it does not find. The line tells of an unexpected token just when the first token does
not begin the phrase, and of the end of the input just when there is no first token.
-/
theorem attempt_fails_softly_at_first_token [RecursionLimit] (tokens : List Token) (part : Phrase)
    (pos : Nat) :
    ∃ attempt, part.attempt tokens pos = .ok attempt
      ∧ ((attempt.result ≠ none ∧ attempt.log = []) ∨ ∃ message, attempt.Reports part pos message)
      ∧ (attempt.Reports part pos "got unexpected end of input" ↔ tokens.length ≤ pos)
      ∧ (attempt.Reports part pos "got unexpected token"
        ↔ ∃ token, tokens[pos]? = some token ∧ part.startsWith token = false)
      ∧ ∀ message token, attempt.Reports part pos message → tokens[pos]? = some token →
        part.startsWith token = true →
        (∃ (missing : Part) (obstacle : Obstacle),
          message = "expected " ++ missing.title ++ " (" ++ obstacle.message ++ ")")
          ∨ message = "nested too deeply" := by
  rw [attempt_natCast, ← List.drop_eq_nil_iff]
  simp only [← List.head?_drop]
  generalize tokens.drop pos = ahead
  cases hread : part.read ahead with
  | ok reading =>
    have hbegun := (begun_ok reading)
    rw [← hread, begun_read_iff] at hbegun
    obtain ⟨first, hfirst, hstarts⟩ := hbegun
    have hnone (message : String) :
        ¬ Attempt.Reports ⟨some (reading.tree, (readCount tokens reading.rest : Int)), []⟩ part pos
          message := fun h => nomatch h.result_eq
    refine ⟨_, rfl, .inl ⟨nofun, rfl⟩, ?_, ?_, ?_⟩
    . apply iff_of_false (hnone _)
      rintro rfl
      cases hfirst
    . apply iff_of_false (hnone _)
      rintro ⟨token, htoken, hother⟩
      obtain rfl := Option.some.inj (hfirst.symm.trans htoken)
      rw [hstarts] at hother
      cases hother
    . intro message _ h
      exact absurd h (hnone message)
  | error failure =>
    -- Only a mismatch has a wording without a part, so that the wording tells what became of it.
    refine ⟨_, rfl, .inr ⟨_, Attempt.reports_iff.2 rfl⟩, ?_, ?_, ?_⟩
    . rw [Attempt.reports_iff]
      exact Reason.message_eq_obstacle_iff.trans (reason_eq_endOfInput_iff hread)
    . rw [Attempt.reports_iff]
      exact Reason.message_eq_obstacle_iff.trans (reason_eq_token_iff hread)
    . intro message token h htoken hstarts
      rw [Attempt.reports_iff] at h
      cases failure with
      | mismatch =>
        rw [(mismatch_iff hread).1 rfl token htoken] at hstarts
        cases hstarts
      | missing missing rest => exact .inl ⟨missing, .ofTokens rest, h.symm⟩
      | tooDeep => exact .inr h.symm

theorem attempt_fails_softly_at_first_token_openConjunction :
    let tokens : List Token := [⟨.symbol, "~", none⟩, ⟨.identifier, "a", none⟩, ⟨.symbol, "&", none⟩,
      ⟨.symbol, "<", none⟩]
    ∃ atom literal behind conjunction,
      Phrase.atom.attempt tokens 0 = .ok atom ∧ atom.Reports .atom 0 "got unexpected token"
        ∧ Phrase.literal.attempt tokens 3 = .ok literal
        ∧ literal.Reports .literal 3 "got unexpected token"
        ∧ Phrase.literal.attempt tokens 4 = .ok behind
        ∧ behind.Reports .literal 4 "got unexpected end of input"
        ∧ Phrase.conjunction.attempt tokens 0 = .ok conjunction
        ∧ conjunction.Reports .conjunction 0 "expected literal (got unexpected token)" := by
  intro tokens
  obtain ⟨atom, hatom, _, _, hatomToken, _⟩ := attempt_fails_softly_at_first_token tokens .atom 0
  obtain ⟨literal, hliteral, _, _, hliteralToken, _⟩ :=
    attempt_fails_softly_at_first_token tokens .literal 3
  obtain ⟨behind, hbehind, _, hend, _⟩ := attempt_fails_softly_at_first_token tokens .literal 4
  exact ⟨atom, literal, behind, ⟨none, [.noPhrase .conjunction 0 _]⟩, hatom,
    hatomToken.2 ⟨_, rfl, rfl⟩, hliteral, hliteralToken.2 ⟨_, rfl, rfl⟩, hbehind,
    hend.2 (by decide), by rfl, Attempt.reports_iff.2 (by decide)⟩

end Formulary
