import Formulary.Grammar.Attempt
import Formulary.Proofs.Token.Stream

/-!
This module contains what a position is to attempts: where it counts from and what there is to read
from it on. All else is decided by the tokens ahead, so that an attempt may be moved to position 0 of
these.
-/

namespace Formulary

section

variable {tokens : List Token} {pos : Int}

theorem accept_eq (h : -tokens.length ≤ pos) (text : String) :
    accept tokens pos text
      =
    .ok ((dropSymbol text (tokensAhead tokens pos)).map fun _ => pos + 1) := by
  have hlength := length_tokensAhead h
  have htoken := tokenAt_eq_getElem? h 0
  rw [Int.natCast_zero, Int.add_zero] at htoken
  unfold accept
  split
  . next hend =>
    have hnil : tokensAhead tokens pos = [] := by
      rw [← List.length_eq_zero_iff, hlength]
      omega
    rw [hnil]
    rfl
  . next hend =>
    cases hahead : tokensAhead tokens pos with
    | nil =>
      rw [hahead, List.length_nil] at hlength
      omega
    | cons token rest =>
      rw [hahead, List.getElem?_cons_zero] at htoken
      simp only [htoken, dropSymbol]
      split
      . rfl
      . rfl

theorem attempt_eq [RecursionLimit] (h : -tokens.length ≤ pos) (part : Phrase) :
    part.attempt tokens pos
      =
    match part.read (tokensAhead tokens pos) with
    | .ok reading =>
      .ok ⟨some (reading.tree, pos + ((tokensAhead tokens pos).length - reading.rest.length)), []⟩
    | .error failure =>
      .ok ⟨none, [.noPhrase part pos (failure.reason (tokensAhead tokens pos))]⟩ := by
  cases hread : part.read (tokensAhead tokens pos) with
  | ok => simp only [Phrase.attempt, tokensFrom_eq h, hread]
  | error => simp only [Phrase.attempt, tokensFrom_eq h, hread]

theorem accept_eq_error (h : pos < -tokens.length) (text : String) :
    accept tokens pos text = .error .noSuchPosition := by
  have hnone : tokenAt tokens.toArray pos = none := by
    have hsize : (tokens.toArray.size : Int) = tokens.length := rfl
    rw [tokenAt, if_neg (by omega), if_neg (by omega)]
  rw [accept, if_neg (by omega), hnone]

theorem attempt_eq_error [RecursionLimit] (h : pos < -tokens.length) (part : Phrase) :
    part.attempt tokens pos = .error .noSuchPosition := by
  rw [Phrase.attempt, tokensFrom, if_pos (by omega)]

end

theorem tokensAhead_zero (tokens : List Token) : tokensAhead tokens 0 = tokens :=
  tokensAhead_natCast tokens 0

theorem attempts_move_to_tokens_ahead [RecursionLimit] (tokens : List Token) (pos : Int) :
    (pos < -tokens.length →
        (∀ part : Phrase, part.attempt tokens pos = .error .noSuchPosition)
          ∧ ∀ text, accept tokens pos text = .error .noSuchPosition)
      ∧ (-tokens.length ≤ pos →
        (∀ part : Phrase,
          (∃ tree stop, part.attempt tokens pos = .ok ⟨some (tree, stop), []⟩
            ∧ part.attempt (tokensAhead tokens pos) 0 = .ok ⟨some (tree, stop - pos), []⟩)
          ∨ ∃ reason, part.attempt tokens pos = .ok ⟨none, [.noPhrase part pos reason]⟩
            ∧ part.attempt (tokensAhead tokens pos) 0 = .ok ⟨none, [.noPhrase part 0 reason]⟩)
          ∧ ∀ text, ∃ answer, accept (tokensAhead tokens pos) 0 text = .ok answer
            ∧ accept tokens pos text = .ok (answer.map (· + pos))) := by
  refine ⟨fun h => ⟨attempt_eq_error h, accept_eq_error h⟩, ?_⟩
  intro h
  have hstart : -((tokensAhead tokens pos).length : Int) ≤ 0 := by omega
  constructor
  . intro part
    rw [attempt_eq h, attempt_eq hstart, tokensAhead_zero]
    cases part.read (tokensAhead tokens pos) with
    | ok reading =>
      refine .inl ⟨_, _, rfl, ?_⟩
      dsimp only
      rw [Int.zero_add, Int.add_comm pos, Int.add_sub_cancel]
    | error failure => exact .inr ⟨_, rfl, rfl⟩
  . intro text
    refine ⟨_, accept_eq hstart text, ?_⟩
    rw [accept_eq h, tokensAhead_zero, Option.map_map]
    simp only [Function.comp_def, Int.zero_add, Int.add_comm]

/--
The tokens of `& b ( a`. From the last one on they are read as `a & b`, and the parenthesis before
it is not closed.
-/
def turningTokens : List Token :=
  [⟨.symbol, "&", none⟩, ⟨.identifier, "b", none⟩, ⟨.symbol, "(", none⟩, ⟨.identifier, "a", none⟩]

theorem attempts_move_to_tokens_ahead_turningTokens :
    let tree := Tree.binary "&" (.identifier "a") (.identifier "b")
    Phrase.disjunction.attempt turningTokens (-1) = .ok ⟨some (tree, 2), []⟩
      ∧ Phrase.disjunction.attempt (tokensAhead turningTokens (-1)) 0 = .ok ⟨some (tree, 3), []⟩
      ∧ (∃ reason, Phrase.atom.attempt turningTokens (-2) = .ok ⟨none, [.noPhrase .atom (-2) reason]⟩
        ∧ Phrase.atom.attempt (tokensAhead turningTokens (-2)) 0
          = .ok ⟨none, [.noPhrase .atom 0 reason]⟩)
      ∧ Phrase.literal.attempt turningTokens (-5) = .error .noSuchPosition
      ∧ accept turningTokens (-2) "(" = .ok (some (-1)) := by
  intro tree
  have hlast : Phrase.disjunction.attempt turningTokens (-1) = .ok ⟨some (tree, 2), []⟩ := rfl
  have hopen : ∃ log, Phrase.atom.attempt turningTokens (-2) = .ok ⟨none, log⟩ := ⟨_, rfl⟩
  obtain ⟨hattempts, _⟩ := (attempts_move_to_tokens_ahead turningTokens (-1)).2 (by decide)
  obtain ⟨hothers, haccepts⟩ := (attempts_move_to_tokens_ahead turningTokens (-2)).2 (by decide)
  obtain ⟨hfaults, _⟩ := (attempts_move_to_tokens_ahead turningTokens (-5)).1 (by decide)
  refine ⟨hlast, ?_, ?_, hfaults .literal, ?_⟩
  . rcases hattempts .disjunction with ⟨_, _, hattempt, hmoved⟩ | ⟨_, hattempt, _⟩
    . rw [hlast] at hattempt
      cases hattempt
      exact hmoved
    . rw [hlast] at hattempt
      cases hattempt
  . obtain ⟨log, hlog⟩ := hopen
    rcases hothers .atom with ⟨_, _, hattempt, _⟩ | hnone
    . rw [hlog] at hattempt
      cases hattempt
    . exact hnone
  . obtain ⟨answer, hanswer, haccept⟩ := haccepts "("
    cases hanswer
    exact haccept

end Formulary
