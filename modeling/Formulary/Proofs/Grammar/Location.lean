import Formulary.Proofs.Grammar.Acceptance
import Formulary.Proofs.Grammar.Lookahead

/-!
This module contains the places of syntax errors. The furthest token of an error is the first one
that no formula can have there: the tokens in front of it are the beginning of a formula, with it
they are not.
-/

namespace Formulary

theorem Viable.of_append {tokens later : List Token} (h : Viable (tokens ++ later)) :
    Viable tokens := by
  obtain ⟨rest, tree, hderives⟩ := h
  refine ⟨later ++ rest, tree, ?_⟩
  rw [← List.append_assoc]
  exact hderives

section

variable [RecursionLimit]

theorem not_begins_of_settled {phrase : Phrase} {seen later : List Token} (hseen : seen ≠ [])
    (h : Settled later.length (phrase.read (seen ++ later))) : ¬ Begins phrase seen := by
  rintro ⟨other, tree, hderives⟩
  have huniform := Phrase.read_local phrase seen later hseen h
  rcases read_of_derives hderives with hread | ⟨_, hread⟩
  . apply huniform.ne_tooDeep other hread
  . obtain ⟨_, rest, stub, hreading, hlt, _⟩ := huniform.exists_ok hread
    have hnil : [] = rest ++ other := congrArg Reading.rest hreading
    rw [(List.append_eq_nil_iff.1 hnil.symm).1] at hlt
    contradiction

theorem not_viable_of_settled {seen later : List Token} (hseen : seen ≠ [])
    (h : Settled later.length (Phrase.biconditional.read (seen ++ later))) : ¬ Viable seen :=
  not_begins_of_settled hseen h

theorem exists_reaches_of_ne_tooDeep {tokens : List Token} {error : SyntaxError}
    (h : Tree.ofTokens tokens = .error error) (hne : error ≠ .tooDeep) :
    ∃ front rest stub, tokens = front ++ rest
      ∧ Reaches .biconditional 0 maxNesting front rest stub
      ∧ StubOf Phrase.biconditional.stubbed rest stub
      ∧ error.state = (front.length, front.length + stubLength stub)
      ∧ ∀ n, n + stubLength stub < rest.length → Settled n (Phrase.biconditional.read tokens) := by
  have hjustified := Phrase.biconditional.read_justified tokens
  unfold Tree.ofTokens at h
  split at h
  . cases h
  . next tree rest stub hrest hread =>
    have hstub := Phrase.reader_leaves _ .biconditional _ _ hread
    rw [hread] at hjustified ⊢
    obtain ⟨front, htokens, _, hreaches⟩ := hjustified
    obtain rfl := Except.error.inj h
    refine ⟨front, rest, stub, htokens, hreaches, hstub, ?_, fun _ => id⟩
    dsimp only at htokens
    simp [SyntaxError.state, readCount, htokens]
  . next hread =>
    rw [hread]
    obtain rfl := Except.error.inj h
    exact ⟨[], tokens, none, rfl, ⟨Nat.zero_le _, Nat.zero_le _, .nil _⟩, stubOf_none, rfl,
      fun _ _ => trivial⟩
  . next part rest stub hread =>
    have hstub := Phrase.read_breaksOff .biconditional _ _ _ _ hread
    rw [hread] at hjustified ⊢
    obtain ⟨front, htokens, hreaches⟩ := hjustified
    obtain rfl := Except.error.inj h
    refine ⟨front, rest, stub, htokens, hreaches, hstub, ?_, fun _ => id⟩
    simp [SyntaxError.state, readCount, htokens]
  . next hread =>
    obtain rfl := Except.error.inj h
    contradiction

theorem ofTokens_ne_tooDeep {tokens : List Token} (h : NestedWithin maxNesting tokens) :
    Tree.ofTokens tokens ≠ .error .tooDeep := by
  intro htooDeep
  apply Phrase.read_ne_tooDeep h .biconditional
  apply Tree.ofTokens_eq_tooDeep_iff.1 htooDeep

theorem exists_reaches_of_ofTokens {tokens : List Token} {error : SyntaxError}
    (hnested : NestedWithin maxNesting tokens) (h : Tree.ofTokens tokens = .error error) :
    ∃ front rest stub, tokens = front ++ rest
      ∧ Reaches .biconditional 0 maxNesting front rest stub
      ∧ error.state = (front.length, front.length + stubLength stub)
      ∧ ∀ n, n + stubLength stub < rest.length → Settled n (Phrase.biconditional.read tokens) := by
  have hne : error ≠ .tooDeep := by
    rintro rfl
    exact ofTokens_ne_tooDeep hnested h
  obtain ⟨front, rest, stub, htokens, hreaches, _, hstate, hsettled⟩ :=
    exists_reaches_of_ne_tooDeep h hne
  exact ⟨front, rest, stub, htokens, hreaches, hstate, hsettled⟩

theorem error_at_first_impossible_token {tokens : List Token} {error : SyntaxError}
    {pos furthest : Nat} (hnested : NestedWithin maxNesting tokens)
    (h : Tree.ofTokens tokens = .error error) (hstate : error.state = (pos, furthest)) :
    pos ≤ furthest ∧ furthest ≤ tokens.length
      ∧ Viable (tokens.take furthest)
      ∧ (furthest < tokens.length → ¬ Viable (tokens.take (furthest + 1)))
      ∧ (furthest = tokens.length
        ↔ ∃ later, later ≠ [] ∧ ∃ tree, Derives .biconditional (tokens ++ later) tree) := by
  obtain ⟨front, rest, stub, htokens, hreaches, hpos, hsettled⟩ :=
    exists_reaches_of_ofTokens hnested h
  rw [hpos, Prod.mk.injEq] at hstate
  obtain ⟨rfl, rfl⟩ := hstate
  have hle := hreaches.length_le
  have hlength : tokens.length = front.length + rest.length := by
    rw [htokens, List.length_append]
  have hviable : Viable (tokens.take (front.length + stubLength stub)) := by
    rw [htokens, List.take_length_add_append]
    apply hreaches.begins
  have himpossible : front.length + stubLength stub < tokens.length →
      ¬ Viable (tokens.take (front.length + stubLength stub + 1)) := by
    intro hlt
    -- The answer is settled by the tokens up to this one, so no others behind it lead to a formula.
    have hseen : tokens.take (front.length + stubLength stub + 1) ≠ [] := by
      apply List.ne_nil_of_length_pos
      rw [List.length_take]
      omega
    have hlater : (tokens.drop (front.length + stubLength stub + 1)).length + stubLength stub
        < rest.length := by
      rw [List.length_drop]
      omega
    have hread := hsettled _ hlater
    conv at hread =>
      arg 2
      rw [← List.take_append_drop (front.length + stubLength stub + 1) tokens]
    apply not_viable_of_settled hseen hread
  refine ⟨by omega, by omega, hviable, himpossible, ?_⟩
  constructor
  . intro hend
    rw [hend, List.take_length] at hviable
    obtain ⟨later, tree, hderives⟩ := hviable
    refine ⟨later, ?_, tree, hderives⟩
    rintro rfl
    rw [List.append_nil] at hderives
    rw [Tree.ofTokens_of_derives hnested hderives] at h
    cases h
  . rintro ⟨later, _, tree, hderives⟩
    apply Nat.le_antisymm
    . omega
    . apply Nat.le_of_not_lt
      intro hlt
      apply himpossible hlt
      apply Viable.of_append
      rw [List.take_append_drop]
      exact ⟨later, tree, hderives⟩

end

def halfOperatorTokens : List Token :=
  [⟨.symbol, "(", none⟩, ⟨.identifier, "a", none⟩, ⟨.symbol, "<", none⟩, ⟨.symbol, "-", none⟩,
    ⟨.identifier, "b", none⟩]

theorem error_at_token_after_half_operator :
    NestedWithin maxNesting halfOperatorTokens
      ∧ Tree.ofTokens halfOperatorTokens = .error (.incomplete 2 4 .closing .token)
      ∧ Viable (halfOperatorTokens.take 4)
      ∧ ¬ Viable (halfOperatorTokens.take 5) := by
  have hnested : NestedWithin maxNesting halfOperatorTokens := nestedWithin_iff.2 (by decide)
  have hread : Tree.ofTokens halfOperatorTokens = .error (.incomplete 2 4 .closing .token) := rfl
  obtain ⟨_, _, hviable, himpossible, _⟩ := error_at_first_impossible_token hnested hread rfl
  exact ⟨hnested, hread, hviable, himpossible (by decide)⟩

end Formulary
