import Formulary.Proofs.Grammar.Completeness
import Formulary.Proofs.Grammar.Limit

/-!
This module contains the agreement of reading and grammar for whole formulas: what is accepted is
what is derived, with the same tree, unless parentheses are nested too deeply.
-/

namespace Formulary

theorem Phrase.read_ne_tooDeep [RecursionLimit] {tokens : List Token}
    (h : NestedWithin maxNesting tokens) (phrase : Phrase) : phrase.read tokens ≠ .error .tooDeep := by
  intro htooDeep
  have := phrase.read_justified tokens
  rw [htooDeep] at this
  obtain ⟨front, later, htokens, _, hopen⟩ := this
  have := h front later htokens
  omega

theorem readNested_of_derives {phrase : Phrase} {tokens : List Token} {tree : Tree}
    (h : Derives phrase tokens tree) {depth : Nat} (hdepth : tokens.length ≤ depth) :
    ∃ stub, phrase.reader (readNested depth) tokens = .ok ⟨tree, [], stub⟩ := by
  have := Phrase.reader_complete h hdepth (ends_nil _)
  rwa [List.append_nil] at this

theorem read_of_derives [RecursionLimit] {phrase : Phrase} {tokens : List Token} {tree : Tree}
    (h : Derives phrase tokens tree) :
    phrase.read tokens = .error .tooDeep ∨ ∃ stub, phrase.read tokens = .ok ⟨tree, [], stub⟩ := by
  have hdepth : tokens.length ≤ max maxNesting tokens.length := by omega
  have hlimit : maxNesting ≤ max maxNesting tokens.length := by omega
  obtain ⟨stub, hread⟩ := readNested_of_derives h hdepth
  have happrox := readNested_approximates hlimit
  rw [Phrase.read_eq_reader]
  cases happrox.phrase phrase tokens with
  | inl htooDeep => exact .inl htooDeep
  | inr hsame => exact .inr ⟨stub, hsame.trans hread⟩

theorem Derives.unique {phrase : Phrase} {tokens : List Token} {tree other : Tree}
    (h : Derives phrase tokens tree) (hother : Derives phrase tokens other) : tree = other := by
  obtain ⟨_, hread⟩ := readNested_of_derives h (Nat.le_refl _)
  obtain ⟨_, hagain⟩ := readNested_of_derives hother (Nat.le_refl _)
  rw [hread] at hagain
  simp only [Except.ok.injEq, Reading.mk.injEq] at hagain
  apply hagain.1

namespace Tree

section

variable [RecursionLimit]

theorem ofTokens_eq_tooDeep_iff {tokens : List Token} :
    ofTokens tokens = .error .tooDeep ↔ Phrase.biconditional.read tokens = .error .tooDeep := by
  unfold ofTokens
  split
  . next hread => simp [hread]
  . next hread => simp [hread]
  . next hread => simp [hread]
  . next hread => simp [hread]
  . next hread => simp [hread]

theorem derives_of_ofTokens {tokens : List Token} {tree : Tree} (h : ofTokens tokens = .ok tree) :
    Derives .biconditional tokens tree := by
  have hjustified := Phrase.biconditional.read_justified tokens
  unfold ofTokens at h
  split at h
  . next hread =>
    rw [hread] at hjustified
    obtain ⟨front, htokens, hderives, _⟩ := hjustified
    obtain rfl := Except.ok.inj h
    rw [List.append_nil] at htokens
    rw [htokens]
    exact hderives
  all_goals simp at h

theorem ofTokens_of_derives {tokens : List Token} {tree : Tree}
    (hnested : NestedWithin maxNesting tokens) (h : Derives .biconditional tokens tree) :
    ofTokens tokens = .ok tree := by
  cases read_of_derives h with
  | inl htooDeep =>
    have := Phrase.read_ne_tooDeep hnested .biconditional
    contradiction
  | inr hread =>
    obtain ⟨stub, hread⟩ := hread
    simp only [ofTokens, hread]

theorem ofTokens_of_deep {tokens : List Token} {tree : Tree}
    (h : Derives .biconditional tokens tree) (hdeep : maxNesting < deepest 0 tokens) :
    ofTokens tokens = .error .tooDeep := by
  rcases read_of_derives h with hread | ⟨stub, hread⟩
  . simp only [ofTokens, hread]
  . have hjustified := Phrase.biconditional.read_justified tokens
    rw [hread] at hjustified
    obtain ⟨front, htokens, _, hreaches⟩ := hjustified
    have hle := hreaches.deepest_le
    rw [List.append_nil] at htokens
    rw [← htokens] at hle
    omega

theorem ofText_eq_ok_iff {text : String} {tree : Tree} :
    ofText text = .ok tree ↔ ∃ tokens, scan text = .ok tokens ∧ ofTokens tokens = .ok tree := by
  unfold ofText
  cases scan text with
  | error => simp
  | ok tokens =>
    simp only [Except.ok.injEq, exists_eq_left']
    cases ofTokens tokens with
    | error => simp
    | ok => simp

theorem ofTokens_decides_grammar (tokens : List Token) :
    (NestedWithin maxNesting tokens →
      ∀ tree, ofTokens tokens = .ok tree ↔ Derives .biconditional tokens tree)
      ∧ ((∀ tree, ¬ Derives .biconditional tokens tree) → ∃ error, ofTokens tokens = .error error)
      ∧ ∀ tree other, Derives .biconditional tokens tree → Derives .biconditional tokens other →
        tree = other := by
  refine ⟨?_, ?_, ?_⟩
  . intro hnested tree
    exact ⟨derives_of_ofTokens, ofTokens_of_derives hnested⟩
  . intro hnone
    cases h : ofTokens tokens with
    | ok tree =>
      have := derives_of_ofTokens h
      have := hnone tree
      contradiction
    | error error => exact ⟨error, rfl⟩
  . intro tree other htree hother
    apply htree.unique hother

end

def arrowTokens : List Token :=
  [⟨.symbol, "~", none⟩, ⟨.symbol, "(", none⟩, ⟨.identifier, "a", none⟩, ⟨.symbol, ")", none⟩,
    ⟨.symbol, "-", none⟩, ⟨.symbol, ">", none⟩, ⟨.symbol, "T", none⟩]

theorem ofTokens_decides_arrowTokens :
    NestedWithin maxNesting arrowTokens
      ∧ Derives .biconditional arrowTokens
        (.binary "->" (.unary "~" (.identifier "a")) (.constant "T"))
      ∧ (∀ other, Derives .biconditional arrowTokens other →
        .binary "->" (.unary "~" (.identifier "a")) (.constant "T") = other)
      ∧ NestedWithin maxNesting arrowTokens.dropLast
      ∧ (∀ tree, ¬ Derives .biconditional arrowTokens.dropLast tree)
      ∧ ∃ error, ofTokens arrowTokens.dropLast = .error error := by
  have hnested : NestedWithin maxNesting arrowTokens := nestedWithin_iff.2 (by decide)
  have hshort : NestedWithin maxNesting arrowTokens.dropLast := nestedWithin_iff.2 (by decide)
  obtain ⟨hiff, _, hunique⟩ := ofTokens_decides_grammar arrowTokens
  obtain ⟨hiffShort, herror, _⟩ := ofTokens_decides_grammar arrowTokens.dropLast
  have hderives := (hiff hnested _).1 rfl
  have hnone : ∀ tree, ¬ Derives .biconditional arrowTokens.dropLast tree := by
    intro tree h
    cases (hiffShort hshort tree).2 h
  exact ⟨hnested, hderives, fun _ => hunique _ _ hderives, hshort, hnone, herror hnone⟩

end Tree

end Formulary
