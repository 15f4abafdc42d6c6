import Formulary.Proofs.Grammar.Location
import Formulary.Proofs.Grammar.Wording

/-!
This module contains when a formula is nested too deeply: when a beginning of a formula leaves more
parentheses open than the limit allows. Errors in front of that point come first, and neither closed
parentheses nor the operands of a chain add up.
-/

namespace Formulary

theorem StubOf.flat {operators : List Operator} {rest : List Token} {stub : Option Stub}
    (h : StubOf operators rest stub) : Flat (rest.take (stubLength stub)) := by
  cases stub with
  | none =>
    intro token htoken
    simp at htoken
  | some found =>
    obtain ⟨_, op, _, hdrop⟩ := h found rfl
    obtain ⟨ahead, later, missing, rfl, hlength, hop⟩ := exists_spelled_of_dropSymbols hdrop
    have hahead : (ahead ++ later).take (stubLength (some found)) = ahead := by
      apply List.take_left' hlength
    rw [hahead]
    intro token htoken
    apply hop.flat token (List.mem_append_left _ htoken)

section

variable [RecursionLimit] {tokens before later : List Token} {error : SyntaxError}

theorem exists_beginning_of_ofTokens (h : Tree.ofTokens tokens = .error error)
    (hne : error ≠ .tooDeep) :
    Viable (tokens.take error.state.2)
      ∧ deepest 0 (tokens.take error.state.2) ≤ maxNesting
      ∧ ∀ before later, tokens = before ++ later → Viable before →
        before.length ≤ error.state.2 := by
  obtain ⟨front, rest, stub, htokens, hreaches, hstub, hstate, hsettled⟩ :=
    exists_reaches_of_ne_tooDeep h hne
  have htake : tokens.take error.state.2 = front ++ rest.take (stubLength stub) := by
    rw [hstate, htokens, List.take_length_add_append]
  refine ⟨?_, ?_, ?_⟩
  . rw [htake]
    apply hreaches.begins
  . rw [htake, deepest_append, deepest_of_flat hstub.flat]
    have hfront := hreaches.deepest_le
    have hopen := openAfter_le_deepest 0 front []
    rw [List.append_nil] at hopen
    omega
  . intro before later hbefore hviable
    rw [hstate]
    apply Nat.le_of_not_lt
    intro hlt
    -- Where reading ends inside of `before`, no formula begins with it.
    have hlength := congrArg List.length htokens
    rw [hbefore, List.length_append, List.length_append] at hlength
    have hread := hsettled later.length (by omega)
    rw [hbefore] at hread
    refine not_viable_of_settled ?_ hread hviable
    apply List.ne_nil_of_length_pos
    omega

theorem ofTokens_of_viable (hviable : Viable before) (hdeep : maxNesting < openAfter 0 before)
    (later : List Token) : Tree.ofTokens (before ++ later) = .error .tooDeep := by
  have hdeepest := openAfter_le_deepest 0 before later
  cases h : Tree.ofTokens (before ++ later) with
  | ok tree =>
    have hderives := Tree.derives_of_ofTokens h
    rw [← h]
    apply Tree.ofTokens_of_deep hderives (by omega)
  | error error =>
    by_cases hne : error = .tooDeep
    . rw [hne]
    . obtain ⟨_, hle, hall⟩ := exists_beginning_of_ofTokens h hne
      have hlength := hall before later rfl hviable
      have hopen := openAfter_le_deepest 0 before (later.take (error.state.2 - before.length))
      rw [List.take_append, List.take_of_length_le hlength] at hle
      omega

theorem ofTokens_tooDeep_iff :
    Tree.ofTokens tokens = .error .tooDeep ↔
      ∃ before later, tokens = before ++ later ∧ Viable before
        ∧ maxNesting < openAfter 0 before := by
  constructor
  . intro h
    have hjustified := Phrase.biconditional.read_justified tokens
    rw [Tree.ofTokens_eq_tooDeep_iff.1 h] at hjustified
    obtain ⟨before, later, htokens, hviable, hopen⟩ := hjustified
    refine ⟨before, later, htokens, hviable, ?_⟩
    omega
  . rintro ⟨before, later, rfl, hviable, hdeep⟩
    apply ofTokens_of_viable hviable hdeep

theorem exists_error_of_not_viable (hviable : ¬ Viable before)
    (hnested : NestedWithin maxNesting before) (later : List Token) :
    ∃ error, Tree.ofTokens (before ++ later) = .error error ∧ error ≠ .tooDeep
      ∧ error.state.2 < before.length := by
  cases h : Tree.ofTokens (before ++ later) with
  | ok tree =>
    have hderives := Tree.derives_of_ofTokens h
    exact absurd ⟨later, tree, hderives⟩ hviable
  | error error =>
    have hne : error ≠ .tooDeep := by
      rintro rfl
      obtain ⟨front, rest, htokens, hfront, hdeep⟩ := ofTokens_tooDeep_iff.1 h
      rcases List.append_eq_append_iff.1 htokens with ⟨between, rfl, _⟩ | ⟨between, rfl, _⟩
      . exact hviable (Viable.of_append hfront)
      . have := hnested front between rfl
        omega
    refine ⟨error, rfl, hne, ?_⟩
    obtain ⟨hbegins, _⟩ := exists_beginning_of_ofTokens h hne
    apply Nat.lt_of_not_le
    intro hle
    rw [List.take_append, List.take_of_length_le hle] at hbegins
    exact hviable (Viable.of_append hbegins)

end

/--
A chain of operands with `op` in between, each of them nested within `limit` by itself.
-/
inductive ChainWithin (limit : Nat) (op : Operator) (part : Phrase) : List Token → Prop where
  | single {tokens : List Token} {tree : Tree} (h : Derives part tokens tree)
      (hnested : NestedWithin limit tokens) :
    ChainWithin limit op part tokens
  | join {front sign tokens : List Token} {tree : Tree} (hfront : ChainWithin limit op part front)
      (hop : op.Spelled sign) (h : Derives part tokens tree) (hnested : NestedWithin limit tokens) :
    ChainWithin limit op part (front ++ sign ++ tokens)

theorem ChainWithin.exists_derives {limit : Nat} {op : Operator} {whole part : Phrase}
    {tokens : List Token} (hjoins : Joins whole op whole part)
    (h : ChainWithin limit op part tokens) :
    (∃ tree, Derives whole tokens tree) ∧ NestedWithin limit tokens := by
  induction h with
  | single h hnested => exact ⟨⟨_, hjoins.single h⟩, hnested⟩
  | join _ hop h hnested ih =>
    obtain ⟨⟨_, hfront⟩, hwithin⟩ := ih
    refine ⟨⟨_, hjoins.join hop hfront h⟩, ?_⟩
    -- Every operand starts with no parenthesis open, so depths are not added up.
    rw [nestedWithin_iff] at hwithin hnested ⊢
    rw [deepest_append, deepest_append, openAfter_append, hfront.openAfter_eq,
      openAfter_of_flat hop.flat, deepest_of_flat hop.flat]
    omega

theorem tooDeep_at_first_deep_beginning [RecursionLimit] (tokens : List Token) :
    ((∃ error, Tree.ofTokens tokens = .error error
        ∧ error.message = "formula nested too deeply" ∧ error.state = (0, 0)) ↔
      ∃ before later, tokens = before ++ later ∧ Viable before
        ∧ maxNesting < openAfter 0 before)
      ∧ (∀ before later, tokens = before ++ later → ¬ Viable before →
        NestedWithin maxNesting before →
        ∃ error, Tree.ofTokens tokens = .error error
          ∧ error.message ≠ "formula nested too deeply" ∧ error.state.2 < before.length)
      ∧ (ChainWithin maxNesting .and .literal tokens
          ∨ ChainWithin maxNesting .or .conjunction tokens →
        ∃ tree, Tree.ofTokens tokens = .ok tree) := by
  refine ⟨?_, ?_, ?_⟩
  . rw [← ofTokens_tooDeep_iff]
    constructor
    . rintro ⟨error, herror, hmessage, _⟩
      rw [herror, SyntaxError.message_eq_tooDeep_iff.1 hmessage]
    . intro h
      exact ⟨.tooDeep, h, SyntaxError.message_eq_tooDeep_iff.2 rfl, rfl⟩
  . rintro before later rfl hviable hnested
    obtain ⟨error, herror, hne, hlt⟩ := exists_error_of_not_viable hviable hnested later
    exact ⟨error, herror, mt SyntaxError.message_eq_tooDeep_iff.1 hne, hlt⟩
  . rintro (h | h)
    . obtain ⟨⟨tree, hderives⟩, hnested⟩ := h.exists_derives joins_conjunction
      have hformula := Derives.biconditional (.implication (.disjunction hderives))
      exact ⟨tree, Tree.ofTokens_of_derives hnested hformula⟩
    . obtain ⟨⟨tree, hderives⟩, hnested⟩ := h.exists_derives joins_disjunction
      have hformula := Derives.biconditional (.implication hderives)
      exact ⟨tree, Tree.ofTokens_of_derives hnested hformula⟩

def openings (n : Nat) : List Token :=
  List.replicate n ⟨.symbol, "(", none⟩

theorem viable_openings (n : Nat) : Viable (openings n) := by
  induction n with
  | zero => exact Begins.nil .biconditional
  | succ n ih =>
    have hopening : (⟨.symbol, "(", none⟩ : Token).isSymbol "(" := by decide
    obtain ⟨later, tree, hderives⟩ := Begins.parentheses hopening ih
    exact ⟨later, tree, hderives.of_atom (by decide)⟩

theorem openAfter_openings (n opened : Nat) : openAfter opened (openings n) = opened + n := by
  induction n generalizing opened with
  | zero => rfl
  | succ n ih =>
    have hopening : (⟨.symbol, "(", none⟩ : Token).isSymbol "(" := by decide
    change openAfter opened (_ :: openings n) = _
    rw [openAfter_opening_cons hopening, ih]
    omega

def strayTokens : List Token :=
  [⟨.identifier, "a", none⟩, ⟨.symbol, ")", none⟩]

def chainTokens : List Token :=
  [⟨.identifier, "a", none⟩, ⟨.symbol, "&", none⟩, ⟨.symbol, "T", none⟩]

theorem tooDeep_at_openings :
    (∃ error, Tree.ofTokens (openings (maxNesting + 1)) = .error error
        ∧ error.message = "formula nested too deeply" ∧ error.state = (0, 0))
      ∧ ¬ Viable strayTokens ∧ NestedWithin maxNesting strayTokens
      ∧ (∃ error, Tree.ofTokens (strayTokens ++ openings (maxNesting + 1)) = .error error
        ∧ error.message ≠ "formula nested too deeply" ∧ error.state.2 < 2)
      ∧ ChainWithin maxNesting .and .literal chainTokens
      ∧ ∃ tree, Tree.ofTokens chainTokens = .ok tree := by
  have hstray : ¬ Viable strayTokens := by
    let later : List Token := []
    have hsettled : Settled later.length (Phrase.biconditional.read (strayTokens ++ later)) :=
      Nat.zero_lt_one
    exact not_viable_of_settled (by decide) hsettled
  have hnested : NestedWithin maxNesting strayTokens := nestedWithin_iff.2 (by decide)
  have hchain : ChainWithin maxNesting .and .literal chainTokens := by
    have hname : Derives .literal [⟨.identifier, "a", none⟩] (.identifier "a") :=
      .literal (.atom (.identifier rfl))
    have hconstant : Derives .literal [⟨.symbol, "T", none⟩] (.constant "T") :=
      .literal (.constant (.inl rfl))
    have hop : Operator.and.Spelled [⟨.symbol, "&", none⟩] := ⟨by decide, rfl⟩
    have hfirst : ChainWithin maxNesting .and .literal [⟨.identifier, "a", none⟩] :=
      .single hname (nestedWithin_iff.2 (by decide))
    exact hfirst.join hop hconstant (nestedWithin_iff.2 (by decide))
  obtain ⟨hiff, _, _⟩ := tooDeep_at_first_deep_beginning (openings (maxNesting + 1))
  obtain ⟨_, hearlier, _⟩ :=
    tooDeep_at_first_deep_beginning (strayTokens ++ openings (maxNesting + 1))
  obtain ⟨_, _, hchains⟩ := tooDeep_at_first_deep_beginning chainTokens
  have hdeep : maxNesting < openAfter 0 (openings (maxNesting + 1)) := by
    rw [openAfter_openings]
    omega
  exact ⟨hiff.2 ⟨_, [], (List.append_nil _).symm, viable_openings _, hdeep⟩, hstray, hnested,
    hearlier _ _ rfl hstray hnested, hchain, hchains (.inl hchain)⟩

end Formulary
