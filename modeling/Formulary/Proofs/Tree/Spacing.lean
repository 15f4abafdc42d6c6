import Formulary.Proofs.Grammar.Agreement
import Formulary.Proofs.Grammar.Contents
import Formulary.Proofs.Token.Place

/-!
This module contains the independence of formulas from their spacing. All spacings of the same tokens
have the same tree, or the same error but for the place that its message starts with.
-/

namespace Formulary

section

variable {tokens others : List Token}

theorem getElem?_like (h : tokens.Forall₂ Token.Like others) (n : Nat) :
    (tokens[n]? = none ∧ others[n]? = none)
      ∨ ∃ token other, tokens[n]? = some token ∧ others[n]? = some other ∧ token.Like other := by
  induction h generalizing n with
  | nil => exact .inl ⟨rfl, rfl⟩
  | cons htoken _ ih =>
    cases n with
    | zero => exact .inr ⟨_, _, rfl, rfl, htoken⟩
    | succ n => apply ih

theorem Tree.ofTokens_like [RecursionLimit] (h : tokens.Forall₂ Token.Like others) :
    ofTokens tokens = ofTokens others
      ∨ ∃ pos furthest token other wanted,
        ofTokens tokens = .error (.unexpected pos furthest (some token) wanted)
          ∧ ofTokens others = .error (.unexpected pos furthest (some other) wanted)
          ∧ tokens[furthest]? = some token ∧ others[furthest]? = some other
          ∧ token.Like other := by
  have hanswer := Phrase.read_readsContents .biconditional tokens others h
  generalize hread : Phrase.biconditional.read tokens = answer,
    hother : Phrase.biconditional.read others = other at hanswer
  have hcount {rest later : List Token} (hrest : rest.Forall₂ Token.Like later) :
      readCount tokens rest = readCount others later := by
    rw [readCount, readCount, h.length_eq, hrest.length_eq]
  cases hanswer with
  | @ok tree rest later stub hrest =>
    cases hrest with
    | nil =>
      left
      rw [ofTokens_eq_ok_iff.2 ⟨stub, hread⟩, ofTokens_eq_ok_iff.2 ⟨stub, hother⟩]
    | cons htoken hrest =>
      rw [ofTokens_of_trailing hread (by simp), ofTokens_of_trailing hother (by simp),
        ← hcount (.cons htoken hrest)]
      dsimp only
      generalize readCount tokens _ + stubLength stub = furthest
      rcases getElem?_like h furthest with ⟨hnone, hlater⟩ | ⟨token, other, hsome, hlater, hlike⟩
      . left
        rw [hnone, hlater]
      . right
        rw [hsome, hlater]
        exact ⟨_, _, _, _, _, rfl, rfl, hsome, hlater, hlike⟩
  | mismatch =>
    unfold ofTokens
    rw [hread, hother]
    cases h with
    | nil => exact .inl rfl
    | cons htoken => exact .inr ⟨0, 0, _, _, .literal, rfl, rfl, rfl, rfl, htoken⟩
  | @missing part rest later stub hrest =>
    have hobstacle : Obstacle.ofTokens rest = Obstacle.ofTokens later := by
      cases hrest with
      | nil => rfl
      | cons => rfl
    left
    simp only [ofTokens, hread, hother, hcount hrest, hobstacle]
  | tooDeep =>
    left
    simp only [ofTokens, hread, hother]

def SyntaxError.wording (token : Token) (wanted : Wanted) : String :=
  Obstacle.token.message ++ ": " ++ quote token.text ++ ", expected: " ++ wanted.title

theorem SyntaxError.message_eq_append (pos furthest : Nat) (token : Token) (wanted : Wanted) :
    (unexpected pos furthest (some token) wanted).message
      =
    location token ++ wording token wanted := by
  rw [message_unexpected, unexpectedMessage, wording, ← String.append_assoc, ← String.append_assoc,
    ← String.append_assoc, ← String.append_assoc]

theorem Token.Like.wording_eq {token other : Token} (h : token.Like other) (wanted : Wanted) :
    SyntaxError.wording token wanted = SyntaxError.wording other wanted := by
  rw [SyntaxError.wording, SyntaxError.wording, h.text_eq]

end

theorem exists_scan_of_spacing {contents : List (TokenKind × String)}
    (h : ∀ content ∈ contents, ∃ text tokens, scan text = .ok tokens
      ∧ content ∈ tokens.map Token.content)
    (spacing : Spacing (contents.map Prod.snd)) :
    ∃ tokens, scan spacing.text = .ok tokens ∧ tokens.map Token.content = contents := by
  have hlexeme : ∀ content ∈ contents, Lexeme content := by
    intro content hcontent
    obtain ⟨text, tokens, hscan, hmem⟩ := h content hcontent
    obtain ⟨token, htoken, rfl⟩ := List.mem_map.1 hmem
    apply (placed_of_scan hscan).lexeme token htoken
  apply scan_of_layout (spacing.layout hlexeme)

theorem spacings_have_one_answer [RecursionLimit] {contents : List (TokenKind × String)}
    (h : ∀ content ∈ contents, ∃ text tokens, scan text = .ok tokens
      ∧ content ∈ tokens.map Token.content)
    (spacing other : Spacing (contents.map Prod.snd)) :
    ∃ tokens others, scan spacing.text = .ok tokens ∧ scan other.text = .ok others
      ∧ tokens.map Token.content = contents ∧ others.map Token.content = contents
      ∧ ((∃ tree, Tree.ofText spacing.text = .ok tree ∧ Tree.ofText other.text = .ok tree)
        ∨ ∃ error otherError, Tree.ofText spacing.text = .error (.grammatical error)
          ∧ Tree.ofText other.text = .error (.grammatical otherError)
          ∧ error.state = otherError.state
          ∧ (error.message = otherError.message
            ∨ ∃ token otherToken wording, tokens[error.state.2]? = some token
              ∧ others[error.state.2]? = some otherToken
              ∧ error.message = SyntaxError.location token ++ wording
              ∧ otherError.message = SyntaxError.location otherToken ++ wording)) := by
  obtain ⟨tokens, hscan, htokens⟩ := exists_scan_of_spacing h spacing
  obtain ⟨others, hother, hothers⟩ := exists_scan_of_spacing h other
  refine ⟨tokens, others, hscan, hother, htokens, hothers, ?_⟩
  simp only [Tree.ofText, hscan, hother]
  have hlike : tokens.Forall₂ Token.Like others :=
    forall₂_like_iff.2 (htokens.trans hothers.symm)
  rcases Tree.ofTokens_like hlike with hsame | herror
  . rw [hsame]
    cases Tree.ofTokens others with
    | ok tree => exact .inl ⟨tree, rfl, rfl⟩
    | error error => exact .inr ⟨error, error, rfl, rfl, rfl, .inl rfl⟩
  . obtain ⟨pos, furthest, token, otherToken, wanted, herror, hother, htoken, hlater, hlike⟩ := herror
    rw [herror, hother]
    refine .inr ⟨_, _, rfl, rfl, rfl, .inr ⟨token, otherToken,
      SyntaxError.wording token wanted, htoken, hlater, ?_, ?_⟩⟩
    . apply SyntaxError.message_eq_append
    . rw [hlike.wording_eq]
      apply SyntaxError.message_eq_append

theorem spacings_have_one_answer_trailing :
    let contents : List (TokenKind × String) := [(.identifier, "p"), (.symbol, "T")]
    let wording := "got unexpected token: 'T', expected: end of input"
    ∃ spacing other : Spacing (contents.map Prod.snd), spacing.text = "p T" ∧ other.text = "p\n\tT "
      ∧ (∀ content ∈ contents, ∃ text tokens, scan text = .ok tokens
        ∧ content ∈ tokens.map Token.content)
      ∧ ∃ error otherError, Tree.ofText "p T" = .error (.grammatical error)
        ∧ Tree.ofText "p\n\tT " = .error (.grammatical otherError)
        ∧ error.state = otherError.state
        ∧ error.message = "1,3-1,3: " ++ wording
        ∧ otherError.message = "2,2-2,2: " ++ wording := by
  intro contents wording
  let spacing : Spacing (contents.map Prod.snd) :=
    ⟨"", [" ", ""], rfl, by decide, by decide, by decide⟩
  let other : Spacing (contents.map Prod.snd) :=
    ⟨"", ["\n\t", " "], rfl, by decide, by decide, by decide⟩
  have hcontents : ∀ content ∈ contents, ∃ text tokens, scan text = .ok tokens
      ∧ content ∈ tokens.map Token.content := by
    intro content hcontent
    exact ⟨"p T", _, rfl, hcontent⟩
  have htext : spacing.text = "p T" := by rfl
  have hotherText : other.text = "p\n\tT " := by rfl
  refine ⟨spacing, other, htext, hotherText, hcontents, ?_⟩
  obtain ⟨tokens, others, hscan, hother, _, _, hanswer⟩ :=
    spacings_have_one_answer hcontents spacing other
  rw [htext, hotherText] at hanswer
  rw [htext] at hscan
  rw [hotherText] at hother
  cases hscan
  cases hother
  rcases hanswer with ⟨_, htree, _⟩ | ⟨error, otherError, herror, hagain, hstate, hmessage⟩
  . cases htree
  . cases herror
    rcases hmessage with hsame | ⟨token, otherToken, rest, htoken, hotherToken, hfirst, hsecond⟩
    . cases hagain
      exact absurd hsame (by decide)
    . cases htoken
      cases hotherToken
      -- The first message is worked out and gives the wording of the second one.
      obtain rfl : wording = rest := String.append_right_inj "1,3-1,3: " |>.1 hfirst
      exact ⟨_, otherError, rfl, hagain, hstate, hfirst, hsecond⟩

end Formulary
