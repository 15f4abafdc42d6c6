import Formulary.Grammar.Formula
import Formulary.Proofs.Grammar.Beginning
import Formulary.Proofs.Grammar.Reader

/-!
This module contains what the answers of readers mean in terms of the grammar. A phrase that has
been read is derived from the tokens in front of its rest, and where reading fails the tokens in
front of the failure are the beginning of a phrase. The levels inherit this from one another.
-/

namespace Formulary

/--
The tokens in `front` and the stub at the start of `rest` begin a phrase, and no more than `limit`
parentheses are open in `front`, those before it included.
-/
structure Reaches (phrase : Phrase) (opened limit : Nat) (front rest : List Token)
    (stub : Option Stub) : Prop where
  deepest_le : deepest opened front ≤ limit
  length_le : stubLength stub ≤ rest.length
  begins : Begins phrase (front ++ rest.take (stubLength stub))

def Justified (phrase : Phrase) (opened limit : Nat) (tokens : List Token) :
    Except Failure Reading → Prop
  | .ok reading =>
    ∃ front, tokens = front ++ reading.rest ∧ Derives phrase front reading.tree
      ∧ Reaches phrase opened limit front reading.rest reading.stub
  | .error .mismatch => opened ≤ limit
  | .error (.missing _ rest stub) =>
    ∃ front, tokens = front ++ rest ∧ Reaches phrase opened limit front rest stub
  | .error .tooDeep =>
    ∃ front later, tokens = front ++ later ∧ Begins phrase front
      ∧ openAfter opened front = limit + 1

section

variable {phrase whole left right part : Phrase} {op : Operator} {opened between limit : Nat}
variable {reader operand inner : Reader}

theorem Reaches.of_derives {front rest : List Token} {tree : Tree} (h : Derives phrase front tree)
    (hdeepest : deepest opened front ≤ limit) : Reaches phrase opened limit front rest none := by
  refine ⟨hdeepest, Nat.zero_le _, ?_⟩
  simpa [stubLength] using h.begins

theorem Reaches.prepend (before : List Token) {front rest : List Token} {stub : Option Stub}
    (hbegins : ∀ tokens, Begins part tokens → Begins whole (before ++ tokens))
    (hopen : openAfter opened before = between)
    (hdeepest : between ≤ limit → deepest opened before ≤ limit)
    (h : Reaches part between limit front rest stub) :
    Reaches whole opened limit (before ++ front) rest stub := by
  refine ⟨?_, h.length_le, ?_⟩
  . have hbetween := Nat.le_trans (le_deepest between front) h.deepest_le
    have hfront := h.deepest_le
    have hbefore := hdeepest hbetween
    rw [deepest_append, hopen]
    omega
  . rw [List.append_assoc]
    apply hbegins _ h.begins

theorem Justified.prepend_error (before : List Token) {tokens : List Token} {failure : Failure}
    (hbegins : ∀ tokens, Begins part tokens → Begins whole (before ++ tokens))
    (hopen : openAfter opened before = between)
    (hdeepest : between ≤ limit → deepest opened before ≤ limit)
    (h : Justified part between limit tokens (.error failure)) :
    Justified whole opened limit (before ++ tokens) (.error failure) := by
  cases failure with
  | mismatch => apply Nat.le_trans (le_deepest opened before) (hdeepest h)
  | missing _ rest stub =>
    obtain ⟨front, htokens, hreaches⟩ := h
    refine ⟨before ++ front, ?_, hreaches.prepend before hbegins hopen hdeepest⟩
    rw [htokens, List.append_assoc]
  | tooDeep =>
    obtain ⟨front, later, htokens, hfront, htooDeep⟩ := h
    refine ⟨before ++ front, later, ?_, hbegins _ hfront, ?_⟩
    . rw [htokens, List.append_assoc]
    . rw [openAfter_append, hopen, htooDeep]

theorem Justified.prepend (before : List Token) {tokens : List Token}
    {outcome : Except Failure Reading} {f : Tree → Tree}
    (hderives : ∀ tokens tree, Derives part tokens tree → Derives whole (before ++ tokens) (f tree))
    (hopen : openAfter opened before = between)
    (hdeepest : between ≤ limit → deepest opened before ≤ limit)
    (h : Justified part between limit tokens outcome) :
    Justified whole opened limit (before ++ tokens) (mapTree f outcome) := by
  have hbegins : ∀ tokens, Begins part tokens → Begins whole (before ++ tokens) := by
    rintro tokens ⟨later, tree, hbegins⟩
    refine ⟨later, f tree, ?_⟩
    rw [List.append_assoc]
    apply hderives _ _ hbegins
  cases outcome with
  | error => apply h.prepend_error before hbegins hopen hdeepest
  | ok reading =>
    obtain ⟨front, htokens, hfront, hreaches⟩ := h
    have hreaches := hreaches.prepend before hbegins hopen hdeepest
    refine ⟨before ++ front, ?_, hderives _ _ hfront, hreaches⟩
    rw [htokens, List.append_assoc]

theorem Justified.join {leftTokens sign tokens : List Token} {leftTree : Tree}
    {outcome : Except Failure Reading} (hjoins : Joins whole op left right)
    (hop : op.Spelled sign) (hleft : Derives left leftTokens leftTree)
    (hdeepest : deepest opened leftTokens ≤ limit)
    (h : Justified right opened limit tokens outcome) :
    Justified whole opened limit (leftTokens ++ (sign ++ tokens))
      (mapTree (.binary op.text leftTree) outcome) := by
  rw [← List.append_assoc]
  apply Justified.prepend _ _ _ _ h
  . intro tokens tree hright
    apply hjoins.join hop hleft hright
  . rw [openAfter_append, hleft.openAfter_eq, openAfter_of_flat hop.flat]
  . intro hopened
    rw [deepest_append, hleft.openAfter_eq, deepest_of_flat hop.flat]
    omega

theorem Justified.single {tokens : List Token} {outcome : Except Failure Reading}
    (hderives : ∀ tokens tree, Derives part tokens tree → Derives whole tokens tree)
    (h : Justified part opened limit tokens outcome) :
    Justified whole opened limit tokens outcome := by
  have := h.prepend [] (f := id) hderives rfl id
  cases outcome with
  | ok => exact this
  | error => exact this

theorem shortens_of_justified (h : ∀ tokens, Justified part opened limit tokens (reader tokens)) :
    Shortens reader := by
  intro tokens reading hread
  have := h tokens
  rw [hread] at this
  obtain ⟨front, rfl, _⟩ := this
  rw [List.length_append]
  omega

theorem require_justified {tokens : List Token}
    (h : Justified part opened limit tokens (reader tokens)) :
    Justified part opened limit tokens (require part reader tokens) := by
  unfold require
  split
  . next hmismatch =>
    rw [hmismatch] at h
    refine ⟨[], rfl, h, Nat.zero_le _, ?_⟩
    simpa [stubLength] using Begins.nil part
  . exact h

theorem dropSymbols_eq_error {texts : List String} {tokens : List Token} {stub : Stub}
    (h : dropSymbols texts tokens = .error stub) :
    ∃ ahead later missing, tokens = ahead ++ later ∧ ahead.length = stub.read
      ∧ (∀ token ∈ ahead, token.kind = .symbol)
      ∧ ahead.map Token.text ++ stub.wanted :: missing = texts
      ∧ dropSymbol stub.wanted later = none := by
  induction texts generalizing tokens stub with
  | nil => simp [dropSymbols] at h
  | cons text texts ih =>
    simp only [dropSymbols] at h
    split at h
    . next hnone =>
      obtain rfl : ⟨0, text⟩ = stub := by simpa using h
      exact ⟨[], tokens, texts, rfl, rfl, by simp, rfl, hnone⟩
    . next rest hrest =>
      obtain ⟨token, htoken, rfl⟩ := dropSymbol_eq_some_iff.1 hrest
      rw [Token.isSymbol_iff] at htoken
      split at h
      . simp at h
      . next later hlater =>
        obtain rfl : ⟨later.read + 1, later.wanted⟩ = stub := by simpa using h
        obtain ⟨ahead, rest, missing, rfl, hlength, hkind, htexts, hnone⟩ := ih hlater
        refine ⟨token :: ahead, rest, missing, rfl, ?_, ?_, ?_, hnone⟩
        . simp [hlength]
        . simp only [List.mem_cons, forall_eq_or_imp]
          exact ⟨htoken.1, hkind⟩
        . simp [htoken.2, htexts]

theorem exists_spelled_of_dropSymbols {tokens : List Token} {stub : Stub}
    (h : dropSymbols op.spelling tokens = .error stub) :
    ∃ ahead later missing, tokens = ahead ++ later ∧ ahead.length = stub.read
      ∧ op.Spelled (ahead ++ missing) := by
  obtain ⟨ahead, later, missing, htokens, hlength, hkind, htexts, _⟩ := dropSymbols_eq_error h
  let signs : List Token := (stub.wanted :: missing).map fun text => ⟨.symbol, text, none⟩
  refine ⟨ahead, later, signs, htokens, hlength, ?_, ?_⟩
  . intro token htoken
    rcases List.mem_append.1 htoken with htoken | htoken
    . apply hkind token htoken
    . obtain ⟨text, _, rfl⟩ := List.mem_map.1 htoken
      rfl
  . simp [signs, Function.comp_def, htexts]

theorem Reaches.of_stub {front rest : List Token} {tree : Tree} {stub : Stub}
    (hjoins : Joins whole op left right) (hleft : Derives left front tree)
    (hsingle : Derives whole front tree) (hdeepest : deepest opened front ≤ limit)
    (h : dropSymbols op.spelling rest = .error stub) :
    Reaches whole opened limit front rest stub.proper? := by
  unfold Stub.proper?
  split
  . exact .of_derives hsingle hdeepest
  . obtain ⟨ahead, later, missing, hrest, hlength, hop⟩ := exists_spelled_of_dropSymbols h
    refine ⟨hdeepest, ?_, ?_⟩
    . simp [stubLength, hrest, hlength]
    . simp only [stubLength, Option.map_some, Option.getD_some, hrest, ← hlength,
        List.take_left']
      apply Begins.stub hjoins hop hleft

theorem readIdentifier_justified (hopened : opened ≤ limit) (tokens : List Token) :
    Justified .identifier opened limit tokens (readIdentifier tokens) := by
  unfold readIdentifier
  split
  . exact hopened
  . next token tokens =>
    split
    . next h =>
      refine ⟨[token], rfl, .identifier h, .of_derives (.identifier h) ?_⟩
      rw [deepest_of_flat (flat_of_identifier h)]
      exact hopened
    . exact hopened

theorem readAtom_justified (hopened : opened ≤ limit)
    (hinner : ∀ tokens, Justified .biconditional (opened + 1) limit tokens (inner tokens))
    (tokens : List Token) : Justified .atom opened limit tokens (readAtom inner tokens) := by
  unfold readAtom
  split
  . exact hopened
  . next token tokens =>
    split
    . next h =>
      rw [Bool.or_eq_true] at h
      refine ⟨[token], rfl, .constant h, .of_derives (.constant h) ?_⟩
      rw [deepest_of_flat (flat_of_constant h)]
      exact hopened
    . split
      . next h =>
        have hderives := Derives.atom (.identifier h)
        refine ⟨[token], rfl, hderives, .of_derives hderives ?_⟩
        rw [deepest_of_flat (flat_of_identifier h)]
        exact hopened
      . split
        . next hopening =>
          have hopen : openAfter opened [token] = opened + 1 := openAfter_opening_cons hopening _ _
          have hbody := require_justified (hinner tokens)
          have hdeepest : opened + 1 ≤ limit → deepest opened [token] ≤ limit := by
            rw [deepest_opening_cons hopening]
            exact id
          split
          . next failure hfailure =>
            rw [hfailure] at hbody
            apply hbody.prepend_error [token] (fun _ h => h.parentheses hopening) hopen hdeepest
          . next body hread =>
            rw [hread] at hbody
            obtain ⟨front, htokens, hfront, hreaches⟩ := hbody
            split
            . refine ⟨token :: front, ?_, ?_⟩
              . rw [htokens, List.cons_append]
              . apply hreaches.prepend [token] (fun _ h => h.parentheses hopening)
                  hopen hdeepest
            . next rest hrest =>
              obtain ⟨closing, hclosing, hbody⟩ := dropSymbol_eq_some_iff.1 hrest
              have hderives := Derives.parentheses hopening hclosing hfront
              refine ⟨token :: front ++ [closing], ?_, hderives, .of_derives hderives ?_⟩
              . simp [htokens, hbody]
              . rw [deepest_parentheses hopening hclosing (hfront.openAfter_eq _)]
                apply hreaches.deepest_le
        . exact hopened

theorem Operator.spelled_not {token : Token} (h : token.isSymbol Operator.not.text) :
    Operator.not.Spelled [token] := by
  rw [Token.isSymbol_iff] at h
  simpa [Operator.Spelled, Operator.spelling, Operator.text] using h

theorem readLiteral_justified (hopened : opened ≤ limit)
    (hinner : ∀ tokens, Justified .biconditional (opened + 1) limit tokens (inner tokens))
    (tokens : List Token) : Justified .literal opened limit tokens (readLiteral inner tokens) := by
  have hatom := readAtom_justified hopened hinner
  unfold readLiteral
  split
  . split
    . exact hopened
    . next rest hrest =>
      obtain ⟨token, htoken, rfl⟩ := dropSymbol_eq_some_iff.1 hrest
      have hop : Operator.not.Spelled [token] := by
        rw [Token.isSymbol_iff] at htoken
        simpa [Operator.Spelled, Operator.spelling, Operator.text] using htoken
      apply (require_justified (hatom rest)).prepend [token]
      . intro tokens tree h
        apply Derives.not hop h
      . apply openAfter_of_flat hop.flat
      . rw [deepest_of_flat hop.flat]
        exact id
  . apply (hatom tokens).single fun _ _ h => .literal h

theorem Justified.operator {tokens rest : List Token} {reading : Reading}
    (hjoins : Joins whole op left right)
    (hoperand : ∀ tokens, Justified right opened limit tokens (operand tokens))
    (hrest : dropSymbols op.spelling reading.rest = .ok rest)
    (h : Justified left opened limit tokens (.ok reading)) :
    Justified whole opened limit tokens
      (mapTree (.binary op.text reading.tree) (require right operand rest)) := by
  obtain ⟨front, htokens, hfront, hreaches⟩ := h
  obtain ⟨sign, hkind, htext, hsign⟩ := dropSymbols_eq_ok_iff.1 hrest
  rw [htokens, hsign]
  apply (require_justified (hoperand rest)).join hjoins ⟨hkind, htext⟩ hfront hreaches.deepest_le

theorem readChain.go_justified (hjoins : Joins whole op whole part)
    (hoperand : ∀ tokens, Justified part opened limit tokens (operand tokens)) {tokens : List Token}
    (bound : List Token) {chain : Reading} (h : Justified whole opened limit tokens (.ok chain)) :
    Justified whole opened limit tokens (readChain.go op part operand bound chain) := by
  induction bound generalizing chain with
  | nil => exact h
  | cons _ bound ih =>
    unfold go
    split
    . exact h
    . next rest hrest =>
      have := h.operator hjoins hoperand hrest
      split
      . next hnext =>
        rw [hnext] at this
        exact this
      . next hnext =>
        rw [hnext] at this
        apply ih this

theorem readChain_justified (hjoins : Joins whole op whole part)
    (hoperand : ∀ tokens, Justified part opened limit tokens (operand tokens))
    (tokens : List Token) :
    Justified whole opened limit tokens (readChain op part operand tokens) := by
  have := (hoperand tokens).single fun _ _ h => hjoins.single h
  unfold readChain
  split
  . next h =>
    rw [h] at this
    exact this
  . next h =>
    rw [h] at this
    apply readChain.go_justified hjoins hoperand _ this

theorem readPair_justified (hjoins : Joins whole op part part)
    (hoperand : ∀ tokens, Justified part opened limit tokens (operand tokens))
    (tokens : List Token) :
    Justified whole opened limit tokens (readPair op part operand tokens) := by
  have hleft := hoperand tokens
  unfold readPair
  split
  . next h =>
    rw [h] at hleft
    apply hleft.single fun _ _ h => hjoins.single h
  . next left h =>
    rw [h] at hleft
    split
    . next stub hstub =>
      obtain ⟨front, htokens, hfront, hreaches⟩ := hleft
      have hsingle := hjoins.single hfront
      refine ⟨front, htokens, hsingle, ?_⟩
      cases hold : left.stub with
      | none => exact .of_stub hjoins hfront hsingle hreaches.deepest_le hstub
      | some old =>
        rw [hold] at hreaches
        exact ⟨hreaches.deepest_le, hreaches.length_le, hreaches.begins.single hjoins⟩
    . next rest hrest =>
      apply hleft.operator hjoins hoperand hrest

end

def Phrase.reader (inner : Reader) : Phrase → Reader
  | identifier => readIdentifier
  | atom => readAtom inner
  | literal => readLiteral inner
  | conjunction => readConjunction inner
  | disjunction => readDisjunction inner
  | implication => readImplication inner
  | biconditional => readBiconditional inner

theorem Phrase.read_eq_reader [RecursionLimit] (phrase : Phrase) :
    phrase.read = phrase.reader (readNested maxNesting) := by
  cases phrase <;> rfl

theorem Phrase.reader_justified {inner : Reader} {opened limit : Nat} (hopened : opened ≤ limit)
    (hinner : ∀ tokens, Justified .biconditional (opened + 1) limit tokens (inner tokens))
    (phrase : Phrase) (tokens : List Token) :
    Justified phrase opened limit tokens (phrase.reader inner tokens) := by
  have hliteral := readLiteral_justified hopened hinner
  have hconjunction := readChain_justified joins_conjunction hliteral
  have hdisjunction := readChain_justified joins_disjunction hconjunction
  have himplication := readPair_justified joins_implication hdisjunction
  cases phrase with
  | identifier => apply readIdentifier_justified hopened
  | atom => apply readAtom_justified hopened hinner
  | literal => apply hliteral
  | conjunction => apply hconjunction
  | disjunction => apply hdisjunction
  | implication => apply himplication
  | biconditional => apply readPair_justified joins_biconditional himplication

theorem readNested_justified {depth opened limit : Nat} (hlimit : opened + depth = limit + 1)
    (tokens : List Token) :
    Justified .biconditional opened limit tokens (readNested depth tokens) := by
  -- Going in one pair of parentheses moves one from `depth` to `opened`.
  induction depth generalizing opened tokens with
  | zero => exact ⟨[], tokens, rfl, .nil _, hlimit⟩
  | succ depth ih =>
    apply Phrase.reader_justified (by omega) (fun tokens => ?_) .biconditional
    apply ih
    omega

theorem Phrase.reader_shortens (phrase : Phrase) (depth : Nat) :
    Shortens (phrase.reader (readNested depth)) := by
  have hlimit : 0 + 1 + depth = depth + 1 := by omega
  apply shortens_of_justified
  apply phrase.reader_justified (Nat.zero_le depth) (readNested_justified hlimit)

theorem Phrase.read_justified [RecursionLimit] (phrase : Phrase) (tokens : List Token) :
    Justified phrase 0 maxNesting tokens (phrase.read tokens) := by
  rw [phrase.read_eq_reader]
  apply Phrase.reader_justified (Nat.zero_le _)
  apply readNested_justified
  omega

end Formulary
