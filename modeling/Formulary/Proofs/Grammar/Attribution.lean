import Formulary.Proofs.Grammar.Agreement
import Formulary.Proofs.Grammar.Lack

/-!
This module contains what the errors of a formula are put down to. An error names the part that the
innermost construct at its position lacks, or it says that no formula begins, or that the input goes
on after the formula, maybe with the first symbols of an arrow that could stand there.
-/

namespace Formulary

/--
`Continues phrase front rest stub`: the stub, if there is one, is the beginning of an arrow at the
start of `rest`, and the whole arrow could stand behind `front`.
-/
def Continues (phrase : Phrase) (front rest : List Token) (stub : Option Stub) : Prop :=
  ∀ found ∈ stub, 0 < found.read
    ∧ ∃ op ∈ Phrase.biconditional.stubbed, dropSymbols op.spelling rest = .error found
      ∧ ∀ sign, op.Spelled sign → Begins phrase (front ++ sign)

def Continuing (phrase : Phrase) (reader : Reader) : Prop :=
  ∀ tokens reading, reader tokens = .ok reading →
    ∃ front, tokens = front ++ reading.rest ∧ Derives phrase front reading.tree
      ∧ Continues phrase front reading.rest reading.stub

section

variable {op : Operator} {whole part : Phrase} {operand : Reader}

theorem readPair_continuing (hjoins : Joins whole op part part)
    (hop : op ∈ Phrase.biconditional.stubbed) (h : Continuing part operand) :
    Continuing whole (readPair op part operand) := by
  intro tokens reading hread
  unfold readPair at hread
  split at hread
  . cases hread
  . next left hleft =>
    obtain ⟨front, rfl, hfront, hcontinues⟩ := h _ _ hleft
    split at hread
    . next stub hstub =>
      obtain rfl := Except.ok.inj hread
      refine ⟨front, rfl, hjoins.single hfront, ?_⟩
      intro found hfound
      cases hold : left.stub with
      | some old =>
        rw [hold] at hcontinues hfound
        obtain ⟨hpos, other, hother, hdrop, hbegins⟩ := hcontinues found hfound
        exact ⟨hpos, other, hother, hdrop, fun sign hsign => (hbegins sign hsign).single hjoins⟩
      | none =>
        have hfound : found ∈ stub.proper? := by
          rw [hold] at hfound
          exact hfound
        unfold Stub.proper? at hfound
        split at hfound
        . cases hfound
        . next hread =>
          obtain rfl := Option.some.inj hfound
          refine ⟨Nat.pos_of_ne_zero hread, op, hop, hstub, ?_⟩
          intro sign hsign
          have := Begins.join hjoins hsign hfront (.nil part)
          rwa [List.append_nil] at this
    . next rest hrest =>
      obtain ⟨sign, hkind, htext, hsign⟩ := dropSymbols_eq_ok_iff.1 hrest
      have hspelled : op.Spelled sign := ⟨hkind, htext⟩
      split at hread
      . cases hread
      . next right hright =>
        obtain rfl := Except.ok.inj hread
        obtain ⟨body, rfl, hbody, hcontinues⟩ := h _ _ (require_eq_ok_iff.1 hright)
        refine ⟨front ++ sign ++ body, ?_, hjoins.join hspelled hfront hbody, ?_⟩
        . rw [hsign]
          simp
        . intro found hfound
          obtain ⟨hpos, other, hother, hdrop, hbegins⟩ := hcontinues found hfound
          refine ⟨hpos, other, hother, hdrop, ?_⟩
          intro arrow harrow
          rw [List.append_assoc]
          apply Begins.join hjoins hspelled hfront (hbegins arrow harrow)

end

theorem read_continuing [RecursionLimit] : Continuing .biconditional Phrase.biconditional.read := by
  have hdisjunction : Continuing .disjunction Phrase.disjunction.read := by
    intro tokens reading h
    obtain ⟨front, htokens, hfront⟩ := (Phrase.read_attributes .disjunction).derives h
    have hstub := (Phrase.reader_leaves (readNested maxNesting) .disjunction _ _ h).eq_none
    refine ⟨front, htokens, hfront, ?_⟩
    rw [hstub]
    intro found hfound
    cases hfound
  have himplication : Continuing .implication Phrase.implication.read :=
    readPair_continuing joins_implication (by decide) hdisjunction
  exact readPair_continuing joins_biconditional (by decide) himplication

/--
The parenthesis or operator in front of a position awaits an `operand`, and nothing else, and none
begins there.
-/
structure LacksOperand (tokens : List Token) (pos : Nat) (operand : Phrase) : Prop where
  awaits_iff (other : Phrase) : Awaits (tokens.take pos) other ↔ other = operand
  not_begins : ∀ token ∈ tokens[pos]?, ¬ Begins operand [token]

/--
A formula that begins right after an opening parenthesis ends at a position without a closing one.
The parenthesis is still open there.
-/
structure LacksClosing [RecursionLimit] (tokens : List Token) (start pos : Nat) (opening : Token)
    (tree : Tree) : Prop where
  opening_eq : tokens[start]? = some opening
  isSymbol : opening.isSymbol "("
  derives : Derives .biconditional (tokens.extract (start + 1) pos) tree
  attempt_eq : Phrase.biconditional.attempt tokens (start + 1 : Nat) = .ok ⟨some (tree, pos), []⟩
  openAfter_eq : openAfter 0 (tokens.take pos) = openAfter 0 (tokens.take start) + 1
  not_closed : ∀ token ∈ tokens[pos]?, token.isSymbol ")" = false

/--
The tokens from `pos` to `furthest` are the first symbols of an arrow, `wanted` is the symbol that
should come next, and the whole arrow could stand at `pos`.
-/
structure BrokenArrow (tokens : List Token) (pos furthest : Nat) (wanted : String) (arrow : Operator)
    (ahead missing : List String) : Prop where
  mem : arrow ∈ [.implies, .iff]
  spelling_eq : arrow.spelling = ahead ++ wanted :: missing
  ahead_ne_nil : ahead ≠ []
  furthest_eq : furthest = pos + ahead.length
  content_eq : (tokens.extract pos furthest).map Token.content = ahead.map fun text => (.symbol, text)
  not_wanted : ∀ token ∈ tokens[furthest]?, token.isSymbol wanted = false
  viable (sign : List Token) (hsign : arrow.Spelled sign) : Viable (tokens.take pos ++ sign)

def obstacleAt (tokens : List Token) (pos : Nat) : Obstacle :=
  if pos = tokens.length then
    .endOfInput
  else
    .token

/--
The errors that tokens can have, each with what it is put down to.
-/
inductive Attribution [RecursionLimit] (tokens : List Token) : SyntaxError → Prop where
  | operand {pos : Nat} {operand : Phrase} (h : LacksOperand tokens pos operand) :
    Attribution tokens (.incomplete pos pos (.phrase operand) (obstacleAt tokens pos))
  | closing {start pos furthest : Nat} {opening : Token} {tree : Tree}
      (h : LacksClosing tokens start pos opening tree) :
    Attribution tokens (.incomplete pos furthest .closing (obstacleAt tokens pos))
  | nothing (h : ∀ token ∈ tokens.head?, ¬ Begins .biconditional [token]) :
    Attribution tokens (.unexpected 0 0 tokens.head? .literal)
  | trailing {pos : Nat} {tree : Tree} (hlt : pos < tokens.length)
      (hderives : Derives .biconditional (tokens.take pos) tree)
      (hattempt : Phrase.biconditional.attempt tokens 0 = .ok ⟨some (tree, pos), []⟩) :
    Attribution tokens (.unexpected pos pos tokens[pos]? .endOfInput)
  | arrow {pos furthest : Nat} {tree : Tree} {wanted : String} {arrow : Operator}
      {ahead missing : List String} (hlt : pos < tokens.length)
      (hderives : Derives .biconditional (tokens.take pos) tree)
      (hattempt : Phrase.biconditional.attempt tokens 0 = .ok ⟨some (tree, pos), []⟩)
      (h : BrokenArrow tokens pos furthest wanted arrow ahead missing) :
    Attribution tokens (.unexpected pos furthest tokens[furthest]? (.symbol wanted))

section

variable {tokens rest : List Token} {part : Part} {stub : Option Stub} {operand : Phrase}

theorem readCount_append (front rest : List Token) : readCount (front ++ rest) rest = front.length := by
  rw [readCount, List.length_append, Nat.add_sub_cancel]

theorem obstacle_eq (h : rest <:+ tokens) :
    Obstacle.ofTokens rest = obstacleAt tokens (readCount tokens rest) := by
  obtain ⟨front, rfl⟩ := h
  rw [readCount_append, obstacleAt]
  cases rest with
  | nil => simp [Obstacle.ofTokens]
  | cons => simp [Obstacle.ofTokens]

theorem dropSymbol_eq_none_iff {text : String} :
    dropSymbol text tokens = none ↔ ∀ token ∈ tokens.head?, token.isSymbol text = false := by
  cases tokens with
  | nil => simp [dropSymbol]
  | cons => simp [dropSymbol, -Token.isSymbol_iff]

theorem getElem?_readCount (h : rest <:+ tokens) : tokens[readCount tokens rest]? = rest.head? := by
  rw [← List.head?_drop, drop_readCount h]

theorem exists_brokenArrow {front : List Token} {found : Stub}
    (h : Continues .biconditional front rest (some found)) :
    ∃ arrow ahead missing, BrokenArrow (front ++ rest) front.length (front.length + found.read)
      found.wanted arrow ahead missing := by
  obtain ⟨hpos, arrow, harrow, hdrop, hviable⟩ := h found rfl
  obtain ⟨ahead, later, missing, rfl, hlength, hkind, htexts, hnone⟩ := dropSymbols_eq_error hdrop
  refine ⟨arrow, ahead.map Token.text, missing, harrow, htexts.symm, ?_, ?_, ?_, ?_, ?_⟩
  . rw [Ne, List.map_eq_nil_iff, ← List.length_eq_zero_iff]
    omega
  . rw [List.length_map, hlength]
  . rw [List.extract_eq_take_drop, List.drop_left, Nat.add_sub_cancel_left, ← hlength,
      List.take_left, List.map_map]
    apply List.map_congr_left
    intro token htoken
    simp [Token.content, hkind token htoken]
  . rw [← List.append_assoc, ← hlength, ← List.length_append,
      List.getElem?_append_right (Nat.le_refl _), Nat.sub_self, ← List.head?_eq_getElem?]
    apply dropSymbol_eq_none_iff.1 hnone
  . intro sign hsign
    rw [List.take_left]
    apply hviable sign hsign

variable [RecursionLimit]

theorem Lacks.suffix (h : Lacks tokens part rest stub) : rest <:+ tokens := by
  cases h with
  | operand => apply List.suffix_append
  | @closing before body _ opening =>
    refine ⟨before ++ opening :: body, ?_⟩
    simp

theorem Lacks.length_lt (h : Lacks tokens part rest stub) : rest.length < tokens.length := by
  cases h with
  | operand hfront =>
    have := List.length_pos_iff.2 hfront.ne_nil
    rw [List.length_append]
    omega
  | closing =>
    simp only [List.length_append, List.length_cons]
    omega

theorem Lacks.lacksOperand (h : Lacks tokens (.phrase operand) rest stub) :
    stub = none ∧ LacksOperand tokens (readCount tokens rest) operand := by
  cases h with
  | @operand front _ _ hfront hrest =>
    refine ⟨rfl, ?_, ?_⟩
    . intro other
      rw [readCount_append, List.take_left]
      constructor
      . exact fun hother => hother.unique hfront
      . rintro rfl
        exact hfront
    . rw [getElem?_readCount (List.suffix_append front rest)]
      exact hrest

theorem Lacks.lacksClosing (h : Lacks tokens .closing rest stub) :
    ∃ start opening tree, LacksClosing tokens start (readCount tokens rest) opening tree := by
  have hsuffix := h.suffix
  cases h with
  | @closing before body _ opening tree _ hopening hbody hrest =>
    obtain ⟨front, hfront, hderives⟩ := (Phrase.read_attributes .biconditional).derives hbody
    obtain rfl := List.append_cancel_right hfront
    have hnot := getElem?_readCount hsuffix
    have htokens : before ++ opening :: (body ++ rest) = before ++ [opening] ++ (body ++ rest) := by
      simp
    rw [htokens] at hnot ⊢
    have hcount : readCount (before ++ [opening] ++ (body ++ rest)) rest
        = (before ++ [opening]).length + body.length := by
      rw [← List.append_assoc, readCount_append, List.length_append]
    have hstart : before.length + 1 = (before ++ [opening]).length := by simp
    refine ⟨before.length, opening, tree, ?_, hopening, ?_, ?_, ?_, ?_⟩
    . simp
    . rw [hcount, List.extract_eq_take_drop, hstart, List.drop_left, Nat.add_sub_cancel_left,
        List.take_left]
      exact hderives
    . rw [attempt_natCast, hstart, List.drop_left, hbody]
    . rw [hcount, List.take_length_add_append, List.take_left, openAfter_append,
        hderives.openAfter_eq, List.append_assoc, List.take_left, openAfter_append,
        openAfter_opening_cons hopening]
      rfl
    . rw [hnot, ← dropSymbol_eq_none_iff]
      exact hrest

theorem read_eq_mismatch_iff {phrase : Phrase} (h : phrase.read tokens ≠ .error .tooDeep) :
    phrase.read tokens = .error .mismatch ↔ ∀ token ∈ tokens.head?, ¬ Begins phrase [token] := by
  constructor
  . apply not_begins_of_mismatch
  . intro hnone
    have hbegins {front rest more : List Token} (htokens : tokens = front ++ rest)
        (hne : front ≠ []) : ¬ Begins phrase (front ++ more) := by
      cases front with
      | nil => contradiction
      | cons token front =>
        rintro ⟨later, tree, hderives⟩
        apply hnone token (by rw [htokens]; rfl)
        exact ⟨front ++ more ++ later, tree, by simpa using hderives⟩
    have hjustified := phrase.read_justified tokens
    match hread : phrase.read tokens with
    | .ok reading =>
      rw [hread] at hjustified
      obtain ⟨front, htokens, hderives, hreaches⟩ := hjustified
      exact absurd hreaches.begins (hbegins htokens hderives.ne_nil)
    | .error .mismatch => rfl
    | .error (.missing part rest stub) =>
      have hlt := (phrase.read_attributes.lacks hread).length_lt
      rw [hread] at hjustified
      obtain ⟨front, htokens, hreaches⟩ := hjustified
      have hfront : front ≠ [] := by
        rintro rfl
        rw [htokens, List.nil_append] at hlt
        apply Nat.lt_irrefl _ hlt
      exact absurd hreaches.begins (hbegins htokens hfront)
    | .error .tooDeep => contradiction

theorem attribution_of_ofTokens {error : SyntaxError} (h : Tree.ofTokens tokens = .error error)
    (hne : error ≠ .tooDeep) : Attribution tokens error := by
  match hread : Phrase.biconditional.read tokens with
  | .ok reading =>
    have hrest : reading.rest ≠ [] := by
      intro hnil
      rw [Tree.ofTokens_eq_ok_iff.2 ⟨reading.stub, by rw [← hnil]; exact hread⟩] at h
      cases h
    rw [Tree.ofTokens_of_trailing hread hrest] at h
    obtain rfl := Except.error.inj h
    obtain ⟨front, htokens, hderives, hcontinues⟩ := read_continuing _ _ hread
    have hattempt := attempt_natCast .biconditional tokens 0
    rw [List.drop_zero, hread] at hattempt
    have hlt : readCount tokens reading.rest < tokens.length := by
      rw [readCount]
      have := List.length_pos_iff.2 hrest
      have := (suffix_of_read hread).length_le
      omega
    have hcount : readCount tokens reading.rest = front.length := by
      rw [htokens, readCount_append]
    have hfront : tokens.take (readCount tokens reading.rest) = front := by
      rw [hcount, htokens, List.take_left]
    rw [← hfront] at hderives
    cases hstub : reading.stub with
    | none => exact .trailing hlt hderives hattempt
    | some found =>
      rw [hstub] at hcontinues
      obtain ⟨arrow, ahead, missing, harrow⟩ := exists_brokenArrow hcontinues
      rw [← htokens, ← hcount] at harrow
      exact .arrow hlt hderives hattempt harrow
  | .error .mismatch =>
    simp only [Tree.ofTokens, hread] at h
    obtain rfl := Except.error.inj h
    exact .nothing (not_begins_of_mismatch hread)
  | .error (.missing part rest stub) =>
    have hlacks := (Phrase.read_attributes .biconditional).lacks hread
    simp only [Tree.ofTokens, hread, obstacle_eq hlacks.suffix] at h
    obtain rfl := Except.error.inj h
    cases part with
    | phrase operand =>
      obtain ⟨rfl, hoperand⟩ := hlacks.lacksOperand
      exact .operand hoperand
    | closing =>
      obtain ⟨start, opening, tree, hclosing⟩ := hlacks.lacksClosing
      exact .closing hclosing
  | .error .tooDeep =>
    simp only [Tree.ofTokens, hread] at h
    obtain rfl := Except.error.inj h
    contradiction

end

def lackMessage (tokens : List Token) (pos : Nat) (part : Part) : String :=
  "incomplete formula: " ++ ("expected " ++ part.title ++ " ("
    ++ (if pos = tokens.length then "got unexpected end of input" else "got unexpected token") ++ ")")

section

variable {tokens : List Token} {pos furthest : Nat} {arrow : Operator} {wanted : String}
variable {ahead missing : List String}

theorem SyntaxError.message_incomplete (part : Part) :
    (incomplete pos furthest part (obstacleAt tokens pos)).message = lackMessage tokens pos part := by
  unfold obstacleAt lackMessage
  split
  . rfl
  . rfl

theorem unexpectedMessage_inj {found : Option Token} {other : String} :
    unexpectedMessage found wanted = unexpectedMessage found other ↔ wanted = other :=
  String.append_right_inj _

theorem LacksOperand.pos_ne_zero {operand : Phrase} (h : LacksOperand tokens pos operand) :
    pos ≠ 0 := by
  rintro rfl
  apply ((h.awaits_iff operand).2 rfl).ne_nil
  rw [List.take_zero]

theorem LacksClosing.pos_ne_zero [RecursionLimit] {start : Nat} {opening : Token} {tree : Tree}
    (h : LacksClosing tokens start pos opening tree) : pos ≠ 0 := by
  rintro rfl
  apply h.derives.ne_nil
  simp

theorem Derives.pos_ne_zero {phrase : Phrase} {tree : Tree}
    (h : Derives phrase (tokens.take pos) tree) : pos ≠ 0 := by
  rintro rfl
  apply h.ne_nil
  rw [List.take_zero]

theorem BrokenArrow.quote_ne (h : BrokenArrow tokens pos furthest wanted arrow ahead missing) :
    quote wanted ≠ "end of input" := by
  have hquote : ∀ op ∈ Operator.all, ∀ text ∈ op.spelling, quote text ≠ "end of input" := by
    decide
  apply hquote arrow (Operator.mem_all arrow)
  simp [h.spelling_eq]

theorem BrokenArrow.furthest_sub (h : BrokenArrow tokens pos furthest wanted arrow ahead missing) :
    furthest - pos = 1 ∨ furthest - pos = 2 := by
  have hlong : ∀ op ∈ Operator.all, op.spelling.length ≤ 3 := by
    decide
  have hlength := hlong arrow (Operator.mem_all arrow)
  have hpos := List.length_pos_iff.2 h.ahead_ne_nil
  rw [h.spelling_eq, List.length_append, List.length_cons] at hlength
  rw [h.furthest_eq, Nat.add_sub_cancel_left]
  omega

end

theorem syntax_error_attribution [RecursionLimit] {tokens : List Token} {error : SyntaxError}
    {pos furthest : Nat} (hnested : NestedWithin maxNesting tokens)
    (h : Tree.ofTokens tokens = .error error) (hstate : error.state = (pos, furthest)) :
    ((∃ operand, error.message = lackMessage tokens pos (.phrase operand)
          ∧ LacksOperand tokens pos operand ∧ furthest = pos)
        ∨ (error.message = lackMessage tokens pos .closing
          ∧ ∃ start opening tree, LacksClosing tokens start pos opening tree)
        ∨ (error.message = unexpectedMessage tokens.head? "literal" ∧ pos = 0 ∧ furthest = 0)
        ∨ ∃ tree, Phrase.biconditional.attempt tokens 0 = .ok ⟨some (tree, pos), []⟩
          ∧ pos < tokens.length
          ∧ (error.message = unexpectedMessage tokens[furthest]? "end of input" ↔ furthest = pos)
          ∧ (furthest ≠ pos → (furthest - pos = 1 ∨ furthest - pos = 2)
            ∧ ∃ wanted arrow ahead missing,
              error.message = unexpectedMessage tokens[furthest]? (quote wanted)
                ∧ BrokenArrow tokens pos furthest wanted arrow ahead missing))
      ∧ (error.message = unexpectedMessage tokens.head? "literal" ∧ pos = 0 ∧ furthest = 0
        ↔ ∀ token ∈ tokens.head?, ¬ Begins .biconditional [token]) := by
  have hne : error ≠ .tooDeep := by
    rintro rfl
    exact ofTokens_ne_tooDeep hnested h
  have hattribution := attribution_of_ofTokens h hne
  constructor
  . cases hattribution with
    | operand hlacks =>
      obtain ⟨rfl, rfl⟩ := Prod.mk.inj hstate
      exact .inl ⟨_, SyntaxError.message_incomplete _, hlacks, rfl⟩
    | closing hlacks =>
      obtain ⟨rfl, rfl⟩ := Prod.mk.inj hstate
      exact .inr (.inl ⟨SyntaxError.message_incomplete _, _, _, _, hlacks⟩)
    | nothing hnone =>
      obtain ⟨rfl, rfl⟩ := Prod.mk.inj hstate
      exact .inr (.inr (.inl ⟨SyntaxError.message_unexpected _ _ _ _, rfl, rfl⟩))
    | trailing hlt _ hattempt =>
      obtain ⟨rfl, rfl⟩ := Prod.mk.inj hstate
      refine .inr (.inr (.inr ⟨_, hattempt, hlt, ?_, absurd rfl⟩))
      rw [SyntaxError.message_unexpected]
      exact ⟨fun _ => rfl, fun _ => rfl⟩
    | arrow hlt _ hattempt harrow =>
      obtain ⟨rfl, rfl⟩ := Prod.mk.inj hstate
      have hpos := harrow.furthest_sub
      rw [SyntaxError.message_unexpected]
      refine .inr (.inr (.inr ⟨_, hattempt, hlt, ?_, fun _ => ⟨hpos, _, _, _, _, rfl, harrow⟩⟩))
      rw [unexpectedMessage_inj]
      constructor
      . exact fun hquote => absurd hquote harrow.quote_ne
      . intro hend
        omega
  . constructor
    . rintro ⟨_, rfl, rfl⟩
      cases hattribution with
      | operand hlacks =>
        obtain ⟨rfl, _⟩ := Prod.mk.inj hstate
        exact absurd rfl hlacks.pos_ne_zero
      | closing hlacks =>
        obtain ⟨rfl, _⟩ := Prod.mk.inj hstate
        exact absurd rfl hlacks.pos_ne_zero
      | nothing hnone => exact hnone
      | trailing _ hderives =>
        obtain ⟨rfl, _⟩ := Prod.mk.inj hstate
        exact absurd rfl hderives.pos_ne_zero
      | arrow _ hderives =>
        obtain ⟨rfl, _⟩ := Prod.mk.inj hstate
        exact absurd rfl hderives.pos_ne_zero
    . intro hnone
      have hread := (read_eq_mismatch_iff (Phrase.read_ne_tooDeep hnested .biconditional)).2 hnone
      simp only [Tree.ofTokens, hread] at h
      obtain rfl := Except.error.inj h
      obtain ⟨rfl, rfl⟩ := Prod.mk.inj hstate
      exact ⟨SyntaxError.message_unexpected _ _ _ _, rfl, rfl⟩

/--
The conjunction in `( a & )` lacks its second literal, and `a < -` ends within an arrow.
-/
theorem syntax_error_attribution_conjunction_and_arrow :
    let conjunction : List Token := [⟨.symbol, "(", none⟩, ⟨.identifier, "a", none⟩,
      ⟨.symbol, "&", none⟩, ⟨.symbol, ")", none⟩]
    let arrow : List Token := [⟨.identifier, "a", none⟩, ⟨.symbol, "<", none⟩,
      ⟨.symbol, "-", none⟩]
    Tree.ofTokens conjunction = .error (.incomplete 3 3 (.phrase .literal) .token)
      ∧ LacksOperand conjunction 3 .literal
      ∧ Tree.ofTokens arrow = .error (.unexpected 1 3 none (.symbol ">"))
      ∧ ∃ wanted op ahead missing, BrokenArrow arrow 1 3 wanted op ahead missing := by
  intro conjunction arrow
  have hconjunction : Tree.ofTokens conjunction
      = .error (.incomplete 3 3 (.phrase .literal) .token) := by rfl
  have harrow : Tree.ofTokens arrow = .error (.unexpected 1 3 none (.symbol ">")) := by rfl
  refine ⟨hconjunction, ?_, harrow, ?_⟩
  . have hnested : NestedWithin maxNesting conjunction := nestedWithin_iff.2 (by decide)
    obtain ⟨hcases, _⟩ := syntax_error_attribution hnested hconjunction rfl
    rcases hcases with ⟨operand, _, hlacks, _⟩ | ⟨hmessage, _⟩ | ⟨_, hpos, _⟩ | ⟨_, hattempt, _⟩
    . have hawaits : Awaits (conjunction.take 3) .literal :=
        .and [⟨.symbol, "(", none⟩] (.conjunction (.literal (.atom (.identifier rfl))))
          ⟨by decide, rfl⟩
      rw [← (hlacks.awaits_iff _).1 hawaits] at hlacks
      exact hlacks
    . exact absurd hmessage (by decide)
    . cases hpos
    . cases hattempt
  . have hnested : NestedWithin maxNesting arrow := nestedWithin_iff.2 (by decide)
    obtain ⟨hcases, _⟩ := syntax_error_attribution hnested harrow rfl
    rcases hcases with ⟨_, _, _, hend⟩ | ⟨hmessage, _⟩ | ⟨_, hpos, _⟩ | ⟨_, _, _, _, hbroken⟩
    . cases hend
    . exact absurd hmessage (by decide)
    . cases hpos
    . obtain ⟨_, wanted, op, ahead, missing, _, hbroken⟩ := hbroken (by decide)
      exact ⟨wanted, op, ahead, missing, hbroken⟩

end Formulary
