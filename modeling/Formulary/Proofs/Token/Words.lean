import Formulary.Proofs.Token.Place
import Formulary.Proofs.Token.Scan
import Mathlib.Data.List.SplitBy

/-!
This module contains the words of a text, which are the runs of ASCII letters and digits that go on
as far as they can. A text is cut into tokens if it has no character that tokens are not made of and
none of its words starts with a digit; the tokens are then its words and operator characters.
-/

namespace Formulary

/--
The words of a text and the other characters, one by one, in the order of the text.
-/
def pieces (cs : List Char) : List (List Char) :=
  cs.splitBy fun c d => c.isAlphanum && d.isAlphanum

/--
`word` is a word of the text `before ++ word ++ after`: it has letters and digits only, and there is
none next to it.
-/
structure IsWord (before word after : List Char) : Prop where
  ne_nil : word ≠ []
  isAlphanum : ∀ c ∈ word, c.isAlphanum = true
  startsWord : ∀ c ∈ before.getLast?, c.isAlphanum = false
  endsWord : EndsWord after

def symbols : List (List Char) :=
  [['T'], ['F'], ['~'], ['&'], ['|'], ['('], [')'], ['<'], ['>'], ['-']]

def pieceContent? (piece : List Char) : Option (TokenKind × String) :=
  if piece.all isBlank then
    none
  else if piece ∈ symbols then
    some (.symbol, String.ofList piece)
  else
    some (.identifier, String.ofList piece)

section

variable {before word after cs : List Char} {c : Char}

theorem pieces_of_isWord (h : IsWord before word after) :
    pieces (before ++ word ++ after) = pieces before ++ word :: pieces after := by
  have hword : pieces word = [word] := by
    apply List.splitBy_of_isChain h.ne_nil
    apply List.Pairwise.isChain
    apply List.pairwise_of_forall_mem_list
    intro c hc d hd
    simp [h.isAlphanum c hc, h.isAlphanum d hd]
  have hstart : pieces (before ++ word) = pieces before ++ pieces word := by
    apply List.splitBy_append
    intro c hc d _
    simp [h.startsWord c hc]
  have hend : pieces (before ++ word ++ after) = pieces (before ++ word) ++ pieces after := by
    apply List.splitBy_append
    intro c _ d hd
    simp [h.endsWord d hd]
  rw [hend, hstart, hword, List.append_assoc, List.singleton_append]

theorem pieces_cons (h : c.isAlphanum = false) : pieces (c :: cs) = [c] :: pieces cs := by
  have happend : pieces ([c] ++ cs) = pieces [c] ++ pieces cs := by
    apply List.splitBy_append
    intro d hd e _
    obtain rfl := Option.some.inj hd
    simp [h]
  exact happend

theorem isWord_takeWhile (hbefore : ∀ d ∈ before.getLast?, d.isAlphanum = false)
    (hc : c.isAlphanum = true) :
    IsWord before (c :: cs.takeWhile Char.isAlphanum) (cs.dropWhile Char.isAlphanum) := by
  refine ⟨List.cons_ne_nil _ _, ?_, hbefore, endsWord_dropWhile cs⟩
  rw [List.forall_mem_cons]
  exact ⟨hc, List.all_eq_true.1 List.all_takeWhile⟩

theorem pieceContent?_blank (h : isBlank c = true) : pieceContent? [c] = none := by
  simp [pieceContent?, h]

theorem pieceContent?_sign (h : isOperatorChar c = true) :
    pieceContent? [c] = some (.symbol, c.toString) := by
  have hblank := isBlank_of_isOperatorChar h
  have hsymbol : [c] ∈ symbols := by
    simp only [isOperatorChar, List.mem_cons, List.not_mem_nil, or_false, decide_eq_true_eq] at h
    simp only [symbols, List.mem_cons, List.cons.injEq, and_true, List.not_mem_nil, or_false]
    exact .inr (.inr h)
  simp [pieceContent?, hblank, hsymbol]

theorem eq_of_mem_symbols (hword : ∀ c ∈ word, c.isAlphanum = true) (h : word ∈ symbols) :
    word = ['T'] ∨ word = ['F'] := by
  have hsymbols : ∀ piece ∈ symbols,
      piece = ['T'] ∨ piece = ['F'] ∨ ∃ c ∈ piece, c.isAlphanum = false := by
    simp [symbols]
  rcases hsymbols word h with htrue | hfalse | ⟨c, hc, hsign⟩
  . exact .inl htrue
  . exact .inr hfalse
  . rw [hword c hc] at hsign
    cases hsign

theorem pieceContent?_word (hword : ∀ d ∈ c :: word, d.isAlphanum = true) :
    pieceContent? (c :: word)
      =
    some (wordKind (String.ofList (c :: word)), String.ofList (c :: word)) := by
  have hblank := isBlank_of_isAlphanum (hword c List.mem_cons_self)
  have hsymbol : c :: word ∈ symbols
      ↔ String.ofList (c :: word) = "T" ∨ String.ofList (c :: word) = "F" := by
    rw [← String.toList_inj, ← String.toList_inj, String.toList_ofList]
    constructor
    . apply eq_of_mem_symbols hword
    . rintro (h | h)
      . rw [h]
        decide
      . rw [h]
        decide
  simp only [pieceContent?, List.all_cons, hblank, Bool.false_and, Bool.false_eq_true, ↓reduceIte,
    hsymbol, wordKind]
  split
  . rfl
  . rfl

theorem Placed.content_eq {tokens : List Token} (h : Placed before cs tokens) :
    tokens.map Token.content = (pieces cs).filterMap pieceContent? := by
  induction h with
  | nil => rfl
  | blank hc _ ih =>
    rw [pieces_cons (isAlphanum_of_isBlank hc), List.filterMap_cons_none (pieceContent?_blank hc), ih]
  | @token _ word cs tokens c kind hlexeme hend _ ih =>
    rw [List.map_cons, ih]
    change (kind, String.ofList (c :: word)) :: _ = _
    generalize hcontent : (kind, String.ofList (c :: word)) = content at hlexeme
    cases hlexeme with
    | @sign d hd =>
      have htext := congrArg (String.toList ∘ Prod.snd) hcontent
      simp only [Function.comp_apply, String.toList_ofList, Char.toString_eq_singleton,
        String.toList_singleton] at htext
      rw [htext, List.singleton_append, pieces_cons (isAlphanum_of_isOperatorChar hd),
        List.filterMap_cons_some (pieceContent?_sign hd)]
    | @word name hname =>
      obtain ⟨rfl, rfl⟩ := Prod.mk.inj hcontent
      obtain ⟨d, rest, htext, hd, hrest⟩ := isName_eq_true_iff.1 hname
      rw [String.toList_ofList] at htext
      obtain ⟨rfl, rfl⟩ := List.cons.inj htext
      have hword := isAlphanum_of_mem_word hd hrest
      have hisWord : IsWord [] (c :: word) cs :=
        ⟨List.cons_ne_nil _ _, hword, by simp, hend hname⟩
      have hpieces := pieces_of_isWord hisWord
      rw [List.nil_append] at hpieces
      rw [hpieces, List.filterMap_append, List.filterMap_cons_some (pieceContent?_word hword)]
      rfl

theorem endsInWord_eq_false_iff :
    endsInWord before = false ↔ ∀ c ∈ before.getLast?, c.isAlphanum = false := by
  unfold endsInWord
  cases before.getLast? with
  | none => simp
  | some => simp

theorem fits_iff :
    Fits [] cs ↔
      (∀ c ∈ cs, isBlank c = true ∨ isOperatorChar c = true ∨ c.isAlphanum = true)
        ∧ ∀ before c word after, cs = before ++ c :: word ++ after →
          IsWord before (c :: word) after → c.isDigit = false := by
  constructor
  . intro h
    constructor
    . intro c hc
      obtain ⟨before, after, hcs⟩ := List.append_of_mem hc
      have hfits := h before c after hcs
      simp only [Misfit, not_or, not_and, Bool.not_eq_false] at hfits
      cases hword : c.isAlphanum with
      | true => exact .inr (.inr rfl)
      | false =>
        cases hop : isOperatorChar c with
        | true => exact .inr (.inl rfl)
        | false => exact .inl (hfits.2 hword hop)
    . intro before c word after hcs hword
      have hends := endsInWord_eq_false_iff.2 hword.startsWord
      rw [← Bool.not_eq_true]
      intro hdigit
      apply h before c (word ++ after) _ (.inl ⟨hdigit, hends⟩)
      rw [hcs, List.append_assoc, List.cons_append]
  . rintro ⟨hchars, hwords⟩ before c after hcs (⟨hdigit, hends⟩ | ⟨hword, hop, hblank⟩)
    . have hisWord : IsWord before (c :: after.takeWhile Char.isAlphanum)
          (after.dropWhile Char.isAlphanum) :=
        isWord_takeWhile (endsInWord_eq_false_iff.1 hends) (isAlphanum_of_isDigit hdigit)
      have htext : cs = before ++ c :: after.takeWhile Char.isAlphanum
          ++ after.dropWhile Char.isAlphanum := by
        rw [hcs, List.append_assoc, List.cons_append, List.takeWhile_append_dropWhile]
      rw [hwords _ _ _ _ htext hisWord] at hdigit
      cases hdigit
    . have hc := hchars c (by simp [hcs])
      simp [hword, hop, hblank] at hc

end

theorem exists_scan_iff_fits (text : String) :
    (∃ tokens, scan text = .ok tokens) ↔ Fits [] text.toList := by
  have hgo := scan.go_eq [] .origin [] text.toList
  constructor
  . rintro ⟨tokens, hscan⟩
    rcases hgo with ⟨hfits, _⟩ | ⟨_, _, _, _, _, _, hgo⟩
    . exact hfits
    . unfold scan at hscan
      rw [show endsInWord [] = false from rfl] at hgo
      rw [hgo] at hscan
      cases hscan
  . intro hfits
    rcases hgo with ⟨_, found, hgo⟩ | ⟨before, c, after, htext, _, hmisfit, _⟩
    . refine ⟨found, ?_⟩
      rw [show endsInWord [] = false from rfl] at hgo
      simp only [scan, hgo]
    . exact absurd hmisfit (hfits before c after htext)

theorem content_of_scan {text : String} {tokens : List Token} (h : scan text = .ok tokens) :
    tokens.map Token.content = (pieces text.toList).filterMap pieceContent? :=
  (placed_of_scan h).content_eq

theorem scan_finds_words (text : String) :
    ((∃ tokens, scan text = .ok tokens) ↔
        (∀ c ∈ text.toList, isBlank c = true ∨ c ∈ ['~', '&', '|', '(', ')', '<', '>', '-']
          ∨ c.isAlphanum = true)
          ∧ ∀ before c word after, text.toList = before ++ c :: word ++ after →
            IsWord before (c :: word) after → c.isDigit = false)
      ∧ ∀ tokens, scan text = .ok tokens →
        tokens.map Token.content = (pieces text.toList).filterMap pieceContent? := by
  constructor
  . rw [exists_scan_iff_fits, fits_iff]
    simp only [isOperatorChar, decide_eq_true_eq]
  . intro tokens h
    apply content_of_scan h

theorem scan_finds_words_around_constants :
    (∃ tokens, scan "T1&(TF->T )" = .ok tokens
      ∧ tokens.map Token.content = [(.identifier, "T1"), (.symbol, "&"), (.symbol, "("),
        (.identifier, "TF"), (.symbol, "-"), (.symbol, ">"), (.symbol, "T"), (.symbol, ")")])
      ∧ IsWord ['T', '1', '&', '('] ['T', 'F'] ['-', '>', 'T', ' ', ')'] ∧ 'T'.isDigit = false
      ∧ IsWord ['a', '&'] ['1', 'T'] [] ∧ ¬ ∃ tokens, scan "a&1T" = .ok tokens := by
  have hname : IsWord ['T', '1', '&', '('] ['T', 'F'] ['-', '>', 'T', ' ', ')'] :=
    ⟨by decide, by simp, by simp, by simp [EndsWord]⟩
  have hdigit : IsWord ['a', '&'] ['1', 'T'] [] :=
    ⟨by decide, by simp, by simp, by simp [EndsWord]⟩
  obtain ⟨haccepted, hcontent⟩ := scan_finds_words "T1&(TF->T )"
  obtain ⟨hrefused, _⟩ := scan_finds_words "a&1T"
  have hscan : ∃ tokens, scan "T1&(TF->T )" = .ok tokens := ⟨_, rfl⟩
  obtain ⟨tokens, htokens⟩ := id hscan
  refine ⟨⟨tokens, htokens, hcontent tokens htokens⟩, hname, ?_, hdigit, ?_⟩
  . apply (haccepted.1 hscan).2 _ _ _ _ rfl hname
  . intro h
    have := (hrefused.1 h).2 _ _ _ _ rfl hdigit
    cases this

end Formulary
