import Formulary.Proofs.Token.Layout
import Mathlib.Data.List.Chain

/-!
This module contains the ways to space out the texts of tokens. A spacing puts blanks around the
texts, and something between two words. The texts that can be cut into tokens are the spacings of
these tokens.
-/

namespace Formulary

inductive Lexeme : TokenKind × String → Prop where
  | sign {c : Char} (hc : isOperatorChar c = true) : Lexeme (.symbol, c.toString)
  | word {name : String} (hname : isName name = true) : Lexeme (wordKind name, name)

/--
An identifier has a name for its text, and not that of a constant.
-/
def Token.Named (token : Token) : Prop :=
  token.isIdentifier = true → isName token.text = true ∧ token.text ≠ "T" ∧ token.text ≠ "F"

def Blank (text : String) : Prop :=
  ∀ c ∈ text.toList, isBlank c = true

instance : DecidablePred Blank := fun text =>
  List.decidableBAll (isBlank · = true) text.toList

/--
A choice of blanks in front of `texts` and behind each of them.
-/
structure Spacing (texts : List String) where
  lead : String
  gaps : List String
  length_eq : gaps.length = texts.length
  blank_lead : Blank lead
  blank_gap : ∀ gap ∈ gaps, Blank gap
  separated : (texts.zip gaps).IsChain fun part next =>
    isName part.1 = true → isName next.1 = true → part.2 ≠ ""

def interleave (texts gaps : List String) : List Char :=
  (texts.zip gaps).flatMap fun part => part.1.toList ++ part.2.toList

def Spacing.chars {texts : List String} (spacing : Spacing texts) : List Char :=
  spacing.lead.toList ++ interleave texts spacing.gaps

def Spacing.text {texts : List String} (spacing : Spacing texts) : String :=
  String.ofList spacing.chars

theorem Lexeme.named {token : Token} (h : Lexeme token.content) : token.Named := by
  intro hkind
  rw [Token.isIdentifier_iff] at hkind
  obtain ⟨kind, text, span⟩ := token
  obtain rfl : kind = .identifier := hkind
  generalize hcontent : Token.content ⟨.identifier, text, span⟩ = content at h
  cases h with
  | sign => cases congrArg Prod.fst hcontent
  | @word name hname =>
    obtain ⟨hkind, rfl⟩ := Prod.mk.inj hcontent
    refine ⟨hname, ?_⟩
    unfold wordKind at hkind
    split at hkind
    . cases hkind
    . next hne => exact not_or.1 hne

theorem Blank.endsWord {text : String} (h : Blank text) (hne : text ≠ "") (cs : List Char) :
    EndsWord (text.toList ++ cs) := by
  cases hchars : text.toList with
  | nil => exact absurd (String.toList_eq_nil_iff.1 hchars) hne
  | cons c rest =>
    apply EndsWord.of_head
    apply isAlphanum_of_isBlank (h c _)
    rw [hchars]
    apply List.mem_cons_self

theorem Lexeme.endsWord {content : TokenKind × String} (h : Lexeme content)
    (hname : isName content.2 = false) (cs : List Char) : EndsWord (content.2.toList ++ cs) := by
  cases h with
  | @sign c hc =>
    rw [Char.toString_eq_singleton, String.toList_singleton]
    apply EndsWord.of_head (isAlphanum_of_isOperatorChar hc)
  | word hword =>
    rw [hword] at hname
    cases hname

theorem endsWord_interleave {contents : List (TokenKind × String)} {gaps : List String}
    (hcontents : ∀ content ∈ contents, Lexeme content)
    (hnext : ∀ part ∈ ((contents.map Prod.snd).zip gaps).head?, isName part.1 = false) :
    EndsWord (interleave (contents.map Prod.snd) gaps) := by
  cases contents with
  | nil =>
    intro c hc
    cases hc
  | cons content contents =>
    cases gaps with
    | nil =>
      intro c hc
      cases hc
    | cons gap gaps =>
      rw [interleave, List.map_cons, List.zip_cons_cons, List.flatMap_cons, List.append_assoc]
      apply (hcontents content List.mem_cons_self).endsWord
      apply hnext (content.2, gap) rfl

theorem Lexeme.isBlank_eq_false {content : TokenKind × String} (h : Lexeme content) :
    ∀ c ∈ content.2.toList, isBlank c = false := by
  cases h with
  | @sign c hc =>
    rw [Char.toString_eq_singleton, String.toList_singleton, List.forall_mem_singleton]
    apply isBlank_of_isOperatorChar hc
  | @word name hname =>
    intro c hc
    apply isBlank_of_isAlphanum (isAlphanum_of_mem_name hname c hc)

theorem Lexeme.feed_not_mem {kind : TokenKind} {cs : List Char}
    (h : Lexeme (kind, String.ofList cs)) : '\n' ∉ cs := by
  intro hmem
  have hblank := h.isBlank_eq_false '\n'
  rw [String.toList_ofList] at hblank
  cases hblank hmem

theorem not_endsWord_name {name : String} (hname : isName name = true) (cs : List Char) :
    ¬ EndsWord (name.toList ++ cs) := by
  obtain ⟨c, word, htext, hc, _⟩ := isName_eq_true_iff.1 hname
  intro hends
  have := hends c (by rw [htext]; rfl)
  rw [isAlphanum_of_isAlpha hc] at this
  cases this

namespace Layout

variable {cs : List Char} {contents : List (TokenKind × String)}

theorem blank_append {front : List Char} (hfront : ∀ c ∈ front, isBlank c = true)
    (h : Layout cs contents) : Layout (front ++ cs) contents := by
  induction front with
  | nil => exact h
  | cons c front ih =>
    rw [List.forall_mem_cons] at hfront
    exact .blank hfront.1 (ih hfront.2)

theorem append_blank {gap : String} (hgap : Blank gap) (h : Layout cs contents) :
    Layout (gap.toList ++ cs) contents :=
  h.blank_append hgap

theorem interleave {gaps : List String} (hcontents : ∀ content ∈ contents, Lexeme content)
    (hlength : gaps.length = contents.length) (hgaps : ∀ gap ∈ gaps, Blank gap)
    (hseparated : ((contents.map Prod.snd).zip gaps).IsChain fun part next =>
      isName part.1 = true → isName next.1 = true → part.2 ≠ "") :
    Layout (interleave (contents.map Prod.snd) gaps) contents := by
  induction contents generalizing gaps with
  | nil => exact .nil
  | cons content contents ih =>
    cases gaps with
    | nil => cases hlength
    | cons gap gaps =>
      rw [List.forall_mem_cons] at hcontents hgaps
      rw [List.map_cons, List.zip_cons_cons, List.isChain_cons] at hseparated
      have hrest := ih hcontents.2 (Nat.succ.inj hlength) hgaps.2 hseparated.2
      have hgap := hrest.append_blank hgaps.1
      rw [Formulary.interleave, List.map_cons, List.zip_cons_cons, List.flatMap_cons,
        List.append_assoc]
      cases hcontents.1 with
      | @sign c hc =>
        rw [Char.toString_eq_singleton, String.toList_singleton]
        exact .sign hc hgap
      | @word name hname =>
        apply Layout.append_name hname _ hgap
        by_cases hempty : gap = ""
        . -- Without a gap, the next text is none that the name would run into.
          rw [hempty]
          apply endsWord_interleave hcontents.2
          intro next hnext
          rw [← Bool.not_eq_true]
          intro hword
          apply hseparated.1 next hnext hname hword hempty
        . apply hgaps.1.endsWord hempty

end Layout

theorem Spacing.layout {contents : List (TokenKind × String)}
    (h : ∀ content ∈ contents, Lexeme content) (spacing : Spacing (contents.map Prod.snd)) :
    Layout spacing.text.toList contents := by
  have hlength := spacing.length_eq
  rw [List.length_map] at hlength
  rw [Spacing.text, String.toList_ofList]
  apply Layout.append_blank spacing.blank_lead
  apply Layout.interleave h hlength spacing.blank_gap spacing.separated

theorem isName_sign {c : Char} (hc : isOperatorChar c = true) : isName c.toString = false := by
  rw [← Bool.not_eq_true]
  intro hname
  apply not_endsWord_name hname []
  rw [Char.toString_eq_singleton, String.toList_singleton]
  apply EndsWord.of_head (isAlphanum_of_isOperatorChar hc)

theorem exists_spacing_cons {texts : List String} (spacing : Spacing texts) {text : String}
    (h : isName text = true → EndsWord spacing.chars) :
    ∃ other : Spacing (text :: texts), other.chars = text.toList ++ spacing.chars := by
  -- What stood in front of the first text becomes the gap behind the new one.
  refine ⟨⟨"", spacing.lead :: spacing.gaps, ?_, ?_, ?_, ?_⟩, ?_⟩
  . rw [List.length_cons, spacing.length_eq, List.length_cons]
  . intro c hc
    cases hc
  . exact List.forall_mem_cons.2 ⟨spacing.blank_lead, spacing.blank_gap⟩
  . rw [List.zip_cons_cons, List.isChain_cons]
    refine ⟨?_, spacing.separated⟩
    intro next hnext hname hword hempty
    obtain ⟨parts, hparts⟩ := List.head?_eq_some_iff.1 hnext
    have hends := h hname
    dsimp only at hempty
    rw [Spacing.chars, hempty, interleave, hparts, List.flatMap_cons, List.append_assoc] at hends
    apply not_endsWord_name hword _ hends
  . simp [Spacing.chars, interleave]

end Formulary
