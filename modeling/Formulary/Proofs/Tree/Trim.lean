import Formulary.Proofs.Text.Trim
import Formulary.Proofs.Tree.Spacing

/-!
This module contains the independence of formulas from the blanks around them. A text without these
blanks has the same tokens, at other places, and so the same tree or an error of the same kind.
-/

namespace Formulary

namespace Layout

variable {cs front back : List Char} {contents : List (TokenKind × String)}

theorem of_blank_append (hfront : ∀ c ∈ front, isBlank c = true)
    (h : Layout (front ++ cs) contents) : Layout cs contents := by
  induction front with
  | nil => exact h
  | cons c front ih =>
    rw [List.forall_mem_cons] at hfront
    apply ih hfront.2
    generalize hwhole : c :: front ++ cs = whole at h
    cases h with
    | nil => cases hwhole
    | blank _ h =>
      obtain ⟨_, rfl⟩ := List.cons.inj hwhole
      exact h
    | sign hc =>
      obtain ⟨rfl, _⟩ := List.cons.inj hwhole
      rw [isOperatorChar_of_isBlank hfront.1] at hc
      cases hc
    | word hc =>
      obtain ⟨rfl, _⟩ := List.cons.inj hwhole
      have := isAlphanum_of_isAlpha hc
      rw [isAlphanum_of_isBlank hfront.1] at this
      cases this

theorem of_append_blank (hback : ∀ c ∈ back, isBlank c = true)
    (h : Layout (cs ++ back) contents) : Layout cs contents := by
  generalize hwhole : cs ++ back = whole at h
  induction h generalizing cs back with
  | nil =>
    obtain ⟨rfl, _⟩ := List.append_eq_nil_iff.1 hwhole
    exact .nil
  | @blank c rest _ hc _ ih =>
    cases cs with
    | nil =>
      obtain rfl : back = c :: rest := hwhole
      exact ih (List.forall_mem_cons.1 hback).2 rfl
    | cons d cs =>
      obtain ⟨rfl, hrest⟩ := List.cons.inj hwhole
      exact .blank hc (ih hback hrest)
  | @sign c rest _ hc _ ih =>
    cases cs with
    | nil =>
      obtain rfl : back = c :: rest := hwhole
      rw [isOperatorChar_of_isBlank (hback c List.mem_cons_self)] at hc
      cases hc
    | cons d cs =>
      obtain ⟨rfl, hrest⟩ := List.cons.inj hwhole
      exact .sign hc (ih hback hrest)
  | @word c word rest _ hc hword hend _ ih =>
    rcases List.append_eq_append_iff.1 hwhole with ⟨between, hbetween, rfl⟩ | ⟨between, rfl, rfl⟩
    . cases between with
      | nil =>
        rw [List.append_nil] at hbetween
        have hrest : Layout [] _ := ih hback rfl
        have hword := Layout.word hc hword .nil hrest
        rw [List.append_nil, hbetween] at hword
        rw [hbetween]
        exact hword
      | cons d between =>
        -- The word ends with the first blank at the latest.
        have hd := isAlphanum_of_mem_word hc hword d (by simp [hbetween])
        rw [isAlphanum_of_isBlank (hback d List.mem_cons_self)] at hd
        cases hd
    . exact .word hc hword hend.of_append (ih hback rfl)

end Layout

theorem exists_scan_iff_layout {text : String} {contents : List (TokenKind × String)} :
    (∃ tokens, scan text = .ok tokens ∧ tokens.map Token.content = contents)
      ↔
    Layout text.toList contents := by
  constructor
  . rintro ⟨tokens, hscan, rfl⟩
    exact (placed_of_scan hscan).layout
  . apply scan_of_layout

theorem layout_trim_iff {text : String} {contents : List (TokenKind × String)} :
    Layout (trim text).toList contents ↔ Layout text.toList contents := by
  obtain ⟨front, back, htext, hfront, hback, _⟩ := exists_trim text
  rw [htext]
  constructor
  . intro h
    have hends : EndsWord back := fun c hc =>
      isAlphanum_of_isBlank (hback c (List.mem_of_mem_head? hc))
    have hblanks := Layout.nil.blank_append hback
    rw [List.append_nil] at hblanks
    have hbehind := h.append hends hblanks
    rw [List.append_nil] at hbehind
    rw [List.append_assoc]
    exact hbehind.blank_append hfront
  . intro h
    exact (h.of_append_blank hback).of_blank_append hfront

/--
What two texts have in common that differ in nothing but blanks: the tree, or the kind of the error.
-/
inductive Tree.SameKind : Except FormulaError Tree → Except FormulaError Tree → Prop where
  | ok (tree : Tree) : SameKind (.ok tree) (.ok tree)
  | lexical (error other : LexError) : SameKind (.error (.lexical error)) (.error (.lexical other))
  | grammatical (error other : SyntaxError) :
    SameKind (.error (.grammatical error)) (.error (.grammatical other))

theorem Tree.ofText_trim [RecursionLimit] (text : String) :
    SameKind (ofText (trim text)) (ofText text) := by
  unfold ofText
  cases hscan : scan text with
  | error error =>
    cases htrim : scan (trim text) with
    | error other => exact .lexical other error
    | ok tokens =>
      have hlayout := exists_scan_iff_layout.1 ⟨tokens, htrim, rfl⟩
      obtain ⟨others, hok, _⟩ := scan_of_layout (layout_trim_iff.1 hlayout)
      cases hscan.symm.trans hok
  | ok tokens =>
    have hlayout := exists_scan_iff_layout.1 ⟨tokens, hscan, rfl⟩
    obtain ⟨others, htrim, hothers⟩ := scan_of_layout (layout_trim_iff.2 hlayout)
    simp only [htrim]
    rcases ofTokens_like (forall₂_like_iff.2 hothers) with hsame | ⟨_, _, _, _, _, herror, hother, _⟩
    . rw [hsame]
      cases ofTokens tokens with
      | error error => exact .grammatical error error
      | ok tree => exact .ok tree
    . rw [herror, hother]
      exact .grammatical _ _

end Formulary
