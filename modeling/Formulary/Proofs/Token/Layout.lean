import Formulary.Text.Name
import Formulary.Token.Scanner
import Formulary.Tree.Spelling

/-!
This module contains the layouts of tokens: the texts in which they stand in their order, with
blanks in between. Words that follow each other need a blank, other tokens may touch.
-/

namespace Formulary

def EndsWord (cs : List Char) : Prop :=
  ∀ c ∈ cs.head?, c.isAlphanum = false

/--
`Layout cs contents`: the characters are a layout of tokens with these kinds and texts.
-/
inductive Layout : List Char → List (TokenKind × String) → Prop where
  | nil : Layout [] []
  | blank {c : Char} {cs : List Char} {contents : List (TokenKind × String)}
      (hc : isBlank c = true) (h : Layout cs contents) :
    Layout (c :: cs) contents
  | sign {c : Char} {cs : List Char} {contents : List (TokenKind × String)}
      (hc : isOperatorChar c = true) (h : Layout cs contents) :
    Layout (c :: cs) ((.symbol, c.toString) :: contents)
  | word {c : Char} {word cs : List Char} {contents : List (TokenKind × String)}
      (hc : c.isAlpha = true) (hword : ∀ d ∈ word, d.isAlphanum = true) (hend : EndsWord cs)
      (h : Layout cs contents) :
    Layout (c :: word ++ cs)
      ((wordKind (String.ofList (c :: word)), String.ofList (c :: word)) :: contents)

theorem EndsWord.nil : EndsWord [] := by
  intro c hc
  cases hc

theorem EndsWord.of_head {c : Char} (h : c.isAlphanum = false) (cs : List Char) :
    EndsWord (c :: cs) := by
  intro d hd
  obtain rfl := Option.some.inj hd
  exact h

theorem endsWord_dropWhile (cs : List Char) : EndsWord (cs.dropWhile Char.isAlphanum) := by
  intro c hc
  have := List.head?_dropWhile_not Char.isAlphanum cs
  rw [Option.mem_def.1 hc] at this
  simpa using this

theorem isName_takeWhile {c : Char} (hc : c.isAlpha = true) (cs : List Char) :
    isName (String.ofList (c :: cs.takeWhile Char.isAlphanum)) = true := by
  rw [isName_eq_true_iff]
  exact ⟨c, _, String.toList_ofList, hc, List.all_eq_true.1 List.all_takeWhile⟩

theorem Layout.append_name {name : String} {cs : List Char} {contents : List (TokenKind × String)}
    (hname : isName name) (hend : EndsWord cs) (h : Layout cs contents) :
    Layout (name.toList ++ cs) ((wordKind name, name) :: contents) := by
  obtain ⟨c, word, htext, hc, hword⟩ := isName_eq_true_iff.1 hname
  have hlayout := Layout.word hc hword hend h
  rw [← htext, String.ofList_toList] at hlayout
  exact hlayout

theorem EndsWord.append {cs rest : List Char} (h : EndsWord cs) (hrest : EndsWord rest) :
    EndsWord (cs ++ rest) := by
  cases cs with
  | nil => exact hrest
  | cons c cs => exact .of_head (h c rfl) _

theorem EndsWord.of_append {cs rest : List Char} (h : EndsWord (cs ++ rest)) : EndsWord cs := by
  cases cs with
  | nil => exact .nil
  | cons c cs => exact h

theorem Layout.append {cs rest : List Char} {contents later : List (TokenKind × String)}
    (h : Layout cs contents) (hend : EndsWord rest) (hrest : Layout rest later) :
    Layout (cs ++ rest) (contents ++ later) := by
  induction h with
  | nil => exact hrest
  | blank hc _ ih => exact .blank hc ih
  | sign hc _ ih => exact .sign hc ih
  | word hc hword hends _ ih =>
    rw [List.append_assoc]
    exact .word hc hword (hends.append hend) ih

theorem isAlphanum_of_isAlpha {c : Char} (h : c.isAlpha = true) : c.isAlphanum = true := by
  simp [Char.isAlphanum, h]

theorem isAlphanum_of_mem_word {c : Char} {word : List Char} (hc : c.isAlpha = true)
    (hword : ∀ d ∈ word, d.isAlphanum = true) : ∀ d ∈ c :: word, d.isAlphanum = true :=
  List.forall_mem_cons.2 ⟨isAlphanum_of_isAlpha hc, hword⟩

theorem isAlphanum_of_mem_name {name : String} (h : isName name = true) :
    ∀ c ∈ name.toList, c.isAlphanum = true := by
  obtain ⟨c, word, htext, hc, hword⟩ := isName_eq_true_iff.1 h
  rw [htext]
  exact isAlphanum_of_mem_word hc hword

theorem toNat_of_isAlpha {c : Char} (h : c.isAlpha = true) :
    (65 ≤ c.toNat ∧ c.toNat ≤ 90) ∨ (97 ≤ c.toNat ∧ c.toNat ≤ 122) := by
  rcases Bool.or_eq_true_iff.1 h with hupper | hlower
  . obtain ⟨hlow, hhigh⟩ := of_decide_eq_true hupper
    exact .inl ⟨UInt32.le_iff_toNat_le.1 hlow, UInt32.le_iff_toNat_le.1 hhigh⟩
  . obtain ⟨hlow, hhigh⟩ := Bool.and_eq_true_iff.1 hlower
    have hlow := UInt32.le_iff_toNat_le.1 (of_decide_eq_true hlow)
    have hhigh := UInt32.le_iff_toNat_le.1 (of_decide_eq_true hhigh)
    exact .inr ⟨hlow, hhigh⟩

theorem toNat_of_isAlphanum {c : Char} (h : c.isAlphanum = true) :
    (48 ≤ c.toNat ∧ c.toNat ≤ 57) ∨ (65 ≤ c.toNat ∧ c.toNat ≤ 90)
      ∨ (97 ≤ c.toNat ∧ c.toNat ≤ 122) := by
  rcases Bool.or_eq_true_iff.1 h with halpha | hdigit
  . exact .inr (toNat_of_isAlpha halpha)
  . exact .inl (Char.isDigit_iff_toNat.1 hdigit)

theorem isAlphanum_of_isBlank {c : Char} (h : isBlank c = true) : c.isAlphanum = false := by
  rw [← Bool.not_eq_true]
  intro hword
  have := toNat_of_isAlphanum hword
  simp only [isBlank, Bool.or_eq_true, Bool.and_eq_true, decide_eq_true_eq, beq_iff_eq] at h
  omega

theorem isBlank_of_isAlphanum {c : Char} (h : c.isAlphanum = true) : isBlank c = false := by
  rw [← Bool.not_eq_true]
  intro hblank
  rw [isAlphanum_of_isBlank hblank] at h
  cases h

theorem isOperatorChar_of_isBlank {c : Char} (h : isBlank c = true) : isOperatorChar c = false := by
  rw [← Bool.not_eq_true]
  intro hsign
  simp only [isOperatorChar, decide_eq_true_eq, List.mem_cons, List.not_mem_nil, or_false] at hsign
  rcases hsign with rfl | rfl | rfl | rfl | rfl | rfl | rfl | rfl <;> cases h

theorem isBlank_of_isOperatorChar {c : Char} (h : isOperatorChar c = true) : isBlank c = false := by
  rw [← Bool.not_eq_true]
  intro hblank
  rw [isOperatorChar_of_isBlank hblank] at h
  cases h

theorem isAlphanum_of_isOperatorChar {c : Char} (h : isOperatorChar c = true) :
    c.isAlphanum = false := by
  simp only [isOperatorChar, decide_eq_true_eq, List.mem_cons, List.not_mem_nil, or_false] at h
  rcases h with rfl | rfl | rfl | rfl | rfl | rfl | rfl | rfl <;> decide

theorem takeWhile_isAlphanum_append {word cs : List Char} (hword : ∀ d ∈ word, d.isAlphanum = true)
    (hend : EndsWord cs) : (word ++ cs).takeWhile Char.isAlphanum = word := by
  rw [List.takeWhile_append_of_pos hword]
  cases cs with
  | nil => simp
  | cons c cs => simp [hend c rfl]

theorem scan.go_of_endsWord {cs : List Char} (h : EndsWord cs) (tokens : List Token) (place : Place)
    (inWord : Bool) : scan.go tokens place inWord cs = scan.go tokens place false cs := by
  cases cs with
  | nil => rfl
  | cons c cs => simp [go, h c rfl]

theorem scan.go_word {word cs : List Char} (hword : ∀ d ∈ word, d.isAlphanum = true)
    (hend : EndsWord cs) (tokens : List Token) (place : Place) :
    scan.go tokens place true (word ++ cs)
      =
    scan.go tokens (word.foldl Place.advance place) false cs := by
  -- Inside of a word only the place moves on.
  induction word generalizing place with
  | nil => apply scan.go_of_endsWord hend
  | cons d word ih =>
    simp only [List.mem_cons, forall_eq_or_imp] at hword
    rw [List.cons_append, go, if_pos hword.1, if_pos rfl, ih hword.2, List.foldl_cons]

theorem scan.go_of_layout {cs : List Char} {contents : List (TokenKind × String)}
    (h : Layout cs contents) (tokens : List Token) (place : Place) :
    ∃ later, scan.go tokens place false cs = .ok (tokens.reverse ++ later)
      ∧ later.map Token.content = contents := by
  induction h generalizing tokens place with
  | nil => exact ⟨[], by simp [go], rfl⟩
  | @blank c cs contents hc h ih =>
    obtain ⟨later, hgo, hlater⟩ := ih tokens (place.advance c)
    refine ⟨later, ?_, hlater⟩
    simp [go, isAlphanum_of_isBlank hc, isOperatorChar_of_isBlank hc, hc, hgo]
  | @sign c cs contents hc h ih =>
    let token : Token := ⟨.symbol, c.toString, some ⟨place.right 1, place.right 1⟩⟩
    obtain ⟨later, hgo, hlater⟩ := ih (token :: tokens) (place.advance c)
    refine ⟨token :: later, ?_, ?_⟩
    . rw [go, if_neg (by simp [isAlphanum_of_isOperatorChar hc]), if_pos hc, hgo]
      simp
    . simp [hlater, Token.content, token]
  | @word c word cs contents hc hword hend h ih =>
    let text := String.ofList (c :: word)
    let span : Span := ⟨place.right 1, place.right (c :: word).length⟩
    let token : Token := ⟨wordKind text, text, some span⟩
    obtain ⟨later, hgo, hlater⟩ := ih (token :: tokens) (word.foldl Place.advance (place.advance c))
    refine ⟨token :: later, ?_, ?_⟩
    . rw [List.cons_append, go, if_pos (isAlphanum_of_isAlpha hc), if_neg Bool.false_ne_true,
        if_pos hc, takeWhile_isAlphanum_append hword hend]
      simp only
      rw [scan.go_word hword hend, hgo]
      simp
    . simp [hlater, Token.content, token, text]

theorem scan_of_layout {text : String} {contents : List (TokenKind × String)}
    (h : Layout text.toList contents) :
    ∃ tokens, scan text = .ok tokens ∧ tokens.map Token.content = contents := by
  obtain ⟨tokens, hgo, htokens⟩ := scan.go_of_layout h [] .origin
  refine ⟨tokens, ?_, htokens⟩
  simp [scan, hgo]

end Formulary
