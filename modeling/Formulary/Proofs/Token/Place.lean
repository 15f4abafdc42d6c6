import Formulary.Proofs.Text.Lines
import Formulary.Proofs.Token.Spacing

/-!
This module contains what the places of tokens say about the text. Only line feeds start lines here,
and columns count characters. A token stands at its place and nowhere else, and what no token covers
is blank.
-/

namespace Formulary

/--
The place of the character that stands behind `before`.
-/
def placeOf (before : List Char) : Place :=
  ⟨1 + before.count '\n', 1 + (before.rtakeWhile (· != '\n')).length⟩

def Place.Before (place other : Place) : Prop :=
  place.line < other.line ∨ place.line = other.line ∧ place.column < other.column

/--
`place` is on the line of a token, not in front of its first character nor behind its last one.
-/
def Span.Covers (span : Span) (place : Place) : Prop :=
  (place.line = span.start.line ∧ place.line = span.stop.line)
    ∧ span.start.column ≤ place.column ∧ place.column ≤ span.stop.column

/--
`Placed before cs tokens`: these are the tokens of `cs`, which stands behind `before`, and each has
the place that it has there.
-/
inductive Placed : List Char → List Char → List Token → Prop where
  | nil {before : List Char} : Placed before [] []
  | blank {before cs : List Char} {tokens : List Token} {c : Char} (hc : isBlank c = true)
      (h : Placed (before ++ [c]) cs tokens) :
    Placed before (c :: cs) tokens
  | token {before word cs : List Char} {tokens : List Token} {c : Char} {kind : TokenKind}
      (hlexeme : Lexeme (kind, String.ofList (c :: word)))
      (hend : isName (String.ofList (c :: word)) = true → EndsWord cs)
      (h : Placed (before ++ c :: word) cs tokens) :
    Placed before (c :: word ++ cs)
      (⟨kind, String.ofList (c :: word),
        some ⟨placeOf before, (placeOf before).right word.length⟩⟩ :: tokens)

section

variable {before cs : List Char} {tokens : List Token}

theorem Place.right_zero (place : Place) : place.right 0 = place := by
  simp [right]

theorem Place.right_right (place : Place) (m n : Nat) :
    (place.right m).right n = place.right (m + n) := by
  simp only [right, Place.mk.injEq, true_and]
  omega

theorem placeOf_concat (before : List Char) (c : Char) :
    placeOf (before ++ [c])
      =
    if c = '\n' then
      ⟨(placeOf before).line + 1, 1⟩
    else
      (placeOf before).right 1 := by
  split
  . next hc =>
    simp [placeOf, hc]
    omega
  . next hc => simp [placeOf, Place.right, hc, Int.add_assoc]

theorem Place.foldl_advance_origin (before : List Char) :
    (before.foldl advance origin).right 1 = placeOf before := by
  induction before using List.reverseRecOn with
  | nil => rfl
  | append_singleton before c ih =>
    rw [placeOf_concat, ← ih, List.foldl_append, List.foldl_cons, List.foldl_nil, advance]
    split
    . rfl
    . rfl

theorem placeOf_append {word : List Char} (h : '\n' ∉ word) (before : List Char) :
    placeOf (before ++ word) = (placeOf before).right word.length := by
  induction word using List.reverseRecOn with
  | nil => simp [Place.right]
  | append_singleton word c ih =>
    simp only [List.mem_append, List.mem_singleton, not_or] at h
    rw [← List.append_assoc, placeOf_concat, if_neg fun hc => h.2 hc.symm, ih h.1,
      Place.right_right, List.length_append, List.length_singleton]

theorem Place.right_before_right (place : Place) (n : Nat) :
    (place.right n).Before (place.right (n + 1)) := by
  refine .inr ⟨rfl, ?_⟩
  simp only [right]
  omega

theorem Place.Before.trans {first second third : Place} (h : first.Before second)
    (hnext : second.Before third) : first.Before third := by
  unfold Place.Before at h hnext ⊢
  omega

theorem placeOf_before_append (before : List Char) (c : Char) (cs : List Char) :
    (placeOf before).Before (placeOf (before ++ c :: cs)) := by
  have hstep (before : List Char) (c : Char) :
      (placeOf before).Before (placeOf (before ++ [c])) := by
    rw [placeOf_concat]
    split
    . exact .inl (Int.lt_succ _)
    . exact .inr ⟨rfl, Int.lt_succ _⟩
  induction cs using List.reverseRecOn with
  | nil => apply hstep
  | append_singleton cs d ih =>
    rw [← List.cons_append, ← List.append_assoc]
    apply ih.trans (hstep _ d)

theorem Placed.sign {c : Char} (hc : isOperatorChar c = true)
    (h : Placed (before ++ [c]) cs tokens) :
    Placed before (c :: cs)
      (⟨.symbol, c.toString, some ⟨placeOf before, placeOf before⟩⟩ :: tokens) := by
  have hname := isName_sign hc
  have hlexeme := Lexeme.sign hc
  rw [Char.toString_eq_singleton, String.singleton_eq_ofList] at hname hlexeme ⊢
  have hend : isName (String.ofList [c]) = true → EndsWord cs := by
    intro hword
    rw [hname] at hword
    cases hword
  have htoken := h.token hlexeme hend
  rw [List.length_nil, Place.right_zero] at htoken
  exact htoken

theorem Placed.word {c : Char} (hc : c.isAlpha = true)
    (h : Placed (before ++ c :: cs.takeWhile Char.isAlphanum) (cs.dropWhile Char.isAlphanum)
      tokens) :
    let text := String.ofList (c :: cs.takeWhile Char.isAlphanum)
    let stop := (placeOf before).right (cs.takeWhile Char.isAlphanum).length
    Placed before (c :: cs) (⟨wordKind text, text, some ⟨placeOf before, stop⟩⟩ :: tokens) := by
  have htoken := h.token (.word (isName_takeWhile hc cs)) fun _ => endsWord_dropWhile cs
  rw [List.cons_append, List.takeWhile_append_dropWhile] at htoken
  exact htoken

theorem scan.placed_of_go {found : List Token} {inWord : Bool} (before : List Char)
    (h : scan.go tokens (before.foldl Place.advance .origin) inWord cs = .ok found) :
    ∃ later, found = tokens.reverse ++ later
      ∧ if inWord then
          Placed (before ++ cs.takeWhile Char.isAlphanum) (cs.dropWhile Char.isAlphanum) later
        else
          Placed before cs later := by
  induction cs generalizing tokens before inWord with
  | nil =>
    obtain rfl := Except.ok.inj h
    refine ⟨[], (List.append_nil _).symm, ?_⟩
    split
    . exact .nil
    . exact .nil
  | cons c cs ih =>
    have hadvance : (before.foldl Place.advance .origin).advance c
        = (before ++ [c]).foldl Place.advance .origin := by
      simp
    simp only [go, hadvance] at h
    split at h
    . next hc =>
      split at h
      . next hinWord =>
        -- The token of the word is among those found so far.
        obtain ⟨later, hfound, hplaced⟩ := ih _ h
        refine ⟨later, hfound, ?_⟩
        rw [if_pos rfl] at hplaced
        rw [if_pos hinWord, List.takeWhile_cons_of_pos hc, List.dropWhile_cons_of_pos hc]
        simpa using hplaced
      . next hinWord =>
        split at h
        . next halpha =>
          obtain ⟨later, hfound, hplaced⟩ := ih _ h
          rw [if_pos rfl, List.append_assoc, List.singleton_append] at hplaced
          rw [List.reverse_cons, List.append_assoc, List.singleton_append] at hfound
          refine ⟨_, hfound, ?_⟩
          rw [if_neg hinWord, List.length_cons, Nat.add_comm, ← Place.right_right,
            Place.foldl_advance_origin]
          apply hplaced.word halpha
        . cases h
    . next hc =>
      have hskip (later : List Token) :
          (if inWord then
            Placed (before ++ (c :: cs).takeWhile Char.isAlphanum)
              ((c :: cs).dropWhile Char.isAlphanum) later
          else
            Placed before (c :: cs) later) ↔ Placed before (c :: cs) later := by
        split
        . simp [hc]
        . rfl
      simp only [hskip]
      split at h
      . next hop =>
        obtain ⟨later, hfound, hplaced⟩ := ih _ h
        rw [List.reverse_cons, List.append_assoc, List.singleton_append] at hfound
        refine ⟨_, hfound, ?_⟩
        rw [Place.foldl_advance_origin]
        apply Placed.sign hop hplaced
      . split at h
        . next hblank =>
          obtain ⟨later, hfound, hplaced⟩ := ih _ h
          exact ⟨later, hfound, .blank hblank hplaced⟩
        . cases h

theorem placed_of_scan {text : String} (h : scan text = .ok tokens) :
    Placed [] text.toList tokens := by
  unfold scan at h
  split at h
  . next hgo =>
    obtain rfl := Except.ok.inj h
    obtain ⟨later, hlater, hplaced⟩ := scan.placed_of_go [] hgo
    rw [hlater]
    exact hplaced
  . cases h

namespace Placed

theorem exists_spacing (h : Placed before cs tokens) :
    ∃ spacing : Spacing (tokens.map Token.text), spacing.chars = cs := by
  induction h with
  | nil => exact ⟨⟨"", [], rfl, by simp [Blank], by simp, by simp⟩, rfl⟩
  | @blank _ _ _ c hc _ ih =>
    obtain ⟨spacing, rfl⟩ := ih
    refine ⟨{ spacing with
      lead := String.ofList (c :: spacing.lead.toList), blank_lead := ?_ }, ?_⟩
    . rw [Blank, String.toList_ofList, List.forall_mem_cons]
      exact ⟨hc, spacing.blank_lead⟩
    . simp [Spacing.chars]
  | token _ hend _ ih =>
    obtain ⟨spacing, rfl⟩ := ih
    obtain ⟨other, hother⟩ := exists_spacing_cons spacing hend
    rw [String.toList_ofList] at hother
    exact ⟨other, hother⟩

theorem layout (h : Placed before cs tokens) : Layout cs (tokens.map Token.content) := by
  induction h with
  | nil => exact .nil
  | blank hc _ ih => exact .blank hc ih
  | @token before word cs tokens c kind hlexeme hend _ ih =>
    generalize hname : String.ofList (c :: word) = name at hlexeme hend
    rw [← String.toList_ofList (l := c :: word), hname]
    cases hlexeme with
    | sign hc =>
      rw [Char.toString_eq_singleton, String.toList_singleton]
      exact .sign hc ih
    | word hword => exact ih.append_name hword (hend hword)

theorem lexeme (h : Placed before cs tokens) : ∀ token ∈ tokens, Lexeme token.content := by
  induction h with
  | nil => simp
  | blank _ _ ih => exact ih
  | token hlexeme _ _ ih => exact List.forall_mem_cons.2 ⟨hlexeme, ih⟩

theorem exists_stretch (h : Placed before cs tokens) :
    ∀ token ∈ tokens, ∃ front c word after, before ++ cs = front ++ c :: word ++ after
      ∧ before <+: front ∧ '\n' ∉ c :: word ∧ token.text = String.ofList (c :: word)
      ∧ token.span = some ⟨placeOf front, (placeOf front).right word.length⟩ := by
  induction h with
  | nil => simp
  | @blank before cs tokens c _ _ ih =>
    intro token htoken
    obtain ⟨front, d, word, after, hchars, hfront, hfeed, htext, hspan⟩ := ih token htoken
    refine ⟨front, d, word, after, ?_, ?_, hfeed, htext, hspan⟩
    . rw [List.append_cons]
      exact hchars
    . apply (List.prefix_append before [c]).trans hfront
  | @token before word cs tokens c kind hlexeme _ _ ih =>
    rw [List.forall_mem_cons]
    refine ⟨⟨before, c, word, cs, by simp, List.prefix_rfl, hlexeme.feed_not_mem, rfl, rfl⟩, ?_⟩
    intro token htoken
    obtain ⟨front, d, other, after, hchars, hfront, hfeed, htext, hspan⟩ := ih token htoken
    refine ⟨front, d, other, after, ?_, ?_, hfeed, htext, hspan⟩
    . rw [← List.append_assoc]
      exact hchars
    . apply (List.prefix_append before _).trans hfront

theorem pairwise_before (h : Placed before cs tokens) :
    tokens.Pairwise fun token later =>
      ∀ span ∈ token.span, ∀ next ∈ later.span, span.stop.Before next.start := by
  induction h with
  | nil => exact .nil
  | blank _ _ ih => exact ih
  | @token before word cs tokens c kind hlexeme _ hrest ih =>
    refine List.pairwise_cons.2 ⟨?_, ih⟩
    intro later hlater span hspan next hnext
    obtain rfl := Option.some.inj hspan
    obtain ⟨_, _, _, _, _, ⟨between, rfl⟩, _, _, hstart⟩ := hrest.exists_stretch later hlater
    obtain rfl := Option.some.inj (hnext.symm.trans hstart)
    have hstop : ((placeOf before).right word.length).Before (placeOf (before ++ c :: word)) := by
      rw [placeOf_append hlexeme.feed_not_mem, List.length_cons]
      apply Place.right_before_right
    cases between with
    | nil =>
      rw [List.append_nil]
      exact hstop
    | cons d between => apply hstop.trans (placeOf_before_append _ d between)

theorem exists_covers (h : Placed before cs tokens) {front after : List Char} {c : Char}
    (hcs : cs = front ++ c :: after) (hc : isBlank c = false) :
    ∃ token ∈ tokens, ∃ span ∈ token.span, span.Covers (placeOf (before ++ front)) := by
  induction h generalizing front with
  | nil => simp at hcs
  | @blank before cs tokens d hd _ ih =>
    cases front with
    | nil =>
      obtain ⟨rfl, _⟩ := List.cons.inj hcs
      rw [hd] at hc
      cases hc
    | cons e front =>
      obtain ⟨rfl, hrest⟩ := List.cons.inj hcs
      rw [List.append_cons]
      apply ih hrest
  | @token before word cs tokens d kind hlexeme _ _ ih =>
    have hlater (front : List Char) (hcs : cs = front ++ c :: after) :
        ∃ token ∈ tokens, ∃ span ∈ token.span,
          span.Covers (placeOf (before ++ (d :: word ++ front))) := by
      rw [← List.append_assoc]
      apply ih hcs
    have hfeed := hlexeme.feed_not_mem
    rcases List.append_eq_append_iff.1 hcs with ⟨between, rfl, hrest⟩ | ⟨rest, hword, hrest⟩
    . obtain ⟨token, htoken, hspan⟩ := hlater _ hrest
      exact ⟨token, List.mem_cons_of_mem _ htoken, hspan⟩
    . cases rest with
      | nil =>
        rw [List.append_nil] at hword
        obtain ⟨token, htoken, hspan⟩ := hlater [] hrest.symm
        rw [List.append_nil, hword] at hspan
        exact ⟨token, List.mem_cons_of_mem _ htoken, hspan⟩
      | cons e rest =>
        refine ⟨_, List.mem_cons_self, _, rfl, ?_⟩
        rw [hword, List.mem_append, not_or] at hfeed
        have hlength := congrArg List.length hword
        rw [List.length_cons, List.length_append, List.length_cons] at hlength
        rw [placeOf_append hfeed.1]
        simp only [Span.Covers, Place.right, true_and]
        omega

end Placed

end

theorem named_of_scan {text : String} {tokens : List Token} (h : scan text = .ok tokens) :
    ∀ token ∈ tokens, token.Named :=
  fun token htoken => ((placed_of_scan h).lexeme token htoken).named

theorem exists_line_of_stretch {word : List Char} {c : Char} (h : '\n' ∉ c :: word)
    (front after : List Char) :
    ∃ line, (cutAt (· == '\n') (front ++ c :: word ++ after))[front.count '\n']? = some line
      ∧ line.extract (front.rtakeWhile (· != '\n')).length
          ((front.rtakeWhile (· != '\n')).length + (c :: word).length)
        = c :: word := by
  simp only [List.mem_cons, not_or] at h
  have hc : (c == '\n') = false := by simp [Ne.symm h.1]
  have hword : ∀ d ∈ word, (!(d == '\n')) = true := by
    intro d hd
    rw [Bool.not_eq_true', beq_eq_false_iff_ne]
    rintro rfl
    exact h.2 hd
  have hline : (cutAt (· == '\n') (front ++ c :: (word ++ after)))[front.count '\n']? = some _ :=
    getElem?_cutAt hc
  rw [List.takeWhile_append_of_pos hword, ← List.cons_append, ← List.append_assoc] at hline
  refine ⟨_, hline, ?_⟩
  rw [List.extract_eq_take_drop, Nat.add_sub_cancel_left]
  simp [bne]

theorem places_pin_down_text {text : String} {tokens : List Token} (h : scan text = .ok tokens) :
    (∀ token ∈ tokens, ∃ line first last : Nat, token.span = some ⟨⟨line, first⟩, ⟨line, last⟩⟩
        ∧ 1 ≤ line ∧ 1 ≤ first ∧ first ≤ last ∧ last - first + 1 = token.text.length
        ∧ ∃ chars, (cutAt (· == '\n') text.toList)[line - 1]? = some chars
          ∧ chars.extract (first - 1) last = token.text.toList)
      ∧ (tokens.Pairwise fun token later =>
        ∀ span ∈ token.span, ∀ next ∈ later.span, span.stop.Before next.start)
      ∧ (∀ before c after, text.toList = before ++ c :: after → isBlank c = false →
        ∃ token ∈ tokens, ∃ span ∈ token.span, span.Covers (placeOf before))
      ∧ ∃ spacing : Spacing (tokens.map Token.text), spacing.text = text := by
  have hplaced := placed_of_scan h
  refine ⟨?_, hplaced.pairwise_before, fun _ _ _ => hplaced.exists_covers, ?_⟩
  . intro token htoken
    obtain ⟨front, c, word, after, hchars, _, hfeed, htext, hspan⟩ :=
      hplaced.exists_stretch token htoken
    obtain ⟨line, hline, hextract⟩ := exists_line_of_stretch hfeed front after
    rw [List.nil_append] at hchars
    rw [← hchars] at hline
    let column := 1 + (front.rtakeWhile (· != '\n')).length
    refine ⟨1 + front.count '\n', column, column + word.length, hspan, ?_, ?_, ?_, ?_, line, ?_, ?_⟩
    . apply Nat.le_add_right
    . apply Nat.le_add_right
    . apply Nat.le_add_right
    . rw [Nat.add_sub_cancel_left, htext, String.length_ofList, List.length_cons]
    . rw [Nat.add_sub_cancel_left]
      exact hline
    . have hlast : column + word.length
          = (front.rtakeWhile (· != '\n')).length + (c :: word).length := by
        rw [List.length_cons]
        omega
      rw [htext, String.toList_ofList, Nat.add_sub_cancel_left, hlast]
      exact hextract
  . obtain ⟨spacing, hspacing⟩ := hplaced.exists_spacing
    refine ⟨spacing, ?_⟩
    rw [Spacing.text, hspacing, String.ofList_toList]

theorem places_pin_down_text_across_lines :
    let tokens : List Token := [⟨.identifier, "p", some ⟨⟨1, 1⟩, ⟨1, 1⟩⟩⟩,
      ⟨.symbol, "&", some ⟨⟨3, 3⟩, ⟨3, 3⟩⟩⟩, ⟨.identifier, "q1", some ⟨⟨3, 4⟩, ⟨3, 5⟩⟩⟩]
    let line := ['\t', ' ', '&', 'q', '1']
    scan "p\n \n\t &q1" = .ok tokens
      ∧ (cutAt (· == '\n') "p\n \n\t &q1".toList)[2]? = some line
      ∧ line.extract 3 5 = ['q', '1']
      ∧ ∃ spacing : Spacing (tokens.map Token.text), spacing.text = "p\n \n\t &q1" := by
  intro tokens line
  have hscan : scan "p\n \n\t &q1" = .ok tokens := by rfl
  have hlast : ⟨.identifier, "q1", some ⟨⟨3, 4⟩, ⟨3, 5⟩⟩⟩ ∈ tokens := by simp [tokens]
  obtain ⟨hplaces, _, _, hspacing⟩ := places_pin_down_text hscan
  obtain ⟨_, _, _, hspan, _, _, _, _, chars, hchars, hextract⟩ := hplaces _ hlast
  cases hspan
  obtain rfl : line = chars := Option.some.inj hchars
  exact ⟨hscan, hchars, hextract, hspacing⟩

end Formulary
