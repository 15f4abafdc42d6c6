import Formulary.Proofs.Token.Place
import Formulary.Proofs.Token.Words

/-!
This module contains what is said about a text that cannot be cut into tokens. The error has the
place of the first misfit. The line that is quoted is there whatever breaks the lines, and it is the
line of the misfit if only line feeds do.
-/

namespace Formulary

/--
The character `c`, which stands between `before` and `after`, is the first one of the text that fits
nowhere.
-/
structure FirstMisfit (text : String) (before : List Char) (c : Char) (after : List Char) : Prop where
  toList_eq : text.toList = before ++ c :: after
  fits : Fits [] before
  misfit : Misfit before c

section

variable {text : String} {before after : List Char} {c : Char}

theorem scan.go_of_fits {seen : List Char} (hfits : Fits seen before)
    (hc : Misfit (seen ++ before) c) (tokens : List Token) (place : Place) (after : List Char) :
    scan.go tokens place (endsInWord seen) (before ++ c :: after)
      =
    .error ((before.foldl Place.advance place).right 1) := by
  induction before generalizing seen tokens place with
  | nil =>
    rw [List.append_nil] at hc
    apply scan.go_of_misfit hc
  | cons d before ih =>
    have hd : ¬ Misfit seen d := by
      have := hfits [] d before rfl
      rw [List.append_nil] at this
      exact this
    have hrest : Fits (seen ++ [d]) before := by
      intro front e rest hbefore
      rw [List.append_assoc]
      apply hfits (d :: front) e rest
      rw [hbefore, List.cons_append]
    obtain ⟨found, hgo⟩ := scan.exists_go_of_not_misfit hd tokens place (before ++ c :: after)
    rw [List.append_cons] at hc
    rw [List.cons_append, hgo, ih hrest hc, List.foldl_cons]

theorem FirstMisfit.isLineBreak_eq_false (h : FirstMisfit text before c after) :
    isLineBreak c = false := by
  apply isLineBreak_of_isBlank h.misfit.isBlank_eq_false

theorem FirstMisfit.count_lt_length_splitLines (h : FirstMisfit text before c after) :
    before.count '\n' < (splitLines text).length := by
  apply Formulary.count_lt_length_splitLines h.toList_eq h.isLineBreak_eq_false

theorem FirstMisfit.scan_eq (h : FirstMisfit text before c after) :
    scan text = .error ⟨placeOf before, (splitLines text)[before.count '\n']?⟩ := by
  have hgo := scan.go_of_fits h.fits h.misfit [] .origin after
  rw [Place.foldl_advance_origin, show endsInWord [] = false from rfl] at hgo
  have hline : ((placeOf before).line - 1).toNat = before.count '\n' := by
    simp only [placeOf]
    omega
  simp only [scan, h.toList_eq, hgo, hline]

theorem exists_firstMisfit_iff :
    (∃ error, scan text = .error error) ↔ ∃ before c after, FirstMisfit text before c after := by
  constructor
  . rintro ⟨error, h⟩
    unfold scan at h
    split at h
    . cases h
    . next hgo =>
      obtain ⟨before, c, after, htext, hfits, hmisfit, _⟩ := scan.go_eq_error hgo
      exact ⟨before, c, after, htext, hfits, hmisfit⟩
  . rintro ⟨before, c, after, h⟩
    exact ⟨_, h.scan_eq⟩

theorem LexError.exists_message {error : LexError} (h : scan text = .error error) :
    ∃ message, error.message = .ok message := by
  obtain ⟨before, c, after, hmisfit⟩ := exists_firstMisfit_iff.1 ⟨error, h⟩
  obtain rfl := Except.error.inj (h.symm.trans hmisfit.scan_eq)
  rw [List.getElem?_eq_getElem hmisfit.count_lt_length_splitLines, LexError.message]
  exact ⟨_, rfl⟩

theorem joinReturns_of_not_mem {cs : List Char} (h : '\r' ∉ cs) : joinReturns cs = cs := by
  induction cs using joinReturns.induct with
  | case1 => rfl
  | case2 => simp at h
  | case3 c cs hreturn ih =>
    rw [List.mem_cons, not_or] at h
    rw [joinReturns.eq_3 _ _ hreturn, ih h.2]

theorem cutAt_congr {isBreak other : Char → Bool} {cs : List Char}
    (h : ∀ c ∈ cs, isBreak c = other c) : cutAt isBreak cs = cutAt other cs := by
  induction cs with
  | nil => rfl
  | cons c cs ih =>
    rw [List.forall_mem_cons] at h
    rw [cutAt, cutAt, h.1, ih h.2]

theorem splitLines_of_feeds (h : ∀ c ∈ text.toList, isLineBreak c = true → c = '\n') :
    splitLines text = (cutAt (· == '\n') text.toList).map String.ofList := by
  have hreturn : '\r' ∉ text.toList := by
    intro hmem
    cases h '\r' hmem rfl
  have hbreak : ∀ c ∈ text.toList, isLineBreak c = (c == '\n') := by
    intro c hc
    rw [Bool.eq_iff_iff, beq_iff_eq]
    constructor
    . apply h c hc
    . rintro rfl
      rfl
  rw [splitLines, joinReturns_of_not_mem hreturn, cutAt_congr hbreak]

end

theorem lexical_error_at_first_misfit (text : String) :
    ((∃ error, scan text = .error error) ↔ ∃ before c after, FirstMisfit text before c after)
      ∧ ∀ before c after, FirstMisfit text before c after →
        ∃ error line, scan text = .error error
          ∧ error.place = ⟨1 + before.count '\n', 1 + (before.rtakeWhile (· != '\n')).length⟩
          ∧ error.place.line ≤ (splitLines text).length
          ∧ error.message = .ok ("cannot tokenize data: " ++ toString error.place.line ++ ","
            ++ toString error.place.column ++ ": \x22" ++ line ++ "\x22")
          ∧ ((∀ d ∈ text.toList, isLineBreak d = true → d = '\n') →
            line.toList = before.rtakeWhile (· != '\n') ++ c :: after.takeWhile (· != '\n')
              ∧ line.toList[(error.place.column - 1).toNat]? = some c) := by
  refine ⟨exists_firstMisfit_iff, ?_⟩
  intro before c after h
  have hlt := h.count_lt_length_splitLines
  refine ⟨_, (splitLines text)[before.count '\n'], h.scan_eq, rfl, ?_, ?_, ?_⟩
  . simp only [placeOf]
    omega
  . simp only [LexError.message, List.getElem?_eq_getElem hlt]
  . intro hfeeds
    have hc : (c == '\n') = false := by
      rw [beq_eq_false_iff_ne]
      rintro rfl
      cases h.isLineBreak_eq_false
    have hline : (splitLines text)[before.count '\n']?
        = some (String.ofList
          (before.rtakeWhile (· != '\n') ++ c :: after.takeWhile (· != '\n'))) := by
      rw [splitLines_of_feeds hfeeds, h.toList_eq, List.getElem?_map]
      have hpiece : (cutAt (· == '\n') (before ++ c :: after))[before.count '\n']? = some _ :=
        getElem?_cutAt hc
      rw [hpiece]
      rfl
    rw [List.getElem?_eq_getElem hlt, Option.some.injEq] at hline
    have hcolumn : ((placeOf before).column - 1).toNat
        = (before.rtakeWhile (· != '\n')).length := by
      simp only [placeOf]
      omega
    rw [hline, String.toList_ofList, hcolumn]
    refine ⟨rfl, ?_⟩
    rw [List.getElem?_append_right (Nat.le_refl _), Nat.sub_self, List.getElem?_cons_zero]

theorem lexical_error_at_digit_after_feeds :
    FirstMisfit "p\n &\n 1q" ['p', '\n', ' ', '&', '\n', ' '] '1' ['q']
      ∧ ∃ error line, scan "p\n &\n 1q" = .error error
        ∧ error.message = .ok ("cannot tokenize data: " ++ "3" ++ "," ++ "2" ++ ": \x22" ++ line
          ++ "\x22")
        ∧ line.toList = [' ', '1', 'q'] := by
  have hfits : Fits [] ['p', '\n', ' ', '&', '\n', ' '] := by
    apply (exists_scan_iff_fits "p\n &\n ").1 ⟨_, rfl⟩
  have hmisfit : FirstMisfit "p\n &\n 1q" ['p', '\n', ' ', '&', '\n', ' '] '1' ['q'] :=
    ⟨rfl, hfits, .inl ⟨by decide, by decide⟩⟩
  refine ⟨hmisfit, ?_⟩
  obtain ⟨error, line, hscan, hplace, _, hmessage, hline⟩ :=
    (lexical_error_at_first_misfit "p\n &\n 1q").2 _ _ _ hmisfit
  rw [hplace] at hmessage
  have hfeeds : ∀ d ∈ "p\n &\n 1q".toList, isLineBreak d = true → d = '\n' := by
    simp [isLineBreak]
  exact ⟨error, line, hscan, hmessage, (hline hfeeds).1⟩

end Formulary
