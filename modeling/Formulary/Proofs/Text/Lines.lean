import Formulary.Text.Blank
import Formulary.Text.Lines
import Mathlib.Data.List.DropRight

/-!
This module contains what the lines of a text are to the text. The breaks in front of a character
count the lines in front of its own, also where other line breaks than line feeds stand between them,
and the lines of input make up the whole input, one after the other.
-/

namespace Formulary

section

variable {isBreak : Char → Bool} {before after : List Char} {c : Char}

theorem rtakeWhile_cons (p : Char → Bool) (c : Char) (cs : List Char) :
    (c :: cs).rtakeWhile p
      =
    if (c :: cs).all p then
      c :: cs
    else
      cs.rtakeWhile p := by
  split
  . next h =>
    rw [List.rtakeWhile_eq_self_iff]
    apply List.all_eq_true.1 h
  . next h =>
    rw [List.rtakeWhile, List.rtakeWhile, List.reverse_cons, List.takeWhile_append]
    split
    . next hlength =>
      have hall := (List.takeWhile_prefix p).eq_of_length hlength
      rw [List.takeWhile_eq_self_iff] at hall
      have hc : p c = false := by
        rw [← Bool.not_eq_true]
        intro hc
        apply h
        rw [List.all_eq_true, List.forall_mem_cons]
        exact ⟨hc, fun d hd => hall d (List.mem_reverse.2 hd)⟩
      simp [hc, List.takeWhile_eq_self_iff.2 hall]
    . rfl

theorem head?_cutAt (cs : List Char) :
    (cutAt isBreak cs).head?.getD [] = cs.takeWhile (!isBreak ·) := by
  induction cs with
  | nil => rfl
  | cons c cs ih =>
    rw [cutAt, List.takeWhile_cons]
    cases hc : isBreak c with
    | true => simp
    | false =>
      rw [← ih]
      cases cutAt isBreak cs with
      | nil => simp
      | cons => simp

theorem getElem?_cutAt (hc : isBreak c = false) :
    (cutAt isBreak (before ++ c :: after))[before.countP isBreak]?
      =
    some (before.rtakeWhile (!isBreak ·) ++ c :: after.takeWhile (!isBreak ·)) := by
  induction before with
  | nil =>
    rw [List.nil_append, cutAt, if_neg (by simp [hc]), ← head?_cutAt]
    cases cutAt isBreak after with
    | nil => rfl
    | cons => rfl
  | cons d before ih =>
    rw [List.cons_append, cutAt, List.countP_cons, rtakeWhile_cons]
    cases hd : isBreak d with
    | true => simp [ih, hd]
    | false =>
      simp only [Bool.false_eq_true, ↓reduceIte, Nat.add_zero]
      cases hpieces : cutAt isBreak (before ++ c :: after) with
      | nil => simp [hpieces] at ih
      | cons piece pieces =>
        rw [hpieces] at ih
        have hall : (d :: before).all (!isBreak ·) = before.all (!isBreak ·) := by simp [hd]
        rw [hall]
        cases hbefore : before.all (!isBreak ·) with
        | true =>
          -- The first piece is still going on, so that `d` belongs to it.
          rw [List.all_eq_true] at hbefore
          have hcount : before.countP isBreak = 0 := by
            simpa [List.countP_eq_zero] using hbefore
          rw [hcount, List.rtakeWhile_eq_self_iff.2 hbefore, List.getElem?_cons_zero,
            Option.some.injEq] at ih
          rw [if_pos rfl, hcount, ih]
          rfl
        | false =>
          have hcount : 0 < before.countP isBreak := by
            rw [List.countP_pos_iff]
            simpa using hbefore
          obtain ⟨n, hn⟩ := Nat.exists_eq_add_of_lt hcount
          rw [hn] at ih
          rw [if_neg Bool.false_ne_true, hn]
          exact ih

end

section

variable {before after : List Char} {c : Char}

theorem countP_lt_length_cutAt {isBreak : Char → Bool} (hc : isBreak c = false) :
    before.countP isBreak < (cutAt isBreak (before ++ c :: after)).length := by
  obtain ⟨hlt, _⟩ := List.getElem?_eq_some_iff.1 (getElem?_cutAt hc)
  exact hlt

theorem joinReturns_append (hc : c ≠ '\n') :
    joinReturns (before ++ c :: after) = joinReturns before ++ joinReturns (c :: after) := by
  induction before using joinReturns.induct with
  | case1 => rfl
  | case2 before ih => simp only [List.cons_append, joinReturns, ih]
  | case3 d before hreturn ih =>
    have hlonger : ∀ cs, d = '\r' → before ++ c :: after = '\n' :: cs → False := by
      intro cs hd hcs
      cases before with
      | nil => exact hc (List.cons.inj hcs).1
      | cons e before =>
        obtain rfl := (List.cons.inj hcs).1
        exact hreturn before hd rfl
    rw [List.cons_append, joinReturns.eq_3 _ _ hlonger, joinReturns.eq_3 _ _ hreturn, ih,
      List.cons_append]

theorem count_joinReturns (cs : List Char) : (joinReturns cs).count '\n' = cs.count '\n' := by
  induction cs using joinReturns.induct with
  | case1 => rfl
  | case2 cs ih => simp [joinReturns, ih]
  | case3 d cs hreturn ih => rw [joinReturns.eq_3 _ _ hreturn, List.count_cons, List.count_cons, ih]

theorem count_lt_length_splitLines {text : String} (htext : text.toList = before ++ c :: after)
    (hc : isLineBreak c = false) : before.count '\n' < (splitLines text).length := by
  have hfeed : c ≠ '\n' := by
    rintro rfl
    cases hc
  have hreturn : c ≠ '\r' := by
    rintro rfl
    cases hc
  have hcount : before.count '\n' ≤ (joinReturns before).countP isLineBreak := by
    rw [← count_joinReturns, List.count]
    apply List.countP_mono_left
    intro d _ hd
    rw [eq_of_beq hd]
    rfl
  rw [splitLines, List.length_map, htext, joinReturns_append hfeed,
    joinReturns.eq_3 _ _ fun _ h _ => hreturn h]
  apply Nat.lt_of_le_of_lt hcount (countP_lt_length_cutAt hc)

theorem isLineBreak_of_isBlank (h : isBlank c = false) : isLineBreak c = false := by
  simp only [isBlank, Bool.or_eq_false_iff, Bool.and_eq_false_iff, decide_eq_false_iff_not,
    beq_eq_false_iff_ne] at h
  simp only [isLineBreak, Bool.or_eq_false_iff, Bool.and_eq_false_iff, decide_eq_false_iff_not,
    beq_eq_false_iff_ne]
  omega

end

def IsLine (text : String) : Prop :=
  '\n' ∉ text.toList

instance : DecidablePred IsLine := fun text => inferInstanceAs (Decidable ('\n' ∉ text.toList))

def closeLines (lines : List String) : List Char :=
  lines.flatMap fun line => line.toList ++ ['\n']

/--
The input with a line feed for every line break that input knows, and one for the end of a last line
that has none.
-/
def unifiedInput (text : String) : List Char :=
  let unified := (joinReturns text.toList).map fun c => if c = '\r' then '\n' else c
  if unified.getLast?.all (· = '\n') then
    unified
  else
    unified ++ ['\n']

theorem isLine_append_iff {text other : String} :
    IsLine (text ++ other) ↔ IsLine text ∧ IsLine other := by
  simp [IsLine]

theorem closeLines_cons (line : String) (lines : List String) :
    closeLines (line :: lines) = line.toList ++ '\n' :: closeLines lines := by
  rw [closeLines, List.flatMap_cons, List.append_assoc]
  rfl

theorem ofList_closeLines_singleton (line : String) :
    String.ofList (closeLines [line]) = line ++ "\n" := by
  rw [← String.toList_inj, String.toList_ofList, closeLines_cons, String.toList_append]
  rfl

theorem cutAt_eq_nil_iff {isBreak : Char → Bool} {cs : List Char} :
    cutAt isBreak cs = [] ↔ cs = [] := by
  cases cs with
  | nil => simp [cutAt]
  | cons c cs =>
    simp only [cutAt]
    split
    . simp
    . split
      . simp
      . simp

theorem flatMap_cutAt (cs : List Char) :
    (cutAt (· == '\n') cs).flatMap (· ++ ['\n'])
      =
    if cs.getLast?.all (· = '\n') then
      cs
    else
      cs ++ ['\n'] := by
  induction cs with
  | nil => rfl
  | cons c cs ih =>
    cases cs with
    | nil =>
      by_cases hc : c = '\n'
      . simp [cutAt, hc]
      . simp [cutAt, hc]
    | cons d cs =>
      have hlast : (c :: d :: cs).getLast? = (d :: cs).getLast? := List.getLast?_cons_cons
      have hpieces : cutAt (· == '\n') (d :: cs) ≠ [] := by simp [cutAt_eq_nil_iff]
      rw [hlast, cutAt]
      split
      . next hc =>
        obtain rfl := eq_of_beq hc
        rw [List.flatMap_cons, ih]
        split
        . rfl
        . rfl
      . split
        . next hnil => exact absurd hnil hpieces
        . next hcons =>
          rw [hcons, List.flatMap_cons] at ih
          rw [List.flatMap_cons, List.cons_append, List.cons_append, ih]
          split
          . rfl
          . rfl

theorem closeLines_inputLines (text : String) : closeLines (inputLines text) = unifiedInput text := by
  rw [closeLines, inputLines, List.flatMap_map]
  simp only [String.toList_ofList]
  apply flatMap_cutAt

theorem isLine_of_mem_inputLines {text line : String} (h : line ∈ inputLines text) :
    IsLine line := by
  obtain ⟨piece, hpiece, rfl⟩ := List.mem_map.1 h
  rw [IsLine, String.toList_ofList]
  intro hfeed
  cases not_isBreak_of_mem_cutAt hpiece hfeed

theorem takeWhile_of_isLine {line : String} (h : IsLine line) (rest : List Char) :
    (line.toList ++ '\n' :: rest).takeWhile (· != '\n') = line.toList := by
  have hline : ∀ c ∈ line.toList, (c != '\n') = true := by
    intro c hc
    rw [bne_iff_ne]
    rintro rfl
    exact h hc
  rw [List.takeWhile_append_of_pos hline]
  simp

theorem cancel_line {line other : String} {rest after : List Char} (hline : IsLine line)
    (hother : IsLine other) (h : line.toList ++ '\n' :: rest = other.toList ++ '\n' :: after) :
    line = other ∧ rest = after := by
  have hfirst := congrArg (List.takeWhile (· != '\n')) h
  rw [takeWhile_of_isLine hline, takeWhile_of_isLine hother, String.toList_inj] at hfirst
  rw [hfirst, List.append_cancel_left_eq] at h
  exact ⟨hfirst, (List.cons.inj h).2⟩

theorem firstLine?_of_isLine {line : String} (h : IsLine line) :
    firstLine? (line ++ "\n") = some line := by
  have hchars : (line ++ "\n").toList = line.toList ++ ['\n'] := String.toList_append
  rw [firstLine?, hchars, takeWhile_of_isLine h]
  simp

end Formulary
