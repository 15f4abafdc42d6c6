/-!
This module contains the ways in which a text falls into lines. A quoted source line ends at any
line break of Unicode, a line of input at a line feed only.
-/

namespace Formulary

def joinReturns : List Char → List Char
  | [] => []
  | '\r' :: '\n' :: cs => '\n' :: joinReturns cs
  | c :: cs => c :: joinReturns cs

/--
The pieces between the characters that `isBreak` accepts. A break at the very end opens no further
piece.
-/
def cutAt (isBreak : Char → Bool) : List Char → List (List Char)
  | [] => []
  | c :: cs =>
    if isBreak c then
      [] :: cutAt isBreak cs
    else
      match cutAt isBreak cs with
      | [] => [[c]]
      | piece :: pieces => (c :: piece) :: pieces

theorem not_isBreak_of_mem_cutAt {isBreak : Char → Bool} {cs piece : List Char} {c : Char}
    (hpiece : piece ∈ cutAt isBreak cs) (hc : c ∈ piece) : isBreak c = false := by
  induction cs generalizing piece with
  | nil => simp [cutAt] at hpiece
  | cons d ds ih =>
    simp only [cutAt] at hpiece
    split at hpiece
    . rcases List.mem_cons.1 hpiece with rfl | hpiece
      . simp at hc
      . exact ih hpiece hc
    . next hd =>
      split at hpiece
      . simp only [List.mem_singleton] at hpiece
        subst hpiece
        simp only [List.mem_singleton] at hc
        subst hc
        simpa using hd
      . next first rest hrest =>
        rcases List.mem_cons.1 hpiece with rfl | hpiece
        . rcases List.mem_cons.1 hc with rfl | hc
          . simpa using hd
          . exact ih (by rw [hrest]; exact List.mem_cons_self) hc
        . exact ih (by rw [hrest]; exact List.mem_cons_of_mem _ hpiece) hc

def isLineBreak (c : Char) : Bool :=
  let n := c.toNat
  (0x0A ≤ n && n ≤ 0x0D) || (0x1C ≤ n && n ≤ 0x1E) || n == 0x85 || n == 0x2028 || n == 0x2029

/--
The lines of `text`, at any line break of Unicode; a carriage return and the line feed after it are
one break.
-/
def splitLines (text : String) : List String :=
  (cutAt isLineBreak (joinReturns text.toList)).map String.ofList

/--
The lines that a reader of standard input gets: a carriage return, alone or with the line feed after
it, is read as a line feed, and only a line feed ends a line.
-/
def inputLines (text : String) : List String :=
  let unified := (joinReturns text.toList).map fun c => if c = '\r' then '\n' else c
  (cutAt (· == '\n') unified).map String.ofList

/--
The first line of `text` up to its first line feed, or nothing if `text` is empty.
-/
def firstLine? (text : String) : Option String :=
  if text.isEmpty then
    none
  else
    some (String.ofList (text.toList.takeWhile (· != '\n')))

theorem firstLine?_eq_none_iff {text : String} : firstLine? text = none ↔ text = "" := by
  unfold firstLine?
  rw [← String.isEmpty_iff]
  split
  . next h => simp [h]
  . next h => simp [h]

end Formulary
