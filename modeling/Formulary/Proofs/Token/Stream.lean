import Formulary.Token.Stream

/-!
This module contains what there is to read from a position: the tokens that are left when those in
front of it are dropped, and behind the last token all of them once more where the position counts
back from the end.
-/

namespace Formulary

/--
The tokens in the order of reading from a position on. From a negative position, which counts back
from the end, reading goes through all of them once more.
-/
def tokensAhead (tokens : List Token) (pos : Int) : List Token :=
  if 0 ≤ pos then
    tokens.drop pos.toNat
  else
    tokens.drop (tokens.length + pos).toNat ++ tokens

theorem filterMap_getElem?_range (tokens : List Token) :
    (List.range tokens.length).filterMap (fun i => tokens[i]?) = tokens := by
  induction tokens with
  | nil => rfl
  | cons token tokens ih =>
    rw [List.length_cons, List.range_succ_eq_map, List.filterMap_cons, List.filterMap_map]
    simp only [List.getElem?_cons_zero, Function.comp_def, List.getElem?_cons_succ, ih]

section

variable {tokens : List Token} {pos : Int}

theorem length_tokensAhead (h : -tokens.length ≤ pos) :
    (tokensAhead tokens pos).length = (tokens.length - pos).toNat := by
  unfold tokensAhead
  split
  . rw [List.length_drop]
    omega
  . rw [List.length_append, List.length_drop]
    omega

theorem tokenAt_eq_getElem? (h : -tokens.length ≤ pos) (i : Nat) :
    tokenAt tokens.toArray (pos + i) = (tokensAhead tokens pos)[i]? := by
  have hsize : (tokens.toArray.size : Int) = tokens.length := rfl
  unfold tokenAt tokensAhead
  simp only [hsize, List.getElem?_toArray]
  by_cases hpos : 0 ≤ pos
  . rw [if_pos (by omega), if_pos hpos, List.getElem?_drop]
    congr 1
    omega
  . rw [if_neg hpos]
    have hlength : (tokens.drop (tokens.length + pos).toNat).length = (-pos).toNat := by
      rw [List.length_drop]
      omega
    by_cases hi : 0 ≤ pos + i
    -- The second copy starts at position 0.
    . rw [if_pos hi, List.getElem?_append_right (by omega), hlength]
      congr 1
      omega
    . rw [if_neg hi, if_pos (by omega), List.getElem?_append_left (by omega), List.getElem?_drop]
      congr 1
      omega

theorem tokensFrom_eq (h : -tokens.length ≤ pos) :
    tokensFrom tokens pos = .ok (tokensAhead tokens pos) := by
  unfold tokensFrom
  split
  . omega
  . simp only [← length_tokensAhead h, tokenAt_eq_getElem? h, filterMap_getElem?_range]

end

theorem tokensAhead_natCast (tokens : List Token) (pos : Nat) :
    tokensAhead tokens pos = tokens.drop pos := by
  rw [tokensAhead, if_pos (Int.natCast_nonneg pos), Int.toNat_natCast]

end Formulary
