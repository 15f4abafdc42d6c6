import Formulary.Text.Blank
import Mathlib.Data.List.DropRight

/-!
This module contains what is left of a text without the blanks at its ends: the one part of it that
has only blanks on either side and none at its own ends.
-/

namespace Formulary

structure Trimmed (cs : List Char) : Prop where
  head : ∀ c ∈ cs.head?, isBlank c = false
  last : ∀ c ∈ cs.getLast?, isBlank c = false

section

variable {text : String} {front core back : List Char}

theorem Trimmed.nil : Trimmed [] :=
  ⟨nofun, nofun⟩

theorem Trimmed.of_forall (h : ∀ c ∈ core, isBlank c = false) : Trimmed core :=
  ⟨fun c hc => h c (List.mem_of_mem_head? hc), fun c hc => h c (List.mem_of_mem_getLast? hc)⟩

theorem Trimmed.append {cs between : List Char} (h : Trimmed cs) (hne : cs ≠ [])
    (hcore : Trimmed core) (hcoreNe : core ≠ []) : Trimmed (cs ++ between ++ core) := by
  constructor
  . rw [List.append_assoc, List.head?_append_of_ne_nil _ hne]
    exact h.head
  . rw [List.getLast?_append_of_ne_nil _ hcoreNe]
    exact hcore.last

theorem toList_trim (text : String) :
    (trim text).toList = (text.toList.dropWhile isBlank).rdropWhile isBlank := by
  rw [trim, String.toList_ofList, List.rdropWhile]

theorem Trimmed.rdropWhile_eq_self (h : Trimmed core) : core.rdropWhile isBlank = core := by
  rw [List.rdropWhile_eq_self_iff]
  intro hne
  simp [h.last _ (List.getLast?_eq_some_getLast hne)]

theorem Trimmed.dropWhile_append (h : Trimmed core) (hne : core ≠ []) (cs : List Char) :
    (core ++ cs).dropWhile isBlank = core ++ cs := by
  cases core with
  | nil => contradiction
  | cons c core => simp [h.head c rfl]

theorem rdropWhile_append_of_blank (hback : ∀ c ∈ back, isBlank c = true) (cs : List Char) :
    (cs ++ back).rdropWhile isBlank = cs.rdropWhile isBlank := by
  rw [List.rdropWhile, List.reverse_append, List.dropWhile_append_of_pos, List.rdropWhile]
  simpa using hback

theorem toList_trim_eq (htext : text.toList = front ++ core ++ back)
    (hfront : ∀ c ∈ front, isBlank c = true) (hback : ∀ c ∈ back, isBlank c = true)
    (hcore : Trimmed core) : (trim text).toList = core := by
  rw [toList_trim, htext, List.append_assoc, List.dropWhile_append_of_pos hfront]
  by_cases hempty : core = []
  . rw [hempty, List.nil_append, List.dropWhile_eq_nil_iff.2 hback]
    rfl
  . rw [hcore.dropWhile_append hempty, rdropWhile_append_of_blank hback, hcore.rdropWhile_eq_self]

theorem trim_eq_self (h : Trimmed text.toList) : trim text = text := by
  have htext : text.toList = [] ++ text.toList ++ [] := by rw [List.nil_append, List.append_nil]
  rw [← String.toList_inj, toList_trim_eq htext nofun nofun h]

theorem trim_empty : trim "" = "" :=
  trim_eq_self .nil

theorem exists_trim (text : String) :
    ∃ front back, text.toList = front ++ (trim text).toList ++ back
      ∧ (∀ c ∈ front, isBlank c = true) ∧ (∀ c ∈ back, isBlank c = true)
      ∧ Trimmed (trim text).toList := by
  rw [toList_trim]
  generalize hinner : text.toList.dropWhile isBlank = inner
  refine ⟨text.toList.takeWhile isBlank, inner.rtakeWhile isBlank, ?_, ?_, ?_, ?_, ?_⟩
  . rw [List.append_assoc, List.rdropWhile_append_rtakeWhile, ← hinner,
      List.takeWhile_append_dropWhile]
  . apply List.all_eq_true.1 List.all_takeWhile
  . intro c hc
    exact List.mem_rtakeWhile_imp hc
  . intro c hc
    obtain ⟨rest, hrest⟩ := List.rdropWhile_prefix isBlank inner
    have hhead : c ∈ inner.head? := by
      rw [← hrest, List.head?_append, Option.mem_def.1 hc]
      rfl
    rw [← hinner] at hhead
    have := List.head?_dropWhile_not isBlank text.toList
    rw [Option.mem_def.1 hhead] at this
    simpa using this
  . intro c hc
    obtain ⟨hne, rfl⟩ := List.mem_getLast?_eq_getLast hc
    simpa using List.rdropWhile_last_not isBlank inner hne

end

end Formulary
