import Formulary.Proofs.Text.Trim
import Formulary.Proofs.Token.Layout
import Formulary.Session.Command

/-!
This module contains how command lines are read. A line with the word of a command and something
behind a blank runs this command, and its argument is what stands there, without the blanks around
it.
-/

namespace Formulary

theorem isBlank_of_isWordChar {c : Char} (h : Command.isWordChar c = true) : isBlank c = false := by
  rw [← Bool.not_eq_true]
  intro hblank
  rw [Command.isWordChar, isAlphanum_of_isBlank hblank, Bool.false_or, decide_eq_true_eq] at h
  rw [h] at hblank
  cases hblank

namespace Verb

theorem isWordChar_of_mem_word (verb : Verb) :
    ∀ c ∈ verb.word.toList, Command.isWordChar c = true := by
  apply List.all_eq_true.1
  cases verb <;> rfl

theorem toList_word_ne_nil (verb : Verb) : verb.word.toList ≠ [] := by
  cases verb <;> nofun

theorem trimmed_word (verb : Verb) : Trimmed verb.word.toList :=
  .of_forall fun c hc => isBlank_of_isWordChar (verb.isWordChar_of_mem_word c hc)

end Verb

theorem trim_name {name : String} (h : isName name = true) : trim name = name := by
  apply trim_eq_self
  apply Trimmed.of_forall
  intro c hc
  apply isBlank_of_isAlphanum (isAlphanum_of_mem_name h c hc)

namespace Command

theorem ofLine_eq {line : String} {verb : Verb} {rest : List Char}
    (hline : (trim line).toList = verb.word.toList ++ rest)
    (hrest : ∀ c ∈ rest.head?, isWordChar c = false) :
    ofLine line = .run verb (trim (String.ofList rest)) := by
  have hword := verb.isWordChar_of_mem_word
  have hnil := verb.toList_word_ne_nil
  have htake : (verb.word.toList ++ rest).takeWhile isWordChar = verb.word.toList := by
    rw [List.takeWhile_append_of_pos hword]
    cases rest with
    | nil => simp
    | cons c rest => simp [hrest c rfl]
  have hdrop : (verb.word.toList ++ rest).dropWhile isWordChar = rest := by
    rw [List.dropWhile_append_of_pos hword]
    cases rest with
    | nil => rfl
    | cons c rest => simp [hrest c rfl]
  rw [ofLine, hline]
  split
  . next h => exact absurd (List.append_eq_nil_iff.1 h).1 hnil
  . next topic h =>
    have hmem : '?' ∈ verb.word.toList := by
      cases hchars : verb.word.toList with
      | nil => exact absurd hchars hnil
      | cons c word =>
        rw [hchars, List.cons_append] at h
        rw [(List.cons.inj h).1]
        apply List.mem_cons_self
    cases hword _ hmem
  . rw [htake, hdrop, String.ofList_toList, Verb.ofWord?_word]

theorem ofLine_word (verb : Verb) : ofLine verb.word = .run verb "" := by
  have hline : (trim verb.word).toList = verb.word.toList ++ [] := by
    rw [trim_eq_self verb.trimmed_word, List.append_nil]
  rw [ofLine_eq hline nofun, String.ofList_nil, trim_empty]

theorem ofLine_argument (verb : Verb) (argument : String) :
    ofLine (verb.word ++ " " ++ argument) = .run verb (trim argument) := by
  obtain ⟨front, back, hargument, hfront, hback, hcore⟩ := exists_trim argument
  have hchars : (verb.word ++ " " ++ argument).toList
      = [] ++ verb.word.toList ++ ' ' :: argument.toList := by
    simp
  by_cases hempty : (trim argument).toList = []
  . -- All behind the word is blank, so that the line is the word alone.
    have hblank : ∀ c ∈ ' ' :: argument.toList, isBlank c = true := by
      rw [List.forall_mem_cons, hargument, hempty, List.append_nil, List.forall_mem_append]
      exact ⟨by decide, hfront, hback⟩
    have hline : (trim (verb.word ++ " " ++ argument)).toList = verb.word.toList ++ [] := by
      rw [List.append_nil]
      exact toList_trim_eq hchars nofun hblank verb.trimmed_word
    rw [ofLine_eq hline nofun, String.toList_eq_nil_iff.1 hempty, String.ofList_nil, trim_empty]
  . have hlonger : Trimmed (verb.word.toList ++ ' ' :: front ++ (trim argument).toList) :=
      verb.trimmed_word.append verb.toList_word_ne_nil hcore hempty
    have hline : (trim (verb.word ++ " " ++ argument)).toList
        = verb.word.toList ++ (' ' :: front ++ (trim argument).toList) := by
      rw [← List.append_assoc]
      have hwhole : (verb.word ++ " " ++ argument).toList
          = [] ++ (verb.word.toList ++ ' ' :: front ++ (trim argument).toList) ++ back := by
        rw [hchars, hargument]
        simp
      exact toList_trim_eq hwhole nofun hback hlonger
    have hopening : ∀ c ∈ ' ' :: front, isBlank c = true :=
      List.forall_mem_cons.2 ⟨by decide, hfront⟩
    have hrest : (trim (String.ofList (' ' :: front ++ (trim argument).toList))).toList
        = (trim argument).toList := by
      have hwhole : (String.ofList (' ' :: front ++ (trim argument).toList)).toList
          = ' ' :: front ++ (trim argument).toList ++ [] := by
        rw [String.toList_ofList, List.append_nil]
      exact toList_trim_eq hwhole hopening nofun hcore
    rw [ofLine_eq hline, String.toList_inj.1 hrest]
    intro c hc
    obtain rfl := Option.some.inj hc
    rfl

end Command

end Formulary
