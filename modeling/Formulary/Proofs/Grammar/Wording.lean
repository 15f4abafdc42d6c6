import Formulary.Grammar.Formula

/-!
This module contains the wording of reasons and of syntax errors. The first character of a message
tells its kind, so that two kinds of reasons or of errors never share a message.
-/

namespace Formulary

def Starts (c : Char) (text : String) : Prop :=
  ∃ cs, text.toList = c :: cs

section

variable {c d : Char} {text : String}

theorem Starts.append (h : Starts c text) (more : String) : Starts c (text ++ more) := by
  obtain ⟨cs, hcs⟩ := h
  refine ⟨cs ++ more.toList, ?_⟩
  rw [String.toList_append, hcs, List.cons_append]

theorem Starts.unique (h : Starts c text) (hother : Starts d text) : c = d := by
  obtain ⟨cs, hcs⟩ := h
  obtain ⟨ds, hds⟩ := hother
  rw [hcs, List.cons.injEq] at hds
  apply hds.1

theorem exists_starts_repr (n : Nat) : ∃ c, Starts c n.repr ∧ c.isDigit = true := by
  cases hdigits : Nat.toDigits 10 n with
  | nil => exact absurd hdigits Nat.toDigits_ne_nil
  | cons c cs =>
    refine ⟨c, ⟨cs, ?_⟩, ?_⟩
    . rw [Nat.toList_repr, hdigits]
    . have hmem : c ∈ Nat.toDigits 10 n := by
        rw [hdigits]
        apply List.mem_cons_self
      apply Nat.isDigit_of_mem_toDigits (by decide) (by decide) hmem

theorem exists_starts_toString (n : Int) :
    ∃ c, Starts c (toString n) ∧ (c = '-' ∨ c.isDigit = true) := by
  rw [Int.toString_eq_repr, Int.repr_eq_if]
  split
  . obtain ⟨c, hc, hdigit⟩ := exists_starts_repr n.toNat
    exact ⟨c, hc, .inr hdigit⟩
  . have hminus : Starts '-' "-" := ⟨[], by rfl⟩
    exact ⟨'-', hminus.append _, .inl rfl⟩

end

theorem Obstacle.starts_message (obstacle : Obstacle) : Starts 'g' obstacle.message := by
  cases obstacle with
  | token => exact ⟨_, rfl⟩
  | endOfInput => exact ⟨_, rfl⟩

namespace Reason

variable {reason : Reason}

theorem starts_incomplete {got wanted : String} :
    Starts 'e' ("expected " ++ wanted ++ " (" ++ got ++ ")") := by
  have hfirst : Starts 'e' "expected " := ⟨_, rfl⟩
  repeat apply Starts.append
  exact hfirst

theorem starts_tooDeep : Starts 'n' tooDeep.message := ⟨_, rfl⟩

theorem message_eq_unexpected_iff :
    reason.message = "got unexpected token" ∨ reason.message = "got unexpected end of input" ↔
      ∃ obstacle, reason = .unexpected obstacle := by
  constructor
  . intro h
    have hstarts : Starts 'g' reason.message := by
      rcases h with h | h
      . rw [h]
        apply Obstacle.token.starts_message
      . rw [h]
        apply Obstacle.endOfInput.starts_message
    cases reason with
    | unexpected obstacle => exact ⟨obstacle, rfl⟩
    | incomplete => cases hstarts.unique starts_incomplete
    | tooDeep => cases hstarts.unique starts_tooDeep
  . rintro ⟨obstacle, rfl⟩
    cases obstacle with
    | token => exact .inl rfl
    | endOfInput => exact .inr rfl

theorem message_eq_obstacle_iff {obstacle : Obstacle} :
    reason.message = obstacle.message ↔ reason = .unexpected obstacle := by
  constructor
  . intro h
    have hplain : reason.message = "got unexpected token"
        ∨ reason.message = "got unexpected end of input" := by
      rw [h]
      cases obstacle with
      | token => exact .inl rfl
      | endOfInput => exact .inr rfl
    obtain ⟨other, rfl⟩ := message_eq_unexpected_iff.1 hplain
    revert h
    cases obstacle <;> cases other <;> decide
  . rintro rfl
    rfl

theorem message_eq_incomplete_iff :
    (∃ wanted got, reason.message = "expected " ++ wanted ++ " (" ++ got ++ ")") ↔
      ∃ part obstacle, reason = .incomplete part obstacle := by
  constructor
  . rintro ⟨wanted, got, h⟩
    have hstarts : Starts 'e' reason.message := by
      rw [h]
      apply starts_incomplete
    cases reason with
    | unexpected obstacle => cases hstarts.unique obstacle.starts_message
    | incomplete part obstacle => exact ⟨part, obstacle, rfl⟩
    | tooDeep => cases hstarts.unique starts_tooDeep
  . rintro ⟨part, obstacle, rfl⟩
    exact ⟨part.title, obstacle.message, rfl⟩

theorem message_eq_tooDeep_iff : reason.message = "nested too deeply" ↔ reason = .tooDeep := by
  constructor
  . intro h
    have hstarts : Starts 'n' reason.message := by
      rw [h]
      apply starts_tooDeep
    cases reason with
    | unexpected obstacle => cases hstarts.unique obstacle.starts_message
    | incomplete => cases hstarts.unique starts_incomplete
    | tooDeep => rfl
  . rintro rfl
    rfl

end Reason

def unexpectedMessage (found : Option Token) (wanted : String) : String :=
  (match found with
    | none => Obstacle.endOfInput.message
    | some token =>
      SyntaxError.location token ++ Obstacle.token.message ++ ": " ++ quote token.text)
    ++ ", expected: " ++ wanted

namespace SyntaxError

variable {error : SyntaxError}

/--
The message is about what was met, not about a missing part or about depth.
-/
def Plain (error : SyntaxError) : Prop :=
  (∀ rest, error.message ≠ "incomplete formula: " ++ rest)
    ∧ error.message ≠ "formula nested too deeply"

theorem message_unexpected (pos furthest : Nat) (found : Option Token) (wanted : Wanted) :
    (unexpected pos furthest found wanted).message = unexpectedMessage found wanted.title := by
  cases found with
  | none => rfl
  | some => rfl

theorem starts_incomplete (rest : String) : Starts 'i' ("incomplete formula: " ++ rest) := by
  have hfirst : Starts 'i' "incomplete formula: " := ⟨_, rfl⟩
  apply hfirst.append

theorem starts_tooDeep : Starts 'f' tooDeep.message := ⟨_, rfl⟩

theorem exists_starts_unexpected (pos furthest : Nat) (found : Option Token) (wanted : Wanted) :
    ∃ c, Starts c (unexpected pos furthest found wanted).message
      ∧ (c = 'g' ∨ c = '-' ∨ c.isDigit = true) := by
  cases found with
  | none =>
    have hfirst := Obstacle.endOfInput.starts_message
    refine ⟨'g', ?_, .inl rfl⟩
    apply (hfirst.append _).append
  | some token =>
    have hlocation : ∃ c, Starts c (location token ++ Obstacle.token.message)
        ∧ (c = 'g' ∨ c = '-' ∨ c.isDigit = true) := by
      unfold location
      split
      . rw [String.empty_append]
        exact ⟨'g', Obstacle.token.starts_message, .inl rfl⟩
      . next span _ =>
        obtain ⟨c, hc, hnumber⟩ := exists_starts_toString span.start.line
        refine ⟨c, ?_, .inr hnumber⟩
        repeat apply Starts.append
        exact hc
    obtain ⟨c, hc, hkind⟩ := hlocation
    refine ⟨c, ?_, hkind⟩
    apply (((hc.append _).append _).append _).append

theorem not_starts_unexpected {c : Char} (hc : c = 'i' ∨ c = 'f') (pos furthest : Nat)
    (found : Option Token) (wanted : Wanted) :
    ¬ Starts c (unexpected pos furthest found wanted).message := by
  intro h
  obtain ⟨d, hd, hkind⟩ := exists_starts_unexpected pos furthest found wanted
  obtain rfl := h.unique hd
  revert hkind
  rcases hc with rfl | rfl
  . decide
  . decide

theorem message_eq_incomplete_iff :
    (∃ rest, error.message = "incomplete formula: " ++ rest) ↔
      ∃ pos furthest part obstacle, error = .incomplete pos furthest part obstacle := by
  constructor
  . rintro ⟨rest, h⟩
    have hstarts : Starts 'i' error.message := by
      rw [h]
      apply starts_incomplete
    cases error with
    | unexpected => exact absurd hstarts (not_starts_unexpected (.inl rfl) _ _ _ _)
    | incomplete pos furthest part obstacle => exact ⟨pos, furthest, part, obstacle, rfl⟩
    | tooDeep => cases hstarts.unique starts_tooDeep
  . rintro ⟨pos, furthest, part, obstacle, rfl⟩
    exact ⟨_, rfl⟩

theorem message_eq_tooDeep_iff :
    error.message = "formula nested too deeply" ↔ error = .tooDeep := by
  constructor
  . intro h
    have hstarts : Starts 'f' error.message := by
      rw [h]
      apply starts_tooDeep
    cases error with
    | unexpected => exact absurd hstarts (not_starts_unexpected (.inr rfl) _ _ _ _)
    | incomplete => cases hstarts.unique (starts_incomplete _)
    | tooDeep => rfl
  . rintro rfl
    rfl

theorem plain_iff :
    error.Plain ↔ ∃ pos furthest found wanted, error = .unexpected pos furthest found wanted := by
  rw [Plain, ← not_exists, message_eq_incomplete_iff, Ne, message_eq_tooDeep_iff]
  cases error with
  | unexpected => simp
  | incomplete => simp
  | tooDeep => simp

end SyntaxError

end Formulary
