import Formulary.Session.Step
import Formulary.Text.Lines

/-!
This module contains sessions that get one command line after the other, each with an input of its
own. Such a session goes on after a command that stops it or fails.
-/

namespace Formulary

structure Turn where
  line : String
  input : String
  deriving DecidableEq, Repr

namespace Session

variable [RecursionLimit]

def answer (session : Session) (turn : Turn) : Reply :=
  session.step turn.line (firstLine? turn.input)

def after (session : Session) : List Turn → Session
  | [] => session
  | turn :: turns => (session.answer turn).session.after turns

theorem after_induction {P : Session → Prop}
    (hanswer : ∀ session turn, P session → P (session.answer turn).session) {session : Session}
    (h : P session) (turns : List Turn) : P (session.after turns) := by
  induction turns generalizing session with
  | nil => exact h
  | cons turn turns ih =>
    rw [after]
    apply ih (hanswer session turn h)

def journal (session : Session) : List Turn → List LogEntry
  | [] => []
  | turn :: turns => (session.answer turn).log ++ (session.answer turn).session.journal turns

end Session

end Formulary
