import Formulary.CommandLine.Run
import Formulary.Proofs.Session.Failure
import Formulary.Proofs.Text.Lines

/-!
This module contains what a run of the program is to its session: the turns that the input falls
into. A turn is a command line, with a formula on the line after it if the command asks for one. A
run answers the turns in their order, up to the first that stops the session or finds the input at
its end.
-/

namespace Formulary

def Turn.chars (turn : Turn) : List Char :=
  closeLines [turn.line] ++ turn.input.toList

namespace Turn

theorem chars_eq (turn : Turn) : turn.chars = turn.line.toList ++ '\n' :: turn.input.toList := by
  simp [chars, closeLines]

@[simp]
theorem chars_ne_nil (turn : Turn) : turn.chars ≠ [] := by
  simp [chars_eq]

end Turn

def exitStatus (replies : List Reply) : Except Fault Nat :=
  match replies.getLast?.map Reply.outcome with
  | some (.error fault) => .error fault
  | _ => .ok 0

theorem exitStatus_cons {reply : Reply} {replies : List Reply} (h : replies ≠ []) :
    exitStatus (reply :: replies) = exitStatus replies := by
  cases replies with
  | nil => exact absurd rfl h
  | cons => rw [exitStatus, List.getLast?_cons_cons, exitStatus]

namespace Session

def initial (unicode : Bool) : Session :=
  start (if unicode then .unicode else .ascii)

def Asks (session : Session) (line : String) : Prop :=
  ∃ name, Command.ofLine line = .run .new name ∧ isName name = true ∧ name ∉ session.store.names

/--
The turn takes a line for its command, another one for the formula if the command asks for it, and
nothing else.
-/
structure Feeds (session : Session) (turn : Turn) : Prop where
  isLine : IsLine turn.line
  of_asks (h : session.Asks turn.line) : ∃ formula, IsLine formula ∧ turn.input = formula ++ "\n"
  of_not_asks (h : ¬ session.Asks turn.line) : turn.input = ""

/--
The turns that a session takes from a text, and how it comes to its end. The end of the text is a
command that stops the session.
-/
inductive Dialogue [RecursionLimit] :
    Session → List Char → List Turn → Except Fault Nat → Prop where
  | goesOn {session : Session} {turn : Turn} {text : List Char} {turns : List Turn}
      {status : Except Fault Nat} (hfeeds : session.Feeds turn)
      (hanswer : (session.answer turn).outcome = .ok false)
      (h : Dialogue (session.answer turn).session text turns status) :
      Dialogue session (turn.chars ++ text) (turn :: turns) status
  | stopped {session : Session} {turn : Turn} (hfeeds : session.Feeds turn)
      (hanswer : (session.answer turn).outcome = .ok true) (unread : List Char) :
      Dialogue session (turn.chars ++ unread) [turn] (.ok 0)
  | exhausted {session : Session} : Dialogue session [] [⟨"EOF", ""⟩] (.ok 0)
  | starved {session : Session} {turn : Turn} (hline : IsLine turn.line)
      (h : session.Starves turn) : Dialogue session turn.chars [turn] (.error .endOfInput)

def answers [RecursionLimit] (session : Session) : List Turn → List Reply
  | [] => []
  | turn :: turns => session.answer turn :: (session.answer turn).session.answers turns

structure RepliesFrom [RecursionLimit] (session : Session) (turn : Turn) (lines : List String)
    (replies : List Reply) : Prop where
  of_goesOn (h : (session.answer turn).outcome = .ok false) :
    replies = session.answer turn :: (session.answer turn).session.replies none lines
  of_stops (h : (session.answer turn).outcome = .ok true) : replies = [session.answer turn]

section

variable {session : Session} {turn : Turn} {turns : List Turn} {text : List Char}
variable {status : Except Fault Nat} {line command : String} {lines : List String}

theorem starves_iff : session.Starves turn ↔ session.Asks turn.line ∧ turn.input = "" := by
  constructor
  . rintro ⟨name, hcommand, hname, hnew, hinput⟩
    exact ⟨⟨name, hcommand, hname, hnew⟩, hinput⟩
  . rintro ⟨⟨name, hcommand, hname, hnew⟩, hinput⟩
    exact ⟨name, hcommand, hname, hnew, hinput⟩

theorem asksInput_iff : session.asksInput line = true ↔ session.Asks line := by
  unfold asksInput Asks
  split
  . next name hcommand =>
    have hok : (session.store.checkNew name).isOk = true
        ↔ session.store.checkNew name = .ok () := by
      cases session.store.checkNew name with
      | error => simp [Except.isOk, Except.toBool]
      | ok => simp [Except.isOk, Except.toBool]
    rw [hok, Store.checkNew_eq_ok_iff]
    constructor
    . rintro ⟨hname, hnew⟩
      exact ⟨name, hcommand, hname, hnew⟩
    . rintro ⟨other, hother, hname, hnew⟩
      rw [hcommand] at hother
      obtain rfl := (Command.run.inj hother).2
      exact ⟨hname, hnew⟩
  . next hcommand =>
    constructor
    . intro h
      cases h
    . rintro ⟨name, hname, _⟩
      exact absurd hname (hcommand name)

theorem Feeds.not_starves (h : session.Feeds turn) : ¬ session.Starves turn := by
  rw [starves_iff]
  rintro ⟨hasks, hinput⟩
  obtain ⟨formula, _, hformula⟩ := h.of_asks hasks
  rw [hinput] at hformula
  have hchars := congrArg String.toList hformula
  simp [String.toList_append] at hchars

theorem feeds_of_asks (hline : IsLine command) (hasks : session.Asks command) (h : IsLine line) :
    session.Feeds ⟨command, line ++ "\n"⟩ :=
  ⟨hline, fun _ => ⟨line, h, rfl⟩, fun hnot => absurd hasks hnot⟩

theorem feeds_of_not_asks (hline : IsLine line) (hasks : ¬ session.Asks line) :
    session.Feeds ⟨line, ""⟩ :=
  ⟨hline, fun h => absurd h hasks, fun _ => rfl⟩

theorem Feeds.unique {other : Turn} {rest : List Char} (h : session.Feeds turn)
    (hother : session.Feeds other) (heq : turn.chars ++ text = other.chars ++ rest) :
    turn = other ∧ text = rest := by
  obtain ⟨line, input⟩ := turn
  obtain ⟨line', input'⟩ := other
  simp only [Turn.chars_eq, List.append_assoc, List.cons_append] at heq
  obtain ⟨rfl, hinput⟩ := cancel_line h.isLine hother.isLine heq
  by_cases hasks : session.Asks line
  . obtain ⟨formula, hformula, rfl⟩ := h.of_asks hasks
    obtain ⟨formula', hformula', rfl⟩ := hother.of_asks hasks
    simp only [String.toList_append, List.append_assoc] at hinput
    obtain ⟨rfl, rfl⟩ := cancel_line hformula hformula' hinput
    exact ⟨rfl, rfl⟩
  . obtain rfl := h.of_not_asks hasks
    obtain rfl := hother.of_not_asks hasks
    exact ⟨rfl, hinput⟩

theorem Starves.unique {other : Turn} (h : session.Starves turn) (hline : IsLine turn.line)
    (hother : session.Starves other) (hotherLine : IsLine other.line)
    (heq : turn.chars = other.chars) : turn = other := by
  obtain ⟨line, input⟩ := turn
  obtain ⟨line', input'⟩ := other
  obtain ⟨_, rfl⟩ := starves_iff.1 h
  obtain ⟨_, rfl⟩ := starves_iff.1 hother
  rw [Turn.chars_eq, Turn.chars_eq] at heq
  obtain ⟨rfl, _⟩ := cancel_line hline hotherLine heq
  rfl

theorem Feeds.chars_append_ne {other : Turn} (h : session.Feeds turn) (hother : session.Starves other)
    (hline : IsLine other.line) : turn.chars ++ text ≠ other.chars := by
  obtain ⟨hasks, hinput⟩ := starves_iff.1 hother
  intro heq
  simp only [Turn.chars_eq, List.append_assoc, List.cons_append, hinput] at heq
  obtain ⟨hsame, hnothing⟩ := cancel_line h.isLine hline heq
  rw [← hsame] at hasks
  obtain ⟨formula, _, hformula⟩ := h.of_asks hasks
  simp [hformula] at hnothing

variable [RecursionLimit]

theorem flatMap_log_answers : (session.answers turns).flatMap Reply.log = session.journal turns := by
  induction turns generalizing session with
  | nil => rfl
  | cons turn turns ih => rw [answers, List.flatMap_cons, ih, journal]

theorem answer_of_input_eq_nil : session.answer ⟨line, ""⟩ = session.step line none := by
  rw [answer, firstLine?_eq_none_iff.2 rfl]

theorem replies_of_asks (h : session.Asks line) :
    session.replies none (line :: lines) = session.replies (some line) lines := by
  rw [replies, asksInput_iff.2 h]
  rfl

theorem repliesFrom_of_not_asks (h : ¬ session.Asks line) :
    session.RepliesFrom ⟨line, ""⟩ lines (session.replies none (line :: lines)) := by
  rw [← asksInput_iff, Bool.not_eq_true] at h
  have hanswer : session.step line none = session.answer ⟨line, ""⟩ :=
    answer_of_input_eq_nil.symm
  constructor
  . intro hgoesOn
    simp [replies, h, hanswer, hgoesOn]
  . intro hstops
    simp [replies, h, hanswer, hstops]

theorem repliesFrom_of_waiting (h : IsLine line) :
    session.RepliesFrom ⟨command, line ++ "\n"⟩ lines
      (session.replies (some command) (line :: lines)) := by
  have hanswer : session.step command (some line) = session.answer ⟨command, line ++ "\n"⟩ := by
    rw [answer, firstLine?_of_isLine h]
  constructor
  . intro hgoesOn
    simp [replies, hanswer, hgoesOn]
  . intro hstops
    simp [replies, hanswer, hstops]

theorem exists_dialogue_of_feeds (hsound : session.store.Sound) (hfeeds : session.Feeds turn)
    {replies : List Reply} (hreplies : session.RepliesFrom turn lines replies)
    (ih : ∀ {next : Session}, next.store.Sound → ∃ turns status,
      next.Dialogue (closeLines lines) turns status ∧ next.replies none lines = next.answers turns) :
    ∃ turns status, session.Dialogue (turn.chars ++ closeLines lines) turns status
      ∧ replies = session.answers turns := by
  cases hanswer : (session.answer turn).outcome with
  | error => exact absurd (starves_of_error hsound hanswer) hfeeds.not_starves
  | ok stops =>
    cases stops with
    | false =>
      obtain ⟨turns, status, hdialogue, hrest⟩ := ih (sound_answer hsound turn)
      refine ⟨turn :: turns, status, .goesOn hfeeds hanswer hdialogue, ?_⟩
      rw [hreplies.of_goesOn hanswer, answers, hrest]
    | true =>
      refine ⟨[turn], .ok 0, .stopped hfeeds hanswer _, ?_⟩
      rw [hreplies.of_stops hanswer, answers, answers]

theorem exists_dialogue (hsound : session.store.Sound) (waiting : Option String)
    (hwaiting : ∀ command ∈ waiting, IsLine command ∧ session.Asks command)
    (hlines : ∀ line ∈ lines, IsLine line) :
    ∃ turns status, session.Dialogue (closeLines (waiting.toList ++ lines)) turns status
      ∧ session.replies waiting lines = session.answers turns := by
  induction lines generalizing session waiting with
  | nil =>
    cases waiting with
    | none =>
      refine ⟨_, _, .exhausted, ?_⟩
      rw [replies, answers, answer_of_input_eq_nil, Option.getD_none, answers, Verb.word]
    | some command =>
      obtain ⟨hline, hasks⟩ := hwaiting command rfl
      have hstarves : session.Starves ⟨command, ""⟩ := starves_iff.2 ⟨hasks, rfl⟩
      have hchars : closeLines [command] = Turn.chars ⟨command, ""⟩ := by simp [Turn.chars]
      refine ⟨[⟨command, ""⟩], .error .endOfInput, ?_, ?_⟩
      . rw [Option.toList_some, List.append_nil, hchars]
        apply Dialogue.starved hline hstarves
      . rw [replies, answers, answer_of_input_eq_nil, Option.getD_some, answers]
  | cons line lines ih =>
    rw [List.forall_mem_cons] at hlines
    obtain ⟨hline, hlines⟩ := hlines
    have hrest {next : Session} (h : next.store.Sound) := ih h none (by simp) hlines
    cases waiting with
    | some command =>
      obtain ⟨hcommand, hasks⟩ := hwaiting command rfl
      have hchars : closeLines (command :: line :: lines)
          = Turn.chars ⟨command, line ++ "\n"⟩ ++ closeLines lines := by
        simp [Turn.chars_eq, closeLines]
      rw [Option.toList_some, List.singleton_append, hchars]
      apply exists_dialogue_of_feeds hsound (feeds_of_asks hcommand hasks hline)
        (repliesFrom_of_waiting hline) hrest
    | none =>
      by_cases hasks : session.Asks line
      . rw [replies_of_asks hasks]
        apply ih hsound (some line) _ hlines
        rintro command hcommand
        obtain rfl := Option.some.inj hcommand
        exact ⟨hline, hasks⟩
      . have hchars : closeLines (line :: lines)
            = Turn.chars ⟨line, ""⟩ ++ closeLines lines := by
          simp [Turn.chars_eq, closeLines]
        rw [Option.toList_none, List.nil_append, hchars]
        apply exists_dialogue_of_feeds hsound (feeds_of_not_asks hline hasks)
          (repliesFrom_of_not_asks hasks) hrest

theorem Dialogue.unique {others : List Turn} {other : Except Fault Nat} {rest : List Char}
    (h : session.Dialogue text turns status) (hother : session.Dialogue rest others other)
    (heq : text = rest) : turns = others ∧ status = other := by
  induction h generalizing others rest with
  | goesOn hfeeds hanswer _ ih =>
    cases hother with
    | goesOn hfeeds' hanswer' hother =>
      obtain ⟨rfl, rfl⟩ := hfeeds.unique hfeeds' heq
      obtain ⟨rfl, rfl⟩ := ih hother rfl
      exact ⟨rfl, rfl⟩
    | stopped hfeeds' hanswer' =>
      obtain ⟨rfl, _⟩ := hfeeds.unique hfeeds' heq
      rw [hanswer] at hanswer'
      cases hanswer'
    | exhausted => simp at heq
    | starved hline hstarves => exact absurd heq (hfeeds.chars_append_ne hstarves hline)
  | stopped hfeeds hanswer =>
    cases hother with
    | goesOn hfeeds' hanswer' =>
      obtain ⟨rfl, _⟩ := hfeeds.unique hfeeds' heq
      rw [hanswer] at hanswer'
      cases hanswer'
    | stopped hfeeds' =>
      obtain ⟨rfl, _⟩ := hfeeds.unique hfeeds' heq
      exact ⟨rfl, rfl⟩
    | exhausted => simp at heq
    | starved hline hstarves => exact absurd heq (hfeeds.chars_append_ne hstarves hline)
  | exhausted =>
    cases hother with
    | goesOn => simp at heq
    | stopped => simp at heq
    | exhausted => exact ⟨rfl, rfl⟩
    | starved => exact absurd heq.symm (Turn.chars_ne_nil _)
  | starved hline hstarves =>
    cases hother with
    | goesOn hfeeds => exact absurd heq.symm (hfeeds.chars_append_ne hstarves hline)
    | stopped hfeeds => exact absurd heq.symm (hfeeds.chars_append_ne hstarves hline)
    | exhausted => simp at heq
    | starved hline' hstarves' =>
      obtain rfl := hstarves.unique hline hstarves' hline' heq
      exact ⟨rfl, rfl⟩

theorem Dialogue.answers_ne_nil (h : session.Dialogue text turns status) :
    session.answers turns ≠ [] := by
  cases h with
  | goesOn => exact List.cons_ne_nil _ _
  | stopped => exact List.cons_ne_nil _ _
  | exhausted => exact List.cons_ne_nil _ _
  | starved => exact List.cons_ne_nil _ _

theorem Dialogue.exitStatus_answers (h : session.Dialogue text turns status) :
    exitStatus (session.answers turns) = status := by
  induction h with
  | goesOn hfeeds hanswer h ih => rw [answers, exitStatus_cons h.answers_ne_nil, ih]
  | stopped hfeeds hanswer => simp [exitStatus, answers, hanswer]
  | exhausted =>
    rw [answers, answer_of_input_eq_nil]
    rfl
  | starved hline h =>
    rw [answers, answer_of_starves h]
    rfl

end

end Session

theorem run_of_options [RecursionLimit] {arguments : List String} {options : Options}
    (h : Request.ofArguments arguments = .ok (.start options)) (input : String) :
    let replies := (Session.initial options.unicode).replies none (inputLines input)
    run arguments input
      =
    ⟨exitStatus replies,
      greeting ++ String.join (replies.map fun reply => prompt ++ reply.out),
      if options.verbose then
        String.join ((replies.flatMap Reply.log).map fun entry => entry.line ++ "\n")
      else
        ""⟩ := by
  intro replies
  rw [run, h]
  rfl

theorem exists_arguments (unicode verbose : Bool) :
    ∃ arguments, Request.ofArguments arguments = .ok (.start ⟨unicode, verbose⟩) := by
  cases unicode with
  | false =>
    cases verbose with
    | false => exact ⟨[], by rfl⟩
    | true => exact ⟨["-v"], by rfl⟩
  | true =>
    cases verbose with
    | false => exact ⟨["-u"], by rfl⟩
    | true => exact ⟨["-uv"], by rfl⟩

theorem run_answers_turns [RecursionLimit] (unicode : Bool) (input : String) :
    ∃ turns status,
      (Session.initial unicode).Dialogue (unifiedInput input) turns status
        ∧ (∀ others other, (Session.initial unicode).Dialogue (unifiedInput input) others other →
          others = turns ∧ other = status)
        ∧ ∀ verbose,
          (∃ arguments, Request.ofArguments arguments = .ok (.start ⟨unicode, verbose⟩))
            ∧ ∀ arguments, Request.ofArguments arguments = .ok (.start ⟨unicode, verbose⟩) →
              run arguments input
                =
              ⟨status,
                greeting ++ String.join (((Session.initial unicode).answers turns).map fun reply =>
                  prompt ++ reply.out),
                if verbose then
                  String.join (((Session.initial unicode).journal turns).map fun entry =>
                    entry.line ++ "\n")
                else
                  ""⟩ := by
  have hsound : (Session.initial unicode).store.Sound := .empty
  have hlines : ∀ line ∈ inputLines input, IsLine line := fun _ => isLine_of_mem_inputLines
  obtain ⟨turns, status, hdialogue, hreplies⟩ :=
    Session.exists_dialogue hsound none (by simp) hlines
  rw [Option.toList_none, List.nil_append, closeLines_inputLines] at hdialogue
  refine ⟨turns, status, hdialogue, fun _ _ hother => hother.unique hdialogue rfl, ?_⟩
  intro verbose
  refine ⟨exists_arguments unicode verbose, ?_⟩
  intro arguments harguments
  have hrun := run_of_options harguments input
  dsimp only at hrun
  rw [hreplies, hdialogue.exitStatus_answers, Session.flatMap_log_answers] at hrun
  exact hrun

/--
A run that ends for want of the formula of `g`. With and without its log it takes the same turns.
-/
theorem run_answers_turns_without_formula :
    let input := "new f\r\n~a\nnew g"
    let out := greeting ++ "? 输入公式: ? 输入公式: "
    (Session.initial true).Dialogue (unifiedInput input) [⟨"new f", "~a\n"⟩, ⟨"new g", ""⟩]
        (.error .endOfInput)
      ∧ Request.ofArguments ["-u"] = .ok (.start ⟨true, false⟩)
      ∧ Request.ofArguments ["-vu"] = .ok (.start ⟨true, true⟩)
      ∧ run ["-u"] input = ⟨.error .endOfInput, out, ""⟩
      ∧ run ["-vu"] input = ⟨.error .endOfInput, out, "INFO [treeform.ui] stored formula f\n"⟩ := by
  have hchars : unifiedInput "new f\r\n~a\nnew g"
      = Turn.chars ⟨"new f", "~a\n"⟩ ++ Turn.chars ⟨"new g", ""⟩ := by rfl
  intro input out
  have hasks : (Session.initial true).Asks "new f" := ⟨"f", by rfl, by decide, List.not_mem_nil⟩
  have hformula : IsLine "~a" := by decide
  have hfirst : (Session.initial true).Feeds ⟨"new f", "~a\n"⟩ :=
    Session.feeds_of_asks (by decide) hasks hformula
  have hstarves : ((Session.initial true).answer ⟨"new f", "~a\n"⟩).session.Starves
      ⟨"new g", ""⟩ :=
    ⟨"g", by rfl, by decide, by decide, rfl⟩
  have hdialogue : (Session.initial true).Dialogue (unifiedInput input)
      [⟨"new f", "~a\n"⟩, ⟨"new g", ""⟩] (.error .endOfInput) := by
    rw [hchars]
    exact .goesOn hfirst (by rfl) (.starved (by decide) hstarves)
  have hquiet : Request.ofArguments ["-u"] = .ok (.start ⟨true, false⟩) := by rfl
  have hverbose : Request.ofArguments ["-vu"] = .ok (.start ⟨true, true⟩) := by rfl
  obtain ⟨turns, status, _, hunique, hrun⟩ := run_answers_turns true input
  obtain ⟨rfl, rfl⟩ := hunique _ _ hdialogue
  exact ⟨hdialogue, hquiet, hverbose, (hrun false).2 ["-u"] hquiet, (hrun true).2 ["-vu"] hverbose⟩

end Formulary
