import Formulary.Proofs.Session.Sound
import Formulary.Session.Script

/-!
This module contains what turns do to a session. Only a formula that is accepted under a new name and
the deletion of a stored one touch the store, and each of them leaves one entry of level INFO in the
log. Everything else keeps the session as it is.
-/

namespace Formulary

namespace LogEntry

def isInfo (entry : LogEntry) : Bool :=
  "INFO".toList.isPrefixOf entry.line.toList

theorem isInfo_eq {entry : LogEntry} {origin : String} (h : entry.line = origin ++ entry.message) :
    entry.isInfo = "INFO".toList.isPrefixOf (origin.toList ++ entry.message.toList) := by
  rw [isInfo, h, String.toList_append]

@[simp]
theorem isInfo_rejected (text message : String) : (rejected text message).isInfo = false := by
  have hline : (rejected text message).line
      = "DEBUG [treeform.ui] " ++ (rejected text message).message := rfl
  rw [isInfo_eq hline]
  rfl

@[simp]
theorem isInfo_stored (name : String) : (stored name).isInfo = true := by
  have hline : (stored name).line = "INFO [treeform.ui] " ++ (stored name).message := rfl
  rw [isInfo_eq hline]
  rfl

@[simp]
theorem isInfo_deleted (name : String) : (deleted name).isInfo = true := by
  have hline : (deleted name).line = "INFO [treeform.ui] " ++ (deleted name).message := rfl
  rw [isInfo_eq hline]
  rfl

end LogEntry

/--
The answer leaves the session as it was, logs no change and, over a sound store, meets no fault.
-/
structure Reply.Keeps (reply : Reply) (session : Session) : Prop where
  session_eq : reply.session = session
  log_eq : reply.log.filter LogEntry.isInfo = []
  exists_outcome (h : session.store.Sound) : ∃ stop, reply.outcome = .ok stop

namespace Session

variable (session : Session)

theorem say_keeps (out : String) : (session.say out).Keeps session :=
  ⟨rfl, rfl, fun _ => ⟨_, rfl⟩⟩

theorem stop_keeps : { session.say "" with outcome := .ok true : Reply }.Keeps session :=
  ⟨rfl, rfl, fun _ => ⟨_, rfl⟩⟩

theorem fail_keeps (h : ¬ session.store.Sound) (out : String) (fault : Fault) :
    (session.fail out fault).Keeps session :=
  ⟨rfl, rfl, fun hsound => absurd hsound h⟩

theorem reject_keeps [RecursionLimit] {text : String} {error : FormulaError}
    (h : Tree.ofText text = .error error) (out : String) :
    (session.reject out text error).Keeps session := by
  obtain ⟨message, hmessage⟩ := FormulaError.exists_message h
  simp only [reject, hmessage]
  exact ⟨rfl, by simp, fun _ => ⟨_, rfl⟩⟩

theorem list_keeps (unicode : Bool) (name : String) : (session.list unicode name).Keeps session := by
  unfold list
  dsimp only
  split
  . apply say_keeps
  . split
    . apply say_keeps
    . next hchosen =>
      split
      . apply say_keeps
      . next hfault =>
        apply fail_keeps
        intro hsound
        have hentries := hsound.wellFormed_of_chosen hchosen
        rw [Store.listing_eq hentries] at hfault
        cases hfault

theorem analyze_keeps [RecursionLimit] (unicode : Bool) (text : String) :
    (session.analyze unicode text).Keeps session := by
  unfold analyze
  split
  . apply say_keeps
  . split
    . next htext => apply reject_keeps session htext
    . next htext =>
      have hformed := Tree.wellFormed_of_ofText htext
      simp only [Tree.render_of_wellFormed hformed, Tree.depth_of_complete hformed.complete]
      apply say_keeps

theorem depth_keeps (name : String) : (session.depth name).Keeps session := by
  unfold depth
  split
  . apply say_keeps
  . next hget =>
    split
    . next hfault =>
      apply fail_keeps
      intro hsound
      rw [Tree.depth_of_complete (hsound.wellFormed_of_get hget).complete] at hfault
      cases hfault
    . apply say_keeps

theorem identifiers_keeps (name : String) : (session.identifiers name).Keeps session := by
  unfold identifiers
  split
  . apply say_keeps
  . next hget =>
    split
    . next hfault =>
      apply fail_keeps
      intro hsound
      rw [Tree.identifiers_of_complete (hsound.wellFormed_of_get hget).complete] at hfault
      cases hfault
    . apply say_keeps
    . apply say_keeps

theorem help_keeps (topic : String) : (session.help topic).Keeps session := by
  unfold help
  split
  . apply say_keeps
  . split
    . apply say_keeps
    . apply say_keeps

section

variable [RecursionLimit] {session : Session} {turn : Turn} {name : String} {tree : Tree}

def Stores (session : Session) (turn : Turn) (name : String) (tree : Tree) : Prop :=
  Command.ofLine turn.line = .run .new name ∧ isName name = true ∧ name ∉ session.store.names
    ∧ ∃ text, firstLine? turn.input = some text ∧ Tree.ofText text = .ok tree

def Deletes (session : Session) (turn : Turn) (name : String) : Prop :=
  Command.ofLine turn.line = .run .delete name ∧ name ∈ session.store.names

/--
The turn asks for a formula under a new name, but there is none on the input.
-/
def Starves (session : Session) (turn : Turn) : Prop :=
  ∃ name, Command.ofLine turn.line = .run .new name ∧ isName name = true
    ∧ name ∉ session.store.names ∧ turn.input = ""

inductive Effect (session : Session) (turn : Turn) (reply : Reply) : Prop where
  | stored {name : String} {tree : Tree} (h : session.Stores turn name tree)
      (hreply : reply = ⟨{ session with store := session.store.add name tree }, .ok false,
        "输入公式: ", [.stored name]⟩)
  | deleted {name : String} (h : session.Deletes turn name) (hname : isName name = true)
      (hreply : reply = ⟨{ session with store := session.store.erase name }, .ok false, "",
        [.deleted name]⟩)
  | starved (h : session.Starves turn) (hreply : reply = session.fail "输入公式: " .endOfInput)
  | kept (h : reply.Keeps session)

theorem answer_eq {command : Command} (h : Command.ofLine turn.line = command) :
    session.answer turn = session.run command (firstLine? turn.input) := by
  rw [answer, step, h]

theorem answer_of_stores (h : session.Stores turn name tree) :
    session.answer turn
      =
    ⟨{ session with store := session.store.add name tree }, .ok false, "输入公式: ",
      [.stored name]⟩ := by
  obtain ⟨hcommand, hname, hnew, text, hinput, htext⟩ := h
  have hcheck := Store.checkNew_eq_ok_iff.2 ⟨hname, hnew⟩
  rw [answer_eq hcommand]
  simp only [run, new, hcheck, hinput, htext]

theorem answer_of_deletes (h : session.Deletes turn name) (hname : isName name = true) :
    session.answer turn
      =
    ⟨{ session with store := session.store.erase name }, .ok false, "", [.deleted name]⟩ := by
  obtain ⟨hcommand, hmem⟩ := h
  obtain ⟨tree, htree⟩ := Store.mem_names_iff.1 hmem
  have hget := Store.get_eq_ok_iff.2 ⟨hname, htree⟩
  rw [answer_eq hcommand]
  simp only [run, delete, hget]

theorem answer_of_starves (h : session.Starves turn) :
    session.answer turn = session.fail "输入公式: " .endOfInput := by
  obtain ⟨name, hcommand, hname, hnew, hinput⟩ := h
  have hcheck := Store.checkNew_eq_ok_iff.2 ⟨hname, hnew⟩
  rw [answer_eq hcommand, firstLine?_eq_none_iff.2 hinput]
  simp only [run, new, hcheck]

theorem effect_new (hcommand : Command.ofLine turn.line = .run .new name) :
    session.Effect turn (session.new name (firstLine? turn.input)) := by
  cases hcheck : session.store.checkNew name with
  | error =>
    simp only [new, hcheck]
    exact .kept (say_keeps session _)
  | ok =>
    obtain ⟨hname, hnew⟩ := Store.checkNew_eq_ok_iff.1 hcheck
    cases hinput : firstLine? turn.input with
    | none =>
      simp only [new, hcheck]
      exact .starved ⟨name, hcommand, hname, hnew, firstLine?_eq_none_iff.1 hinput⟩ rfl
    | some text =>
      cases htext : Tree.ofText text with
      | error error =>
        simp only [new, hcheck, htext]
        exact .kept (reject_keeps session htext _)
      | ok tree =>
        simp only [new, hcheck, htext]
        exact .stored ⟨hcommand, hname, hnew, text, hinput, htext⟩ rfl

theorem effect_delete (hcommand : Command.ofLine turn.line = .run .delete name) :
    session.Effect turn (session.delete name) := by
  cases hget : session.store.get name with
  | error =>
    simp only [delete, hget]
    exact .kept (say_keeps session _)
  | ok tree =>
    obtain ⟨hname, htree⟩ := Store.get_eq_ok_iff.1 hget
    have hmem := Store.mem_names_iff.2 ⟨tree, htree⟩
    simp only [delete, hget]
    exact .deleted ⟨hcommand, hmem⟩ hname rfl

theorem effect_answer (session : Session) (turn : Turn) :
    session.Effect turn (session.answer turn) := by
  cases hcommand : Command.ofLine turn.line with
  | nothing =>
    rw [answer_eq hcommand]
    exact .kept (say_keeps session _)
  | unknown line =>
    rw [answer_eq hcommand]
    exact .kept (say_keeps session _)
  | run verb argument =>
    rw [answer_eq hcommand]
    cases verb with
    | new => exact effect_new hcommand
    | delete => exact effect_delete hcommand
    | depth => exact .kept (depth_keeps session _)
    | exit => exact .kept (stop_keeps session)
    | help => exact .kept (help_keeps session _)
    | list => exact .kept (list_keeps session _ _)
    | listUnicode => exact .kept (list_keeps session _ _)
    | analyze => exact .kept (analyze_keeps session _ _)
    | analyzeUnicode => exact .kept (analyze_keeps session _ _)
    | identifiers => exact .kept (identifiers_keeps session _)
    | endOfInput => exact .kept (stop_keeps session)

theorem sound_answer (h : session.store.Sound) (turn : Turn) :
    (session.answer turn).session.store.Sound := by
  cases session.effect_answer turn with
  | stored hstores hreply =>
    obtain ⟨_, hname, hnew, _, _, htext⟩ := hstores
    rw [hreply]
    apply h.add hname hnew (Tree.wellFormed_of_ofText htext)
  | deleted _ _ hreply =>
    rw [hreply]
    apply h.erase
  | starved _ hreply =>
    rw [hreply]
    exact h
  | kept hkeeps =>
    rw [hkeeps.session_eq]
    exact h

end

theorem sound_after [RecursionLimit] (alphabet : Alphabet) (turns : List Turn) :
    ((start alphabet).after turns).store.Sound :=
  after_induction (P := fun session => session.store.Sound)
    (fun _ turn h => sound_answer h turn) .empty turns

end Session

end Formulary
