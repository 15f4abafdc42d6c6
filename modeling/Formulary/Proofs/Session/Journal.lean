import Formulary.Proofs.Session.Change

/-!
This module contains what the log says about the store: its entries of level INFO are the changes of
the store in their order, so that the names of the store can be read off the log alone.
-/

namespace Formulary

namespace Store

theorem names_add {store : Store} {name : String} (h : name ∉ store.names) (tree : Tree) :
    (store.add name tree).names = store.names ++ [name] := by
  rw [names, entries_add h, List.map_append]
  rfl

theorem names_erase (store : Store) (name : String) :
    (store.erase name).names = store.names.erase name := by
  have hdistinct : store.names.Nodup := store.distinct
  rw [hdistinct.erase_eq_filter, names, entries_erase, names, List.filter_map]
  rfl

end Store

namespace LogEntry

def track (names : List String) : LogEntry → List String
  | noPhrase .. => names
  | rejected .. => names
  | stored name => names ++ [name]
  | deleted name => names.erase name

/--
The names that are there after all that some entries say, in their order.
-/
def replay (names : List String) (entries : List LogEntry) : List String :=
  entries.foldl track names

theorem replay_append (names : List String) (front rest : List LogEntry) :
    replay names (front ++ rest) = replay (replay names front) rest :=
  List.foldl_append

end LogEntry

namespace Session

theorem replay_answer [RecursionLimit] (session : Session) (turn : Turn) :
    LogEntry.replay session.store.names ((session.answer turn).log.filter LogEntry.isInfo)
      =
    (session.answer turn).session.store.names := by
  cases session.effect_answer turn with
  | stored hstores hreply =>
    obtain ⟨_, _, hnew, _⟩ := hstores
    rw [hreply]
    simp [LogEntry.replay, LogEntry.track, Store.names_add hnew]
  | deleted _ _ hreply =>
    rw [hreply]
    simp [LogEntry.replay, LogEntry.track, Store.names_erase]
  | starved _ hreply =>
    rw [hreply]
    rfl
  | kept hkeeps =>
    rw [hkeeps.session_eq, hkeeps.log_eq]
    rfl

theorem replay_journal [RecursionLimit] (session : Session) (turns : List Turn) :
    LogEntry.replay session.store.names ((session.journal turns).filter LogEntry.isInfo)
      =
    (session.after turns).store.names := by
  induction turns generalizing session with
  | nil => rfl
  | cons turn turns ih =>
    rw [journal, after, List.filter_append, LogEntry.replay_append, replay_answer]
    apply ih

section

variable [RecursionLimit] {session : Session} {turn : Turn} {name : String} {tree : Tree}

theorem changes_of_stores (h : session.Stores turn name tree) :
    (session.answer turn).session.store.entries = session.store.entries ++ [(name, tree)]
      ∧ (session.answer turn).log.filter LogEntry.isInfo = [.stored name] := by
  obtain ⟨_, _, hnew, _⟩ := id h
  rw [answer_of_stores h]
  exact ⟨Store.entries_add hnew tree, by simp⟩

theorem changes_of_deletes (h : session.Deletes turn name) (hname : isName name = true) :
    ∃ front tree rest,
      session.store.entries = front ++ (name, tree) :: rest
        ∧ (session.answer turn).session.store.entries = front ++ rest
        ∧ (session.answer turn).log.filter LogEntry.isInfo = [.deleted name] := by
  obtain ⟨tree, htree⟩ := Store.mem_names_iff.1 h.2
  obtain ⟨front, rest, hentries⟩ := Store.exists_entries_of_find? htree
  rw [answer_of_deletes h hname]
  exact ⟨front, tree, rest, hentries, Store.entries_erase_of_eq_append hentries, by simp⟩

theorem keeps_of_neither (hstores : ¬ ∃ name tree, session.Stores turn name tree)
    (hdeletes : ¬ ∃ name, session.Deletes turn name) :
    (session.answer turn).session = session
      ∧ (session.answer turn).log.filter LogEntry.isInfo = [] := by
  cases session.effect_answer turn with
  | stored h => exact absurd ⟨_, _, h⟩ hstores
  | deleted h => exact absurd ⟨_, h⟩ hdeletes
  | starved _ hreply =>
    rw [hreply]
    exact ⟨rfl, rfl⟩
  | kept hkeeps => exact ⟨hkeeps.session_eq, hkeeps.log_eq⟩

end

theorem store_changes_are_logged [RecursionLimit] (alphabet : Alphabet) (turns : List Turn)
    (turn : Turn) :
    let session := (start alphabet).after turns
    let reply := session.answer turn
    (∀ name tree, session.Stores turn name tree →
        reply.session.store.entries = session.store.entries ++ [(name, tree)]
          ∧ reply.log.filter LogEntry.isInfo = [.stored name])
      ∧ (∀ name, session.Deletes turn name → ∃ front tree rest,
        session.store.entries = front ++ (name, tree) :: rest
          ∧ reply.session.store.entries = front ++ rest
          ∧ reply.log.filter LogEntry.isInfo = [.deleted name])
      ∧ ((¬ ∃ name tree, session.Stores turn name tree) → (¬ ∃ name, session.Deletes turn name) →
        reply.session = session ∧ reply.log.filter LogEntry.isInfo = [])
      ∧ LogEntry.replay [] (((start alphabet).journal turns).filter LogEntry.isInfo)
          = session.store.names := by
  dsimp only
  have hsound := sound_after alphabet turns
  refine ⟨?_, ?_, ?_, ?_⟩
  . intro name tree h
    apply changes_of_stores h
  . intro name h
    apply changes_of_deletes h (hsound.isName_of_mem h.2)
  . intro hstores hdeletes
    apply keeps_of_neither hstores hdeletes
  . exact replay_journal (start alphabet) turns

/--
A session that stored `f` and `g` and deleted `f` again, seen when `f` is stored anew, when `g` is
deleted, and when `g`, which is taken, is to be stored.
-/
theorem store_changes_are_logged_readded :
    let turns : List Turn := [⟨"new f", "~a\n"⟩, ⟨"new g", "T\n"⟩, ⟨"del f", ""⟩]
    let session := (start .ascii).after turns
    let storing := session.answer ⟨"new f", "F\n"⟩
    let deleting := session.answer ⟨"del g", ""⟩
    let refusing := session.answer ⟨"new g", "F\n"⟩
    session.Stores ⟨"new f", "F\n"⟩ "f" (.constant "F")
      ∧ storing.session.store.entries = [("g", .constant "T"), ("f", .constant "F")]
      ∧ storing.log.filter LogEntry.isInfo = [.stored "f"]
      ∧ session.Deletes ⟨"del g", ""⟩ "g"
      ∧ deleting.log.filter LogEntry.isInfo = [.deleted "g"]
      ∧ (¬ ∃ name tree, session.Stores ⟨"new g", "F\n"⟩ name tree)
      ∧ (¬ ∃ name, session.Deletes ⟨"new g", "F\n"⟩ name)
      ∧ refusing.session = session
      ∧ LogEntry.replay [] (((start .ascii).journal turns).filter LogEntry.isInfo) = ["g"] := by
  intro turns session storing deleting refusing
  have hentries : session.store.entries = [("g", .constant "T")] := by rfl
  have hnames : session.store.names = ["g"] := by rw [Store.names, hentries]; rfl
  have hstores : session.Stores ⟨"new f", "F\n"⟩ "f" (.constant "F") :=
    ⟨by rfl, by decide, by simp [hnames], "F", by rfl, by rfl⟩
  have hdeletes : session.Deletes ⟨"del g", ""⟩ "g" := ⟨by rfl, by simp [hnames]⟩
  have hcommand : Command.ofLine "new g" = .run .new "g" := by rfl
  have hstored : ¬ ∃ name tree, session.Stores ⟨"new g", "F\n"⟩ name tree := by
    rintro ⟨name, _, hnew, _, hfree, _⟩
    rw [hcommand] at hnew
    obtain rfl := (Command.run.inj hnew).2
    simp [hnames] at hfree
  have hdeleted : ¬ ∃ name, session.Deletes ⟨"new g", "F\n"⟩ name := by
    rintro ⟨_, hdelete, _⟩
    rw [hcommand] at hdelete
    cases hdelete
  obtain ⟨hstoring, _, _, hreplay⟩ :=
    store_changes_are_logged .ascii turns ⟨"new f", "F\n"⟩
  obtain ⟨_, hdeleting, _, _⟩ := store_changes_are_logged .ascii turns ⟨"del g", ""⟩
  obtain ⟨_, _, hrefusing, _⟩ := store_changes_are_logged .ascii turns ⟨"new g", "F\n"⟩
  obtain ⟨hadded, hlogged⟩ := hstoring _ _ hstores
  obtain ⟨_, _, _, _, _, hremoved⟩ := hdeleting _ hdeletes
  obtain ⟨hsame, _⟩ := hrefusing hstored hdeleted
  rw [hentries] at hadded
  rw [hnames] at hreplay
  exact ⟨hstores, hadded, hlogged, hdeletes, hremoved, hstored, hdeleted, hsame, hreplay⟩

end Session

end Formulary
