import Formulary.Proofs.Session.Change

/-!
This module contains when commands fail. Since the store binds names to formulas only, every command
finds what it prints, and only a new formula that is not there makes one fail.
-/

namespace Formulary

namespace Session

variable {session : Session} {turn : Turn}

theorem starves_of_error [RecursionLimit] (hsound : session.store.Sound) {fault : Fault}
    (h : (session.answer turn).outcome = .error fault) : session.Starves turn := by
  cases session.effect_answer turn with
  | stored _ hreply =>
    rw [hreply] at h
    cases h
  | deleted _ _ hreply =>
    rw [hreply] at h
    cases h
  | starved hstarves => exact hstarves
  | kept hkeeps =>
    obtain ⟨stop, hstop⟩ := hkeeps.exists_outcome hsound
    rw [hstop] at h
    cases h

theorem fails_only_at_end_of_input [RecursionLimit] (alphabet : Alphabet) (turns : List Turn)
    (turn : Turn) :
    let session := (start alphabet).after turns
    let reply := session.answer turn
    (∀ name ∈ session.store.names, isName name = true)
      ∧ session.store.names.Nodup
      ∧ (∀ entry ∈ session.store.entries, entry.2.WellFormed)
      ∧ ((∃ fault, reply.outcome = .error fault) ↔ session.Starves turn)
      ∧ (∀ fault, reply.outcome = .error fault →
        fault = .endOfInput ∧ reply.session.store = session.store) := by
  intro session reply
  have hsound : session.store.Sound := sound_after alphabet turns
  refine ⟨?_, session.store.distinct, ?_, ?_, ?_⟩
  . intro name hname
    apply hsound.isName_of_mem hname
  . intro entry hentry
    apply (hsound entry hentry).2
  . constructor
    . rintro ⟨fault, h⟩
      apply starves_of_error hsound h
    . intro h
      have hanswer := answer_of_starves h
      exact ⟨.endOfInput, congrArg Reply.outcome hanswer⟩
  . intro fault h
    have hanswer : reply = _ := answer_of_starves (starves_of_error hsound h)
    rw [hanswer] at h ⊢
    exact ⟨(Except.error.inj h).symm, rfl⟩

/--
A session that knows `~a` under the name `f` fails for want of the formula of a new name `g`, but
not for want of one of `f`.
-/
theorem fails_only_at_end_of_input_new_formula :
    let session := (start .unicode).after [⟨"new f", "~a\n"⟩]
    "f" ∈ session.store.names ∧ isName "f" = true
      ∧ (Tree.unary "~" (.identifier "a")).WellFormed
      ∧ session.Starves ⟨"new g", ""⟩
      ∧ (session.answer ⟨"new g", ""⟩).outcome = .error .endOfInput
      ∧ (session.answer ⟨"new g", ""⟩).session.store = session.store
      ∧ ¬ session.Starves ⟨"new f", ""⟩
      ∧ ¬ ∃ fault, (session.answer ⟨"new f", ""⟩).outcome = .error fault := by
  intro session
  have hnames : session.store.names = ["f"] := by rfl
  have hentries : session.store.entries = [("f", .unary "~" (.identifier "a"))] := by rfl
  have hmem : "f" ∈ session.store.names := by simp [hnames]
  have hentry : ("f", .unary "~" (.identifier "a")) ∈ session.store.entries := by simp [hentries]
  have hstarves : session.Starves ⟨"new g", ""⟩ :=
    ⟨"g", by rfl, by decide, by simp [hnames], rfl⟩
  have hstored : ¬ session.Starves ⟨"new f", ""⟩ := by
    rintro ⟨name, hcommand, _, hnew, _⟩
    have hname : Command.ofLine "new f" = .run .new "f" := by rfl
    rw [hname] at hcommand
    obtain rfl := (Command.run.inj hcommand).2
    exact hnew hmem
  obtain ⟨hvalid, _, hformed, hiff, hfault⟩ :=
    fails_only_at_end_of_input .unicode [⟨"new f", "~a\n"⟩] ⟨"new g", ""⟩
  obtain ⟨_, _, _, hother, _⟩ :=
    fails_only_at_end_of_input .unicode [⟨"new f", "~a\n"⟩] ⟨"new f", ""⟩
  obtain ⟨fault, hfails⟩ := hiff.2 hstarves
  obtain ⟨rfl, hstore⟩ := hfault fault hfails
  exact ⟨hmem, hvalid "f" hmem, hformed _ hentry, hstarves, hfails, hstore, hstored,
    fun h => hstored (hother.1 h)⟩

end Session

end Formulary
