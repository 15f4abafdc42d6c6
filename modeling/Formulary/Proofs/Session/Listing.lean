import Formulary.Proofs.Session.Change
import Formulary.Proofs.Session.Command
import Formulary.Proofs.Text.Lines
import Formulary.Proofs.Tree.Unambiguous

/-!
This module contains what a listing says about the store: all of it. Every entry has a line of its
own, which ends where the next one begins, and the colon behind the name is the first one on the line.
-/

namespace Formulary

theorem isLine_name {name : String} (h : isName name = true) : IsLine name := by
  intro hfeed
  cases isAlphanum_of_mem_name h '\n' hfeed

theorem Operator.isLine_spell (op : Operator) (alphabet : Alphabet) :
    IsLine (alphabet.spell op.text) := by
  cases alphabet with
  | ascii => cases op <;> decide
  | unicode =>
    rw [Alphabet.spell_unicode_text]
    cases op <;> decide

theorem Tree.isLine_form {tree : Tree} (h : tree.WellFormed) (alphabet : Alphabet) :
    IsLine (tree.form alphabet.spell) := by
  have hopening : IsLine "(" := by decide
  have hclosing : IsLine ")" := by decide
  have hblank : IsLine " " := by decide
  induction tree with
  | absent => cases h
  | constant value =>
    rcases h with rfl | rfl
    . exact (by decide : IsLine "T")
    . exact (by decide : IsLine "F")
  | identifier name => exact isLine_name h.1
  | unary op operand ih =>
    obtain ⟨rfl, hoperand⟩ := h
    simp only [form, isLine_append_iff, hopening, hclosing, Operator.isLine_spell, ih hoperand,
      and_self]
  | binary op left right lih rih =>
    obtain ⟨hop, hleft, hright⟩ := h
    obtain ⟨op, _, rfl⟩ := List.mem_map.1 hop
    simp only [form, isLine_append_iff, hopening, hclosing, hblank, Operator.isLine_spell, lih hleft,
      rih hright, and_self]

namespace Store

variable {alphabet : Alphabet} {entry other : String × Tree} {entries others : List (String × Tree)}

theorem isLine_line (h : isName entry.1 = true ∧ entry.2.WellFormed) :
    IsLine (line alphabet entry) := by
  have hcolon : IsLine ": " := by decide
  rw [line, isLine_append_iff, isLine_append_iff]
  exact ⟨⟨isLine_name h.1, hcolon⟩, Tree.isLine_form h.2 alphabet⟩

theorem takeWhile_line (h : isName entry.1 = true) :
    (line alphabet entry).toList.takeWhile Char.isAlphanum = entry.1.toList := by
  have hcolon : EndsWord (": ".toList ++ (entry.2.form alphabet.spell).toList) := .of_head rfl _
  rw [line, String.append_assoc, String.toList_append, String.toList_append,
    takeWhile_isAlphanum_append (isAlphanum_of_mem_name h) hcolon]

theorem line_injective (h : isName entry.1 = true ∧ entry.2.WellFormed)
    (hother : isName other.1 = true ∧ other.2.WellFormed)
    (heq : line alphabet entry = line alphabet other) : entry = other := by
  have hname : entry.1 = other.1 := by
    rw [← String.toList_inj, ← takeWhile_line h.1, ← takeWhile_line hother.1, heq]
  rw [line, line, hname, String.append_right_inj, Tree.form_eq_iff h.2 hother.2] at heq
  exact Prod.ext hname heq

theorem eq_of_closeLines_eq (h : ∀ entry ∈ entries, isName entry.1 = true ∧ entry.2.WellFormed)
    (hothers : ∀ entry ∈ others, isName entry.1 = true ∧ entry.2.WellFormed)
    (heq : closeLines (entries.map (line alphabet)) = closeLines (others.map (line alphabet))) :
    entries = others := by
  induction entries generalizing others with
  | nil =>
    cases others with
    | nil => rfl
    | cons other others => simp [closeLines] at heq
  | cons entry entries ih =>
    cases others with
    | nil => simp [closeLines] at heq
    | cons other others =>
      rw [List.forall_mem_cons] at h hothers
      rw [List.map_cons, List.map_cons, closeLines_cons, closeLines_cons] at heq
      -- The first lines end at the same place, so that the entries are compared one by one.
      obtain ⟨hline, hlines⟩ := cancel_line (isLine_line h.1) (isLine_line hothers.1) heq
      rw [line_injective h.1 hothers.1 hline, ih h.2 hothers.2 hlines]

theorem find?_of_mem {store : Store} {name : String} {tree : Tree}
    (h : (name, tree) ∈ store.entries) : store.find? name = some tree := by
  obtain ⟨front, rest, hentries⟩ := List.append_of_mem h
  have hdistinct := store.distinct
  rw [hentries, List.map_append, List.nodup_append] at hdistinct
  refine List.lookup_eq_some_iff.2 ⟨front, rest, hentries, ?_⟩
  intro entry hentry
  rw [bne_iff_ne]
  exact (hdistinct.2.2 entry.1 (List.mem_map_of_mem hentry) name List.mem_cons_self).symm

end Store

def Verb.lister (unicode : Bool) : Verb :=
  if unicode then .listUnicode else .list

namespace Session

variable {session : Session} {unicode : Bool} {name : String} {tree : Tree} {input : String}

theorem alphabet_after [RecursionLimit] (alphabet : Alphabet) (turns : List Turn) :
    ((start alphabet).after turns).alphabet = alphabet := by
  apply after_induction (P := fun session => session.alphabet = alphabet) _ rfl
  intro session turn h
  cases session.effect_answer turn with
  | stored _ hreply =>
    rw [hreply]
    exact h
  | deleted _ _ hreply =>
    rw [hreply]
    exact h
  | starved _ hreply =>
    rw [hreply]
    exact h
  | kept hkeeps =>
    rw [hkeeps.session_eq]
    exact h

theorem answer_argument [RecursionLimit] (verb : Verb) (argument : String) :
    session.answer ⟨verb.word ++ " " ++ argument, input⟩
      =
    session.run (.run verb (trim argument)) (firstLine? input) := by
  rw [answer, step, Command.ofLine_argument]

theorem answer_lister [RecursionLimit] (argument : String) :
    session.answer ⟨(Verb.lister unicode).word ++ " " ++ argument, input⟩
      =
    session.list unicode (trim argument) := by
  rw [answer_argument]
  cases unicode <;> rfl

theorem answer_lister_all [RecursionLimit] :
    session.answer ⟨(Verb.lister unicode).word, input⟩ = session.list unicode "" := by
  rw [answer, step, Command.ofLine_word]
  cases unicode <;> rfl

theorem list_of_empty (h : session.store.entries = []) (name : String) :
    session.list unicode name = session.say "尚未加入任何公式。\n" := by
  simp [list, h]

theorem list_all (hsound : session.store.Sound) (h : session.store.entries ≠ []) :
    session.list unicode ""
      =
    session.say (String.ofList (closeLines
      (session.store.entries.map (Store.line (session.alphabetFor unicode))))) := by
  have hformed : ∀ entry ∈ session.store.entries, entry.2.WellFormed :=
    fun entry hentry => (hsound entry hentry).2
  simp [list, h, Store.listing_eq hformed]

theorem list_of_find? (hsound : session.store.Sound) (hname : isName name = true)
    (h : session.store.find? name = some tree) :
    session.list unicode name
      =
    session.say (Store.line (session.alphabetFor unicode) (name, tree) ++ "\n") := by
  have hget := Store.get_eq_ok_iff.2 ⟨hname, h⟩
  have hentries : session.store.entries ≠ [] := by
    obtain ⟨front, rest, hentries⟩ := Store.exists_entries_of_find? h
    simp [hentries]
  have htree : ∀ entry ∈ [(name, tree)], entry.2.WellFormed := by
    rw [List.forall_mem_singleton]
    exact hsound.wellFormed_of_get hget
  have hnonempty := Store.isEmpty_of_isName hname
  have hlisting : Store.listing (session.alphabetFor unicode) [(name, tree)] = _ :=
    Store.listing_eq htree
  rw [List.map_singleton, ofList_closeLines_singleton] at hlisting
  simp [list, hentries, hnonempty, hget, Except.map, hlisting]

theorem list_all_ne (hsound : session.store.Sound) (h : session.store.entries ≠ []) :
    (session.list unicode "").out ≠ "尚未加入任何公式。\n" := by
  obtain ⟨entry, entries, hentries⟩ := List.exists_cons_of_ne_nil h
  have hentry : entry ∈ session.store.entries := by simp [hentries]
  have hmessage : EndsWord "尚未加入任何公式。\n".toList := .of_head rfl _
  rw [list_all hsound h, hentries, List.map_cons]
  intro hout
  -- The listing starts with a name, and the message does not.
  rw [← hout] at hmessage
  simp only [say, String.toList_ofList, closeLines_cons, Store.line, String.toList_append,
    List.append_assoc] at hmessage
  exact not_endsWord_name (hsound entry hentry).1 _ hmessage

theorem out_eq_iff_of_empty (hsound : session.store.Sound) :
    (session.list unicode "").out = "尚未加入任何公式。\n" ↔ session.store.entries = [] := by
  constructor
  . intro hout
    by_contra hne
    exact list_all_ne hsound hne hout
  . intro hempty
    rw [list_of_empty hempty]
    rfl

theorem store_eq_of_out_eq {other : Session} (hsound : session.store.Sound)
    (hother : other.store.Sound)
    (halphabet : session.alphabetFor unicode = other.alphabetFor unicode)
    (hout : (session.list unicode "").out = (other.list unicode "").out) :
    session.store = other.store := by
  apply Store.ext
  by_cases hempty : session.store.entries = []
  . rw [(out_eq_iff_of_empty hsound).2 hempty] at hout
    rw [hempty, (out_eq_iff_of_empty hother).1 hout.symm]
  . have hne : other.store.entries ≠ [] := by
      intro hotherEmpty
      rw [(out_eq_iff_of_empty hother).2 hotherEmpty, out_eq_iff_of_empty hsound] at hout
      exact hempty hout
    rw [list_all hsound hempty, list_all hother hne, ← halphabet] at hout
    have hchars := congrArg String.toList hout
    simp only [say, String.toList_ofList] at hchars
    exact Store.eq_of_closeLines_eq hsound hother hchars

theorem toList_list_all (hsound : session.store.Sound) (h : session.store.entries ≠ []) :
    (session.list unicode "").out.toList
      =
    session.store.names.flatMap fun name => (session.list unicode name).out.toList := by
  rw [list_all hsound h, Store.names, List.flatMap_map]
  simp only [say, String.toList_ofList]
  rw [closeLines, List.flatMap_map]
  apply List.flatMap_congr
  intro entry hentry
  rw [list_of_find? hsound (hsound entry hentry).1 (Store.find?_of_mem hentry)]
  simp only [say, String.toList_append]
  rfl

theorem listing_dumps_store [RecursionLimit] (alphabet : Alphabet) (turns others : List Turn)
    (unicode : Bool) (input : String) :
    let session := (start alphabet).after turns
    let other := (start alphabet).after others
    let verb := Verb.lister unicode
    let reply := session.answer ⟨verb.word, input⟩
    (reply.out = (other.answer ⟨verb.word, input⟩).out → session.store = other.store)
      ∧ (reply.out = "尚未加入任何公式。\n" ↔ session.store.entries = [])
      ∧ (session.store.entries ≠ [] →
        reply.outcome = .ok false
          ∧ (∃ lines, reply.out.toList = closeLines lines ∧ (∀ line ∈ lines, IsLine line)
            ∧ session.store.entries.Forall₂
              (fun entry line => ∃ form, entry.2.render (session.alphabetFor unicode) = .ok form
                ∧ line = entry.1 ++ ": " ++ form) lines)
          ∧ reply.out.toList = session.store.names.flatMap fun name =>
            (session.answer ⟨verb.word ++ " " ++ name, input⟩).out.toList) := by
  intro session other verb reply
  have hsound : session.store.Sound := sound_after alphabet turns
  have hotherSound : other.store.Sound := sound_after alphabet others
  have halphabet : session.alphabetFor unicode = other.alphabetFor unicode := by
    rw [alphabetFor, alphabetFor, alphabet_after, alphabet_after]
  have hreply : reply = session.list unicode "" := answer_lister_all
  have hother : other.answer ⟨verb.word, input⟩ = other.list unicode "" := answer_lister_all
  rw [hreply, hother]
  refine ⟨store_eq_of_out_eq hsound hotherSound halphabet, out_eq_iff_of_empty hsound, ?_⟩
  intro hne
  refine ⟨?_, ⟨session.store.entries.map (Store.line (session.alphabetFor unicode)), ?_, ?_, ?_⟩, ?_⟩
  . rw [list_all hsound hne]
    rfl
  . rw [list_all hsound hne]
    exact String.toList_ofList
  . rw [List.forall_mem_map]
    intro entry hentry
    exact Store.isLine_line (hsound entry hentry)
  . rw [List.forall₂_map_right_iff, List.forall₂_same]
    intro entry hentry
    exact ⟨_, Tree.render_of_wellFormed (hsound entry hentry).2 _, rfl⟩
  . rw [toList_list_all hsound hne]
    apply List.flatMap_congr
    intro name hname
    rw [answer_lister, trim_name (hsound.isName_of_mem hname)]

/--
Two sessions that came to the same formulas in different ways.
-/
theorem listing_dumps_store_readded :
    let turns : List Turn := [⟨"new f", "~a\n"⟩, ⟨"new g", "T\n"⟩, ⟨"del f", ""⟩, ⟨"new f", "~a\n"⟩]
    let others : List Turn := [⟨"new g", " T\n"⟩, ⟨"new f", "~ a\n"⟩]
    let session := (start .unicode).after turns
    let other := (start .unicode).after others
    session.store.names = ["g", "f"]
      ∧ (session.answer ⟨"list", ""⟩).out = "g: T\nf: (¬a)\n"
      ∧ (session.answer ⟨"list", ""⟩).out = (other.answer ⟨"list", ""⟩).out
      ∧ session.store = other.store
      ∧ (session.answer ⟨"list", ""⟩).out ≠ "尚未加入任何公式。\n"
      ∧ (session.answer ⟨"list", ""⟩).out.toList
        = ["g", "f"].flatMap fun name => (session.answer ⟨"list " ++ name, ""⟩).out.toList := by
  intro turns others session other
  have hnames : session.store.names = ["g", "f"] := by rfl
  have hout : (session.answer ⟨"list", ""⟩).out = "g: T\nf: (¬a)\n" := by decide +kernel
  have hother : (other.answer ⟨"list", ""⟩).out = "g: T\nf: (¬a)\n" := by decide +kernel
  have hsame := hout.trans hother.symm
  have hne : session.store.entries ≠ [] := by
    intro hempty
    rw [Store.names, hempty] at hnames
    cases hnames
  obtain ⟨hstore, hmessage, hlisting⟩ := listing_dumps_store .unicode turns others false ""
  obtain ⟨_, _, hparts⟩ := hlisting hne
  rw [hnames] at hparts
  exact ⟨hnames, hout, hsame, hstore hsame, fun h => hne (hmessage.1 h), hparts⟩

end Session

end Formulary
