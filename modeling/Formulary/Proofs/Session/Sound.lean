import Formulary.Proofs.Token.Misfit
import Formulary.Proofs.Tree.Traversal
import Formulary.Proofs.Tree.WellFormed
import Formulary.Session.Step

/-!
This module contains what commands rely on: the store binds names to trees of formulas, all of which
can be printed, and every error of a formula has a message.
-/

namespace Formulary

/--
Every entry of the store has a name, and the tree of a formula.
-/
def Store.Sound (store : Store) : Prop :=
  ∀ entry ∈ store.entries, isName entry.1 = true ∧ entry.2.WellFormed

namespace Store.Sound

variable {store : Store} {name : String} {tree : Tree}

theorem empty : Store.empty.Sound := by
  intro entry hentry
  cases hentry

theorem add (h : store.Sound) (hname : isName name = true) (hnew : name ∉ store.names)
    (htree : tree.WellFormed) : (store.add name tree).Sound := by
  intro entry hentry
  rw [entries_add hnew, List.mem_append, List.mem_singleton] at hentry
  rcases hentry with hentry | rfl
  . apply h entry hentry
  . exact ⟨hname, htree⟩

theorem erase (h : store.Sound) (name : String) : (store.erase name).Sound := by
  intro entry hentry
  apply h entry (List.mem_filter.1 hentry).1

theorem isName_of_mem (h : store.Sound) (hname : name ∈ store.names) : isName name = true := by
  obtain ⟨entry, hentry, rfl⟩ := List.mem_map.1 hname
  apply (h entry hentry).1

theorem wellFormed_of_get (h : store.Sound) (hget : store.get name = .ok tree) :
    tree.WellFormed := by
  obtain ⟨front, rest, hentries⟩ := exists_entries_of_find? (get_eq_ok_iff.1 hget).2
  have hmem : (name, tree) ∈ store.entries := by simp [hentries]
  apply (h _ hmem).2

theorem wellFormed_of_chosen (h : store.Sound) {entries : List (String × Tree)}
    (hchosen : (if name.isEmpty then .ok store.entries
      else (store.get name).map fun tree => [(name, tree)]) = Except.ok entries) :
    ∀ entry ∈ entries, entry.2.WellFormed := by
  split at hchosen
  . obtain rfl := Except.ok.inj hchosen
    exact fun entry hentry => (h entry hentry).2
  . cases hget : store.get name with
    | error =>
      rw [hget] at hchosen
      cases hchosen
    | ok tree =>
      rw [hget] at hchosen
      obtain rfl := Except.ok.inj hchosen
      intro entry hentry
      obtain rfl := List.mem_singleton.1 hentry
      apply h.wellFormed_of_get hget

end Store.Sound

theorem FormulaError.exists_message [RecursionLimit] {text : String} {error : FormulaError}
    (h : Tree.ofText text = .error error) : ∃ message, error.message = .ok message := by
  unfold Tree.ofText at h
  split at h
  . next hscan =>
    obtain rfl := Except.error.inj h
    apply LexError.exists_message hscan
  . split at h
    . obtain rfl := Except.error.inj h
      exact ⟨_, rfl⟩
    . cases h

namespace Store

def line (alphabet : Alphabet) (entry : String × Tree) : String :=
  entry.1 ++ ": " ++ entry.2.form alphabet.spell

theorem listing_eq {entries : List (String × Tree)} {alphabet : Alphabet}
    (h : ∀ entry ∈ entries, entry.2.WellFormed) :
    listing alphabet entries
      =
    (String.ofList (closeLines (entries.map (line alphabet))), .ok ()) := by
  induction entries with
  | nil => rfl
  | cons entry entries ih =>
    obtain ⟨name, tree⟩ := entry
    rw [List.forall_mem_cons] at h
    simp only [listing, Tree.render_of_wellFormed h.1, ih h.2, Prod.mk.injEq, and_true]
    rw [← String.toList_inj, List.map_cons, closeLines_cons]
    simp [line]

end Store

end Formulary
