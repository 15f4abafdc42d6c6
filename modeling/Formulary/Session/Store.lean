import Formulary.Tree.Basic

/-!
This module contains the store of named formulas, which keeps them in the order in which they were
added.
-/

namespace Formulary

/--
Formulas under distinct names, the oldest first.
-/
structure Store where
  entries : List (String × Tree)
  distinct : (entries.map Prod.fst).Nodup

namespace Store

def empty : Store :=
  ⟨[], List.nodup_nil⟩

def names (store : Store) : List String :=
  store.entries.map Prod.fst

def find? (store : Store) (name : String) : Option Tree :=
  store.entries.lookup name

/--
Adds a formula under a new name. A name that is in use keeps its formula.
-/
def add (store : Store) (name : String) (tree : Tree) : Store :=
  if h : name ∈ store.names then
    store
  else
    ⟨store.entries ++ [(name, tree)], by
      rw [List.map_append, List.nodup_append]
      refine ⟨store.distinct, by simp, ?_⟩
      intro old hold new hnew
      simp only [List.map_cons, List.map_nil, List.mem_singleton] at hnew
      rw [hnew]
      rintro rfl
      exact h hold⟩

def erase (store : Store) (name : String) : Store :=
  ⟨store.entries.filter (·.1 != name),
    List.Nodup.sublist (List.filter_sublist.map Prod.fst) store.distinct⟩

@[ext]
theorem ext {store other : Store} (h : store.entries = other.entries) : store = other := by
  cases store
  cases other
  simp_all

theorem entries_add {store : Store} {name : String} (h : name ∉ store.names) (tree : Tree) :
    (store.add name tree).entries = store.entries ++ [(name, tree)] := by
  simp [add, h]

@[simp]
theorem entries_erase (store : Store) (name : String) :
    (store.erase name).entries = store.entries.filter (·.1 != name) := rfl

theorem find?_eq_none_iff {store : Store} {name : String} :
    store.find? name = none ↔ name ∉ store.names := by
  simp only [find?, names, List.lookup_eq_none_iff, List.mem_map]
  grind

theorem mem_names_iff {store : Store} {name : String} :
    name ∈ store.names ↔ ∃ tree, store.find? name = some tree := by
  rw [← Option.isSome_iff_exists, ← Option.ne_none_iff_isSome, Ne, find?_eq_none_iff,
    Decidable.not_not]

theorem exists_entries_of_find? {store : Store} {name : String} {tree : Tree}
    (h : store.find? name = some tree) :
    ∃ front rest, store.entries = front ++ (name, tree) :: rest := by
  obtain ⟨front, rest, hentries, _⟩ := List.lookup_eq_some_iff.1 h
  exact ⟨front, rest, hentries⟩

theorem entries_erase_of_eq_append {store : Store} {name : String} {tree : Tree}
    {front rest : List (String × Tree)} (h : store.entries = front ++ (name, tree) :: rest) :
    (store.erase name).entries = front ++ rest := by
  have hdistinct := store.distinct
  rw [h, List.map_append, List.map_cons, List.nodup_append, List.nodup_cons] at hdistinct
  obtain ⟨_, ⟨hrest, _⟩, hfront⟩ := hdistinct
  have keep {entries : List (String × Tree)} (hname : name ∉ entries.map Prod.fst) :
      entries.filter (·.1 != name) = entries := by
    rw [List.filter_eq_self]
    intro entry hentry
    rw [bne_iff_ne]
    rintro rfl
    exact hname (List.mem_map_of_mem hentry)
  have hfront : name ∉ front.map Prod.fst := fun hname =>
    hfront name hname name List.mem_cons_self rfl
  rw [entries_erase, h, List.filter_append, List.filter_cons, keep hfront, keep hrest]
  simp

end Store

end Formulary
