import Formulary.Proofs.Tree.Nesting
import Formulary.Proofs.Tree.Walk
import Mathlib.Data.Finset.Sort
import Mathlib.Data.String.Basic

/-!
This module contains what is measured of any tree, however it was built: the depth is the height of
the tree, the identifiers are those that occur in it, and there is neither where a node is absent.
-/

namespace Formulary

theorem pairwise_lt_eraseReps {α : Type} [LinearOrder α] {as : List α}
    (h : as.Pairwise (· ≤ ·)) : as.eraseReps.Pairwise (· < ·) := by
  cases as with
  | nil => exact .nil
  | cons a as =>
    induction as generalizing a with
    | nil => apply List.pairwise_singleton
    | cons b as ih =>
      rw [List.pairwise_cons] at h
      rw [eraseReps_cons_cons]
      split
      . next heq =>
        obtain rfl := eq_of_beq heq
        apply ih a h.2
      . next hne =>
        rw [List.pairwise_cons]
        refine ⟨?_, ih b h.2⟩
        intro c hc
        rw [beq_iff_eq] at hne
        have hlt : a < b := lt_of_le_of_ne (h.1 b List.mem_cons_self) hne
        rcases List.mem_cons.1 (mem_eraseReps.1 hc) with rfl | hc
        . exact hlt
        . exact hlt.trans_le ((List.pairwise_cons.1 h.2).1 c hc)

theorem eraseReps_mergeSort_eq_sort (names : List String) :
    (names.mergeSort (· ≤ ·)).eraseReps = names.toFinset.sort := by
  have htrans : ∀ a b c : String, decide (a ≤ b) = true → decide (b ≤ c) = true →
      decide (a ≤ c) = true := by
    simpa using fun _ _ _ => le_trans
  have htotal : ∀ a b : String, (decide (a ≤ b) || decide (b ≤ a)) = true := by
    simpa using le_total
  have hsorted : (names.mergeSort (· ≤ ·)).Pairwise (· ≤ ·) := by
    simpa using List.pairwise_mergeSort htrans htotal names
  have hstrict := pairwise_lt_eraseReps hsorted
  have hmem : (names.mergeSort (· ≤ ·)).eraseReps.toFinset = names.toFinset := by
    ext name
    rw [List.mem_toFinset, mem_eraseReps, List.mem_mergeSort, List.mem_toFinset]
  rw [← hmem]
  exact ((List.toFinset_sort _ (hstrict.imp ne_of_lt)).2 (hstrict.imp le_of_lt)).symm

namespace Tree

def names : Tree → Finset String
  | absent => ∅
  | constant _ => ∅
  | identifier name => {name}
  | unary _ operand => operand.names
  | binary _ left right => left.names ∪ right.names

theorem toFinset_occurrences (tree : Tree) : tree.occurrences.toFinset = tree.names := by
  induction tree with
  | absent => rfl
  | constant => rfl
  | identifier => rfl
  | unary _ _ ih => exact ih
  | binary _ _ _ lih rih => rw [occurrences, List.toFinset_append, lih, rih, names]

theorem complete_iff {tree : Tree} : tree.Complete ↔ absent ∉ tree.preorder := by
  induction tree with
  | absent => simp [Complete, preorder]
  | constant => simp [Complete, preorder]
  | identifier => simp [Complete, preorder]
  | unary _ _ ih => simp [Complete, preorder, ih]
  | binary _ _ _ lih rih => simp [Complete, preorder, lih, rih]

theorem mem_tail_preorder_iff {tree : Tree} (h : tree ≠ absent) :
    absent ∈ tree.preorder.tail ↔ absent ∈ tree.preorder := by
  cases tree with
  | absent => contradiction
  | _ => simp [preorder]

theorem map_toFinset_identifiers (tree : Tree) :
    tree.identifiers.map List.toFinset = (identifiers.go [] [tree]).map List.toFinset := by
  cases hgo : identifiers.go [] [tree] with
  | error fault => simp only [identifiers, hgo, Except.map]
  | ok names =>
    simp only [identifiers, hgo, Except.map, eraseReps_mergeSort_eq_sort, Finset.sort_toFinset]

theorem walk_depth {tree : Tree} (h : tree ≠ absent) : Walk deepen 0 [(tree, 1)] tree.depth := by
  have hgo := depth.go_walk 0 [(tree, 1)]
  cases tree with
  | absent => contradiction
  | _ => simpa only [depth] using hgo

theorem walk_identifiers (tree : Tree) :
    Walk collect ∅ [(tree, 1)] (tree.identifiers.map List.toFinset) := by
  rw [map_toFinset_identifiers]
  exact identifiers.go_walk [] [(tree, 1)]

section

variable {tree : Tree}

theorem depth_eq_error_iff :
    tree.depth = .error .missingNode ↔ absent ∈ tree.preorder.tail := by
  by_cases hpresent : tree = absent
  . rw [hpresent]
    simp [depth, preorder]
  . have hdepth := (walk_depth hpresent).eq_visitAll
    rw [nodesOf_singleton] at hdepth
    rw [mem_tail_preorder_iff hpresent, hdepth, visitAll_nodesAt_eq_error_iff]

theorem depth_of_not_mem (h : absent ∉ tree.preorder.tail) : tree.depth = .ok tree.height := by
  by_cases hpresent : tree = absent
  . rw [hpresent]
    rfl
  . rw [mem_tail_preorder_iff hpresent, ← complete_iff] at h
    apply depth_of_complete h

theorem identifiers_eq_error_iff :
    tree.identifiers = .error .missingNode ↔ absent ∈ tree.preorder := by
  have hnames := (walk_identifiers tree).eq_visitAll
  rw [nodesOf_singleton] at hnames
  rw [← visitAll_nodesAt_eq_error_iff, ← hnames]
  cases tree.identifiers with
  | error fault => simp only [Except.map, Except.error.injEq]
  | ok names => simp only [Except.map, reduceCtorEq]

theorem identifiers_of_not_mem (h : absent ∉ tree.preorder) :
    tree.identifiers = .ok tree.names.sort := by
  rw [identifiers_of_complete (complete_iff.2 h), eraseReps_mergeSort_eq_sort,
    List.toFinset_reverse, toFinset_occurrences]

end

theorem measures_follow_structure (tree : Tree) :
    (tree.depth = .error .missingNode ↔ absent ∈ tree.preorder.tail)
      ∧ (absent ∉ tree.preorder.tail → tree.depth = .ok tree.height)
      ∧ (tree.identifiers = .error .missingNode ↔ absent ∈ tree.preorder)
      ∧ (absent ∉ tree.preorder → tree.identifiers = .ok tree.names.sort)
      ∧ (tree ≠ absent → ∀ answer, Walk deepen 0 [(tree, 1)] answer ↔ answer = tree.depth)
      ∧ (∀ answer, Walk collect ∅ [(tree, 1)] answer
        ↔ answer = tree.identifiers.map List.toFinset)
      ∧ (absent ∉ tree.preorder → (∀ text ∈ tree.texts, '(' ∉ text.toList ∧ ')' ∉ text.toList) →
        ∃ depth, tree.depth = .ok depth ∧ (∃ text, tree.render .ascii = .ok text)
          ∧ ∀ alphabet text, tree.render alphabet = .ok text → depth = 1 + nesting text) := by
  refine ⟨depth_eq_error_iff, depth_of_not_mem, identifiers_eq_error_iff, identifiers_of_not_mem,
    fun h => (walk_depth h).iff_eq, (walk_identifiers tree).iff_eq, ?_⟩
  intro hmem htexts
  have hcomplete := complete_iff.2 hmem
  have hpresent : tree ≠ absent := by
    rintro rfl
    cases hcomplete
  refine ⟨_, depth_of_complete hcomplete, ?_, ?_⟩
  . refine ⟨_, (render_eq_ok_iff hpresent).2 ⟨rfl, ?_⟩⟩
    intro node hnode fault hfault
    cases hfault with
    | missingNode => contradiction
  . intro alphabet text htext
    rw [((render_eq_ok_iff hpresent).1 htext).1, nesting_form hcomplete htexts alphabet,
      Nat.add_comm]

/--
The operators of the first tree are none that a formula has, and a node of the second one is absent.
-/
theorem measures_follow_structure_unknown_operators :
    let tree := binary "?" (unary "~" (unary "!" (identifier "b")))
      (binary "&" (identifier "a") (constant "T"))
    let other := binary "&" (identifier "a") absent
    absent ∉ tree.preorder ∧ (∀ text ∈ tree.texts, '(' ∉ text.toList ∧ ')' ∉ text.toList)
      ∧ tree.depth = .ok 4 ∧ tree.identifiers = .ok tree.names.sort
      ∧ (∃ text, tree.render .ascii = .ok text ∧ nesting text = 3)
      ∧ other.depth = .error .missingNode ∧ other.identifiers = .error .missingNode
      ∧ (∀ answer, Walk deepen 0 [(other, 1)] answer → answer = .error .missingNode) := by
  intro tree other
  have hmem : absent ∉ tree.preorder := by decide
  have htexts : ∀ text ∈ tree.texts, '(' ∉ text.toList ∧ ')' ∉ text.toList := by decide
  obtain ⟨_, hdepth, _, hidentifiers, _, _, hnesting⟩ := measures_follow_structure tree
  obtain ⟨hmissing, _, hnone, _, hwalk, _, _⟩ := measures_follow_structure other
  obtain ⟨depth, hdepth', ⟨text, htext⟩, hform⟩ := hnesting hmem htexts
  have hheight := hdepth fun htail => hmem (List.mem_of_mem_tail htail)
  obtain rfl : depth = tree.height := by
    rw [hheight] at hdepth'
    exact (Except.ok.inj hdepth').symm
  have hnested : 4 = 1 + nesting text := hform .ascii text htext
  have hother : other.depth = .error .missingNode := hmissing.2 (by decide)
  refine ⟨hmem, htexts, hheight, hidentifiers hmem, ⟨text, htext, by omega⟩, hother,
    hnone.2 (by decide), ?_⟩
  intro answer h
  rw [(hwalk (by decide) answer).1 h, hother]

end Tree

end Formulary
