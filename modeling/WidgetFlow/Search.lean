import Std.Data.ExtTreeSet

/-!
# Breadth-first search

`Search.bfs next inner start` lists what `start` leads to along `next`, layer by layer and each element once. Only the
elements of `inner` (and `start` itself) are searched further, so the list is finite: every layer but the last takes
an element of `inner` that was not seen before.

* `mem_discover_fst`, `mem_discover_snd`: one layer adds exactly what was not seen.
-/

namespace WidgetFlow.Search

open Std

variable {α : Type} [Ord α] [TransOrd α]

/-! ## One layer -/

/-- The elements of a list that are not in `seen`, each once and in order, and `seen` together with them. -/
def discover (seen : ExtTreeSet α) : List α → List α × ExtTreeSet α
  | [] => ([], seen)
  | a :: as =>
    if a ∈ seen then discover seen as
    else
      let found := discover (seen.insert a) as
      (a :: found.1, found.2)

theorem mem_discover_snd [LawfulEqOrd α] {x : α} : ∀ {as : List α} {seen : ExtTreeSet α},
    x ∈ (discover seen as).2 ↔ x ∈ seen ∨ x ∈ as
  | [], seen => by simp [discover]
  | a :: as, seen => by
    unfold discover
    split
    · rename_i ha
      rw [mem_discover_snd, List.mem_cons]
      constructor
      · rintro (h | h) <;> simp [h]
      · rintro (h | rfl | h)
        · exact .inl h
        · exact .inl ha
        · exact .inr h
    · simp only [mem_discover_snd, ExtTreeSet.mem_insert, LawfulEqCmp.compare_eq_iff_eq, List.mem_cons]
      constructor
      · rintro ((rfl | h) | h) <;> simp [*]
      · rintro (h | rfl | h) <;> simp [*]

theorem mem_discover_fst [LawfulEqOrd α] {x : α} : ∀ {as : List α} {seen : ExtTreeSet α},
    x ∈ (discover seen as).1 ↔ x ∈ as ∧ x ∉ seen
  | [], seen => by simp [discover]
  | a :: as, seen => by
    unfold discover
    split
    · rename_i ha
      rw [mem_discover_fst, List.mem_cons]
      constructor
      · rintro ⟨h, hs⟩; exact ⟨.inr h, hs⟩
      · rintro ⟨rfl | h, hs⟩
        · exact absurd ha hs
        · exact ⟨h, hs⟩
    · rename_i ha
      simp only [List.mem_cons, mem_discover_fst, ExtTreeSet.mem_insert, LawfulEqCmp.compare_eq_iff_eq]
      constructor
      · rintro (rfl | ⟨h, hs⟩)
        · exact ⟨.inl rfl, ha⟩
        · exact ⟨.inr h, fun hx => hs (.inr hx)⟩
      · rintro ⟨rfl | h, hs⟩
        · exact .inl rfl
        · by_cases hx : a = x
          · exact .inl hx.symm
          · exact .inr ⟨h, fun h' => h'.elim hx hs⟩

/-! ## The layers -/

/-- The elements of `inner` that a search has not seen. -/
def unseen (inner : List α) (seen : ExtTreeSet α) : List α :=
  inner.filter (· ∉ seen)

/-- Seeing more, and something new of `inner`, leaves less to see. -/
theorem length_unseen_lt {inner : List α} {seen seen' : ExtTreeSet α} (h : ∀ x ∈ seen, x ∈ seen') {a : α}
    (ha : a ∈ inner) (hs : a ∉ seen) (hs' : a ∈ seen') : (unseen inner seen').length < (unseen inner seen).length := by
  have hsub : unseen inner seen' = (unseen inner seen).filter (· ∉ seen') := by
    simp only [unseen, List.filter_filter]
    refine List.filter_congr fun x _ => ?_
    by_cases hx : x ∈ seen'
    · simp [hx]
    · have : x ∉ seen := fun h' => hx (h x h')
      simp [hx, this]
  have hmem : a ∈ unseen inner seen := by simp [unseen, ha, hs]
  rw [hsub]
  refine Nat.lt_of_le_of_ne (List.length_filter_le _ _) fun heq => ?_
  have := (List.length_filter_eq_length_iff.mp heq) a hmem
  simp [hs'] at this

/-- What the elements of a layer lead to in one step. -/
def leads (next : α → List α) (layer : List α) : List α :=
  layer.flatMap next

variable [DecidableEq α]

/-- What a layer leads to beyond `seen`, layer after layer; only elements of `inner` are searched further. -/
def spread [LawfulEqOrd α] (next : α → List α) (inner : List α) (seen : ExtTreeSet α) (layer : List α) : List α :=
  let found := discover seen (leads next layer)
  let deeper := found.1.filter (· ∈ inner)
  if deeper = [] then found.1 else found.1 ++ spread next inner found.2 deeper
termination_by (unseen inner seen).length
decreasing_by
  rename_i hne
  obtain ⟨a, ha⟩ := List.exists_mem_of_ne_nil _ hne
  obtain ⟨hfound, hinner⟩ := List.mem_filter.mp ha
  exact length_unseen_lt (fun x hx => mem_discover_snd.mpr (.inl hx)) (of_decide_eq_true hinner)
    (mem_discover_fst.mp hfound).2 (mem_discover_snd.mpr (.inr (mem_discover_fst.mp hfound).1))

/-- Everything that `start` leads to, itself first, by distance. -/
def bfs [LawfulEqOrd α] (next : α → List α) (inner : List α) (start : α) : List α :=
  start :: spread next inner {start} [start]

end WidgetFlow.Search
