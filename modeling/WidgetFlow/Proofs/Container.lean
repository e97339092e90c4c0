import Std.Data.ExtTreeMap
import Std.Data.ExtTreeSet

/-!
# Sets under keys

Membership in extensional sets and in maps whose values are sets, where a key without an entry stands for the empty
set. Every registry of the solver is such a map, and each of them is only ever added to.
-/

namespace WidgetFlow.Container

open Std

section Sets

variable {α : Type} [Ord α] [TransOrd α] [LawfulEqOrd α] [BEq α] [LawfulBEq α] {x : α}

theorem mem_ofList {l : List α} : x ∈ (ExtTreeSet.ofList l : ExtTreeSet α) ↔ x ∈ l := by
  rw [ExtTreeSet.mem_ofList, List.contains_iff_mem]

theorem mem_insertMany {t : ExtTreeSet α} {l : List α} : x ∈ t.insertMany l ↔ x ∈ t ∨ x ∈ l := by
  rw [ExtTreeSet.mem_insertMany_list, List.contains_iff_mem]

omit [BEq α] [LawfulBEq α] in
theorem mem_insert {t : ExtTreeSet α} {a : α} : x ∈ t.insert a ↔ x = a ∨ x ∈ t := by
  rw [ExtTreeSet.mem_insert, LawfulEqCmp.compare_eq_iff_eq, eq_comm]

end Sets

section Maps

variable {κ β : Type} [Ord κ] [TransOrd κ] [LawfulEqOrd κ] [Ord β] [TransOrd β] [LawfulEqOrd β] [BEq β] [LawfulBEq β]
  {m : ExtTreeMap κ (ExtTreeSet β)} {k k' : κ} {x a : β} {l : List β}

omit [BEq β] [LawfulBEq β] in
theorem mem_getD_alter : x ∈ (m.alter k fun found => some ((found.getD ∅).insert a)).getD k' ∅ ↔
    k' = k ∧ x = a ∨ x ∈ m.getD k' ∅ := by
  rw [ExtTreeMap.getD_alter]
  split
  · rename_i h
    obtain rfl := LawfulEqCmp.eq_of_compare h
    rw [Option.getD_some, mem_insert, ← ExtTreeMap.getD_eq_getD_getElem?]
    simp
  · rename_i h
    have hne : k' ≠ k := fun e => h (by rw [e]; exact ReflCmp.compare_self)
    simp [hne]

theorem mem_getD_alter_insertMany : x ∈ (m.alter k fun found => some ((found.getD ∅).insertMany l)).getD k' ∅ ↔
    k' = k ∧ x ∈ l ∨ x ∈ m.getD k' ∅ := by
  rw [ExtTreeMap.getD_alter]
  split
  · rename_i h
    obtain rfl := LawfulEqCmp.eq_of_compare h
    rw [Option.getD_some, mem_insertMany, ← ExtTreeMap.getD_eq_getD_getElem?, or_comm]
    simp
  · rename_i h
    have hne : k' ≠ k := fun e => h (by rw [e]; exact ReflCmp.compare_self)
    simp [hne]

theorem mem_getD_insert_insertMany : x ∈ (m.insert k ((m.getD k ∅).insertMany l)).getD k' ∅ ↔
    k' = k ∧ x ∈ l ∨ x ∈ m.getD k' ∅ := by
  rw [ExtTreeMap.getD_insert]
  split
  · rename_i h
    obtain rfl := LawfulEqCmp.eq_of_compare h
    rw [mem_insertMany, or_comm]
    simp
  · rename_i h
    have hne : k' ≠ k := fun e => h (by rw [e]; exact ReflCmp.compare_self)
    simp [hne]

end Maps

section Lookup

variable {κ β : Type} [Ord κ] [TransOrd κ] [LawfulEqOrd κ] {m : ExtTreeMap κ β} {k k' : κ} {v : β}

theorem getElem?_insert_of_ne (h : k' ≠ k) : (m.insert k v)[k']? = m[k']? := by
  rw [ExtTreeMap.getElem?_insert, if_neg]
  exact fun e => h (LawfulEqCmp.eq_of_compare e).symm

/-- A key that is inserted when it is new hides no other entry. -/
theorem getElem?_insert_of_getElem? {w : β} (hk : m[k]? = none) (h : m[k']? = some w) : (m.insert k v)[k']? = some w := by
  rw [getElem?_insert_of_ne, h]
  rintro rfl
  rw [hk] at h
  cases h

theorem key_mem_insert : k' ∈ m.insert k v ↔ k' = k ∨ k' ∈ m := by
  rw [ExtTreeMap.mem_insert, LawfulEqCmp.compare_eq_iff_eq, eq_comm]

theorem key_mem_alter {g : Option β → β} : k' ∈ m.alter k (fun found => some (g found)) ↔ k' = k ∨ k' ∈ m := by
  rw [ExtTreeMap.mem_alter]
  split
  · rename_i h
    simp [LawfulEqCmp.eq_of_compare h]
  · rename_i h
    have hne : k' ≠ k := fun e => h (by rw [e]; exact ReflCmp.compare_self)
    simp [hne]

theorem mem_of_getElem?_insertMany {l : List (κ × β)} (h : (m.insertMany l)[k]? = some v) :
    (k, v) ∈ l ∨ m[k]? = some v := by
  induction l generalizing m with
  | nil =>
    rw [ExtTreeMap.insertMany_nil] at h
    exact .inr h
  | cons a l ih =>
    obtain ⟨k', v'⟩ := a
    rw [ExtTreeMap.insertMany_cons] at h
    rcases ih h with h | h
    · exact .inl (List.mem_cons_of_mem _ h)
    · rw [ExtTreeMap.getElem?_insert] at h
      split at h
      · rename_i he
        cases h
        obtain rfl := LawfulEqCmp.eq_of_compare he
        exact .inl List.mem_cons_self
      · exact .inr h

/-- The entries of a map are among those that it was made of. -/
theorem mem_of_mem_toList_ofList {l : List (κ × β)} (h : (k, v) ∈ (ExtTreeMap.ofList l : ExtTreeMap κ β).toList) :
    (k, v) ∈ l := by
  rw [ExtTreeMap.mem_toList_iff_getElem?_eq_some, ExtTreeMap.ofList_eq_insertMany_empty] at h
  rcases mem_of_getElem?_insertMany h with h | h
  · exact h
  · simp at h

/-- The entry of a key that a map was made with, if all that it was made with for the key are the same. -/
theorem getElem?_ofList_of_unique {l : List (κ × β)} (h : (k, v) ∈ l) (hu : ∀ w, (k, w) ∈ l → w = v) :
    (ExtTreeMap.ofList l : ExtTreeMap κ β)[k]? = some v := by
  let : BEq κ := beqOfOrd
  have hkey : k ∈ (ExtTreeMap.ofList l : ExtTreeMap κ β) :=
    ExtTreeMap.mem_ofList.mpr (List.contains_iff_mem.mpr (List.mem_map_of_mem h))
  obtain ⟨w, hw⟩ := Option.isSome_iff_exists.mp (ExtTreeMap.mem_iff_isSome_getElem?.mp hkey)
  rw [hw, hu w (mem_of_mem_toList_ofList (ExtTreeMap.mem_toList_iff_getElem?_eq_some.mpr hw))]

end Lookup

section Lists

variable {κ β : Type} [Ord κ] [TransOrd κ] [LawfulEqOrd κ] {m : ExtTreeMap κ (List β)} {k k' : κ} {x : β} {l : List β}

theorem mem_getD_alter_append : x ∈ (m.alter k fun found => some (found.getD [] ++ l)).getD k' [] ↔
    k' = k ∧ x ∈ l ∨ x ∈ m.getD k' [] := by
  rw [ExtTreeMap.getD_alter]
  split
  · rename_i h
    obtain rfl := LawfulEqCmp.eq_of_compare h
    rw [Option.getD_some, List.mem_append, ← ExtTreeMap.getD_eq_getD_getElem?, or_comm]
    simp
  · rename_i h
    have hne : k' ≠ k := fun e => h (by rw [e]; exact ReflCmp.compare_self)
    simp [hne]

theorem mem_getD_foldl_alter_append {ks : List κ} :
    x ∈ (ks.foldl (fun m k => m.alter k fun found => some (found.getD [] ++ l)) m).getD k' [] ↔
      k' ∈ ks ∧ x ∈ l ∨ x ∈ m.getD k' [] := by
  induction ks generalizing m with
  | nil => simp
  | cons k ks ih =>
    rw [List.foldl_cons, ih, mem_getD_alter_append, List.mem_cons, or_and_right, or_left_comm, or_assoc]

/-- What is under a key is in an entry. -/
theorem exists_of_mem_getD (h : x ∈ m.getD k []) : ∃ xs, (k, xs) ∈ m.toList ∧ x ∈ xs := by
  rw [ExtTreeMap.getD_eq_getD_getElem?] at h
  cases hk : m[k]? with
  | none => simp [hk] at h
  | some xs => exact ⟨xs, ExtTreeMap.mem_toList_iff_getElem?_eq_some.mpr hk, by simpa [hk] using h⟩

end Lists

end WidgetFlow.Container
