import WidgetFlow.Search

/-!
# What a search finds

`Leads next inner start x` says that steps of `next` go from `start` to `x`, all of them from `start` itself or from
elements of `inner`. A search finds exactly these elements (`mem_bfs`): everything found is led to (`leads_of_mem_spread`),
and what was seen together with what is found is closed under steps (`next_mem_spread`).
-/

namespace WidgetFlow.Search

open Std

variable {α : Type} {next next' : α → List α} {inner inner' : List α} {start : α}

/-- Steps of `next` go from `start` to an element, through elements of `inner` only. -/
inductive Leads (next : α → List α) (inner : List α) (start : α) : α → Prop
  | refl : Leads next inner start start
  | step {a b : α} : Leads next inner start a → a = start ∨ a ∈ inner → b ∈ next a → Leads next inner start b

namespace Leads

theorem mono (hn : ∀ a b, b ∈ next a → b ∈ next' a) (hi : ∀ a ∈ inner, a ∈ inner') {x : α}
    (h : Leads next inner start x) : Leads next' inner' start x := by
  induction h with
  | refl => exact .refl
  | step _ ha hb ih => exact .step ih (ha.imp_right (hi _)) (hn _ _ hb)

/-- The first step of a search that leaves its start. -/
theorem exists_next {x : α} (h : Leads next inner start x) : x = start ∨ ∃ a, a ∈ next start := by
  induction h with
  | refl => exact .inl rfl
  | step _ _ hb ih =>
    rcases ih with rfl | ih
    · exact .inr ⟨_, hb⟩
    · exact .inr ih

/-- What `x` leads to, `start` leads to, if the search passes through `x`. -/
theorem trans {x y : α} (h : Leads next inner start x) (hx : x = start ∨ x ∈ inner) (h' : Leads next inner x y) :
    Leads next inner start y := by
  induction h' with
  | refl => exact h
  | step _ ha hb ih =>
    refine .step ih ?_ hb
    rcases ha with rfl | ha
    · exact hx
    · exact .inr ha

end Leads

section Exactness

variable [Ord α] [TransOrd α] [LawfulEqOrd α]

theorem mem_singleton {x y : α} : y ∈ ({x} : ExtTreeSet α) ↔ y = x := by
  show y ∈ (∅ : ExtTreeSet α).insert x ↔ y = x
  rw [ExtTreeSet.mem_insert, LawfulEqCmp.compare_eq_iff_eq, eq_comm]
  simp

variable [DecidableEq α]

theorem leads_of_mem_spread {seen : ExtTreeSet α} {layer : List α}
    (hl : ∀ a ∈ layer, Leads next inner start a ∧ (a = start ∨ a ∈ inner)) {x : α}
    (hx : x ∈ spread next inner seen layer) : Leads next inner start x := by
  have hfound : ∀ {seen : ExtTreeSet α} {layer : List α},
      (∀ a ∈ layer, Leads next inner start a ∧ (a = start ∨ a ∈ inner)) →
      ∀ y ∈ (discover seen (leads next layer)).1, Leads next inner start y := by
    intro seen layer hl y hy
    obtain ⟨a, ha, hay⟩ := List.mem_flatMap.mp (mem_discover_fst.mp hy).1
    exact .step (hl a ha).1 (hl a ha).2 hay
  fun_induction spread next inner seen layer with
  | case1 seen layer found deeper _ => exact hfound hl x hx
  | case2 seen layer found deeper _ ih =>
    rcases List.mem_append.mp hx with hx | hx
    · exact hfound hl x hx
    · refine ih (fun a ha => ?_) hx
      obtain ⟨ha, hi⟩ := List.mem_filter.mp ha
      exact ⟨hfound hl a ha, .inr (of_decide_eq_true hi)⟩

/-- A search misses no step: `layer` holds all that was seen and not searched yet. -/
theorem next_mem_spread {seen : ExtTreeSet α} {layer : List α} (hl : ∀ a ∈ layer, a ∈ seen)
    (hs : ∀ a ∈ seen, a = start ∨ a ∈ inner → a ∈ layer ∨ ∀ b ∈ next a, b ∈ seen) (hstart : start ∈ seen) {a b : α}
    (ha : a ∈ seen ∨ a ∈ spread next inner seen layer) (hi : a = start ∨ a ∈ inner) (hb : b ∈ next a) :
    b ∈ seen ∨ b ∈ spread next inner seen layer := by
  fun_induction spread next inner seen layer with
  | case1 seen layer found deeper hd =>
    -- The last layer: nothing that was found now is searched further.
    have hnone : ∀ x ∈ found.1, x ∉ inner := by
      intro x hx hxi
      have : x ∈ deeper := List.mem_filter.mpr ⟨hx, decide_eq_true hxi⟩
      rw [hd] at this
      cases this
    rcases ha with ha | ha
    · rcases hs a ha hi with hal | hal
      · by_cases hbs : b ∈ seen
        · exact .inl hbs
        · exact .inr (mem_discover_fst.mpr ⟨List.mem_flatMap.mpr ⟨a, hal, hb⟩, hbs⟩)
      · exact .inl (hal b hb)
    · rcases hi with rfl | hi
      · exact absurd hstart (mem_discover_fst.mp ha).2
      · exact absurd hi (hnone a ha)
  | case2 seen layer found deeper hd ih =>
    have hsnd : ∀ x, x ∈ found.2 ↔ x ∈ seen ∨ x ∈ leads next layer := fun x => mem_discover_snd
    have hfst : ∀ x, x ∈ found.1 ↔ x ∈ leads next layer ∧ x ∉ seen := fun x => mem_discover_fst
    have hunion : ∀ x, x ∈ found.2 → x ∈ seen ∨ x ∈ found.1 := by
      intro x hx
      by_cases hxs : x ∈ seen
      · exact .inl hxs
      · exact .inr ((hfst x).mpr ⟨((hsnd x).mp hx).resolve_left hxs, hxs⟩)
    have hnew : ∀ x ∈ found.1, x ∈ found.2 := fun x hx => (hsnd x).mpr (.inr ((hfst x).mp hx).1)
    have key := ih (fun x hx => hnew x (List.mem_filter.mp hx).1)
      (by
        intro x hx hxi
        rcases hunion x hx with hx | hx
        · rcases hs x hx hxi with hl' | hn
          · exact .inr fun y hy => (hsnd y).mpr (.inr (List.mem_flatMap.mpr ⟨x, hl', hy⟩))
          · exact .inr fun y hy => (hsnd y).mpr (.inl (hn y hy))
        · rcases hxi with rfl | hxi
          · exact absurd hstart ((hfst _).mp hx).2
          · exact .inl (List.mem_filter.mpr ⟨hx, decide_eq_true hxi⟩))
      ((hsnd start).mpr (.inl hstart))
      (by
        rcases ha with ha | ha
        · exact .inl ((hsnd a).mpr (.inl ha))
        · rcases List.mem_append.mp ha with ha | ha
          · exact .inl (hnew a ha)
          · exact .inr ha)
    rcases key with hb | hb
    · rcases hunion b hb with hb | hb
      · exact .inl hb
      · exact .inr (List.mem_append_left _ hb)
    · exact .inr (List.mem_append_right _ hb)

/-- **A search finds exactly what its start leads to.** -/
theorem mem_bfs {x : α} : x ∈ bfs next inner start ↔ Leads next inner start x := by
  constructor
  · intro h
    rcases List.mem_cons.mp h with rfl | h
    · exact .refl
    · refine leads_of_mem_spread (fun a ha => ?_) h
      rw [List.mem_singleton.mp ha]
      exact ⟨.refl, .inl rfl⟩
  · intro h
    induction h with
    | refl => exact List.mem_cons_self
    | step _ hi hb ih =>
      have key : _ ∈ ({start} : ExtTreeSet α) ∨ _ ∈ spread next inner {start} [start] := next_mem_spread
        (by intro a ha; exact mem_singleton.mpr (List.mem_singleton.mp ha))
        (by intro a ha _; exact .inl (List.mem_singleton.mpr (mem_singleton.mp ha)))
        (mem_singleton.mpr rfl)
        ((List.mem_cons.mp ih).imp_left mem_singleton.mpr) hi hb
      exact List.mem_cons.mpr (key.imp_left mem_singleton.mp)

end Exactness

end WidgetFlow.Search
