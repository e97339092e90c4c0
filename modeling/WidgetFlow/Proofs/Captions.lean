import Mathlib.Data.List.Forall2
import WidgetFlow.Proofs.Planting

/-!
# Texts and drawables after an analysis

A node has the texts and the drawables that its template asks for, if it was made for one, and those that operations set
(`Solver.Captioned`). A step that adds one has such a reason (`Solver.Rests`, `Solver.Makes`), and at the end no operation
has anything left to add, so nothing is missing either (`mem_captions_iff`).
-/

namespace WidgetFlow

open Std Relation

namespace Forest.Rel

variable {α β : Type} {R : α → β → Prop} {w : Forest α} {p : Forest β} {a : α} {b : β}

/-- Place by place, from the first to the last. -/
theorem forall₂ (h : Rel R w p) : List.Forall₂ R w.elems p.elems := by
  induction h with
  | nil => exact .nil
  | cons hab _ _ ihb ihr => exact .cons hab (List.rel_append ihb ihr)

theorem of_mem_zip (h : Rel R w p) (hab : (a, b) ∈ w.elems.zip p.elems) : R a b :=
  (List.forall₂_iff_zip.mp h.forall₂).2 hab

theorem exists_mem_zip (h : Rel R w p) (ha : a ∈ w.elems) : ∃ b, (a, b) ∈ w.elems.zip p.elems := by
  have hlength : w.elems.length ≤ p.elems.length := Nat.le_of_eq h.forall₂.length_eq
  rw [← List.map_fst_zip hlength] at ha
  obtain ⟨⟨_, b⟩, hab, rfl⟩ := List.mem_map.mp ha
  exact ⟨b, hab⟩

end Forest.Rel

/-- In a flowgraph that was just constructed, no node has a text or a drawable. -/
theorem Facet.not_mem_values_of_bare {g : Graph} {n m : NodeId} {a : Facet} (h : g.Bare) :
    m ∉ a.values (g.attributes n) := by
  intro hm
  obtain ⟨x, hx, hm⟩ := mem_values_iff.mp hm
  obtain ⟨htexts, hdrawables⟩ := h n x hx
  cases a with
  | text => simp [values, Node.attributes, htexts] at hm
  | image => simp [values, Node.attributes, hdrawables] at hm

namespace Solver

variable {s t : Solver} {c : Context} {b f : Flowgraph} {r : Resources} {n m : NodeId} {p : Phase} {key : InflationKey}
  {root : Option NodeId} {w : InflationKey → Forest NodeId} {v : Forest NodeId} {a : Facet} {part : Template.Part}

/-! ## Reasons for values -/

/-- The widget is the one that an inflation has made for this part of its template. -/
def MadeFor (r : Resources) (s : Solver) (w : InflationKey → Forest NodeId) (n : NodeId) (part : Template.Part) :
    Prop :=
  ∃ key ∈ s.flowgraph.inflations, (n, part) ∈ (w key).elems.zip (s.graph.parts r key).elems

/-- A node has all that its template asks for. -/
def Suffices (r : Resources) (g : Graph) (n : NodeId) (part : Template.Part) : Prop :=
  ∃ x, g.Bears r part.template x ∧ ∀ a : Facet, ∀ m ∈ a.values x, m ∈ a.values (g.attributes n)

/-- Nodes have what their templates ask for, and there is a reason for each value of a node. -/
structure Captioned (r : Resources) (s : Solver) (w : InflationKey → Forest NodeId) : Prop where
  shown : ∀ key ∈ s.flowgraph.inflations, (w key).Rel (Suffices r s.graph) (s.graph.parts r key)
  reason : ∀ (a : Facet) n, ∀ m ∈ a.values (s.graph.attributes n),
    (∃ part, MadeFor r s w n part ∧ ∃ k ∈ a.asked r part.template, s.graph.IsNodeOf k m) ∨ s.Sets a n m

theorem Suffices.mono {g g' : Graph} (h : Suffices r g n part) (hg : g.Grows g') : Suffices r g' n part := by
  obtain ⟨x, hx, hvalues⟩ := h
  exact ⟨x, hx.mono hg.toExtends, fun a m hm => Facet.mem_values_of_grows hg (hvalues a m hm)⟩

theorem suffices_of_shows {g : Graph} (h : g.Shows r n part) : Suffices r g n part :=
  ⟨g.attributes n, h.bears, fun _ _ hm => hm⟩

theorem Rests.madeFor_iff (h : Rests s t) (hw : Planted r b f s w) (hst : s.Le t) :
    MadeFor r t w n part ↔ MadeFor r s w n part := by
  rw [MadeFor, MadeFor, h.inflations]
  exact exists_congr fun key => and_congr_right fun hkey => by rw [(hw.copied key hkey).parts_eq hst]

theorem Makes.parts_eq (h : Makes r key root v s t) (hst : s.Le t) : t.graph.parts r key = s.graph.parts r key := by
  obtain ⟨i, hi⟩ := h.id
  exact Graph.parts_eq hst.op? hst.graph.toExtends hi

theorem Makes.madeFor_iff (h : Makes r key root v s t) (hw : Planted r b f s w) (hst : s.Le t) :
    MadeFor r t (Function.update w key v) n part ↔
      (n, part) ∈ v.elems.zip (s.graph.parts r key).elems ∨ MadeFor r s w n part := by
  rw [MadeFor, h.exists_iff (P := fun key' x => (n, part) ∈ x.elems.zip (t.graph.parts r key').elems), h.parts_eq hst]
  refine or_congr Iff.rfl (exists_congr fun key' => and_congr_right fun hkey' => ?_)
  rw [(hw.copied key' hkey').parts_eq hst]

namespace Captioned

theorem frame (h : Captioned r s w) (hw : Planted r b f s w) (hst : s.Le t) (ht : Rests s t) : Captioned r t w := by
  constructor
  case shown =>
    intro key hkey
    rw [ht.inflations] at hkey
    rw [(hw.copied key hkey).parts_eq hst]
    exact (h.shown key hkey).imp fun n _ part hn => hn.mono hst.graph
  case reason =>
    intro a n m hm
    simp only [ht.madeFor_iff hw hst]
    rcases ht.values a n m hm with hm | hset
    · refine (h.reason a n m hm).imp ?_ (·.mono hst)
      rintro ⟨part, hpart, k, hk, hm⟩
      exact ⟨part, hpart, k, hk, hm.mono hst.graph.toExtends⟩
    · exact .inr hset

theorem plant (h : Captioned r s w) (hw : Planted r b f s w) (hst : s.Le t) (ht : Makes r key root v s t) :
    Captioned r t (Function.update w key v) := by
  have hcopy := ht.grown.copy
  constructor
  case shown =>
    refine (ht.forall_iff (P := fun key' x => x.Rel (Suffices r t.graph) (t.graph.parts r key'))).mpr
      ⟨?_, fun key' hkey' => ?_⟩
    · rw [ht.parts_eq hst]
      exact hcopy.imp fun n _ part hn => suffices_of_shows hn
    · rw [(hw.copied key' hkey').parts_eq hst]
      exact (h.shown key' hkey').imp fun n _ part hn => hn.mono hst.graph
  case reason =>
    intro a n m hm
    simp only [ht.madeFor_iff hw hst]
    by_cases hn : n ∈ v.elems
    · -- a new widget has what its template asks for, and nothing else
      obtain ⟨part, hpart⟩ := hcopy.exists_mem_zip hn
      exact .inl ⟨part, .inl hpart, (Facet.mem_values_of_bears (hcopy.of_mem_zip hpart).bears).mp hm⟩
    · rw [ht.grown.plants.attributes n hn] at hm
      refine (h.reason a n m hm).imp ?_ (·.mono hst)
      rintro ⟨part, hpart, k, hk, hm⟩
      exact ⟨part, .inr hpart, k, hk, hm.mono hst.graph.toExtends⟩

theorem start (hb : b.graph.Bare) (hc : b.inflations = ∅) : Captioned r { flowgraph := b } fun _ => .nil where
  shown key hkey := by simp [hc] at hkey
  reason a n m hm := absurd hm (Facet.not_mem_values_of_bare hb)

end Captioned

/-- After solving, an operation has added all values to all its receivers. -/
theorem Solved.mem_values (hs : Solved c s) (h : s.Sets a n m) : m ∈ a.values (s.graph.attributes n) := by
  obtain ⟨op, o, ho, hk, hn, hm⟩ := h
  have hresolved := hs.resolved_of ho (by rw [hk]; cases a <;> decide)
  cases a with
  | text =>
    obtain ⟨x, hx, hmem⟩ := (Option.any_eq_true _ _).mp (hresolved.text hk n hn m hm)
    exact Facet.mem_values_iff.mpr ⟨x, hx, of_decide_eq_true hmem⟩
  | image =>
    obtain ⟨x, hx, hmem⟩ := (Option.any_eq_true _ _).mp (hresolved.drawable hk n hn m hm)
    exact Facet.mem_values_iff.mpr ⟨x, hx, of_decide_eq_true hmem⟩

theorem Captioned.mem_values_iff (h : Captioned r s w) (hs : Solved c s) : m ∈ a.values (s.graph.attributes n) ↔
    (∃ part, MadeFor r s w n part ∧ ∃ k ∈ a.asked r part.template, s.graph.IsNodeOf k m) ∨ s.Sets a n m := by
  refine ⟨h.reason a n m, ?_⟩
  rintro (⟨part, ⟨key, hkey, hn⟩, k, hk, hm⟩ | hset)
  · obtain ⟨x, hx, hvalues⟩ := (h.shown key hkey).of_mem_zip hn
    exact hvalues a m ((Facet.mem_values_of_bears hx).mpr ⟨k, hk, hm⟩)
  · exact hs.mem_values hset

end Solver

namespace Solver

end Solver

end WidgetFlow
