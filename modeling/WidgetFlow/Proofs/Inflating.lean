import WidgetFlow.Proofs.Copying
import WidgetFlow.Proofs.Resolving

/-!
# Inflation follows the steps

The widgets of a layout are made one after the other, each with its attributes and with the flow into the methods of its
class, and put inside each other (`Solver.Inflates`). Afterwards every inflation that is due was made, and the topmost
widgets are where they belong (`Solver.Inflated`).

* `inflateView_tries`, `inflateItem_tries`: by induction on the template, the new widgets are a copy of it, and without a
  new widget nothing has changed;
* `inflate_tries`: all inflations.
-/

namespace WidgetFlow

open Std Relation Flowgraph

namespace Solver

variable {s t u : Solver} {c : Context} {op n m l w v r : NodeId} {x : Operand} {slot : Slot} {p : Phase}
  {origin : NodeId × NodeId}

/-! ## Widgets -/

theorem remark_does {r : Remark} {location : Option Label} :
    Does (ReflTransGen (Inflates c)) c s (remark r location) fun _ t =>
      t.graph = s.graph ∧ ∀ origin, Plants origin [] [] s t :=
  .of_run rfl (.single (.note (fun _ => rfl) (fun _ h => h) fun _ h => .inl h))
    ⟨rfl, fun _ => .of_graph rfl rfl rfl fun _ h => h⟩

section Widgets

variable {t : Template} {object : Obj} {f : Flowgraph}
  (hf : Equips c.Interns c.project.resources t s.graph.size (s.flowgraph.withNode (.object object)) f)
include hf

/-- A fresh node that got its attributes has a place in the order of steps. -/
theorem widget_inflates {f₂ : Flowgraph} {pending : Bool} {log : List Log.Entry} (hobj : object.isWidget = true)
    (h₂ : Edits c.Interns f f₂)
    (hp : pending = false → s.pending = false ∧ ∀ a ∈ f₂.graph.flow, a ∈ f.graph.flow) :
    Inflates c s (s.made f₂ log origin pending) := by
  obtain ⟨f₁, id, texts, drawables, hn, hb, rfl⟩ := hf
  refine .widget hobj hn.edits ?_ h₂ (fun hpending => ⟨(hp hpending).1, fun a ha => ?_⟩)
    fun m hm => hb.lt (by simpa using hm)
  · rw [graph, node?_of_names hn]
    rfl
  · have := (hp hpending).2 a ha
    have hflow : f₁.graph.flow = s.graph.flow := hn.flow
    exact hflow ▸ this

/-- A new widget is what was asked for. -/
theorem object?_of_equips (hobj : object.isWidget = true) : f.graph.object? s.graph.size = some object :=
  (shows_made hf (refl_of Apart f) hobj).object

theorem sound_of_equips (hs : s.flowgraph.Sound) (hobj : object.isWidget = true) : f.Sound := by
  obtain ⟨f₁, id, texts, drawables, hn, hb, rfl⟩ := hf
  refine Sound.modify ((hs.withNode hobj).edits hn.edits) (fun a ha => Node.equip_grows ?_) (fun _ => rfl)
    fun a ha => ha.equip fun m hm => hb.lt (by simpa using hm)
  rw [graph, node?_of_names hn] at ha
  cases ha
  rfl

end Widgets

theorem inflateWidget_inflates {layout : NodeId} {cls : String} {t : Template} (hs : s.flowgraph.Sound)
    (hU : ∀ k ∈ t.attributeKinds c.project.resources, c.Interns k) :
    Does (ReflTransGen (Inflates c)) c s (inflateWidget op layout cls t) fun n u =>
      u.graph.object? n = some (.inflated cls) := by
  refine .restore (T := Anyhow) ?_
  unfold inflateWidget
  refine .bind (addInflated_does hU) fun n u₁ _ hmade => ?_
  obtain ⟨rfl, f, hf, rfl⟩ := hmade
  have hw := object?_of_equips hf rfl
  have hcall : Does (Edits c.Interns) c f (widgetCallbacks s.graph.size cls) _ :=
    widgetCallbacks_does Context.allFormals (sound_of_equips hf hs rfl).valid (Graph.isValue_of_object? hw)
  refine .bind (onFlowgraph_does (s := s.made f s.log (op, layout) s.pending) hcall) fun menu u₂ _ hcalled => ?_
  obtain ⟨f₂, h₂, hflow, hu₂⟩ := hcalled
  obtain rfl : u₂ = s.made f₂ s.log (op, layout) s.pending := hu₂
  refine .read rfl ?_
  have hw₂ := h₂.grows.object?_inflated hw
  -- without a menu and without flow from the widget there is no new flow
  have hpending : (menu.isSome || !(f₂.graph.successors s.graph.size).isEmpty) = false →
      ∀ a ∈ f₂.graph.flow, a ∈ f.graph.flow := by
    intro h a ha
    obtain ⟨hmenu, hsucc⟩ := Bool.or_eq_false_iff.mp h
    rw [Option.isSome_eq_false_iff, Option.isNone_iff_eq_none] at hmenu
    rw [Bool.not_eq_false', List.isEmpty_iff] at hsucc
    rcases hflow hmenu a ha with ha | hsrc
    · exact ha
    · have : a.dst ∈ f₂.graph.successors s.graph.size := Graph.mem_successors.mpr (hsrc ▸ ha)
      rw [hsucc] at this
      cases this
  extract_lets done finish
  have hfinish : ∀ r log, Does Anyhow c (s.made f₂ log (op, layout) s.pending) (finish r) fun n u =>
      ReflTransGen (Inflates c) s u ∧ u.graph.object? n = some (.inflated cls) := by
    intro r log
    dsimp only [finish]
    split
    · have h : Inflates c s (s.made f₂ log (op, layout) true) := widget_inflates hf rfl h₂ (by simp)
      exact .of_run rfl trivial ⟨.single h, hw₂⟩
    · rename_i h
      refine .pure ⟨.single (widget_inflates hf rfl h₂ fun hp => ⟨hp, hpending ?_⟩), hw₂⟩
      exact Bool.eq_false_iff.mpr h
  split
  · refine .bind (Q := fun _ u => ∃ log, u = s.made f₂ log (op, layout) s.pending) (.of_run rfl trivial ⟨_, rfl⟩)
      fun r u _ hu => ?_
    obtain ⟨log, rfl⟩ := hu
    exact hfinish r log
  · exact hfinish () _

theorem lt_of_isHost (h : (s.graph.object? n).any (·.isHost) = true) : n < s.graph.size := by
  obtain ⟨o, ho, _⟩ := (Option.any_eq_true _ _).mp h
  exact Graph.object?_lt ho

theorem attach_inflates {child parent : NodeId} (hc : (s.graph.object? child).any (·.isWidget) = true)
    (hp : (s.graph.object? parent).any (·.isHost) = true) :
    Tries (ReflTransGen (Inflates c)) (fun _ _ => c.settings.strict = true) c s (discard (attach op child parent))
      fun _ _ => True := by
  have hspans : ∀ a ∈ s.rejected.insert ⟨child, parent⟩, a ∈ s.rejected ∨ s.graph.Spans a := by
    intro a ha
    obtain ⟨o, ho, _⟩ := (Option.any_eq_true _ _).mp hc
    exact (Container.mem_insert.mp ha).elim (fun ha => .inr (ha ▸ ⟨Graph.object?_lt ho, lt_of_isHost hp⟩)) .inl
  exact (attach_tries .refl (fun g added hn => .single (.nest hc hp hn))
    (fun _ hstrict => .single (.note (by rw [hstrict]; nofun) (fun _ h => Container.mem_insert.mpr (.inr h)) hspans))
    fun _ _ hstrict _ => hstrict).discard.imp fun _ _ _ _ => trivial

/-! ## Layouts -/

mutual

/-- The widgets of a template are made step by step. -/
theorem inflateView_tries {layout : NodeId} : ∀ {t : Template} {s : Solver},
    (∀ u ∈ t.subtrees, ∀ k ∈ u.attributeKinds c.project.resources, c.Interns k) → s.flowgraph.Sound →
    Tries (ReflTransGen (Inflates c)) (fun _ _ => c.settings.strict = true) c s (inflateView op layout t) fun root u =>
      (∀ r, root = some r → (u.graph.object? r).any (·.isWidget) = true) ∧ (root = none → u.graph = s.graph)
  | ⟨none, id, text, attributes, children⟩, s, _, _ => by
    rw [inflateView.eq_1]
    exact .read rfl (.liftBind remark_does fun _ u _ hu => .pure ⟨nofun, fun _ => hu.1⟩)
  | ⟨some cls, id, text, attributes, children⟩, s, hU, hs => by
    rw [inflateView.eq_2]
    rw [Template.subtrees] at hU
    refine .liftBind (inflateWidget_inflates hs (hU _ List.mem_cons_self)) fun n u₁ h₁ hn => ?_
    refine .bind (inflateChildren_tries (fun u hu => hU u (List.mem_cons_of_mem _ hu)) (sound_of_inflates hs h₁)
      (by rw [hn]; rfl)) fun _ u₂ h₂ _ => .pure ⟨?_, nofun⟩
    rintro _ ⟨⟩
    rw [(le_of_inflates h₂).graph.object?_inflated hn]
    rfl

theorem inflateChildren_tries {layout parent : NodeId} : ∀ {ts : List Template} {s : Solver},
    (∀ u ∈ Template.allSubtrees ts, ∀ k ∈ u.attributeKinds c.project.resources, c.Interns k) → s.flowgraph.Sound →
    (s.graph.object? parent).any (·.isHost) = true →
    Tries (ReflTransGen (Inflates c)) (fun _ _ => c.settings.strict = true) c s (inflateChildren op layout parent ts)
      fun _ _ => True
  | [], s, _, _, _ => by
    rw [inflateChildren.eq_1]
    exact .pure trivial
  | t :: ts, s, hU, hs, hp => by
    rw [inflateChildren.eq_2]
    rw [Template.allSubtrees] at hU
    refine .bind (inflateView_tries (fun u hu => hU u (List.mem_append_left _ hu)) hs) fun root u₁ h₁ ⟨hroot, _⟩ => ?_
    have hp₁ := (le_of_inflates h₁).graph.object?_any Obj.blind_isHost hp
    have hrest : ∀ u₂, ReflTransGen (Inflates c) u₁ u₂ → Tries (ReflTransGen (Inflates c))
        (fun _ _ => c.settings.strict = true) c u₂ (inflateChildren op layout parent ts) fun _ _ => True :=
      fun u₂ h₂ => inflateChildren_tries (fun u hu => hU u (List.mem_append_right _ hu))
        (sound_of_inflates hs (h₁.trans h₂)) ((le_of_inflates h₂).graph.object?_any Obj.blind_isHost hp₁)
    cases root with
    | none => exact hrest u₁ .refl
    | some child => exact .bind (attach_inflates (hroot child rfl) hp₁) fun _ u₂ h₂ _ => hrest u₂ h₂

end

/-! ## Menus -/

theorem addInflated_inflates {layout : NodeId} {object : Obj} {t : Template} (hobj : object.isWidget = true)
    (hU : ∀ k ∈ t.attributeKinds c.project.resources, c.Interns k) :
    Does (ReflTransGen (Inflates c)) c s (addInflated op layout object t) fun n u =>
      (u.graph.object? n).any (·.isWidget) = true := by
  refine .restore ((addInflated_does hU).imp fun n u _ ⟨hn, f, hf, hu⟩ => ?_)
  subst hn hu
  refine ⟨.single (widget_inflates hf hobj .refl fun hp => ⟨hp, fun _ h => h⟩), ?_⟩
  show (f.graph.object? s.graph.size).any (·.isWidget) = true
  rw [object?_of_equips hf hobj]
  exact hobj

mutual

/-- The items of a template are made step by step. -/
theorem inflateItem_tries {menuId parent : NodeId} : ∀ {t : Template} {s : Solver},
    (∀ u ∈ t.subtrees, ∀ k ∈ u.attributeKinds c.project.resources, c.Interns k) → s.flowgraph.Sound →
    (s.graph.object? parent).any (·.isHost) = true →
    Tries (ReflTransGen (Inflates c)) (fun _ _ => c.settings.strict = true) c s (inflateItem op menuId parent t)
      fun _ _ => True
  | ⟨cls, id, text, attributes, children⟩, s, hU, hs, hp => by
    rw [inflateItem.eq_1]
    rw [Template.subtrees] at hU
    refine .liftBind (addInflated_inflates rfl (hU _ List.mem_cons_self)) fun n u₁ h₁ hn => ?_
    refine .bind (attach_inflates hn ((le_of_inflates h₁).graph.object?_any Obj.blind_isHost hp)) fun _ u₂ h₂ _ => ?_
    exact inflateSubmenus_tries (fun u hu => hU u (List.mem_cons_of_mem _ hu)) (sound_of_inflates hs (h₁.trans h₂))
      ((le_of_inflates h₂).graph.object?_any Obj.blind_isHost (Graph.isHost_of_isWidget hn))

theorem inflateSubmenus_tries {menuId parent : NodeId} : ∀ {ts : List Template} {s : Solver},
    (∀ u ∈ Template.allSubtrees ts, ∀ k ∈ u.attributeKinds c.project.resources, c.Interns k) → s.flowgraph.Sound →
    (s.graph.object? parent).any (·.isHost) = true →
    Tries (ReflTransGen (Inflates c)) (fun _ _ => c.settings.strict = true) c s (inflateSubmenus op menuId parent ts)
      fun _ _ => True
  | [], s, _, _, _ => by
    rw [inflateSubmenus.eq_1]
    exact .pure trivial
  | ⟨cls, id, text, attributes, items⟩ :: menus, s, hU, hs, hp => by
    rw [inflateSubmenus.eq_2]
    rw [Template.allSubtrees, Template.subtrees] at hU
    refine .bind (inflateItems_tries (fun u hu => hU u (List.mem_append_left _ (List.mem_cons_of_mem _ hu))) hs hp)
      fun _ u₁ h₁ _ => ?_
    exact inflateSubmenus_tries (fun u hu => hU u (List.mem_append_right _ hu)) (sound_of_inflates hs h₁)
      ((le_of_inflates h₁).graph.object?_any Obj.blind_isHost hp)

theorem inflateItems_tries {menuId parent : NodeId} : ∀ {ts : List Template} {s : Solver},
    (∀ u ∈ Template.allSubtrees ts, ∀ k ∈ u.attributeKinds c.project.resources, c.Interns k) → s.flowgraph.Sound →
    (s.graph.object? parent).any (·.isHost) = true →
    Tries (ReflTransGen (Inflates c)) (fun _ _ => c.settings.strict = true) c s (inflateItems op menuId parent ts)
      fun _ u => ts = [] → u.graph = s.graph
  | [], s, _, _, _ => by
    rw [inflateItems.eq_1]
    exact .pure fun _ => rfl
  | t :: ts, s, hU, hs, hp => by
    rw [inflateItems.eq_2]
    rw [Template.allSubtrees] at hU
    refine .bind (inflateItem_tries (fun u hu => hU u (List.mem_append_left _ hu)) hs hp) fun _ u₁ h₁ _ => ?_
    exact (inflateItems_tries (fun u hu => hU u (List.mem_append_right _ hu)) (sound_of_inflates hs h₁)
      ((le_of_inflates h₁).graph.object?_any Obj.blind_isHost hp)).imp fun _ _ _ _ => nofun

end

/-! ## One inflation -/

theorem LayoutDue.id? {key : InflationKey} (h : s.LayoutDue key) : ∃ i, s.graph.id? key.id = some i := by
  cases h with
  | result _ _ hl | content _ _ _ hl =>
    obtain ⟨i, hi, _⟩ := (Option.any_eq_true _ _).mp (mem_idsIn.mp hl).2
    exact ⟨i, hi⟩

theorem MenuDue.id? {key : InflationKey} (h : s.MenuDue key) : ∃ i, s.graph.id? key.id = some i := by
  obtain ⟨_, _, _, hl⟩ := h
  obtain ⟨i, hi, _⟩ := (Option.any_eq_true _ _).mp (mem_idsIn.mp hl).2
  exact ⟨i, hi⟩

theorem LayoutDue.isLayoutKey {key : InflationKey} (h : s.LayoutDue key) : s.graph.isLayoutKey key = true := by
  cases h with
  | result ho hk | content ho hk => simp [Graph.isLayoutKey, ho, hk]

theorem MenuDue.isMenuKey {key : InflationKey} (h : s.MenuDue key) : s.graph.isMenuKey key = true := by
  obtain ⟨ho, hk⟩ := h
  simp [Graph.isMenuKey, ho, hk]

/-- A layout that is due was inflated before, or it is inflated now. -/
theorem inflateLayout_tries {key : InflationKey} (hs : s.flowgraph.Sound) (hdue : s.LayoutDue key) :
    Tries Anyhow (fun _ _ => c.settings.strict = true ∧ s.flowgraph.inflations[key]? = none) c s
      (inflateLayout key.op key.id key.target) fun root u =>
        s.flowgraph.inflations[key]? = some root ∧ u = s ∨
        s.flowgraph.inflations[key]? = none ∧ ∃ t, ReflTransGen (Inflates c) s t ∧
          (∃ w, Grown c.project.resources (key.op, key.id) (s.graph.layoutParts c.project.resources key.id) w w.arcs s t ∧
            root = w.top?) ∧
          (root = none → t.graph = s.graph) ∧ u = t.cache key root := by
  unfold inflateLayout
  refine .read rfl ?_
  split
  · rename_i root hkey
    exact .pure (.inl ⟨hkey, rfl⟩)
  · rename_i hnew
    obtain ⟨i, hi⟩ := hdue.id?
    rw [hi]
    refine .read rfl ?_
    split
    · rename_i t ht
      obtain ⟨hsub, _⟩ := Resources.subtrees_subset (.inl ht)
      have hcopy : Sure c s (inflateView key.op key.id t) _ := inflateView_sure t hs.valid.closed.containment
      have hview := (inflateView_tries (fun u hu k hk => Context.interns_of_template (hsub hu) hk) hs).and
        (hcopy.tries (E := Anyhow))
      refine .bind (hview.forget.mono (fun _ h => h) (fun _ _ hstrict => ⟨hstrict, hnew⟩) fun _ _ _ h => h)
        fun root u _ ⟨hin, ⟨_, hnone⟩, hgrown⟩ => ?_
      refine .of_ok rfl trivial (.inr ⟨hnew, u, hin, ?_, hnone, rfl⟩)
      rw [Graph.layoutParts, hi, Option.bind_some, ht]
      exact hgrown
    · rename_i ht
      refine .liftBind remark_does.forget fun _ t _ h => .read rfl ?_
      obtain ⟨hin, hg, hplants⟩ := h
      refine .of_ok rfl trivial (.inr ⟨hnew, t, hin, ⟨.nil, ?_, rfl⟩, fun _ => hg, rfl⟩)
      rw [Graph.layoutParts, hi, Option.bind_some, ht]
      exact .empty (hplants _)

namespace Grown

variable {w : Forest NodeId} {as : List Arc}

/-- The topmost widget of a layout is of the class of the layout. -/
theorem topmost {resources : Resources} {t : Template} (h : Grown resources origin t.parts w as s u)
    (hr : w.top? = some r) : ∃ cls, t.cls = some cls ∧ u.graph.object? r = some (.inflated cls) := by
  have hcopy := h.copy
  obtain ⟨cls, id, text, attributes, children⟩ := t
  cases cls with
  | none =>
    cases hcopy
    cases hr
  | some cls =>
    cases hcopy with
    | cons hshows =>
      cases hr
      exact ⟨cls, rfl, hshows.object⟩

theorem isTopmost (h : Grown c.project.resources origin (s.graph.layoutParts c.project.resources l) w as s t)
    (hr : w.top? = some r) : t.graph.IsTopmost c.project.resources l r := by
  have hgrows := h.plants.graph
  rw [Graph.layoutParts] at h
  cases hi : (s.graph.id? l).bind fun i => c.project.resources.layouts[i.value]? with
  | none =>
    have hcopy := h.copy
    rw [hi] at hcopy
    cases hcopy
    cases hr
  | some template =>
    rw [hi] at h
    obtain ⟨i, hi, ht⟩ := Option.bind_eq_some_iff.mp hi
    obtain ⟨cls, hcls, ho⟩ := h.topmost hr
    exact ⟨cls, by rw [Graph.layoutClass?, hgrows.toExtends.id? hi, Option.bind_some, ht, Option.bind_some, hcls], ho⟩

/-- Without a new widget there is no copy. -/
theorem eq_nil {resources : Resources} {p : Forest Template.Part} (h : Grown resources origin p w as s t)
    (hi : t.statistics.inflated = s.statistics.inflated) : w = .nil ∧ p.size = 0 := by
  have hsize := h.inflated
  have hlen := h.copy.length_eq
  cases w with
  | nil => exact ⟨rfl, by omega⟩
  | cons =>
    rw [Forest.elems, List.length_cons] at hlen
    omega

end Grown

/-- An inflation was made, and its topmost widget is where it belongs. -/
def Fulfilled (s : Solver) (key : InflationKey) : Prop :=
  ∃ root, s.flowgraph.inflations[key]? = some root ∧ ∀ r, root = some r → s.Delivered key r

theorem Fulfilled.mono {key : InflationKey} (h : s.Fulfilled key) (hst : s.Le t) : t.Fulfilled key := by
  obtain ⟨root, hr, hd⟩ := h
  exact ⟨root, hst.inflations key root hr, fun r hroot => (hd r hroot).mono hst⟩

/-- The inflation of a layout with what follows it. -/
theorem deliverLayout_tries {key : InflationKey} {k : Option NodeId → Solve Unit} (hs : Inv c s) (hdue : s.LayoutDue key)
    (hk : ∀ root u, k root c u = (.ok (), match root with | some r => u.deliver key r | none => u)) :
    Tries (Steps c .inflate) (Fails c) c s (inflateLayout key.op key.id key.target >>= k) fun _ u => u.Fulfilled key := by
  refine .restore (T := Anyhow) (.bind (inflateLayout_tries hs.sound hdue) fun root u _ h => ?_) .refl
    fun _ _ h => ⟨h.1, .inflation (.inl hdue) h.2⟩
  rcases h with ⟨hold, rfl⟩ | ⟨hnew, t, hin, ⟨w, hw, hroot⟩, hnone, rfl⟩
  · cases root with
    | none => exact .of_ok (hk none u) trivial ⟨.refl, none, hold, nofun⟩
    | some r =>
      refine .of_ok (hk (some r) u) trivial ⟨.single (.reuse hdue hold), some r, ?_, ?_⟩
      · rw [flowgraph_deliver]
        exact hold
      · rintro _ ⟨⟩
        exact delivered_deliver
  · have hquiet : t.statistics.inflated = s.statistics.inflated → root = none ∧ t.graph = s.graph := by
      intro hi
      obtain ⟨rfl, _⟩ := hw.eq_nil hi
      exact ⟨hroot, hnone hroot⟩
    have hstep : Step c .inflate s (t.finish key root) := by
      refine .layout hdue hnew hin (fun r hr => hw.isTopmost (hroot.symm.trans hr)) ?_ hquiet ⟨w, ?_, hroot⟩
      · rw [hw.inflated]
        exact Nat.add_le_add_left Graph.size_layoutParts_le _
      · rw [Graph.parts_of_isLayoutKey hdue.isLayoutKey, Graph.arcsOf_of_isLayoutKey hdue.isLayoutKey]
        exact hw
    cases root with
    | none => exact .of_ok (hk none _) trivial ⟨.single hstep, none, ExtTreeMap.getElem?_insert_self, nofun⟩
    | some r =>
      refine .of_ok (hk (some r) _) trivial ⟨.single hstep, some r, ?_, ?_⟩
      · rw [flowgraph_deliver]
        exact ExtTreeMap.getElem?_insert_self
      · rintro _ ⟨⟩
        exact delivered_deliver

theorem inflateMenu_tries (hs : Inv c s) (hdue : s.MenuDue ⟨op, l, some m⟩) :
    Tries (Steps c .inflate) (Fails c) c s (inflateMenu op l m) fun _ u =>
      InflationKey.mk op l (some m) ∈ u.flowgraph.inflations := by
  have ⟨_, _, hm, _⟩ := hdue
  unfold inflateMenu
  refine .read rfl ?_
  split
  · rename_i hin
    exact .pure hin
  · rename_i hmem
    have hnew : s.flowgraph.inflations[InflationKey.mk op l (some m)]? = none := ExtTreeMap.getElem?_eq_none hmem
    refine .restore (T := Anyhow) (F := fun _ _ => c.settings.strict = true) ?_ .refl
      fun _ _ h => ⟨h, .inflation (.inr hdue) hnew⟩
    -- after the entry was made, the step is what comes of the items
    refine .after (R := ReflTransGen (Inflates c)) (t := s.cache ⟨op, l, some m⟩ none) rfl (.imp (Q := fun _ t =>
      (∃ w, Grown c.project.resources (op, l) (s.graph.menuParts c.project.resources l) w (w.arcsIn m)
        (s.cache ⟨op, l, some m⟩ none) t) ∧
      ((s.graph.menuParts c.project.resources l).size = 0 → t.graph = s.graph)) ?_ fun _ t hin ⟨⟨w, hw⟩, hquiet⟩ => ?_)
      fun _ _ => trivial
    · obtain ⟨i, hi⟩ := hdue.id?
      rw [hi, Graph.menuParts, hi, Option.bind_some]
      refine .read rfl ?_
      have hsound : (s.cache ⟨op, l, some m⟩ none).flowgraph.Sound :=
        hs.sound.cache (hs.bounded_of_menuDue hdue) (by simp)
      -- the items that are made and those that are asked for are of the same template
      cases ht : c.project.resources.menus[i.value]? with
      | some t =>
        obtain ⟨hsub, _⟩ := Resources.subtrees_subset (.inr ht)
        obtain ⟨cls, id, text, attributes, children⟩ := t
        rw [Template.subtrees] at hsub
        have hhost := Graph.object?_any_imp Obj.isHost_of_isMenu (mem_receiversWhere.mp hm).2
        have hitems : Sure c (s.cache ⟨op, l, some m⟩ none) (inflateItems op l m children) _ :=
          inflateItems_sure children hsound.valid.closed.containment (lt_of_isHost (s := s) hhost)
        refine ((inflateItems_tries (fun u hu k hk => Context.interns_of_template (hsub (List.mem_cons_of_mem _ hu)) hk)
          hsound hhost).and (hitems.tries (E := Anyhow))).imp fun _ t _ h => ⟨h.2, fun hempty => h.1 ?_⟩
        exact Template.eq_nil_of_size_allItemParts hempty
      | none =>
        exact .lift (remark_does.imp fun _ t _ h => ⟨⟨.nil, .empty (h.2 _)⟩, fun _ => h.1⟩)
    · refine ⟨.single (.menu hdue hnew hin ?_ (fun hi => hquiet (hw.eq_nil hi).2) ⟨w, ?_⟩), ?_⟩
      · rw [hw.inflated]
        exact Nat.add_le_add_left Graph.size_menuParts_le _
      · rw [Graph.parts_of_isMenuKey hdue.isMenuKey, Graph.arcsOf_of_isMenuKey hdue.isMenuKey rfl]
        exact hw
      · rw [inflations_of_inflates hin]
        exact ExtTreeMap.mem_insert_self

/-! ## What is due -/

/-- What reaches an operation as a window or a menu was there before. -/
theorem Inv.receiversWhere_of_le {k : Obj → Bool} (hs : Inv c s) (h : s.Le t) (hk : Obj.Blind k)
    (hn : n ∈ t.receiversWhere op k) (hr : n ∈ s.receivers op) : n ∈ s.receiversWhere op k := by
  obtain ⟨o, ho⟩ := hs.object? hr
  refine mem_receiversWhere.mpr ⟨hr, ?_⟩
  rw [← h.graph.object?_any_eq hk ho]
  exact (mem_receiversWhere.mp hn).2

theorem Inv.idsIn_of_le {space : IdSpace} (hs : Inv c s) (h : s.Le t) (hids : t.ids = s.ids)
    (hl : l ∈ t.idsIn op space) : l ∈ s.idsIn op space := by
  obtain ⟨hl, hspace⟩ := mem_idsIn.mp hl
  rw [idsOf, hids] at hl
  obtain ⟨i, _, hi, _⟩ := hs.ids op l hl
  refine mem_idsIn.mpr ⟨hl, ?_⟩
  rw [h.graph.toExtends.id? hi] at hspace
  rw [hi]
  exact hspace

/-- Layouts become due only when flow is classified, for windows do not come from anywhere else. -/
theorem Step.layoutDue {key : InflationKey} (hs : Inv c s) (h : Step c p s t) (hp : p ≠ .classify)
    (hdue : t.LayoutDue key) : s.LayoutDue key := by
  have hids := (h.registries hp).1
  cases hdue with
  | result ho hk hl => exact .result ((h.le.op? _).symm.trans ho) hk (hs.idsIn_of_le h.le hids hl)
  | @content op l w o ho hk hw hl =>
    refine .content ((h.le.op? _).symm.trans ho) hk (hs.receiversWhere_of_le h.le Obj.blind_isWindow hw ?_)
      (hs.idsIn_of_le h.le hids hl)
    obtain ⟨hw, hwin⟩ := mem_receiversWhere.mp hw
    exact (h.solution_cases (x := ⟨op, .receiver⟩) hw).resolve_right fun he =>
      he.not_isWindow hs h.le (h.sound hs) hp hwin

theorem Steps.layoutDue {key : InflationKey} (hs : Inv c s) (h : Steps c p s t) (hp : p ≠ .classify)
    (hdue : t.LayoutDue key) : s.LayoutDue key := by
  induction h with
  | refl => exact hdue
  | tail h h' ih => exact ih (h'.layoutDue (Steps.inv hs h) hp hdue)

/-- Inflations do not change what is due. -/
theorem Steps.menuDue {key : InflationKey} (hs : Inv c s) (h : Steps c .inflate s t) (hdue : t.MenuDue key) :
    s.MenuDue key := by
  induction h with
  | refl => exact hdue
  | @tail t u h h' ih =>
    have ht := Steps.inv hs h
    obtain ⟨ho, hk, hm, hl⟩ := hdue
    refine ih (.menu ((h'.le.op? _).symm.trans ho) hk (ht.receiversWhere_of_le h'.le Obj.blind_isMenu hm ?_)
      (ht.idsIn_of_le h'.le (h'.registries nofun).1 hl))
    refine (h'.solution_cases (x := ⟨_, .receiver⟩) (mem_receiversWhere.mp hm).1).resolve_right fun he => ?_
    cases he

/-- Every layout that is due was inflated, and its topmost widget is where it belongs. -/
def LayoutsDone (s : Solver) : Prop := ∀ key, s.LayoutDue key → s.Fulfilled key

/-- Everything that is due was inflated. -/
structure Inflated (s : Solver) : Prop where
  layouts : s.LayoutsDone
  menus : ∀ key, s.MenuDue key → key ∈ s.flowgraph.inflations

theorem LayoutsDone.steps (h : s.LayoutsDone) (hs : Inv c s) (hst : Steps c p s t) (hp : p ≠ .classify) :
    t.LayoutsDone :=
  fun key hdue => (h key (Steps.layoutDue hs hst hp hdue)).mono (Steps.le hst)

/-! ## All inflations -/

theorem inflateResults_tries {o : Op} (hs : Inv c s) (ho : s.graph.op? op = some o) (hk : o.kind.tag = .inflate) :
    Tries (Steps c .inflate) (Fails c) c s (inflateResults op) fun _ u =>
      ∀ l ∈ s.idsIn op .layout, u.Fulfilled ⟨op, l, none⟩ := by
  unfold inflateResults
  refine .read rfl ?_
  refine .forM (fun l _ t u h hl => hl.mono (Steps.le h)) fun l hl t h => ?_
  have hle := Steps.le h
  refine deliverLayout_tries (Steps.inv hs h) (.result ((hle.op? op).trans ho) hk (hle.idsIn hl)) fun root u => ?_
  cases root <;> rfl

theorem inflateContents_tries {o : Op} (hs : Inv c s) (ho : s.graph.op? op = some o) (hk : o.kind.tag = .setContent) :
    Tries (Steps c .inflate) (Fails c) c s (inflateContents op) fun _ u =>
      ∀ w ∈ s.receiversWhere op (·.isWindow), ∀ l ∈ s.idsIn op .layout, u.Fulfilled ⟨op, l, some w⟩ := by
  unfold inflateContents
  refine .read rfl ?_
  refine .forM (fun w _ t u h hw l hl => (hw l hl).mono (Steps.le h)) fun w hw t h => ?_
  refine .forM (fun l _ t u h hl => hl.mono (Steps.le h)) fun l hl t' h' => ?_
  have hle := Steps.le (h.trans h')
  refine deliverLayout_tries (Steps.inv hs (h.trans h')) (.content ((hle.op? op).trans ho) hk
    (hle.receiversWhere Obj.blind_isWindow hw) (hle.idsIn hl)) fun root u => ?_
  cases root <;> rfl

theorem Le.mem_inflations {key : InflationKey} (h : s.Le t) (hin : key ∈ s.flowgraph.inflations) :
    key ∈ t.flowgraph.inflations := by
  obtain ⟨r, hr⟩ := Option.isSome_iff_exists.mp (ExtTreeMap.mem_iff_isSome_getElem?.mp hin)
  exact ExtTreeMap.mem_iff_isSome_getElem?.mpr (Option.isSome_iff_exists.mpr ⟨r, h.inflations key r hr⟩)

theorem inflateMenus_tries {o : Op} (hs : Inv c s) (ho : s.graph.op? op = some o) (hk : o.kind.tag = .inflateMenu) :
    Tries (Steps c .inflate) (Fails c) c s (inflateMenus op) fun _ u =>
      ∀ m ∈ s.receiversWhere op (·.isMenu), ∀ l ∈ s.idsIn op .menu,
        InflationKey.mk op l (some m) ∈ u.flowgraph.inflations := by
  unfold inflateMenus
  refine .read rfl ?_
  refine .forM (fun m _ t u h hm l hl => (Steps.le h).mem_inflations (hm l hl)) fun m hm t h => ?_
  refine .forM (fun l _ t u h hl => (Steps.le h).mem_inflations hl) fun l hl t' h' => ?_
  have hle := Steps.le (h.trans h')
  exact inflateMenu_tries (Steps.inv hs (h.trans h')) (.menu ((hle.op? op).trans ho) hk
    (hle.receiversWhere Obj.blind_isMenu hm) (hle.idsIn hl))

/-- The inflating operations of one kind. -/
theorem inflateOps_tries {tag : OpTag} {act : NodeId → Solve Unit} {P : NodeId → Solver → Prop}
    (hst : Steps c .inflate s t) (hP : ∀ op u v, u.Le v → P op u → P op v)
    (hact : ∀ op o u, Steps c .inflate s u → u.graph.op? op = some o → o.kind.tag = tag →
      Tries (Steps c .inflate) (Fails c) c u (act op) fun _ v => P op v) :
    Tries (Run c) (Fails c) c t ((t.graph.operations tag).forM act) fun _ u =>
      Steps c .inflate s u ∧ ∀ op o, s.graph.op? op = some o → o.kind.tag = tag → P op u := by
  refine (Tries.forM (R := Steps c .inflate) (fun op _ u v h => hP op u v (Steps.le h)) fun op hop u h => ?_).mono
    (fun _ => Steps.run) (fun _ _ h => h)
    fun _ u h hall => ⟨hst.trans h, fun op o ho hk => hall op (Graph.mem_operations.mpr ⟨o, ?_, hk⟩)⟩
  · obtain ⟨o, ho, hk⟩ := Graph.mem_operations.mp hop
    exact hact op o u (hst.trans h) (((Steps.le h).op? op).trans ho) hk
  · exact ((Steps.le hst).op? op).trans ho

theorem Same.layoutDue {key : InflationKey} (hst : s.Same t) (hdue : t.LayoutDue key) : s.LayoutDue key := by
  cases hdue with
  | result ho hk hl => exact .result (hst.graph ▸ ho) hk (hst.idsIn ▸ hl)
  | content ho hk hw hl => exact .content (hst.graph ▸ ho) hk (hst.receiversWhere ▸ hw) (hst.idsIn ▸ hl)

theorem Inflated.of_same (h : s.Inflated) (hst : s.Same t) (hle : s.Le t) : t.Inflated where
  layouts key hdue := Fulfilled.mono (h.layouts key (hst.layoutDue hdue)) hle
  menus key hdue := by
    obtain ⟨ho, hk, hm, hl⟩ := hdue
    exact hle.mem_inflations (h.menus _ (.menu ((hle.op? _).symm.trans ho) hk (hst.receiversWhere ▸ hm) (hst.idsIn ▸ hl)))

/-- **Inflation.** -/
theorem inflate_tries (hs : Inv c s) : Tries (Run c) (Fails c) c s inflate fun b t =>
    t.Inflated ∧ ∃ t', Steps c .inflate s t' ∧ b = t'.pending ∧ t = { t' with pending := false } := by
  unfold inflate
  refine .read rfl ?_
  refine .bind (inflateOps_tries (s := s) (P := fun op u => ∀ l ∈ s.idsIn op .layout, u.Fulfilled ⟨op, l, none⟩) .refl
    (fun op u v h hP l hl => (hP l hl).mono h) fun op o u h ho hk => ?_) fun _ t₁ _ ⟨h₁, hresults⟩ => .read rfl ?_
  · exact (inflateResults_tries (Steps.inv hs h) ho hk).imp fun _ _ _ hP l hl => hP l ((Steps.le h).idsIn hl)
  refine .bind (inflateOps_tries (P := fun op u => ∀ w ∈ s.receiversWhere op (·.isWindow), ∀ l ∈ s.idsIn op .layout,
    u.Fulfilled ⟨op, l, some w⟩) h₁ (fun op u v h hP w hw l hl => (hP w hw l hl).mono h) fun op o u h ho hk => ?_)
    fun _ t₂ h₁₂ ⟨h₂, hcontents⟩ => .read rfl ?_
  · exact (inflateContents_tries (Steps.inv hs h) ho hk).imp fun _ _ _ hP w hw l hl =>
      hP w ((Steps.le h).receiversWhere Obj.blind_isWindow hw) l ((Steps.le h).idsIn hl)
  refine .bind (inflateOps_tries (P := fun op u => ∀ m ∈ s.receiversWhere op (·.isMenu), ∀ l ∈ s.idsIn op .menu,
    InflationKey.mk op l (some m) ∈ u.flowgraph.inflations) h₂ (fun op u v h hP m hm l hl => h.mem_inflations (hP m hm l hl))
    fun op o u h ho hk => ?_) fun _ t₃ h₂₃ ⟨h₃, hmenus⟩ => ?_
  · exact (inflateMenus_tries (Steps.inv hs h) ho hk).imp fun _ _ _ hP m hm l hl =>
      hP m ((Steps.le h).receiversWhere Obj.blind_isMenu hm) l ((Steps.le h).idsIn hl)
  refine .of_ok rfl (.single ⟨.classify, .settle⟩)
    ⟨.of_same ⟨fun key hdue => ?_, fun key hdue => ?_⟩ (.settle t₃) (Step.le (c := c) .settle), t₃, h₃, rfl, rfl⟩
  · cases Steps.layoutDue hs h₃ nofun hdue with
    | result ho hk hl => exact (hresults _ _ ho hk _ hl).mono (Run.le (h₁₂.trans h₂₃))
    | content ho hk hw hl => exact (hcontents _ _ ho hk _ hw _ hl).mono (Run.le h₂₃)
  · obtain ⟨ho, hk, hm, hl⟩ := Steps.menuDue hs h₃ hdue
    exact hmenus _ _ ho hk _ hm _ hl

/-! ## What inflation changes -/

theorem flow_of_inflates (h : ReflTransGen (Inflates c) s t) (hp : t.pending = false) :
    s.pending = false ∧ ∀ a ∈ t.graph.flow, a ∈ s.graph.flow := by
  induction h with
  | refl => exact ⟨hp, fun _ h => h⟩
  | tail _ h ih =>
    cases h with
    | note => exact ih hp
    | nest _ _ h =>
      obtain ⟨hs, hflow⟩ := ih hp
      refine ⟨hs, fun a ha => hflow a ?_⟩
      rw [← Graph.flow_nest h]
      exact ha
    | widget _ _ _ _ h =>
      obtain ⟨hp, hnew⟩ := h hp
      obtain ⟨hs, hflow⟩ := ih hp
      exact ⟨hs, fun a ha => hflow a (hnew a ha)⟩

theorem pending_of_inflates (h : ReflTransGen (Inflates c) s t)
    (hi : t.statistics.inflated = s.statistics.inflated) : t.pending = s.pending := by
  induction h with
  | refl => rfl
  | @tail u v hu h ih =>
    have := (le_of_inflates hu).inflated
    have := h.le.inflated
    have ih := ih (by omega)
    cases h with
    | note | nest => exact ih
    | widget =>
      have hi : u.statistics.inflated + 1 = s.statistics.inflated := hi
      omega

/-- An inflation that leaves no flow to classify brings none. -/
theorem Steps.flow_inflate (h : Steps c .inflate s t) (hp : t.pending = false) :
    s.pending = false ∧ ∀ a ∈ t.graph.flow, a ∈ s.graph.flow := by
  induction h with
  | refl => exact ⟨hp, fun _ h => h⟩
  | @tail u v _ h ih =>
    have hstep : u.pending = false ∧ ∀ a ∈ v.graph.flow, a ∈ u.graph.flow := by
      cases h with
      | note => exact ⟨hp, fun _ h => h⟩
      | layout _ _ hin =>
        rw [finish_eq] at hp ⊢
        exact (flow_of_inflates hin hp :)
      | menu _ _ hin => exact (flow_of_inflates hin hp :)
      | reuse =>
        rw [deliver_eq] at hp ⊢
        exact ⟨hp, fun _ h => h⟩
    obtain ⟨hs, hflow⟩ := ih hstep.1
    exact ⟨hs, fun a ha => hflow a (hstep.2 a ha)⟩

/-- Only a new widget brings flow. -/
theorem Steps.pending_inflate (h : Steps c .inflate s t) (hi : t.statistics.inflated = s.statistics.inflated) :
    t.pending = s.pending := by
  induction h with
  | refl => rfl
  | @tail u v hu h ih =>
    have := (Steps.le hu).inflated
    have := h.le.inflated
    rw [← ih (by omega)]
    have hi : v.statistics.inflated = u.statistics.inflated := by omega
    cases h with
    | note => rfl
    | layout _ _ hin =>
      rw [finish_eq] at hi ⊢
      exact (pending_of_inflates hin hi :)
    | menu _ _ hin => exact (pending_of_inflates hin hi :)
    | reuse => rw [deliver_eq]

/-- An inflation that leaves flow to classify has made a widget. -/
theorem Steps.inflated_lt (h : Steps c .inflate s t) (hs : s.pending = false) (ht : t.pending = true) :
    s.statistics.inflated < t.statistics.inflated := by
  apply Nat.lt_of_le_of_ne (Steps.le h).inflated
  intro he
  rw [Steps.pending_inflate h he.symm, hs] at ht
  cases ht

theorem Delivered.same {key : InflationKey} (h : s.Delivered key r) : s.Same (s.deliver key r) := by
  have hsol : ∀ op slot, (s.deliver key r).solution op slot = s.solution op slot := by
    refine fun op slot => ExtTreeSet.ext_mem fun n => mem_solution_deliver.trans (or_iff_right_of_imp ?_)
    rintro ⟨hkey, rfl, rfl, rfl⟩
    rw [Delivered, hkey] at h
    exact h
  have hroots : ∀ w, (s.deliver key r).rootsOf w = s.rootsOf w := by
    refine fun w => ExtTreeSet.ext_mem fun n => mem_rootsOf_deliver.trans (or_iff_right_of_imp ?_)
    rintro ⟨hkey, rfl⟩
    rw [Delivered, hkey] at h
    exact h
  rw [deliver_eq] at hsol hroots ⊢
  exact ⟨rfl, rfl, rfl, rfl, hsol, hroots⟩

/-- Without new widgets nothing changes, if the layouts are done. -/
theorem Steps.same_inflate (hs : Inv c s) (hd : s.LayoutsDone) (h : Steps c .inflate s t)
    (hi : t.statistics.inflated = s.statistics.inflated) : s.Same t := by
  induction h with
  | refl => exact .refl s
  | @tail u v hu h ih =>
    have := (Steps.le hu).inflated
    have := h.le.inflated
    refine (ih (by omega)).trans ?_
    have hi : v.statistics.inflated = u.statistics.inflated := by omega
    have hd := hd.steps hs hu nofun
    cases h with
    | note => exact ⟨rfl, rfl, rfl, rfl, fun _ _ => rfl, fun _ => rfl⟩
    | layout hdue hnew =>
      obtain ⟨root, hroot, _⟩ := hd _ hdue
      rw [hnew] at hroot
      cases hroot
    | menu _ _ hin _ hquiet =>
      have ha := alike_of_inflates hin
      refine ⟨hquiet hi, ha.ids, ha.candidates, ha.downstream, fun op slot => ?_, fun w => ?_⟩
      · rw [solution, ha.solutions]
        rfl
      · rw [rootsOf, ha.roots]
        rfl
    | reuse hdue hr =>
      obtain ⟨root, hroot, hdel⟩ := hd _ hdue
      exact (hdel _ (Option.some.inj (hroot.symm.trans hr))).same

end Solver

end WidgetFlow
