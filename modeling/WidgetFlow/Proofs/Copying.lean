import WidgetFlow.Proofs.Invariants
import WidgetFlow.Proofs.Strictness

/-!
# Inflation copies templates

In any solver, whatever its flowgraph holds, an inflation makes the widgets of a template one after the other and puts
them inside each other. The new widgets are a copy of the template (`Solver.Grown`).

A new widget can be put into its parent: what is inside a new widget is new as well, and the parent was there before. So
nothing is refused. An inflation therefore runs in the same way whether the solver is strict or not and whatever was
refused before. `Solver.Sure` says this of an action, together with what it ends with.

* `widgetCallbacks_apart`: the flow into the methods of a class leaves the widgets and their attributes alone
  (`Flowgraph.Apart`);
* `addInflated_does`, `inflateWidget_plants`: one widget with its attributes;
* `inflateView_sure`, `inflateItem_sure`: by induction on the template, the new widgets are a copy of it.
-/

namespace WidgetFlow

open Std Relation

/-! ## Edits apart from widgets -/

namespace Graph

variable {g g' g'' : Graph} {m x y v : NodeId} {k : NodeKind} {l : Option Label}

/-- The graph grows, without a new widget. Nothing is put anywhere, and no node gets attributes. -/
structure Apart (g g' : Graph) : Prop where
  grows : g.Grows g'
  containment : g'.containment = g.containment
  isWidget : ∀ n, (g'.object? n).any (·.isWidget) = (g.object? n).any (·.isWidget)
  attributes : ∀ n, g'.attributes n = g.attributes n

namespace Apart

theorem refl (g : Graph) : g.Apart g := ⟨.refl g, rfl, fun _ => rfl, fun _ => rfl⟩

theorem trans (h : g.Apart g') (h' : g'.Apart g'') : g.Apart g'' where
  grows := h.grows.trans h'.grows
  containment := h'.containment.trans h.containment
  isWidget n := (h'.isWidget n).trans (h.isWidget n)
  attributes n := (h'.attributes n).trans (h.attributes n)

theorem push (hk : k.object?.any (·.isWidget) = false) : g.Apart (g.push k) where
  grows := push_grows
  containment := rfl
  isWidget n := by
    rw [object?_push]
    split
    · rename_i h
      rw [hk, object?_eq_none (Nat.le_of_eq h.symm)]
      rfl
    · rfl
  attributes _ := attributes_push

theorem connect : g.Apart (g.connect x y l) := ⟨connect_grows, rfl, fun _ => rfl, fun _ => rfl⟩

theorem showOn : g.Apart (g.modify m (Node.showOn v)) := by
  have hgrows : g.Grows (g.modify m (Node.showOn v)) := modify_grows fun a _ => a.showOn_grows
  refine ⟨hgrows, rfl, fun n => ?_, fun n => attributes_modify fun a => ?_⟩
  · rcases Nat.lt_or_ge n g.size with hn | hn
    · exact hgrows.object?_any_of_lt Obj.blind_isWidget hn
    · rw [object?_eq_none hn, object?_eq_none (by rwa [size_modify])]
  · unfold Node.showOn
    split <;> rfl

end Apart

end Graph

theorem NodeKind.not_isWidget_of_isNamed {k : NodeKind} (hk : k.isNamed = true) :
    k.object?.any (·.isWidget) = false := by
  cases k with
  | pointer | id => rfl
  | op => cases hk
  | object o => cases o <;> first | rfl | cases hk

namespace Flowgraph

variable {U : NodeKind → Prop} {f f' : Flowgraph} {c : Context} {n m x y v : NodeId} {k : NodeKind} {l : Local}
  {lab : Option Label} {r : Resources} {t : Template}

/-- An edit apart from the widgets. -/
structure Apart (f f' : Flowgraph) : Prop where
  graph : f.graph.Apart f'.graph
  inflations : f'.inflations = f.inflations

instance : IsPreorder Flowgraph Apart where
  refl f := ⟨.refl f.graph, rfl⟩
  trans _ _ _ h h' := ⟨h.graph.trans h'.graph, h'.inflations.trans h.inflations⟩

/-- The changes that a solver makes of a flowgraph are apart from its widgets. -/
theorem Change.apart (h : Change U f f') : Apart f f' := by
  refine ⟨?_, h.inflations⟩
  cases h with
  | log | handlers => exact .refl f.graph
  | node _ hk => exact .push (NodeKind.not_isWidget_of_isNamed hk)
  | flow => exact .connect
  | menu => exact Graph.Apart.trans (.push rfl) .connect
  | shown => exact .showOn

theorem Edits.apart (h : Edits U f f') : Apart f f' := by
  induction h with
  | refl => exact refl_of Apart f
  | tail _ h ih => exact trans_of Apart ih h.apart

theorem addNode_apart (hk : k.object?.any (·.isWidget) = false) : Calm Apart (addNode k) :=
  ⟨fun _ _ => .of_run rfl rfl ⟨.push hk, rfl⟩ rfl⟩

theorem addEdge_apart : Calm Apart (addEdge x y lab) := ⟨fun _ _ => .of_run rfl rfl ⟨.connect, rfl⟩ rfl⟩

theorem get_apart : Calm Apart get := ⟨fun _ f => .of_run rfl rfl (refl_of Apart f) rfl⟩

theorem program_apart : Calm Apart program := ⟨fun _ f => .of_run rfl rfl (refl_of Apart f) rfl⟩

theorem resources_apart : Calm Apart resources := ⟨fun _ f => .of_run rfl rfl (refl_of Apart f) rfl⟩

theorem intern_apart {p : NodeKind → Bool} (hk : k.object?.any (·.isWidget) = false) : Calm Apart (intern p k) := by
  unfold intern
  refine .bind ⟨fun _ f => .of_run rfl rfl (refl_of Apart f) rfl⟩ fun g => ?_
  split
  · exact .pure
  · exact addNode_apart hk

theorem varNode_apart : Calm Apart (varNode l) := intern_apart rfl

theorem idNode_apart {space : IdSpace} {value : Int} : Calm Apart (idNode space value) :=
  resources_apart.bind fun _ => intern_apart rfl

theorem stringNode_apart {text : String} : Calm Apart (stringNode text) := intern_apart rfl

theorem flowTo_apart : Calm Apart (flowTo x l lab) := varNode_apart.bind fun _ => addEdge_apart

theorem flowToThis_apart {k : Method} : Calm Apart (flowToThis x k) := by
  unfold flowToThis
  split
  · exact .discard flowTo_apart
  · exact .pure

theorem connectItemMenus_apart {handler : String} : Calm Apart (connectItemMenus m handler) := by
  unfold connectItemMenus
  apply get_apart.bind
  intro f
  apply Calm.each
  intro r
  split
  · exact .discard addEdge_apart
  · exact .pure

theorem contextMenu_apart {handler : String} : Calm Apart (contextMenu handler x v) := by
  unfold contextMenu
  apply get_apart.bind
  intro f
  split
  · exact ⟨fun _ _ => .of_run rfl rfl ⟨.showOn, rfl⟩ rfl⟩
  · apply (addNode_apart rfl).bind
    intro menu
    apply addEdge_apart.discard.bind
    intro _
    refine .bind ⟨fun _ _ => .of_run rfl rfl ⟨.refl _, rfl⟩ rfl⟩ fun _ => ?_
    exact connectItemMenus_apart.bind fun _ => .pure

theorem viewContextMenu_apart {cls : String} : Calm Apart (viewContextMenu x cls) := by
  unfold viewContextMenu
  apply program_apart.bind
  intro p
  split
  · split
    · apply flowTo_apart.discard.bind
      intro _
      exact varNode_apart.bind fun _ => varNode_apart.bind fun _ => .map contextMenu_apart
    · exact .pure
  · exact .pure

/-- The flow of a widget into the methods of its class is apart from all widgets. -/
theorem widgetCallbacks_apart {cls : String} : Calm Apart (widgetCallbacks x cls) := by
  unfold widgetCallbacks
  apply program_apart.bind
  intro p
  extract_lets fill finish
  have hfinish : ∀ u, Calm Apart (finish u) := by
    intro u
    dsimp -zeta only [finish]
    split
    · exact flowToThis_apart.bind fun _ => viewContextMenu_apart
    · exact viewContextMenu_apart
  split
  · exact .bind (.each fun _ => flowToThis_apart) hfinish
  · exact hfinish ()

/-! ## Attributes -/

/-- Nodes were asked for by name, and nothing else happened. -/
structure Names (U : NodeKind → Prop) (f f' : Flowgraph) : Prop where
  edits : Edits U f f'
  flow : f'.graph.flow = f.graph.flow
  nodes : ∀ m < f.graph.size, f'.graph.node? m = f.graph.node? m

instance : IsPreorder Flowgraph (Names U) where
  refl _ := ⟨.refl, rfl, fun _ _ => rfl⟩
  trans _ _ _ h h' := ⟨h.edits.trans h'.edits, h'.flow.trans h.flow,
    fun m hm => (h'.nodes m (h.edits.grows.toExtends.lt hm)).trans (h.nodes m hm)⟩

theorem Names.of_interned {p : NodeKind → Bool} {x : Edit NodeId} (h : Does (Edits U) c f x (Interned p f)) :
    Does (Names U) c f x fun n f' => f'.graph.find? p = some n :=
  ⟨⟨h.moves, h.post.flow, h.post.nodes⟩, h.post.first⟩

theorem idNode_names {space : IdSpace} {value : Int} (hU : U (c.project.resources.idKind space value)) :
    Does (Names U) c f (idNode space value) fun n f' =>
      f'.graph.IsNodeOf (c.project.resources.idKind space value) n :=
  (Names.of_interned (idNode_does hU)).imp fun _ _ _ => Graph.isNodeOf_id.mpr

theorem stringNode_names {text : String} (hU : U (.object (.string text))) :
    Does (Names U) c f (stringNode text) fun n f' => f'.graph.IsNodeOf (.object (.string text)) n :=
  (Names.of_interned (stringNode_does hU)).imp fun _ _ _ => Graph.isNodeOf_string.mpr

theorem mapM_names {β : Type} {l : List β} {node : β → Edit NodeId} (kind : β → NodeKind)
    (h : ∀ b ∈ l, ∀ f', Names U f f' → Does (Names U) c f' (node b) fun n f'' => f''.graph.IsNodeOf (kind b) n) :
    Does (Names U) c f (l.mapM node) fun ns f' => List.Forall₂ f'.graph.IsNodeOf (l.map kind) ns := by
  induction l generalizing f with
  | nil => exact .pure .nil
  | cons b l ih =>
    rw [List.mapM_cons]
    refine .bind (h b List.mem_cons_self f (refl_of (Names U) f)) fun n f₁ h₁ hn => ?_
    refine .bind (ih fun b hb f' h' => ?_) fun ns f₂ h₂ hns => ?_
    · exact h b (List.mem_cons_of_mem _ hb) f' (trans_of (Names U) h₁ h')
    · exact .pure (.cons (hn.mono h₂.edits.grows.toExtends) hns)

/-- A node got the attributes of a template. -/
def Equips (U : NodeKind → Prop) (r : Resources) (t : Template) (n : NodeId) (f f' : Flowgraph) : Prop :=
  ∃ f₁ id texts drawables, Names U f f₁ ∧ f₁.graph.Bears r t ⟨id, .ofList texts, .ofList drawables⟩ ∧
    f' = { f₁ with graph := f₁.graph.modify n (Node.equip id texts drawables) }

theorem bindAttributes_does (hU : ∀ k ∈ t.attributeKinds c.project.resources, U k) :
    Does Anyhow c f (Solver.bindAttributes n t) fun _ f' => Equips U c.project.resources t n f f' := by
  let idKind := fun v => c.project.resources.idKind (c.project.resources.widgetSpace v) v
  let textKind := fun s => NodeKind.object (.string s)
  unfold Solver.bindAttributes
  extract_lets withId
  have hid : ∀ id f₁, Names U f f₁ → Option.Rel f₁.graph.IsNodeOf (t.id.map idKind) id →
      Does Anyhow c f₁ (withId id) fun _ f' => Equips U c.project.resources t n f f' := by
    intro id f₁ h₁ hid
    dsimp -zeta only [withId]
    extract_lets withText
    have htext : ∀ text f₂, Names U f₁ f₂ → Option.Rel f₂.graph.IsNodeOf (t.text.map textKind) text →
        Does Anyhow c f₂ (withText text) fun _ f' => Equips U c.project.resources t n f f' := by
      intro text f₂ h₂ htext
      refine .read rfl ?_
      refine .bind (mapM_names (c.project.resources.idKind .drawable) fun v hv f' _ =>
        idNode_names (hU _ (Template.drawable_mem_attributeKinds hv))).forget fun ds f₃ _ ⟨h₃, hds⟩ => ?_
      have hnames := trans_of (Names U) (trans_of (Names U) h₁ h₂) h₃
      have hext₂ := h₂.edits.grows.toExtends
      have hext₃ := h₃.edits.grows.toExtends
      refine .of_run rfl trivial ⟨f₃, id, text.toList, ds, hnames, ⟨?_, ⟨text, ?_, rfl⟩, ds, hds, rfl⟩, rfl⟩
      · exact Graph.relOption_mono (hext₂.trans hext₃) hid
      · exact Graph.relOption_mono hext₃ htext
    split
    · rename_i s hs
      have hnode : Does (Names U) c f₁ (some <$> stringNode s) fun o f' =>
          Option.Rel f'.graph.IsNodeOf (t.text.map textKind) o := by
        rw [hs]
        exact .map ((stringNode_names (hU _ (Template.text_mem_attributeKinds hs))).imp fun _ _ _ hn => .some hn)
      exact .bind hnode.forget fun text f₂ _ h₂ => htext text f₂ h₂.1 h₂.2
    · rename_i hs
      exact .read rfl (htext none f₁ (refl_of (Names U) f₁) (by rw [hs]; exact .none))
  split
  · rename_i v hv
    have hnode : Does (Names U) c f (some <$> widgetIdNode v) fun o f' =>
        Option.Rel f'.graph.IsNodeOf (t.id.map idKind) o := by
      rw [hv]
      exact .map (.read rfl ((idNode_names (hU _ (Template.id_mem_attributeKinds hv))).imp fun _ _ _ hn => .some hn))
    exact .bind hnode.forget fun id f₁ _ h₁ => hid id f₁ h₁.1 h₁.2
  · rename_i hv
    exact .read rfl (hid none f (refl_of (Names U) f) (by rw [hv]; exact .none))

end Flowgraph

namespace Solver

open Flowgraph

variable {α β : Type} {U : NodeKind → Prop} {c : Context} {s t u : Solver} {r : Resources} {origin : NodeId × NodeId}
  {op n child parent layout menuId : NodeId} {object : Obj}

/-! ## One widget -/

theorem node?_of_names {f f₁ : Flowgraph} {k : NodeKind} (h : Names U (f.withNode k) f₁) :
    f₁.graph.node? f.graph.size = some { kind := k } := by
  have hsize : f.graph.size < (f.graph.push k).size := by
    rw [Graph.size_push]
    exact Nat.lt_succ_self _
  rw [h.nodes f.graph.size hsize]
  exact Graph.node?_push.trans (if_pos rfl)

theorem equip_grows_of_names {f f₁ : Flowgraph} {k : NodeKind} {id : Option NodeId} {texts drawables : List NodeId}
    (h : Names U (f.withNode k) f₁) :
    f₁.graph.Grows (f₁.graph.modify f.graph.size (Node.equip id texts drawables)) := by
  refine Graph.modify_grows fun a ha => Node.equip_grows ?_
  rw [node?_of_names h] at ha
  cases ha
  rfl

/-- A new node with the attributes of a template. -/
theorem addInflated_does {t : Template} (hU : ∀ k ∈ t.attributeKinds c.project.resources, U k) :
    Does Anyhow c s (addInflated op layout object t) fun n u => n = s.graph.size ∧ ∃ f,
      Equips U c.project.resources t s.graph.size (s.flowgraph.withNode (.object object)) f ∧
      u = s.made f s.log (op, layout) s.pending := by
  have h := bindAttributes_does (f := s.flowgraph.withNode (.object object)) (n := s.graph.size) hU
  exact .of_run rfl trivial ⟨rfl, _, h.post, rfl⟩

section Made

variable {t : Template} {f f₂ : Flowgraph} {pending : Bool} {log : List Log.Entry}
  (hf : Equips U r t s.graph.size (s.flowgraph.withNode (.object object)) f) (h₂ : Apart f f₂)
include hf h₂

theorem isWidget_made : (f₂.graph.object? n).any (·.isWidget) =
    ((s.graph.push (.object object)).object? n).any (·.isWidget) := by
  obtain ⟨f₁, id, texts, drawables, hn, hb, rfl⟩ := hf
  have hmodify : (f₁.graph.modify s.graph.size (Node.equip id texts drawables)).object? n = f₁.graph.object? n :=
    Graph.object?_modify fun _ => rfl
  calc (f₂.graph.object? n).any (·.isWidget)
    _ = ((f₁.graph.modify s.graph.size (Node.equip id texts drawables)).object? n).any (·.isWidget) := h₂.graph.isWidget n
    _ = (f₁.graph.object? n).any (·.isWidget) := by rw [hmodify]
    _ = ((s.graph.push (.object object)).object? n).any (·.isWidget) := hn.edits.apart.graph.isWidget n

/-- A fresh node that got its attributes is the only new widget. -/
theorem plants_made (hobj : object.isWidget = true) :
    Plants origin [s.graph.size] [] s (s.made f₂ log origin pending) := by
  have hwidget := fun n => isWidget_made (n := n) hf h₂
  obtain ⟨f₁, id, texts, drawables, hn, hb, rfl⟩ := hf
  have hedits := hn.edits.apart
  constructor
  case graph => exact Graph.push_grows.trans (hedits.graph.grows.trans ((equip_grows_of_names hn).trans h₂.graph.grows))
  case sorted => exact List.pairwise_singleton _ _
  case widgets =>
    intro n
    show _ ↔ s.graph.size ≤ n ∧ (f₂.graph.object? n).any _ = true
    rw [List.mem_singleton, hwidget, Graph.object?_push]
    constructor
    · rintro rfl
      rw [if_pos rfl]
      exact ⟨Nat.le_refl _, hobj⟩
    · rintro ⟨hle, hn⟩
      by_contra hne
      rw [if_neg hne, Graph.object?_eq_none hle] at hn
      cases hn
  case attributes =>
    intro n hne
    rw [List.mem_singleton] at hne
    show f₂.graph.attributes n = _
    rw [h₂.graph.attributes, Graph.attributes_modify_of_ne (Ne.symm hne), hedits.graph.attributes]
    exact Graph.attributes_push
  case containment =>
    intro a
    have hsame : f₂.graph.containment = s.graph.containment :=
      h₂.graph.containment.trans hedits.graph.containment
    show a ∈ f₂.graph.containment ↔ _
    rw [hsame]
    simp
  case origins =>
    intro n
    show (s.origins.insert s.graph.size origin)[n]? = _
    split
    · rename_i hn
      rw [List.mem_singleton.mp hn, ExtTreeMap.getElem?_insert_self]
    · rename_i hn
      rw [Container.getElem?_insert_of_ne (mt List.mem_singleton.mpr hn)]
  case inflated => rfl
  case inflations =>
    intro key hkey
    show key ∈ f₂.inflations
    rw [h₂.inflations]
    exact hedits.inflations ▸ hkey

/-- It is what was asked for, and has the attributes of the template. -/
theorem shows_made (hobj : object.isWidget = true) : f₂.graph.Shows r s.graph.size ⟨object, t⟩ := by
  obtain ⟨f₁, id, texts, drawables, hn, hb, rfl⟩ := hf
  have hnode := node?_of_names hn
  constructor
  case object =>
    refine h₂.graph.grows.object?_widget hobj ?_
    show (f₁.graph.modify s.graph.size (Node.equip id texts drawables)).object? s.graph.size = some object
    rw [Graph.object?, Graph.node?_modify, if_pos rfl, graph, hnode]
    rfl
  case bears =>
    have hset : ∀ l : List NodeId, (∅ : NodeSet).insertMany l = .ofList l := by
      intro l
      ext n
      simp
    have hattributes : f₂.graph.attributes s.graph.size = ⟨id, .ofList texts, .ofList drawables⟩ := by
      rw [h₂.graph.attributes, Graph.attributes, Graph.node?_modify, if_pos rfl, graph, hnode, ← hset, ← hset]
      rfl
    rw [hattributes]
    exact hb.mono ((equip_grows_of_names hn).trans h₂.graph.grows).toExtends

end Made

theorem addInflated_plants {t : Template} (hobj : object.isWidget = true) :
    Does Anyhow c s (addInflated op layout object t) fun n u =>
      Plants (op, layout) [n] [] s u ∧ u.graph.Shows c.project.resources n ⟨object, t⟩ := by
  refine (addInflated_does (U := fun _ => True) fun _ _ => trivial).imp fun n u _ ⟨hn, f, hf, hu⟩ => ?_
  subst hn hu
  exact ⟨plants_made hf (refl_of Apart f) hobj, shows_made hf (refl_of Apart f) hobj⟩

theorem onFlowgraph_does {R : Flowgraph → Flowgraph → Prop} {act : Edit α} {Q : α → Flowgraph → Prop}
    (h : Does R c s.flowgraph act Q) : Does Anyhow c s (onFlowgraph act) fun a t =>
      ∃ f, R s.flowgraph f ∧ Q a f ∧ t = { s with flowgraph := f } :=
  .of_run rfl trivial ⟨_, h.moves, h.post, rfl⟩

theorem inflateWidget_plants {cls : String} {t : Template} :
    Does Anyhow (c.mode false) s (inflateWidget op layout cls t) fun n u =>
      Plants (op, layout) [n] [] s u ∧ u.graph.Shows c.project.resources n ⟨.inflated cls, t⟩ := by
  unfold inflateWidget
  refine .bind (addInflated_does (U := fun _ => True) fun _ _ => trivial) fun n u₁ _ ⟨hn, f, hf, hu₁⟩ => ?_
  subst hn hu₁
  refine .bind (onFlowgraph_does widgetCallbacks_apart.does) fun menu u₂ _ ⟨f₂, h₂, _, hu₂⟩ => ?_
  obtain rfl : u₂ = s.made f₂ s.log (op, layout) s.pending := hu₂
  refine .read rfl ?_
  have hmade : ∀ log pending, Plants (op, layout) [s.graph.size] [] s (s.made f₂ log (op, layout) pending) ∧
      (s.made f₂ log (op, layout) pending).graph.Shows c.project.resources s.graph.size ⟨.inflated cls, t⟩ :=
    fun _ _ => ⟨plants_made hf h₂ rfl, shows_made hf h₂ rfl⟩
  -- what follows is an entry of the log and the mark that there is new flow
  extract_lets done finish
  have hfinish : ∀ x log, Does Anyhow (c.mode false) (s.made f₂ log (op, layout) s.pending) (finish x) fun n u =>
      Plants (op, layout) [n] [] s u ∧ u.graph.Shows c.project.resources n ⟨.inflated cls, t⟩ := by
    intro x log
    dsimp only [finish]
    split
    · exact .of_run rfl trivial (hmade log true)
    · exact .pure (hmade log s.pending)
  split
  · refine .bind (Q := fun _ u => ∃ log, u = s.made f₂ log (op, layout) s.pending) (.of_run rfl trivial ⟨_, rfl⟩)
      fun x u _ ⟨log, hu⟩ => ?_
    rw [hu]
    exact hfinish x log
  · exact hfinish () _

/-! ## Actions that depend on nothing else -/

/-- The action does the same whether the solver is strict or not and whatever was refused before. It reports nothing. -/
structure Immune (x : Refine α) : Prop where
  run : ∀ (c : Context) s strict rejected, x (c.mode strict) { s with rejected } =
    ((x (c.mode false) s).1, { (x (c.mode false) s).2 with rejected })
  silent : ∀ (c : Context) s, record (x (c.mode false) s).2 = record s

namespace Immune

theorem pure {a : α} : Immune (Pure.pure a : Refine α) := ⟨fun _ _ _ _ => rfl, fun _ _ => rfl⟩

theorem bind {x : Refine α} {k : α → Refine β} (hx : Immune x) (hk : ∀ a, Immune (k a)) : Immune (x >>= k) where
  run c s strict rejected := by
    show k (x (c.mode strict) { s with rejected }).1 (c.mode strict) (x (c.mode strict) { s with rejected }).2 = _
    rw [hx.run]
    exact (hk _).run c _ strict rejected
  silent c s := ((hk _).silent c _).trans (hx.silent c s)

theorem getGraph : Immune getGraph := ⟨fun _ _ _ _ => rfl, fun _ _ => rfl⟩

theorem modify {g : Solver → Solver} (hg : ∀ (s : Solver) rejected, g { s with rejected } = { g s with rejected })
    (he : ∀ s, record (g s) = record s) : Immune (modify g) :=
  ⟨fun _ s _ rejected => Prod.ext rfl (hg s rejected), fun _ s => he s⟩

theorem onFlowgraph {R : Flowgraph → Flowgraph → Prop} {act : Edit α} (h : Calm R act) : Immune (onFlowgraph act) where
  run c s strict rejected := by
    have hact : act (c.mode strict) s.flowgraph = act (c.mode false) s.flowgraph := by
      cases strict with
      | false => rfl
      | true => exact (h.run c s.flowgraph).blind
    show ((act (c.mode strict) s.flowgraph).1,
      { s with flowgraph := (act (c.mode strict) s.flowgraph).2, rejected }) = _
    rw [hact]
    rfl
  silent c s := by
    have hlog : Log.errors (act (c.mode false) s.flowgraph).2.log = Log.errors s.flowgraph.log :=
      congrArg Prod.fst (h.run c s.flowgraph).silent
    refine Prod.ext ?_ rfl
    show Log.errors ((act (c.mode false) s.flowgraph).2.log ++ s.log) = Log.errors (s.flowgraph.log ++ s.log)
    rw [Log.errors_append, Log.errors_append, hlog]

end Immune

theorem logEntry_immune {level : Log.Level} {text : String} {l : Option Label} (h : level ≠ .error) :
    Immune (logEntry level text l) := by
  refine .modify (fun _ _ => rfl) fun s => Prod.ext ?_ rfl
  show Log.errors (s.flowgraph.log ++ (s.log ++ _)) = Log.errors (s.flowgraph.log ++ s.log)
  rw [← List.append_assoc]
  simp [Log.errors, h]

theorem remark_immune {r : Remark} {l : Option Label} : Immune (remark r l) := logEntry_immune nofun

theorem bindAttributes_calm {t : Template} : Calm Anyhow (bindAttributes n t) := by
  have hnode : ∀ space value, Calm Anyhow (idNode space value) := fun _ _ => idNode_apart.forget
  unfold bindAttributes
  extract_lets withId
  have hid : ∀ id, Calm Anyhow (withId id) := by
    intro id
    dsimp -zeta only [withId]
    extract_lets withText
    have htext : ∀ text, Calm Anyhow (withText text) := by
      intro text
      apply resources_apart.forget.bind
      intro r
      refine .bind (.mapM fun _ => hnode _ _) fun drawables => ?_
      exact ⟨fun _ _ => .of_run rfl rfl trivial rfl⟩
    split
    · exact .bind (.map stringNode_apart.forget) htext
    · exact .bind .pure htext
  split
  · exact .bind (.map (resources_apart.forget.bind fun _ => hnode _ _)) hid
  · exact .bind .pure hid

theorem addInflated_immune {t : Template} : Immune (addInflated op layout object t) := by
  unfold addInflated
  refine .bind (.onFlowgraph (R := Anyhow) ⟨fun _ _ => .of_run rfl rfl trivial rfl⟩) fun n => ?_
  refine .bind (.modify (fun _ _ => rfl) fun _ => rfl) fun _ => ?_
  refine .bind (.onFlowgraph bindAttributes_calm) fun _ => ?_
  exact .bind (.modify (fun _ _ => rfl) fun _ => rfl) fun _ => .pure

theorem inflateWidget_immune {cls : String} {t : Template} : Immune (inflateWidget op layout cls t) := by
  unfold inflateWidget
  apply addInflated_immune.bind
  intro n
  apply (Immune.onFlowgraph widgetCallbacks_apart).bind
  intro menu
  apply Immune.getGraph.bind
  intro g
  extract_lets done finish
  have hfinish : ∀ u, Immune (finish u) := by
    intro u
    dsimp -zeta only [finish]
    split
    · exact .bind (.modify (fun _ _ => rfl) fun _ => rfl) fun _ => .pure
    · exact .pure
  split
  · exact remark_immune.bind hfinish
  · exact hfinish ()

/-- From `s`, the action ends with `Q` and reports nothing, whether the solver is strict or not and whatever was refused
before. As a strict solver fails at the first refusal, nothing is refused. -/
def Sure (c : Context) (s : Solver) (x : Solve α) (Q : α → Solver → Prop) : Prop :=
  ∃ a t, (∀ strict rejected, x (c.mode strict) { s with rejected } = (.ok a, { t with rejected })) ∧
    t.rejected = s.rejected ∧ record t = record s ∧ Q a t

namespace Sure

variable {P : β → Solver → Prop} {Q S : α → Solver → Prop}

theorem run {x : Solve α} (h : Sure c s x Q) :
    ∃ a t, x c s = (.ok a, t) ∧ t.rejected = s.rejected ∧ record t = record s ∧ Q a t := by
  obtain ⟨a, t, hrun, hrejected, hrest⟩ := h
  have h : x c s = (.ok a, { t with rejected := s.rejected }) := hrun c.settings.strict s.rejected
  rw [← hrejected] at h
  exact ⟨a, t, h, hrejected, hrest⟩

/-- An action that never fails. -/
theorem tries {E : Solver → Solver → Prop} {x : Solve α} (h : Sure c s x Q) : Tries Anyhow E c s x Q := by
  obtain ⟨a, t, hrun, -, -, hq⟩ := h.run
  exact .of_ok hrun trivial hq

theorem imp {x : Solve α} (h : Sure c s x Q) (hQ : ∀ a t, Q a t → S a t) : Sure c s x S := by
  obtain ⟨a, t, hrun, hrejected, hrecord, hq⟩ := h
  exact ⟨a, t, hrun, hrejected, hrecord, hQ a t hq⟩

theorem pure {a : α} (h : Q a s) : Sure c s (Pure.pure a) Q := ⟨a, s, fun _ _ => rfl, rfl, rfl, h⟩

theorem bind {x : Solve α} {k : α → Solve β} (hx : Sure c s x Q) (hk : ∀ a t, Q a t → Sure c t (k a) P) :
    Sure c s (x >>= k) P := by
  obtain ⟨a, t, hrun, hrejected, hrecord, hq⟩ := hx
  obtain ⟨b, u, hrun', hrejected', hrecord', hp⟩ := hk a t hq
  refine ⟨b, u, fun strict rejected => ?_, hrejected'.trans hrejected, hrecord'.trans hrecord, hp⟩
  rw [bind_run_ok (hrun strict rejected)]
  exact hrun' strict rejected

theorem lift {x : Refine α} (hx : Immune x) (h : Does Anyhow (c.mode false) s x Q) : Sure c s (liftM x) Q := by
  refine ⟨(x (c.mode false) s).1, (x (c.mode false) s).2, fun strict rejected => ?_, ?_, hx.silent c s, h.post⟩
  · show (Except.ok (x (c.mode strict) { s with rejected }).1, (x (c.mode strict) { s with rejected }).2) = _
    rw [hx.run]
  · have := congrArg (fun r => r.2.rejected) (hx.run c s false s.rejected)
    exact this

theorem discard {x : Solve α} (h : Sure c s x Q) : Sure c s (discard x) fun _ t => ∃ a, Q a t :=
  h.bind fun a _ ha => .pure ⟨a, ha⟩

/-- An action that looks at the graph. -/
theorem getGraph {k : Graph → Solve β} (h : Sure c s (k s.graph) P) :
    Sure c s ((liftM getGraph : Solve Graph) >>= k) P := by
  obtain ⟨b, t, hrun, hrest⟩ := h
  exact ⟨b, t, hrun, hrest⟩

theorem resources {k : Resources → Solve β} (h : Sure c s (k c.project.resources) P) :
    Sure c s ((liftM resources : Solve Resources) >>= k) P := by
  obtain ⟨b, t, hrun, hrest⟩ := h
  exact ⟨b, t, hrun, hrest⟩

/-- An action that looks at the state, but not at what was refused. -/
theorem get {k : Solver → Solve β} (hk : ∀ rejected, k { s with rejected } = k s) (h : Sure c s (k s) P) :
    Sure c s (get >>= k) P := by
  obtain ⟨b, t, hrun, hrest⟩ := h
  refine ⟨b, t, fun strict rejected => ?_, hrest⟩
  show k { s with rejected } (c.mode strict) { s with rejected } = _
  rw [hk]
  exact hrun strict rejected

/-- A change that does not look at what was refused. -/
theorem modify {g : Solver → Solver} {Q : PUnit → Solver → Prop}
    (hg : ∀ rejected, g { s with rejected } = { g s with rejected }) (he : record (g s) = record s)
    (h : Q () (g s)) : Sure c s (modify g) Q := by
  have hrejected : (g s).rejected = s.rejected := (congrArg Solver.rejected (hg s.rejected) :)
  exact ⟨(), g s, fun _ rejected => congrArg (Prod.mk (Except.ok ())) (hg rejected), hrejected, he, h⟩

/-- An action that goes on as another from a state that differs in nothing that was reported. -/
theorem after {x y : Solve α} (hx : ∀ strict rejected, x (c.mode strict) { s with rejected } =
    y (c.mode strict) { t with rejected }) (hr : t.rejected = s.rejected) (he : record t = record s)
    (h : Sure c t y Q) : Sure c s x Q := by
  obtain ⟨a, u, hrun, hrejected, hrecord, hq⟩ := h
  exact ⟨a, u, fun strict rejected => (hx strict rejected).trans (hrun strict rejected), hrejected.trans hr,
    hrecord.trans he, hq⟩

theorem each {R : Solver → Solver → Prop} [IsPreorder Solver R] {f : α → Solve PUnit} {l : List α}
    (hf : ∀ a ∈ l, ∀ t, R s t → Sure c t (f a) fun _ u => R t u) : Sure c s (l.forM f) fun _ t => R s t := by
  induction l generalizing s with
  | nil => exact .pure (refl_of R s)
  | cons a l ih =>
    refine .bind (hf a List.mem_cons_self s (refl_of R s)) fun _ t hst => ?_
    refine (ih fun b hb u htu => hf b (List.mem_cons_of_mem _ hb) u (trans_of R hst htu)).imp fun _ u htu => ?_
    exact trans_of R hst htu

end Sure

/-! ## Putting widgets inside each other -/

end Solver

/-- What is inside of anything, and what it is inside of, are nodes. -/
def Graph.Bounded (g : Graph) : Prop := ∀ a ∈ g.containment, a.src < g.size ∧ a.dst < g.size

namespace Solver

open Flowgraph

variable {c : Context} {s t u : Solver} {r : Resources} {origin : NodeId × NodeId} {ns : List NodeId} {as : List Arc}
  {op n child parent layout menuId : NodeId} {w v : Forest NodeId}

theorem plants_nest {g : Graph} {added : Bool} (h : s.graph.nest child parent = .ok (g, added)) :
    Plants origin [] [⟨child, parent⟩] s (s.setGraph g) := by
  constructor
  case graph => exact Graph.nest_grows h
  case sorted => exact .nil
  case widgets =>
    refine fun n => ⟨nofun, fun ⟨hle, hn⟩ => ?_⟩
    have hn : (g.object? n).any (·.isWidget) = true := hn
    rw [Graph.object?_nest h, Graph.object?_eq_none hle] at hn
    cases hn
  case attributes => exact fun n _ => Graph.attributes_of_nodes (Graph.nodes_nest h)
  case containment =>
    intro a
    rw [List.mem_singleton]
    exact Graph.mem_containment_nest h
  case origins => exact fun n => (if_neg List.not_mem_nil).symm
  case inflated => rfl
  case inflations => exact fun _ h => h

/-- A new widget goes into what was there before: what is inside of it is new as well. -/
theorem Plants.attach_sure (h : Plants origin ns as s t) (hs : s.graph.Bounded) (has : ∀ a ∈ as, a.src ∈ ns)
    (hc : child ∈ ns) (hp : parent < s.graph.size) :
    Sure c t (attach op child parent) fun _ u => Plants origin [] [⟨child, parent⟩] t u := by
  obtain ⟨g, added, hnest⟩ : ∃ g added, t.graph.nest child parent = .ok (g, added) := by
    refine Graph.nest_new (k := s.graph.size) (fun a ha hdst => ?_) (h.ge hc) hp
    rcases (h.containment a).mp ha with ha | ha
    · exact absurd (hs a ha).2 (Nat.not_lt.mpr hdst)
    · exact h.ge (has a ha)
  refine ⟨added, t.setGraph g, fun strict rejected => ?_, rfl, rfl, plants_nest hnest⟩
  have hnest : ({ t with rejected } : Solver).graph.nest child parent = .ok (g, added) := hnest
  unfold attach
  rw [bind_run_ok rfl, hnest]
  rfl

/-- After an inflation, what is inside of anything is still a node. -/
theorem Plants.bounded (h : Plants origin ns as s t) (hs : s.graph.Bounded)
    (has : ∀ a ∈ as, a.src < t.graph.size ∧ a.dst < t.graph.size) : t.graph.Bounded := by
  intro a ha
  have hext := h.graph.toExtends
  rcases (h.containment a).mp ha with ha | ha
  · exact ⟨hext.lt (hs a ha).1, hext.lt (hs a ha).2⟩
  · exact has a ha

namespace Grown

variable {p : Forest Template.Part}

theorem bounded (h : Grown r origin p w w.arcs s u) (hs : s.graph.Bounded) : u.graph.Bounded :=
  h.plants.bounded hs fun _ ha => ⟨h.plants.lt (Forest.src_mem_elems ha), h.plants.lt (Forest.dst_mem_elems ha)⟩

theorem boundedIn (h : Grown r origin p w (w.arcsIn parent) s u) (hs : s.graph.Bounded) (hp : parent < s.graph.size) :
    u.graph.Bounded := by
  refine h.plants.bounded hs fun a ha => ⟨h.plants.lt (Forest.src_mem_elems_of_arcsIn ha), ?_⟩
  rcases Forest.dst_of_arcsIn ha with hdst | hdst
  · exact hdst ▸ h.plants.graph.toExtends.lt hp
  · exact h.plants.lt hdst

/-- A layout has one topmost widget. -/
theorem rest_eq_nil {t : Template} (h : Grown r origin t.parts (.cons n w v) as s u) : v = .nil := by
  have hcopy := h.copy
  obtain ⟨cls, id, text, attributes, children⟩ := t
  cases cls with
  | none => cases hcopy
  | some cls =>
    cases hcopy with
    | cons _ _ hrest =>
      cases hrest
      rfl

end Grown

/-! ## Layouts -/

mutual

/-- The widgets of a layout are a copy of it. -/
theorem inflateView_sure : ∀ (t : Template) {s : Solver}, s.graph.Bounded →
    Sure c s (inflateView op layout t) fun root u =>
      ∃ w, Grown c.project.resources (op, layout) t.parts w w.arcs s u ∧ root = w.top?
  | ⟨none, id, text, attributes, children⟩, s, _ => by
    rw [inflateView.eq_1]
    refine .getGraph ?_
    refine .bind (Q := fun _ u => Plants (op, layout) [] [] s u)
      (.lift remark_immune (.of_run rfl trivial (.of_graph rfl rfl rfl fun _ h => h))) fun _ u hu => ?_
    exact .pure ⟨.nil, .empty hu, rfl⟩
  | ⟨some cls, id, text, attributes, children⟩, s, hs => by
    rw [inflateView.eq_2]
    refine .bind (.lift inflateWidget_immune inflateWidget_plants) fun n u₁ ⟨hplants, hshows⟩ => ?_
    refine .bind (inflateChildren_sure children (hplants.bounded hs nofun) (hplants.lt List.mem_cons_self))
      fun _ u₂ ⟨w, hw⟩ => .pure ⟨.cons n w .nil, ?_, rfl⟩
    refine (Grown.root hplants hshows hw).congr fun a => ?_
    simp [Forest.arcs]

theorem inflateChildren_sure {parent : NodeId} : ∀ (ts : List Template) {s : Solver}, s.graph.Bounded →
    parent < s.graph.size → Sure c s (inflateChildren op layout parent ts) fun _ u =>
      ∃ w, Grown c.project.resources (op, layout) (Template.allParts ts) w (w.arcsIn parent) s u
  | [], s, _, _ => by
    rw [inflateChildren.eq_1]
    exact .pure ⟨.nil, .empty (.of_graph rfl rfl rfl fun _ h => h)⟩
  | t :: ts, s, hs, hp => by
    rw [inflateChildren.eq_2]
    refine .bind (inflateView_sure t hs) fun root u₁ ⟨w, hw, hroot⟩ => ?_
    -- once the first template is in its place, the others follow
    have hrest : ∀ u₂, Grown c.project.resources (op, layout) t.parts w (w.arcsIn parent) s u₂ →
        Sure c u₂ (inflateChildren op layout parent ts) fun _ u =>
          ∃ v, Grown c.project.resources (op, layout) (Template.allParts (t :: ts)) v (v.arcsIn parent) s u := by
      intro u₂ hw₂
      refine (inflateChildren_sure ts (hw₂.boundedIn hs hp) (hw₂.plants.graph.toExtends.lt hp)).imp
        fun _ u ⟨v, hv⟩ => ⟨w.append v, ?_⟩
      rw [Template.allParts, Forest.arcsIn_append]
      exact hw₂.append hv
    cases w with
    | nil =>
      subst hroot
      exact hrest u₁ hw
    | cons child below rest =>
      subst hroot
      obtain rfl := hw.rest_eq_nil
      refine .bind (hw.plants.attach_sure hs (fun _ => Forest.src_mem_elems) List.mem_cons_self hp).discard
        fun _ u₂ ⟨_, hput⟩ => ?_
      refine hrest u₂ ((hw.put hput).congr fun a => ?_)
      simp [Forest.arcs, Forest.arcsIn, or_comm]

end

/-- A layout is copied, unless it was inflated before. -/
theorem inflateLayout_sure {window : Option NodeId} (hs : s.graph.Bounded) :
    Sure c s (inflateLayout op layout window) fun root u => u = s ∨ ∃ t w,
      Grown c.project.resources (op, layout) (s.graph.layoutParts c.project.resources layout) w w.arcs s t ∧
      u = t.cache ⟨op, layout, window⟩ root := by
  unfold inflateLayout
  refine .get (fun _ => rfl) ?_
  split
  · exact .pure (.inl rfl)
  · split
    · rename_i i hi
      refine .resources ?_
      extract_lets store
      have hstore : ∀ root t w, Grown c.project.resources (op, layout)
          (s.graph.layoutParts c.project.resources layout) w w.arcs s t →
          Sure c t (store root) fun root u => u = s ∨ ∃ t w, Grown c.project.resources (op, layout)
            (s.graph.layoutParts c.project.resources layout) w w.arcs s t ∧ u = t.cache ⟨op, layout, window⟩ root :=
        fun root t w hw => ⟨root, t.cache ⟨op, layout, window⟩ root, fun _ _ => rfl, rfl, rfl, .inr ⟨t, w, hw, rfl⟩⟩
      split
      · rename_i template ht
        have hparts : s.graph.layoutParts c.project.resources layout = template.parts := by
          rw [Graph.layoutParts, hi, Option.bind_some, ht]
        refine .bind (inflateView_sure template hs) fun root t hview => ?_
        obtain ⟨w, hw, _⟩ := hview
        exact hstore root t w (hparts ▸ hw)
      · rename_i ht
        have hparts : s.graph.layoutParts c.project.resources layout = .nil := by
          rw [Graph.layoutParts, hi, Option.bind_some, ht]
        refine .bind (Q := fun _ t => Plants (op, layout) [] [] s t)
          (.lift remark_immune (.of_run rfl trivial (.of_graph rfl rfl rfl fun _ h => h))) fun _ t h => ?_
        refine .bind (Q := fun _ u => u = t) (.pure rfl) fun root u hu => ?_
        exact hstore root u .nil (hparts ▸ .empty (hu ▸ h))
    · exact .pure (.inl rfl)

/-! ## Menus -/

mutual

/-- The items of a menu are a copy of it. -/
theorem inflateItem_sure {parent : NodeId} : ∀ (t : Template) {s : Solver}, s.graph.Bounded → parent < s.graph.size →
    Sure c s (inflateItem op menuId parent t) fun _ u =>
      ∃ w, Grown c.project.resources (op, menuId) t.itemParts w (w.arcsIn parent) s u
  | ⟨cls, id, text, attributes, children⟩, s, hs, hp => by
    rw [inflateItem.eq_1]
    refine .bind (.lift addInflated_immune (addInflated_plants rfl)) fun n u₁ ⟨hplants, hshows⟩ => ?_
    refine .bind (hplants.attach_sure hs nofun List.mem_cons_self hp).discard fun _ u₂ ⟨_, hput⟩ => ?_
    have hplants₂ := hplants.trans hput
    have hlt := hplants₂.lt List.mem_cons_self
    have hbounded : u₂.graph.Bounded := by
      refine hplants₂.bounded hs fun a ha => ?_
      obtain rfl : a = ⟨n, parent⟩ := by simpa using ha
      exact ⟨hlt, hplants₂.graph.toExtends.lt hp⟩
    refine (inflateSubmenus_sure children hbounded hlt).imp fun _ u₃ ⟨w, hw⟩ => ⟨.cons n w .nil, ?_⟩
    refine (Grown.root hplants₂ (hplants.shows_of List.mem_cons_self hput hshows) hw).congr fun a => ?_
    simp [Forest.arcsIn]

theorem inflateSubmenus_sure {parent : NodeId} : ∀ (ts : List Template) {s : Solver}, s.graph.Bounded →
    parent < s.graph.size → Sure c s (inflateSubmenus op menuId parent ts) fun _ u =>
      ∃ w, Grown c.project.resources (op, menuId) (Template.submenuParts ts) w (w.arcsIn parent) s u
  | [], s, _, _ => by
    rw [inflateSubmenus.eq_1]
    exact .pure ⟨.nil, .empty (.of_graph rfl rfl rfl fun _ h => h)⟩
  | ⟨cls, id, text, attributes, items⟩ :: menus, s, hs, hp => by
    rw [inflateSubmenus.eq_2]
    refine .bind (inflateItems_sure items hs hp) fun _ u₁ ⟨w, hw⟩ => ?_
    refine (inflateSubmenus_sure menus (hw.boundedIn hs hp) (hw.plants.graph.toExtends.lt hp)).imp
      fun _ u₂ ⟨v, hv⟩ => ⟨w.append v, ?_⟩
    rw [Template.submenuParts, Forest.arcsIn_append]
    exact hw.append hv

theorem inflateItems_sure {parent : NodeId} : ∀ (ts : List Template) {s : Solver}, s.graph.Bounded →
    parent < s.graph.size → Sure c s (inflateItems op menuId parent ts) fun _ u =>
      ∃ w, Grown c.project.resources (op, menuId) (Template.allItemParts ts) w (w.arcsIn parent) s u
  | [], s, _, _ => by
    rw [inflateItems.eq_1]
    exact .pure ⟨.nil, .empty (.of_graph rfl rfl rfl fun _ h => h)⟩
  | t :: ts, s, hs, hp => by
    rw [inflateItems.eq_2]
    refine .bind (inflateItem_sure t hs hp) fun _ u₁ ⟨w, hw⟩ => ?_
    refine (inflateItems_sure ts (hw.boundedIn hs hp) (hw.plants.graph.toExtends.lt hp)).imp
      fun _ u₂ ⟨v, hv⟩ => ⟨w.append v, ?_⟩
    rw [Template.allItemParts, Forest.arcsIn_append]
    exact hw.append hv

end

section InflateMenu

variable {menu : NodeId} {i : ResourceId}

theorem inflateMenu_of_mem (h : InflationKey.mk op menuId (some menu) ∈ s.flowgraph.inflations) :
    inflateMenu op menuId menu c s = (.ok (), s) := by
  unfold inflateMenu
  rw [bind_run_ok (a := s) (t := s) rfl, if_pos h]
  rfl

variable (hnew : InflationKey.mk op menuId (some menu) ∉ s.flowgraph.inflations)
include hnew

theorem inflateMenu_of_no_id (hi : s.graph.id? menuId = none) :
    inflateMenu op menuId menu c s = (.ok (), s.cache ⟨op, menuId, some menu⟩ none) := by
  unfold inflateMenu
  rw [bind_run_ok (a := s) (t := s) rfl, if_neg hnew, bind_run_ok rfl, hi]
  rfl

variable (hi : s.graph.id? menuId = some i)
include hi

theorem inflateMenu_eq {t : Template} (ht : c.project.resources.menus[i.value]? = some t) :
    inflateMenu op menuId menu c s =
      inflateItems op menuId menu t.children c (s.cache ⟨op, menuId, some menu⟩ none) := by
  unfold inflateMenu
  rw [bind_run_ok (a := s) (t := s) rfl, if_neg hnew, bind_run_ok rfl, hi]
  dsimp only
  rw [bind_run_ok (a := c.project.resources) rfl, ht]
  rfl

theorem inflateMenu_of_not_found (ht : c.project.resources.menus[i.value]? = none) :
    inflateMenu op menuId menu c s =
      (liftM (remark (.menuNotFound (s.graph.describe menuId)) (s.graph.opLabel? op)) : Solve Unit) c
        (s.cache ⟨op, menuId, some menu⟩ none) := by
  unfold inflateMenu
  rw [bind_run_ok (a := s) (t := s) rfl, if_neg hnew, bind_run_ok rfl, hi]
  dsimp only
  rw [bind_run_ok (a := c.project.resources) rfl, ht]
  rfl

end InflateMenu

/-- The items of a menu are copied, unless this was done before. -/
theorem inflateMenu_sure {menu : NodeId} (hs : s.graph.Bounded) (hm : menu < s.graph.size) :
    Sure c s (inflateMenu op menuId menu) fun _ u =>
      InflationKey.mk op menuId (some menu) ∈ s.flowgraph.inflations ∧ u = s ∨
      InflationKey.mk op menuId (some menu) ∉ s.flowgraph.inflations ∧
        ∃ w, Grown c.project.resources (op, menuId) (s.graph.menuParts c.project.resources menuId) w (w.arcsIn menu)
          (s.cache ⟨op, menuId, some menu⟩ none) u := by
  by_cases hkey : InflationKey.mk op menuId (some menu) ∈ s.flowgraph.inflations
  · exact ⟨(), s, fun _ _ => inflateMenu_of_mem hkey, rfl, rfl, .inl ⟨hkey, rfl⟩⟩
  · refine .imp (Q := fun _ u => ∃ w, Grown c.project.resources (op, menuId)
      (s.graph.menuParts c.project.resources menuId) w (w.arcsIn menu) (s.cache ⟨op, menuId, some menu⟩ none) u) ?_
      fun _ u h => .inr ⟨hkey, h⟩
    rw [Graph.menuParts]
    cases hi : s.graph.id? menuId with
    | none =>
      exact ⟨(), s.cache ⟨op, menuId, some menu⟩ none, fun _ _ => inflateMenu_of_no_id hkey hi, rfl, rfl, .nil,
        .empty (.of_graph rfl rfl rfl fun _ h => h)⟩
    | some i =>
      rw [Option.bind_some]
      cases ht : c.project.resources.menus[i.value]? with
      | some t =>
        refine .after (t := s.cache ⟨op, menuId, some menu⟩ none) (y := inflateItems op menuId menu t.children)
          (fun strict rejected => inflateMenu_eq (c := c.mode strict) (s := { s with rejected }) hkey hi ht) rfl rfl ?_
        exact inflateItems_sure t.children hs hm
      | none =>
        refine .after (t := s.cache ⟨op, menuId, some menu⟩ none)
          (y := liftM (remark (.menuNotFound (s.graph.describe menuId)) (s.graph.opLabel? op)))
          (fun strict rejected =>
            inflateMenu_of_not_found (c := c.mode strict) (s := { s with rejected }) hkey hi ht) rfl rfl ?_
        exact .lift remark_immune (.of_run rfl trivial ⟨.nil, .empty (.of_graph rfl rfl rfl fun _ h => h)⟩)

end Solver

end WidgetFlow
