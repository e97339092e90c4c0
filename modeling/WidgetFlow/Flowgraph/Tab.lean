import WidgetFlow.Flowgraph.Dialog

/-!
# Tabs

A tab has an indicator (a label or a view) and a content (a layout, a widget of the host, or what a factory makes). When
the tab is added to its host, the indicator goes into the row of tabs and the content into the content frame.
-/

namespace WidgetFlow

open Std

/-- What a tab brings into its host. -/
structure TabViews where
  indicators : List NodeId := []
  /-- Views for the content frame. -/
  contents : List NodeId := []
  /-- Ids of widgets that the host has already, and where they were named. -/
  contentIds : List (NodeId × Label) := []

namespace Flowgraph

/-! ## Calls that wait -/

/-- The tab that a statement makes. -/
def tabSpecNode (site : Site) : Edit NodeId :=
  allocOnce site (.tabSpec Framework.tabSpec site.label) fun _ => return ()

/-- The role of a call on a tab. -/
def tabRole? (sub : String) : Option Role :=
  if Framework.setIndicatorLabel.contains sub || sub == Framework.setIndicatorView then some .tabIndicator
  else if [Framework.setContentLayout, Framework.setContentFactory, Framework.setContentIntent].contains sub then
    some .tabContent
  else none

/-- Calls on tab hosts and tabs. A setter returns the tab. -/
def deferTabCall (site : Site) (call : Call) : Build Unit := do
  let some receiver := call.receiver | return ()
  let p ← program
  let sub := call.target.subSignature
  if p.isSubtype call.target.owner Framework.tabHost then
    if sub == Framework.addTab then
      match call.arg? 0 with
      | some (.var _) => defer .addTab site
      | some .null => return ()
      | _ => report (.unexpectedTabSpec call.target.signature) (some site.label)
    else if sub == Framework.newTabSpec then
      match site.result? with
      | some lhs =>
        let spec ← tabSpecNode site
        discard (flowTo spec lhs (some site.label))
      | none => return ()
  else if p.isSubtype call.target.owner Framework.tabSpec then
    match tabRole? sub with
    | some role =>
      defer role site
      match site.result? with
      | some lhs =>
        let spec ← varNode receiver
        discard (flowTo spec lhs (some site.label))
      | none => return ()
    | none => return ()

/-! ## What a tab brings -/

/-- The pointer of an indicator. A label is shown in a layout of the framework. -/
def tabIndicator (site : Site) : Edit (Option NodeId) := do
  let some call := site.call? | return none
  if call.target.subSignature == Framework.setIndicatorView then
    match (call.arg? 0).bind (·.var?) with
    | some view => some <$> varNode view
    | none => return none
  else
    let layout ← match ← systemLayoutNode "tab_indicator" with
      | some layout => pure (some layout)
      | none => systemLayoutNode "tab_indicator_holo"
    let some layout := layout | do
      remark (.layoutMissing "tab_indicator") (some site.label)
      return none
    let place := site.synthetic .tabIndicator
    let indicator ← freshVar Framework.view
    discard (addOp .inflate place none (some layout) (some indicator))
    match ← valueNode? (call.arg? 0) with
    | some label => discard (addOp .setText place (some indicator) (some label) none)
    | none => pure ()
    return some indicator

/-- The views that the factories of a local make. -/
def factoryContents (factory : Local) : Edit (List NodeId) := do
  let objects ← objectsReaching factory
  let p ← program
  let g ← getGraph
  let made ← objects.mapM fun n => do
    match (g.object? n).bind fun o => p.callback? o.cls Framework.createTabContent with
    | some create =>
      flowToThis n create
      (create.returns.filterMap (·.var?)).mapM varNode
    | none => return []
  return made.flatten

/-- Adds a content to what a tab brings. -/
def tabContent (views : TabViews) (site : Site) : Edit TabViews := do
  let some call := site.call? | return views
  let sub := call.target.subSignature
  if sub == Framework.setContentLayout then
    let some id ← valueNode? (call.arg? 0) | do
      remark .unknownTabContent (some site.label)
      return views
    if ((← getGraph).id? id).any (·.space ≠ .layout) then
      return { views with contentIds := views.contentIds ++ [(id, site.label)] }
    else
      let content ← freshVar Framework.view
      discard (addOp .inflate (site.synthetic .tabContent) none (some id) (some content))
      return { views with contents := views.contents ++ [content] }
  else if sub == Framework.setContentFactory then
    match (call.arg? 0).bind (·.var?) with
    | some factory => return { views with contents := views.contents ++ (← factoryContents factory) }
    | none => return views
  else
    remark .intentContent (some site.label)
    return views

/-! ## Adding tabs -/

/-- Looks up a widget of the framework in a tab host. -/
def findInTabHost (host : NodeId) (name cls : String) (site : Site) : Edit (Option NodeId) := do
  match ← systemWidgetNode name with
  | some id =>
    let result ← freshVar cls
    discard (addOp (.findView .ordinary) (site.synthetic .tabHostContent) (some host) (some id) (some result))
    return some result
  | none =>
    remark (.widgetMissing name) (some site.label)
    return none

/-- Puts views into a widget of a tab host. -/
def addToTabHost (host : NodeId) (views : List NodeId) (name cls : String) (origin : Synthesis) (site : Site) :
    Edit Unit := do
  if views.isEmpty then return ()
  match ← findInTabHost host name cls site with
  | some parent => views.forM fun v => discard (addOp .addChild (site.synthetic origin) (some parent) (some v) none)
  | none => return ()

/-- Adds a tab to a host. -/
def addTab (host : NodeId) (views : TabViews) (site : Site) : Edit Unit := do
  addToTabHost host views.indicators "tabs" Framework.tabWidget .tabIndicator site
  addToTabHost host views.contents "tabcontent" Framework.frameLayout .tabContent site
  views.contentIds.forM fun (id, location) => do
    let content ← freshVar Framework.view
    let place := CallSite.synthetic .tabContent (some location)
    discard (addOp (.findView .ordinary) place (some host) (some id) (some content))

/-- What the indicators and the contents bring, by tab. -/
def tabViews : Edit (ExtTreeMap NodeId TabViews) := do
  let indicators ← resolveReceivers .tabIndicator (·.isTabSpec)
  let views ← indicators.toList.foldlM
    (fun (views : ExtTreeMap NodeId TabViews) (spec, sites) => do
      let found ← sites.filterMapM tabIndicator
      return views.insert spec { indicators := found })
    ∅
  let contents ← resolveReceivers .tabContent (·.isTabSpec)
  contents.toList.foldlM
    (fun views (spec, sites) => return views.insert spec (← sites.foldlM tabContent (views.getD spec {}))) views

def runTabs : Edit Unit := do
  let views ← tabViews
  ((← get).sites .addTab).forM fun s => do
    match s.receiver?, (s.call?.bind (·.arg? 0)).bind (·.var?) with
    | some host, some spec =>
      let hostVar ← varNode host
      let reaching ← objectsReaching spec
      let g ← getGraph
      let specs := reaching.filter fun n => (g.object? n).any (·.isTabSpec)
      if specs.isEmpty then remark .unknownTabSpec (some s.label)
      specs.forM fun n => addTab hostVar (views.getD n {}) s
    | _, _ => return ()

end Flowgraph

end WidgetFlow
