import CanvasLayout.Drawing.Layers
import CanvasLayout.Proofs.Classification

/-!
# Drawings as trees of drafts

The layers of a drawing are made in one walk: an element is drafted and prepared, then the elements
below it are walked, then it is built. When every element that the walk comes to can be drafted, the
drafts make a tree (`Drawing.tree`), and building that tree gives what the walk gives, outcome and
log: `Drawing.layer_eq_build`. So what is proved of trees of drafts holds of drawings.
-/

namespace CanvasLayout

namespace Draft

/-- The own fill of a label has nothing to do with what stands below it. -/
theorem ownFill_children (d : Draft) (ds : List Draft) (overrides : Overrides) :
    ({ d with children := ds } : Draft).ownFill overrides = d.ownFill overrides := by
  unfold ownFill resolve
  cases d.attributes.resolve d.id .empty (overrides.get? d.id) <;> rfl

/-- Preparation does not look at the children of a draft. -/
theorem prepare_children (d : Draft) (ds : List Draft) (ancestor : Bag) (overrides : Overrides) :
    ({ d with children := ds } : Draft).prepare ancestor overrides =
      (d.prepare ancestor overrides).map fun p =>
        { p with draft := { p.draft with children := ds } } := by
  rw [prepare_eq, prepare_eq]
  cases d.attributes.resolve d.id ancestor (overrides.get? d.id) with
  | error f => rfl
  | ok b =>
    show Except.bind d.declaredKind _ = Except.map _ (Except.bind d.declaredKind _)
    cases d.declaredKind with
    | error f => rfl
    | ok declared =>
      simp only [Except.bind]
      by_cases text : declared = .text
      · rw [if_pos text, if_pos text, ownFill_children]
        cases d.ownFill overrides <;> rfl
      · rw [if_neg text, if_neg text]
        rfl

end Draft

/-- Neither does what is built of a prepared draft depend on them. -/
theorem Prepared.build_children (p : Prepared) (ds : List Draft) (children : List Element) :
    ({ p with draft := { p.draft with children := ds } } : Prepared).build children =
      p.build children := by
  obtain ⟨d, declared, fill⟩ := p
  cases declared <;> rfl

namespace Drawing

open Xml (Node Tag)

mutual

/-- The elements that a walk over a part of a drawing comes to, in the order of the document. -/
def visited : Node → List (Tag × List Node)
  | .element tag content =>
    if tag.name ∈ metadataTags then []
    else (tag, content) :: if tag.name = "text" then [] else visitedIn content
  | _ => []

/-- The elements that a walk over a list of parts comes to. -/
def visitedIn : List Node → List (Tag × List Node)
  | [] => []
  | n :: ns => visited n ++ visitedIn ns

end

mutual

/-- The tree of drafts that a part of a drawing is, if it is a layer. -/
def tree? (overrides : Overrides) : Node → Outcome (Option Draft)
  | .element tag content =>
    if tag.name ∈ metadataTags then return none
    else do
      let d ← draft overrides tag content
      let children ← if tag.name = "text" then pure [] else treesIn overrides content
      return some { d with children }
  | _ => return none

/-- The trees of drafts that the layers among parts of a drawing are. -/
def treesIn (overrides : Overrides) : List Node → Outcome (List Draft)
  | [] => return []
  | n :: ns => do
    let t ← tree? overrides n
    let ts ← treesIn overrides ns
    return t.toList ++ ts

end

/-- The parts of an element that can be layers below it; those of a text are not. -/
def below (tag : Tag) (content : List Node) : List Node :=
  if tag.name = "text" then [] else content

/-- The tree of drafts that an element and the layers below it are. -/
def tree (overrides : Overrides) (tag : Tag) (content : List Node) : Outcome Draft := do
  let d ← draft overrides tag content
  let children ← treesIn overrides (below tag content)
  return { d with children }

/-- What the walk makes of an element below a parent with the given attributes. -/
def layer (overrides : Overrides) (ancestor : Bag) (tag : Tag) (content : List Node) :
    Logged Element := do
  let draft ← Logged.lift (draft overrides tag content)
  let prepared ← Logged.lift (draft.prepare ancestor overrides)
  let children ← layersIn overrides draft.attributes (below tag content)
  prepared.build children

variable {overrides : Overrides} {ancestor : Bag} {tag : Tag} {content : List Node}

theorem visited_element (h : tag.name ∉ metadataTags) :
    visited (.element tag content) = (tag, content) :: visitedIn (below tag content) := by
  rw [visited, if_neg h, below]
  split
  · rw [visitedIn]
  · rfl

theorem tree?_element (h : tag.name ∉ metadataTags) :
    tree? overrides (.element tag content) = some <$> tree overrides tag content := by
  rw [tree?, if_neg h, tree, below]
  by_cases text : tag.name = "text"
  · simp only [if_pos text, treesIn, map_bind, map_pure]
  · simp only [if_neg text, map_bind, map_pure]

/-- The walk makes a layer of every element but metadata. -/
theorem layer?_element (h : tag.name ∉ metadataTags) :
    layer? overrides ancestor (.element tag content) =
      some <$> layer overrides ancestor tag content := by
  rw [layer?, if_neg h, layer, below]
  by_cases text : tag.name = "text"
  · simp only [if_pos text, layersIn, map_eq_pure_bind, bind_assoc]
  · simp only [if_neg text, map_eq_pure_bind, bind_assoc]

/-- One element: if the walk below it gives what the trees there are built to, then the walk at the
element gives what its tree is built to. -/
theorem layer_eq_build_of_below {d : Draft} {ts : List Draft}
    (drafted : draft overrides tag content = .ok d)
    (trees : treesIn overrides (below tag content) = .ok ts)
    (layers : ∀ own, layersIn overrides own (below tag content) = Draft.buildAll ts own overrides) :
    tree overrides tag content = .ok { d with children := ts } ∧
      ∀ ancestor, layer overrides ancestor tag content =
        ({ d with children := ts } : Draft).build ancestor overrides := by
  constructor
  · unfold tree
    rw [drafted, trees]
    rfl
  · intro ancestor
    rw [Draft.build_eq, Draft.prepare_children, layer, drafted]
    show (do
      let prepared ← Logged.lift (d.prepare ancestor overrides)
      let children ← layersIn overrides d.attributes (below tag content)
      prepared.build children) = _
    rw [layers]
    cases d.prepare ancestor overrides with
    | error f => rfl
    | ok p =>
      show (do
        let built ← Draft.buildAll ts d.attributes overrides
        p.build built) = (do
        let built ← Draft.buildAll ts d.attributes overrides
        ({ p with draft := { p.draft with children := ts } } : Prepared).build built)
      simp only [Prepared.build_children]

mutual

/-- The walk builds the tree that it assembles, node by node and with the same log. -/
theorem layer?_eq_build : ∀ n : Node, (∀ v ∈ visited n, ∃ d, draft overrides v.1 v.2 = .ok d) →
    ∃ t, tree? overrides n = .ok t ∧ ∀ ancestor, layer? overrides ancestor n =
      t.elim (pure none) fun d => some <$> d.build ancestor overrides
  | .element tag content, h => by
    by_cases metadata : tag.name ∈ metadataTags
    · refine ⟨none, ?_, ?_⟩
      · rw [tree?, if_pos metadata]
        rfl
      · intro ancestor
        rw [layer?, if_pos metadata]
        rfl
    · rw [visited_element metadata, List.forall_mem_cons] at h
      obtain ⟨⟨d, drafted⟩, inside⟩ := h
      obtain ⟨ts, trees, layers⟩ : ∃ ts, treesIn overrides (below tag content) = .ok ts ∧
          ∀ own, layersIn overrides own (below tag content) = Draft.buildAll ts own overrides := by
        unfold below at inside ⊢
        split
        · refine ⟨[], by rw [treesIn]; rfl, ?_⟩
          intro own
          rw [layersIn, Draft.buildAll]
        · rename_i text
          rw [if_neg text] at inside
          exact layersIn_eq_buildAll content inside
      obtain ⟨tree_eq, layer_eq⟩ := layer_eq_build_of_below drafted trees layers
      refine ⟨some { d with children := ts }, ?_, ?_⟩
      · rw [tree?_element metadata, tree_eq]
        rfl
      · intro ancestor
        rw [layer?_element metadata, layer_eq]
        rfl
  | .text s, _ => ⟨none, rfl, fun ancestor => by simp [layer?]⟩
  | .remark, _ => ⟨none, rfl, fun ancestor => by simp [layer?]⟩

/-- A walk over parts of a drawing gives what the trees of drafts in them are built to, if every
element that it comes to can be drafted. -/
theorem layersIn_eq_buildAll :
    ∀ ns : List Node, (∀ v ∈ visitedIn ns, ∃ d, draft overrides v.1 v.2 = .ok d) →
      ∃ ts, treesIn overrides ns = .ok ts ∧
        ∀ ancestor, layersIn overrides ancestor ns = Draft.buildAll ts ancestor overrides
  | [], _ => by
    refine ⟨[], by rw [treesIn]; rfl, ?_⟩
    intro ancestor
    rw [layersIn, Draft.buildAll]
  | n :: ns, h => by
    rw [visitedIn, List.forall_mem_append] at h
    obtain ⟨t, tree_eq, layer_eq⟩ := layer?_eq_build n h.1
    obtain ⟨ts, trees_eq, layers_eq⟩ := layersIn_eq_buildAll ns h.2
    refine ⟨t.toList ++ ts, ?_, ?_⟩
    · rw [treesIn, tree_eq, trees_eq]
      rfl
    · intro ancestor
      rw [layersIn, layer_eq, layers_eq]
      cases t with
      | none => simp
      | some d =>
        show _ = Draft.buildAll (d :: ts) ancestor overrides
        rw [Draft.buildAll]
        simp

end

/-- The walk at an element and the building of its tree of drafts are the same, if the element and
every element that the walk comes to below it can be drafted. -/
theorem layer_eq_build (drafted : ∀ v ∈ (tag, content) :: visitedIn (below tag content),
      ∃ d, draft overrides v.1 v.2 = .ok d) :
    ∃ t, tree overrides tag content = .ok t ∧
      layer overrides ancestor tag content = t.build ancestor overrides ∧
      (tag.name ∉ metadataTags →
        layer? overrides ancestor (.element tag content) = some <$> t.build ancestor overrides) := by
  obtain ⟨⟨d, root⟩, inside⟩ := List.forall_mem_cons.1 drafted
  obtain ⟨ts, trees, layers⟩ := layersIn_eq_buildAll (below tag content) inside
  obtain ⟨tree_eq, layer_eq⟩ := layer_eq_build_of_below root trees layers
  refine ⟨_, tree_eq, layer_eq ancestor, ?_⟩
  intro metadata
  rw [layer?_element metadata, layer_eq]

/-- The attributes of a layer with the given name, as wide as its parent. -/
def box (id : String) : List (String × String) :=
  [("id", id), ("x", "0"), ("y", "4.5"), ("width", "60px"), ("height", "20")]

/-- A button with a description, a background and, a level down, a label with a span in it. -/
def ticket : List Node :=
  [.element ⟨"title", [], 10⟩ [.text "Buy"], .text "\n",
    .element ⟨"rect", box "plate" ++ [("fill", "#336699")], 40⟩ [],
    .element ⟨"g", box "face", 90⟩ [.remark,
      .element ⟨"text", box "caption" ++ [("font-size", "12px")], 120⟩
        [.element ⟨"tspan", [], 150⟩ [.text "Buy"]]]]

/-- Neither the description nor the span is drafted, so that they have no name does not matter. -/
theorem layer_eq_build_ticket :
    (visitedIn (below ⟨"g", [], 0⟩ ticket)).map (·.1.name) = ["rect", "g", "text"] ∧
      ∃ t, tree .empty ⟨"g", box "buy" ++ [("type", "UIButton")], 0⟩ ticket = .ok t ∧
        layer .empty .empty ⟨"g", box "buy" ++ [("type", "UIButton")], 0⟩ ticket =
          t.build .empty .empty ∧
        ("g" ∉ metadataTags →
          layer? .empty .empty (.element ⟨"g", box "buy" ++ [("type", "UIButton")], 0⟩ ticket) =
            some <$> t.build .empty .empty) := by
  refine ⟨by decide +kernel, layer_eq_build ?_⟩
  intro v hv
  have drafted : ∀ v ∈ (⟨"g", box "buy" ++ [("type", "UIButton")], 0⟩, ticket) ::
      visitedIn (below ⟨"g", box "buy" ++ [("type", "UIButton")], 0⟩ ticket),
      (draft .empty v.1 v.2).toOption.map (fun _ => ()) = some () := by
    decide +kernel
  obtain ⟨d, hd, -⟩ := Outcome.exists_of_toOption (drafted v hv)
  exact ⟨d, hd⟩

end Drawing

end CanvasLayout
