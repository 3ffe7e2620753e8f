import CanvasLayout.Drawing.Screen
import CanvasLayout.Proofs.DraftTrees
import CanvasLayout.Proofs.PartRules

/-!
# The first fault of a drawing

All checks on a drawing in one list (`Drawing.checks`): those on the document and its canvas, then
for each layer of the artboard, in the order of the document, the checks on the element by itself,
those on the layers below it, and those on what they were built to. A drawing makes a screen exactly
when all of them pass, and the failure is otherwise that of the first that does not:
`Drawing.screen_firstFault`. Verdicts behind the first failure have no meaning of their own.
-/

namespace CanvasLayout.Drawing

open Xml (Node Tag)
open Outcome (fault? firstFault)

/-! ## The checks of one element -/

/-- The checks on an element by itself: its name, the components of its frame, its attributes under
its parent, its kind, and for a label its attributes without the parent. -/
def entryChecks (overrides : Overrides) (ancestor : Bag) (tag : Tag) : List (Option Failure) :=
  match tag.attribute? "id" with
  | none => [some (.format (.missingId tag.name tag.offset))]
  | some id =>
    let own := Bag.ofRaw tag.attributes
    let entry := overrides.get? id
    let kind := (ownText? own entry kindAttribute).getD tag.name
    none :: ["x", "y", "width", "height"].map (fun name => (component id own entry name).fault?) ++
      [(own.resolve id ancestor entry).fault?,
        if (DeclaredKind.parse? kind).isNone then some (.structural id (.unrecognizedKind kind))
        else none,
        if DeclaredKind.parse? kind = some .text then (own.resolve id .empty entry).fault? else none]

/-- The elements that the layers below an element make, if all of them are made. -/
def builtBelow (overrides : Overrides) (tag : Tag) (content : List Node) : List Element :=
  (layersIn overrides (.ofRaw tag.attributes) (below tag content)).outcome.toOption.getD []

/-- The checks on what the layers below an element were built to. -/
def exitChecks (overrides : Overrides) (ancestor : Bag) (tag : Tag) (content : List Node) :
    List (Option Failure) :=
  match (draft overrides tag content).bind (·.prepare ancestor overrides) with
  | .ok p => p.checks (builtBelow overrides tag content)
  | .error _ => []

mutual

/-- The checks on a part of a drawing below a parent with the given attributes: none if it is no
layer, and none on what stands below a text. -/
def layerChecks (overrides : Overrides) (ancestor : Bag) : Node → List (Option Failure)
  | .element tag content =>
    if tag.name ∈ metadataTags then []
    else
      entryChecks overrides ancestor tag ++
        (if tag.name = "text" then [] else checksIn overrides (.ofRaw tag.attributes) content) ++
        exitChecks overrides ancestor tag content
  | _ => []

/-- The checks on the parts of a drawing below one parent. -/
def checksIn (overrides : Overrides) (ancestor : Bag) : List Node → List (Option Failure)
  | [] => []
  | n :: ns => layerChecks overrides ancestor n ++ checksIn overrides ancestor ns

end

variable {overrides : Overrides} {ancestor : Bag} {tag : Tag} {content : List Node}

/-- A frame fails as the first of its components that fails. -/
theorem fault?_frame (id : String) (own : Bag) (entry : Option Bag) :
    (frame id own entry).fault? = firstFault
      (["x", "y", "width", "height"].map fun name => (component id own entry name).fault?) := by
  apply Outcome.fault?_bind_cons rfl
  intro x _
  apply Outcome.fault?_bind_cons rfl
  intro y _
  apply Outcome.fault?_bind_cons rfl
  intro width _
  apply Outcome.fault?_bind_cons rfl
  intro height _
  rfl

/-- The own fill of a label fails as its resolution without a parent. -/
theorem fault?_ownFill (d : Draft) (overrides : Overrides) : (d.ownFill overrides).fault? =
    (d.attributes.resolve d.id .empty (overrides.get? d.id)).fault? := by
  unfold Draft.ownFill Draft.resolve
  cases d.attributes.resolve d.id .empty (overrides.get? d.id) <;> rfl

/-- The three checks on a draft by itself. -/
theorem fault?_prepare (d : Draft) (ancestor : Bag) (overrides : Overrides) :
    (d.prepare ancestor overrides).fault? = firstFault
      [(d.attributes.resolve d.id ancestor (overrides.get? d.id)).fault?,
        if (DeclaredKind.parse? d.kind).isNone then some (.structural d.id (.unrecognizedKind d.kind))
        else none,
        if DeclaredKind.parse? d.kind = some .text then
          (d.attributes.resolve d.id .empty (overrides.get? d.id)).fault?
        else none] := by
  rw [Draft.prepare_eq]
  apply Outcome.fault?_bind_cons rfl
  intro b _
  unfold Draft.declaredKind
  cases DeclaredKind.parse? d.kind with
  | none => rfl
  | some declared =>
    apply Outcome.fault?_bind_cons rfl
    intro declared' same
    obtain rfl : declared = declared' := Except.ok.inj same
    apply Outcome.fault?_bind_cons
    · by_cases text : declared = .text
      · rw [if_pos text, if_pos (congrArg some text), fault?_ownFill]
      · rw [if_neg text, if_neg fun h => text (Option.some.inj h)]
        rfl
    · intro fill _
      rfl

/-- Drafting an element with a name waits for nothing but its frame. -/
theorem draft_eq {id : String} (named : tag.attribute? "id" = some id) :
    draft overrides tag content =
      (frame id (.ofRaw tag.attributes) (overrides.get? id)).bind fun f => .ok
        { id
          kind := (ownText? (.ofRaw tag.attributes) (overrides.get? id) kindAttribute).getD tag.name
          tag := tag.name
          frame := f
          attributes := .ofRaw tag.attributes
          runs := if tag.name = "text" then Node.textsOf content else []
          children := [] } := by
  unfold draft
  rw [named]
  rfl

theorem attributes_of_draft {d : Draft} (h : draft overrides tag content = .ok d) :
    d.attributes = .ofRaw tag.attributes := by
  unfold draft at h
  split at h
  · cases h
  · obtain ⟨f, -, h⟩ := Outcome.bind_eq_ok.1 h
    cases h
    rfl

/-- An element is drafted and prepared unless one of the checks on it by itself fails. -/
theorem fault?_draft_prepare :
    fault? ((draft overrides tag content).bind (·.prepare ancestor overrides)) =
      firstFault (entryChecks overrides ancestor tag) := by
  unfold entryChecks
  cases named : tag.attribute? "id" with
  | none =>
    unfold draft
    rw [named]
    rfl
  | some id =>
    rw [draft_eq named]
    -- the name is there, so that the first check passes
    show _ = firstFault (List.map _ _ ++ _)
    apply Outcome.fault?_bind
    · rw [Outcome.fault?_bind_ok, fault?_frame]
    · intro d hd
      obtain ⟨f, -, hd⟩ := Outcome.bind_eq_ok.1 hd
      cases hd
      exact fault?_prepare _ ancestor overrides

/-- A layer in three steps: it is drafted and prepared, the layers below it are built, and it is
built of them. -/
theorem outcome_layer : (layer overrides ancestor tag content).outcome =
    ((draft overrides tag content).bind (·.prepare ancestor overrides)).bind fun p =>
      (layersIn overrides (.ofRaw tag.attributes) (below tag content)).outcome.bind fun es =>
        (p.build es).outcome := by
  unfold layer
  rw [Logged.outcome_bind, Logged.outcome_lift]
  cases drafted : draft overrides tag content with
  | error f => rfl
  | ok d =>
    rw [← attributes_of_draft drafted]
    simp only [Logged.outcome_bind, Logged.outcome_lift, Except.bind]

/-- One element: given the checks on the layers below it, its own stand around them. -/
theorem fault?_layer
    (inside : ∀ own, (layersIn overrides own (below tag content)).outcome.fault? =
      firstFault (checksIn overrides own (below tag content))) :
    (layer overrides ancestor tag content).outcome.fault? = firstFault
      (entryChecks overrides ancestor tag ++
        checksIn overrides (.ofRaw tag.attributes) (below tag content) ++
        exitChecks overrides ancestor tag content) := by
  rw [outcome_layer, List.append_assoc]
  apply Outcome.fault?_bind fault?_draft_prepare
  intro p prepared
  apply Outcome.fault?_bind (inside _)
  intro es built
  have below_eq : builtBelow overrides tag content = es := by
    unfold builtBelow
    rw [built]
    rfl
  unfold exitChecks
  rw [prepared, below_eq]
  exact p.fault?_build es

/-- The checks on an element: those on itself, those below it, and those on what was built there. -/
theorem layerChecks_element (h : tag.name ∉ metadataTags) :
    layerChecks overrides ancestor (.element tag content) =
      entryChecks overrides ancestor tag ++
        checksIn overrides (.ofRaw tag.attributes) (below tag content) ++
        exitChecks overrides ancestor tag content := by
  rw [layerChecks, if_neg h, below]
  by_cases text : tag.name = "text"
  · rw [if_pos text, if_pos text, checksIn]
  · rw [if_neg text, if_neg text]

mutual

/-- A part of a drawing fails as the first of its checks that fails, by induction on the drawing. -/
theorem fault?_layer? : ∀ (n : Node) (ancestor : Bag),
    (layer? overrides ancestor n).outcome.fault? = firstFault (layerChecks overrides ancestor n)
  | .element tag content, ancestor => by
    by_cases metadata : tag.name ∈ metadataTags
    · rw [layer?, if_pos metadata, layerChecks, if_pos metadata]
      rfl
    · rw [layer?_element metadata, layerChecks_element metadata, map_eq_pure_bind,
        Logged.fault?_bind_pure]
      apply fault?_layer
      intro own
      unfold below
      split
      · rw [layersIn, checksIn]
        rfl
      · exact fault?_layersIn content own
  | .text s, ancestor => by
    simp [layer?, layerChecks, firstFault]
  | .remark, ancestor => by
    simp [layer?, layerChecks, firstFault]

/-- The layers below one parent are made unless a check on one of them fails. -/
theorem fault?_layersIn : ∀ (ns : List Node) (ancestor : Bag),
    (layersIn overrides ancestor ns).outcome.fault? = firstFault (checksIn overrides ancestor ns)
  | [], ancestor => by
    rw [layersIn, checksIn]
    rfl
  | n :: ns, ancestor => by
    rw [layersIn, checksIn]
    apply Logged.fault?_bind (fault?_layer? n ancestor)
    intro e _
    rw [Logged.fault?_bind_pure, fault?_layersIn ns ancestor]

end

/-! ## The checks of a document -/

/-- The verdict on a document: what it lacks, if it does. -/
def lacking (path : String) (lacks : Bool) (fault : CanvasFault) : Option Failure :=
  if lacks then some (.canvas path fault) else none

/-- The artboard of a page, if there is one. -/
def artboardOf? (name : Option String) (content : List Node) : Option (Tag × List Node) :=
  name.elim (groups content).head? fun name =>
    (groups content).find? fun g => g.1.attribute? "id" = some name

/-- All checks on a drawing, in the order in which they are made. -/
def checks (path : String) (overrides : Overrides) (name : Option String) (drawing : String) :
    List (Option Failure) :=
  match Node.parse? drawing with
  | some (.element root content) =>
    let page := (groups content).head?
    let artboard := page.bind fun page => artboardOf? name page.2
    [lacking path (root.name ≠ "svg") .noRoot,
      lacking path page.isNone .noPage,
      lacking path artboard.isNone (name.elim .noArtboard .noArtboardNamed),
      (dimension root "width").fault?,
      (dimension root "height").fault?,
      (background root).outcome.fault?] ++
      match page, artboard with
      | some page, some artboard =>
        checksIn overrides (inherited artboard.1 page.1) artboard.2
      | _, _ => []
  | _ => [some (.canvas path .malformed)]

theorem page_eq (path : String) (content : List Node) : page path content =
    (groups content).head?.elim (.error (.canvas path .noPage)) .ok := by
  unfold page
  cases (groups content).head? <;> rfl

/-- The artboard is the one that is asked for, or the drawing fails for the lack of it. -/
theorem artboard_eq (path : String) (name : Option String) (content : List Node) :
    artboard path name content = (artboardOf? name content).elim
      (.error (.canvas path (name.elim .noArtboard .noArtboardNamed))) .ok := by
  unfold artboard artboardOf?
  cases name with
  | none => cases (groups content).head? <;> rfl
  | some name =>
    simp only [Option.elim_some]
    cases (groups content).find? _ <;> rfl

/-- A canvas fails by its width, its height or its background, in this order. -/
theorem fault?_canvas (root page artboard : Tag) : (canvas root page artboard).outcome.fault? =
    firstFault [(dimension root "width").fault?, (dimension root "height").fault?,
      (background root).outcome.fault?] := by
  unfold canvas
  apply Logged.fault?_bind_cons rfl
  intro width _
  apply Logged.fault?_bind_cons rfl
  intro height _
  apply Logged.fault?_bind_cons rfl
  intro color _
  rfl

/-- A drawing makes a screen unless a check fails, and then the first check that fails tells why. -/
theorem fault?_screen (path : String) (overrides : Overrides) (name : Option String)
    (drawing : String) : (screen path overrides name drawing).outcome.fault? =
      firstFault (checks path overrides name drawing) := by
  unfold screen checks root
  cases parsed : Node.parse? drawing with
  | none => rfl
  | some document =>
    cases document with
    | text s => rfl
    | remark => rfl
    | element root content =>
      dsimp only
      apply Logged.fault?_bind_cons
      · by_cases svg : root.name = "svg"
        · simp [svg, lacking]
        · simp [svg, lacking]
      rintro ⟨root', content'⟩ found
      obtain ⟨rfl, rfl⟩ : root = root' ∧ content = content' := by
        rw [Logged.outcome_lift] at found
        split at found
        · exact Prod.mk.inj (Except.ok.inj found)
        · cases found
      dsimp only
      rw [page_eq]
      cases (groups content).head? with
      | none => rfl
      | some page =>
        apply Logged.fault?_bind_cons rfl
        rintro ⟨page', content'⟩ found
        obtain rfl : page = (page', content') := Except.ok.inj found
        simp only [artboard_eq, Option.bind_some]
        cases artboardOf? name content' with
        | none => rfl
        | some artboard =>
          apply Logged.fault?_bind_cons rfl
          rintro ⟨artboard', content''⟩ found
          obtain rfl : artboard = (artboard', content'') := Except.ok.inj found
          dsimp only
          apply Logged.fault?_bind (fault?_canvas root page' artboard')
          intro c _
          rw [Logged.outcome_bind]
          exact (Outcome.fault?_bind_ok _ (Screen.ofElements c)).trans (fault?_layersIn content'' _)

/-- A drawing makes a screen exactly when all checks pass, and otherwise its failure is that of the
first check that does not. -/
theorem screen_firstFault (path : String) (overrides : Overrides) (name : Option String)
    (drawing : String) :
    ((∃ s, (screen path overrides name drawing).outcome = .ok s) ↔
        ∀ c ∈ checks path overrides name drawing, c = none) ∧
      ∀ f, (screen path overrides name drawing).outcome = .error f ↔
        ∃ before after, checks path overrides name drawing = before ++ some f :: after ∧
          ∀ c ∈ before, c = none := by
  constructor
  · rw [← Outcome.fault?_eq_none, fault?_screen, Outcome.firstFault_eq_none]
  · intro f
    rw [← Outcome.fault?_eq_some, fault?_screen, Outcome.firstFault_eq_some]

end CanvasLayout.Drawing
