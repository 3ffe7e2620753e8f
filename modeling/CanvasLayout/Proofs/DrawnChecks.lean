import Mathlib
import CanvasLayout.Proofs.DrawnFrames
import CanvasLayout.Proofs.ScreenRules

/-!
# Drawings whose screens have no errors

The walk over a drawing keeps the ids that it finds but for collections, which give up what follows
the first colon. So layers on frames below `2 ^ 52` pixels can only be at fault in their names, and
they are if and only if two elements next below the artboard come to one name in this way. With ids
of their own this takes a collection with a colon: `Drawing.isOk_validate`.
-/

namespace CanvasLayout.Drawing

open Xml (Node Tag)
open scoped List

section Names

variable (overrides : Overrides) (v : Tag × List Node)

/-- The kind that an element of a drawing declares, itself or in the entry under its id, or else
its tag. -/
def drawnKind : String :=
  (ownText? (.ofRaw v.1.attributes) ((v.1.attribute? "id").bind overrides.get?) kindAttribute).getD
    v.1.name

/-- An element of a drawing is a collection. -/
def IsCollection : Prop := DeclaredKind.parse? (drawnKind overrides v) = some (.list .collection)

instance : Decidable (IsCollection overrides v) :=
  inferInstanceAs (Decidable (DeclaredKind.parse? (drawnKind overrides v) = some (.list .collection)))

/-- The name of the layer that an element of a drawing becomes: its id, of which a collection keeps
what stands before the first colon. -/
def drawnName? : Option String :=
  (v.1.attribute? "id").map fun id =>
    if IsCollection overrides v then .ofList (id.toList.takeWhile (· ≠ ':')) else id

end Names

variable {overrides : Overrides}

theorem Drafted.drawnKind {d : Draft} {v : Tag × List Node} (h : Drafted overrides d v) :
    drawnKind overrides v = d.kind := by
  rw [Drawing.drawnKind, h.id, h.kind]
  rfl

/-- The layer of a draft has the name that its element is drawn under. -/
theorem Drafted.drawnName? {d : Draft} {v : Tag × List Node} (h : Drafted overrides d v) :
    drawnName? overrides v = some d.layerName := by
  rw [Drawing.drawnName?, h.id, Option.map_some, Draft.layerName]
  simp only [IsCollection, h.drawnKind]

/-- An id without a colon is kept. -/
theorem drawnName?_of_plain {v : Tag × List Node}
    (plain : IsCollection overrides v → ∀ id ∈ v.1.attribute? "id", ':' ∉ id.toList) :
    drawnName? overrides v = v.1.attribute? "id" := by
  unfold drawnName?
  cases named : v.1.attribute? "id" with
  | none => rfl
  | some id =>
    rw [Option.map_some]
    split
    · rename_i collection
      have whole : id.toList.takeWhile (· ≠ ':') = id.toList := by
        rw [List.takeWhile_eq_self_iff]
        intro c hc
        rw [decide_eq_true_eq]
        rintro rfl
        exact plain collection id named hc
      rw [whole, String.ofList_toList]
    · rfl

/-- The walk comes to every element on top. -/
theorem topmost_sublist (ns : List Node) : topmost ns <+ visitedIn ns := by
  induction ns with
  | nil =>
    rw [visitedIn]
    exact .refl _
  | cons n ns ih =>
    rw [← List.singleton_append, topmost, List.filterMap_append, List.singleton_append, visitedIn]
    refine List.Sublist.append ?_ ih
    cases n with
    | element tag content =>
      by_cases metadata : tag.name ∈ metadataTags
      · simp [metadata]
      · rw [visited_element metadata]
        simp [metadata]
    | _ => exact List.nil_sublist _

section Screens

variable {path : String} {name : Option String} {drawing : String} {content : List Node} {s : Screen}
  (h : (screen path overrides name drawing).outcome = .ok s)
  (parts : artboardParts path name drawing = .ok content)

include h parts

/-- The layers have the names of the elements on top. -/
theorem perm_drawnNames :
    s.layers.map (fun p => some p.id) ~ (topmost content).map (drawnName? overrides) := by
  obtain ⟨content', ancestor, es, parts', -, walked, same, -, -⟩ := screen_eq_layersIn h
  obtain rfl : content' = content := Except.ok.inj (parts'.symm.trans parts)
  obtain ⟨ds, stems, -, top⟩ := stemsFrom_layersIn content' ancestor es walked
  have names : es.map (fun e => some e.id) = (topmost content').map (drawnName? overrides) := by
    rw [← List.forall₂_eq_eq_eq, List.forall₂_map_left_iff, List.forall₂_map_right_iff]
    refine (forall₂_through stems top).imp ?_
    rintro e v ⟨d, stem, drafted⟩
    obtain ⟨_, tie⟩ := stem.root
    rw [drafted.drawnName?, tie.name]
  rw [← names, same]
  have perm := (Screen.perm_ofElements s.canvas es).map fun e => some e.id
  rwa [List.map_map] at perm

/-- On small frames the only errors are repeated names. -/
theorem isOk_validate_iff_nodup (small : ∀ p ∈ s.layers, p.pixelFrame.IsSmall) :
    s.validate.isOk = true ↔ ((topmost content).map (drawnName? overrides)).Nodup := by
  have names : (s.layers.map (·.id)).Nodup ↔
      ((topmost content).map (drawnName? overrides)).Nodup := by
    rw [← (perm_drawnNames h parts).nodup_iff, ← Function.comp_def some, ← List.map_map,
      List.nodup_map_iff (Option.some_injective _)]
  rw [← names]
  constructor
  · intro ok
    exact (Screen.isOk_validate_iff.1 ok).names
  · intro distinct
    obtain ⟨c, es, rfl, width, height, whole⟩ := screen_eq_ok h
    exact Screen.isOk_validate_ofElements width height whole small distinct

/-- A drawing in which all elements below the artboard have ids of their own, and those next below
it lie below `2 ^ 52` pixels, gives a screen without errors if and only if the names of the layers
are not brought together by what collections give up. They are not if no collection next below the
artboard has a colon in its id. -/
theorem isOk_validate (distinct : ((visitedIn content).map (·.1.attribute? "id")).Nodup)
    (small : ∀ p ∈ s.layers, p.pixelFrame.IsSmall) :
    (s.validate.isOk = true ↔ ((topmost content).map (drawnName? overrides)).Nodup) ∧
      ((∀ v ∈ topmost content, IsCollection overrides v →
        ∀ id ∈ v.1.attribute? "id", ':' ∉ id.toList) → s.validate.isOk = true) := by
  have exact_ := isOk_validate_iff_nodup h parts small
  refine ⟨exact_, fun plain => exact_.2 ?_⟩
  rw [List.map_congr_left fun v hv => drawnName?_of_plain (plain v hv)]
  exact distinct.sublist ((topmost_sublist content).map _)

end Screens

/-- A drawing whose elements come in reading order gives the screen of them in this order. -/
theorem screen_of_sorted {path : String} {name : Option String} {drawing : String} {c : Canvas}
    {es : List Element} (h : drawnElements path overrides name drawing = .ok (c, es))
    (sorted : es.Pairwise (·.reads ·)) : (screen path overrides name drawing).outcome =
      .ok ⟨c, Block.placeAfter c.extent [] (es.map Element.block)⟩ := by
  have layers := Screen.layers_ofElements c es
  rw [List.mergeSort_of_pairwise sorted] at layers
  rw [outcome_screen, h, ← layers]
  rfl

/-- A drawing of a heading, a line of text and a collection. -/
def sights : String :=
  "<svg width=\"320\" height=\"480\"><g><g><rect id=\"heading\"/><text id=\"city\">Lisbon</text>" ++
    "<g id=\"photos\"><g id=\"all\"><rect id=\"allBound\"/><g id=\"photo\"/></g></g></g></g></svg>"

/-- The kinds and the frames of the sights, which stand one below the other. -/
def sightsOverrides : Overrides :=
  let frame (y height : String) := [("x", "0"), ("y", y), ("width", "320"), ("height", height)]
  NameMap.ofList [
    ("heading", Bag.ofRaw (frame "0" "60")),
    ("city", Bag.ofRaw (frame "79.6" "40")),
    ("photos", Bag.ofRaw (("type", "UICollectionView") :: frame "140" "4e2")),
    ("all", Bag.ofRaw (("type", "Section") :: frame "140" "400")),
    ("allBound", Bag.ofRaw (frame "140" "400")),
    ("photo", Bag.ofRaw (("type", "Cell") :: frame "140" "90"))]

/-- The layers of the sights hang one off the other and break no rule. -/
theorem isOk_validate_sights :
    ∃ s content, (screen "sights.svg" sightsOverrides none sights).outcome = .ok s ∧
      artboardParts "sights.svg" none sights = .ok content ∧
      ((visitedIn content).map (·.1.attribute? "id")).Nodup ∧
      (∀ p ∈ s.layers, p.pixelFrame.IsSmall) ∧
      s.layers.map (fun p => (p.id, p.vertical.reference)) =
        [("heading", none), ("city", some "heading"), ("photos", some "city")] ∧
      (s.validate.isOk = true ↔ ((topmost content).map (drawnName? sightsOverrides)).Nodup) ∧
      s.validate.isOk = true := by
  have drawn : (drawnElements "sights.svg" sightsOverrides none sights).toOption.map (fun d =>
      let layers := Block.placeAfter d.1.extent [] (d.2.map Element.block)
      (decide (d.2.Pairwise (·.reads ·)), layers.all (·.pixelFrame.IsSmall),
        layers.map fun p => (p.id, p.vertical.reference))) = some (true, true,
          [("heading", none), ("city", some "heading"), ("photos", some "city")]) := by
    decide +kernel
  have read : (artboardParts "sights.svg" none sights).toOption.map (fun content =>
      (decide ((visitedIn content).map (·.1.attribute? "id")).Nodup,
        (topmost content).all fun v => decide (IsCollection sightsOverrides v →
          ∀ id ∈ v.1.attribute? "id", ':' ∉ id.toList))) = some (true, true) := by
    decide +kernel
  obtain ⟨⟨c, es⟩, made, drawn⟩ := Outcome.exists_of_toOption drawn
  obtain ⟨content, parts, read⟩ := Outcome.exists_of_toOption read
  simp only [Prod.mk.injEq, decide_eq_true_eq, List.all_eq_true] at drawn read
  obtain ⟨sorted, small, layers⟩ := drawn
  obtain ⟨distinct, plain⟩ := read
  have made := screen_of_sorted made sorted
  obtain ⟨exact_, sound⟩ := isOk_validate made parts distinct small
  exact ⟨_, content, made, parts, distinct, small, layers, exact_, sound plain⟩

/-- A drawing of a collection that scrolls and of a rectangle below it. -/
def shelf : String :=
  "<svg width=\"320\" height=\"480\"><g><g><g id=\"books:horizontal\"><g id=\"all\">" ++
    "<rect id=\"allBound\"/><g id=\"book\"/></g></g><rect id=\"books\"/></g></g></svg>"

/-- The kinds and the frames of what is on the shelf. -/
def shelfOverrides : Overrides :=
  let frame (y height : String) := [("x", "0"), ("y", y), ("width", "320"), ("height", height)]
  NameMap.ofList [
    ("books:horizontal", Bag.ofRaw (("type", "UICollectionView") :: frame "0" "200")),
    ("all", Bag.ofRaw (("type", "Section") :: frame "0" "200")),
    ("allBound", Bag.ofRaw (frame "0" "200")),
    ("book", Bag.ofRaw (("type", "Cell") :: frame "0" "200")),
    ("books", Bag.ofRaw (frame "220" "10"))]

/-- A collection that gives up a direction can come to the name of another layer. -/
theorem isOk_validate_shelf_fails :
    ∃ s content, (screen "shelf.svg" shelfOverrides none shelf).outcome = .ok s ∧
      artboardParts "shelf.svg" none shelf = .ok content ∧
      ((visitedIn content).map (·.1.attribute? "id")).Nodup ∧
      (∀ p ∈ s.layers, p.pixelFrame.IsSmall) ∧
      s.layers.map (·.id) = ["books", "books"] ∧ s.validate.isOk = false := by
  have drawn : (drawnElements "shelf.svg" shelfOverrides none shelf).toOption.map (fun d =>
      let layers := Block.placeAfter d.1.extent [] (d.2.map Element.block)
      (decide (d.2.Pairwise (·.reads ·)), layers.all (·.pixelFrame.IsSmall), layers.map (·.id),
        (Screen.mk d.1 layers).validate.isOk)) =
          some (true, true, ["books", "books"], false) := by
    decide +kernel
  have read : (artboardParts "shelf.svg" none shelf).toOption.map (fun content =>
      decide ((visitedIn content).map (·.1.attribute? "id")).Nodup) = some true := by
    decide +kernel
  obtain ⟨⟨c, es⟩, made, drawn⟩ := Outcome.exists_of_toOption drawn
  obtain ⟨content, parts, distinct⟩ := Outcome.exists_of_toOption read
  simp only [Prod.mk.injEq, decide_eq_true_eq, List.all_eq_true] at drawn distinct
  obtain ⟨sorted, small, names, fails⟩ := drawn
  exact ⟨_, content, screen_of_sorted made sorted, parts, distinct, small, names, fails⟩

end CanvasLayout.Drawing
