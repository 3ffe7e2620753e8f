import Mathlib
import CanvasLayout.Proofs.DraftTrees
import CanvasLayout.Proofs.DrawnLayers
import CanvasLayout.Proofs.Provenance
import CanvasLayout.Proofs.ReadingOrder

/-!
# Where the frames of a screen are drawn

The walk over a drawing drafts every element that it comes to with the frame that the element tells
(`Drawing.Drafted`), and an element of the screen that comes from a draft has its frame. So the
layers of a screen are the elements next below the artboard, one by one, and every element at any
depth has the frame of an element of the drawing of its own, in whole pixels
(`Drawing.screen_frames`).
-/

namespace CanvasLayout.Drawing

open Xml (Node Tag)
open Logged (bind_eq_ok)
open scoped List

/-- A draft is that of an element of a drawing: the name is its id, the kind is the one it declares
or else its tag, and the frame is the one it tells. -/
structure Drafted (overrides : Overrides) (d : Draft) (v : Tag × List Node) : Prop where
  id : v.1.attribute? "id" = some d.id
  kind : d.kind =
    (ownText? (.ofRaw v.1.attributes) (overrides.get? d.id) kindAttribute).getD v.1.name
  frame : MeasuresFrame (.ofRaw v.1.attributes) (overrides.get? d.id) d.frame

variable {overrides : Overrides} {ancestor : Bag}

/-- A draft is that of its element, whatever is put below it. -/
theorem drafted_of_draft {tag : Tag} {content : List Node} {d : Draft}
    (h : draft overrides tag content = .ok d) (ds : List Draft) :
    Drafted overrides { d with children := ds } (tag, content) := by
  unfold draft at h
  split at h
  · cases h
  · rename_i id named
    obtain ⟨f, hf, h⟩ := Outcome.bind_eq_ok.1 h
    cases h
    exact ⟨named, rfl, measuresFrame_of_frame hf⟩

/-- The elements among parts of a drawing that can be layers. -/
def topmost (ns : List Node) : List (Tag × List Node) :=
  ns.filterMap fun
    | .element tag content => if tag.name ∈ metadataTags then none else some (tag, content)
    | _ => none

/-- One element: when what is built below it comes from the drafts of the elements drawn there, what
is built of it comes from its own. -/
theorem stemsFrom_layer {tag : Tag} {content : List Node} {e : Element}
    (h : (layer overrides ancestor tag content).outcome = .ok e)
    (inside : ∀ own es, (layersIn overrides own (below tag content)).outcome = .ok es →
      ∃ ds, List.Forall₂ Element.StemsFrom es ds ∧
        List.Forall₂ (Drafted overrides) (ds.flatMap Draft.nodes)
          (visitedIn (below tag content))) :
    ∃ d, e.StemsFrom d ∧ Drafted overrides d (tag, content) ∧
      List.Forall₂ (Drafted overrides) d.nodes
        ((tag, content) :: visitedIn (below tag content)) := by
  obtain ⟨d, hd, h⟩ := bind_eq_ok.1 h
  obtain ⟨p, hp, h⟩ := bind_eq_ok.1 h
  obtain ⟨children, hchildren, built⟩ := bind_eq_ok.1 h
  rw [Logged.outcome_lift] at hd hp
  obtain ⟨ds, stems, drafted⟩ := inside _ _ hchildren
  have prepared : ({ d with children := ds } : Draft).prepare ancestor overrides =
      .ok { p with draft := { p.draft with children := ds } } := by
    rw [Draft.prepare_children, hp]
    rfl
  rw [← Prepared.build_children p ds] at built
  have root := drafted_of_draft hd ds
  refine ⟨{ d with children := ds }, Prepared.build_stemsFrom prepared stems built, root, ?_⟩
  rw [Draft.nodes_eq]
  exact .cons root drafted

mutual

/-- A layer comes from a tree whose nodes were drafted, one for each element visited. -/
theorem stemsFrom_layer? : ∀ (n : Node) (ancestor : Bag) (e : Option Element),
    (layer? overrides ancestor n).outcome = .ok e →
      ∃ d : Option Draft, List.Forall₂ Element.StemsFrom e.toList d.toList ∧
        List.Forall₂ (Drafted overrides) (d.toList.flatMap Draft.nodes) (visited n) ∧
        List.Forall₂ (Drafted overrides) d.toList (topmost [n])
  | .element tag content, ancestor, e, h => by
    by_cases metadata : tag.name ∈ metadataTags
    · rw [layer?, if_pos metadata] at h
      cases h
      refine ⟨none, .nil, ?_, ?_⟩
      · rw [visited, if_pos metadata]
        exact .nil
      · simp [topmost, metadata]
    · rw [layer?_element metadata, map_eq_pure_bind] at h
      obtain ⟨e, built, h⟩ := bind_eq_ok.1 h
      cases h
      obtain ⟨d, stems, root, drafted⟩ := stemsFrom_layer built fun own es hes => by
        by_cases text : tag.name = "text"
        · rw [below, if_pos text, layersIn] at hes
          cases hes
          refine ⟨[], .nil, ?_⟩
          rw [below, if_pos text, visitedIn]
          exact .nil
        · rw [below, if_neg text] at hes ⊢
          obtain ⟨ds, stems, drafted, -⟩ := stemsFrom_layersIn content own es hes
          exact ⟨ds, stems, drafted⟩
      refine ⟨some d, .cons stems .nil, ?_, ?_⟩
      · rw [visited_element metadata]
        simpa using drafted
      · simpa [topmost, metadata] using root
  | .text s, ancestor, e, h => by
    rw [layer?] at h
    · cases h
      exact ⟨none, .nil, .nil, .nil⟩
    · nofun
  | .remark, ancestor, e, h => by
    rw [layer?] at h
    · cases h
      exact ⟨none, .nil, .nil, .nil⟩
    · nofun

/-- What a walk makes comes from drafts whose nodes are those of the elements that it comes to, in
the order of the document. -/
theorem stemsFrom_layersIn : ∀ (ns : List Node) (ancestor : Bag) (es : List Element),
    (layersIn overrides ancestor ns).outcome = .ok es →
      ∃ ds : List Draft, List.Forall₂ Element.StemsFrom es ds ∧
        List.Forall₂ (Drafted overrides) (ds.flatMap Draft.nodes) (visitedIn ns) ∧
        List.Forall₂ (Drafted overrides) ds (topmost ns)
  | [], ancestor, es, h => by
    rw [layersIn] at h
    cases h
    exact ⟨[], .nil, by rw [visitedIn]; exact .nil, .nil⟩
  | n :: ns, ancestor, es, h => by
    rw [layersIn] at h
    obtain ⟨e, he, h⟩ := bind_eq_ok.1 h
    obtain ⟨es', hes, h⟩ := bind_eq_ok.1 h
    cases h
    obtain ⟨d, stems, drafted, top⟩ := stemsFrom_layer? n ancestor e he
    obtain ⟨ds, stems', drafted', top'⟩ := stemsFrom_layersIn ns ancestor es' hes
    refine ⟨d.toList ++ ds, List.rel_append stems stems', ?_, ?_⟩
    · rw [List.flatMap_append, visitedIn]
      exact List.rel_append drafted drafted'
    · rw [← List.singleton_append, topmost, List.filterMap_append]
      exact List.rel_append top top'

end

section Opposite

variable {α β γ : Type} {R : α → β → Prop} {S : β → γ → Prop}

theorem forall₂_through {as : List α} {bs : List β} {cs : List γ} (h : List.Forall₂ R as bs)
    (h' : List.Forall₂ S bs cs) : List.Forall₂ (fun a c => ∃ b, R a b ∧ S b c) as cs := by
  induction h generalizing cs with
  | nil =>
    cases h'
    exact .nil
  | @cons a b as bs first _ ih =>
    cases h' with
    | cons first' rest' => exact .cons ⟨b, first, first'⟩ (ih rest')

/-- What stands opposite to a part of a list. -/
theorem exists_forall₂_of_subperm {as as' : List α} {bs : List β} (all : List.Forall₂ R as bs)
    (part : as' <+~ as) : ∃ bs', bs' <+~ bs ∧ List.Forall₂ R as' bs' := by
  obtain ⟨same, each⟩ := List.forall₂_iff_zip.1 all
  rw [← List.map_fst_zip same.le] at part
  obtain ⟨pairs, fewer, rfl⟩ := exists_of_subperm_map part
  refine ⟨pairs.map Prod.snd, ?_, ?_⟩
  · obtain ⟨l, moved, kept⟩ := fewer
    have opposite := kept.map Prod.snd
    rw [List.map_snd_zip same.ge] at opposite
    exact ⟨l.map Prod.snd, moved.map Prod.snd, opposite⟩
  · rw [List.forall₂_map_left_iff, List.forall₂_map_right_iff, List.forall₂_same]
    exact fun r hr => each (fewer.subset hr)

end Opposite

/-- The elements of an origin are whole if its nodes are. -/
theorem isWhole_of_origin {o : Origin} (sound : o.Sound) (whole : ∀ d ∈ o.nodes, d.frame.IsWhole) :
    ∀ e ∈ o.elements, e.frame.IsWhole := by
  obtain ⟨own, inside⟩ := List.forall_mem_cons.1 whole
  refine List.forall_mem_cons.2 ⟨sound.frame ▸ own, ?_⟩
  intro e he
  by_cases slider : o.element.kind = .slider
  · obtain ⟨m, -, hm, -, list, section_, cell, bound, -, -, -, -, -, frames⟩ := sound.slider slider
    rw [frames e he]
    exact inside m (Option.mem_toList.2 hm)
  · rw [Element.wrappers_of_ne_slider slider] at he
    cases he

/-- A screen that is drawn has a canvas with an area. Its layers are the elements next below the
artboard that are no metadata, each under the name and in the frame that it is drawn with. At every
depth an element comes from an element of the drawing below the artboard that it alone comes from,
and has its name and its frame; the only others are the four that each slider has in place of its
content, in the frame of the content as drawn. All frames are in whole pixels, none negative. -/
theorem screen_frames {path : String} {overrides : Overrides} {name : Option String}
    {drawing : String} {s : Screen} (h : (screen path overrides name drawing).outcome = .ok s) :
    ∃ content, artboardParts path name drawing = .ok content ∧
      0 < s.canvas.width.toNat ∧ 0 < s.canvas.height.toNat ∧
      (∃ es, s.layers.map Placed.element ~ es ∧
        List.Forall₂ (fun e v => ∃ d, Drafted overrides d v ∧ e.id = d.layerName ∧
          e.frame = d.frame) es (topmost content)) ∧
      (∃ os : List Origin,
        (s.layers.map Placed.element).flatMap Element.descendants ~ os.flatMap Origin.elements ∧
          (∀ o ∈ os, o.Sound) ∧
          ∃ vs, vs <+~ visitedIn content ∧
            List.Forall₂ (Drafted overrides) (os.flatMap Origin.nodes) vs) ∧
      ∀ p ∈ s.layers, ∀ e ∈ p.element.descendants, e.frame.IsWhole := by
  obtain ⟨content, ancestor, es, parts, -, walked, same, width, height⟩ := screen_eq_layersIn h
  obtain ⟨ds, stems, drafted, top⟩ := stemsFrom_layersIn content ancestor es walked
  have perm : s.layers.map Placed.element ~ es := by
    rw [same]
    exact Screen.perm_ofElements s.canvas es
  obtain ⟨os, all, apart, sound⟩ : Accounted (es.flatMap Element.descendants)
      (ds.flatMap Draft.nodes) :=
    flatMap_closed Accounted.nil Accounted.append (stems.imp fun _ _ => Element.StemsFrom.accounted)
  obtain ⟨vs, fewer, drawn⟩ := exists_forall₂_of_subperm drafted apart
  have accounted := (perm.flatMap_right Element.descendants).trans all
  refine ⟨content, parts, width, height, ⟨es, perm, ?_⟩,
    ⟨os, accounted, sound, vs, fewer, drawn⟩, ?_⟩
  · apply (forall₂_through stems top).imp
    rintro e v ⟨d, stem, draft⟩
    obtain ⟨_, tie⟩ := stem.root
    exact ⟨d, draft, tie.name, tie.frame⟩
  · have wholes : ∀ d ∈ os.flatMap Origin.nodes, d.frame.IsWhole :=
      ((List.forall₂_and_left _ _).1 (drawn.imp fun _ _ draft => ⟨draft.frame.isWhole, draft⟩)).1
    intro p hp e he
    obtain ⟨o, ho, mem⟩ := List.mem_flatMap.1 (accounted.subset
      (List.mem_flatMap.2 ⟨p.element, List.mem_map_of_mem hp, he⟩))
    exact isWhole_of_origin (sound o ho)
      (fun d hd => wholes d (List.mem_flatMap.2 ⟨o, ho, hd⟩)) e mem

/-- A wall of photos next to a description. What it is and what is in it is not drawn. -/
def wall : String :=
  "<svg width=\"320\" height=\"480\" style=\"background: #fff;\"><g id=\"page\"><g id=\"board\">" ++
    "<desc/><g id=\"photos:vertical\" y=\"79.5px\"><g id=\"all\"><rect id=\"allBound\"/>" ++
    "<g id=\"photo\"/></g></g></g></g></svg>"

/-- The frames and the kinds of the layers of the wall. -/
def wallOverrides : Overrides :=
  let frame := [("x", "0"), ("y", "9e1"), ("width", "320"), ("height", "400.49")]
  NameMap.ofList [
    ("photos:vertical", Bag.ofRaw (("type", "UICollectionView") :: frame)),
    ("all", Bag.ofRaw (("type", "Section") :: frame)),
    ("allBound", Bag.ofRaw frame),
    ("photo", Bag.ofRaw (("type", "Cell") :: frame))]

/-- The collection keeps what stands before the colon of its name and is placed where it is drawn,
not where its entry says. -/
theorem screen_frames_wall :
    ∃ s, (screen "wall.svg" wallOverrides none wall).outcome = .ok s ∧
      s.layers.map (fun p => (p.id, p.pixelFrame.y)) = [("photos", 80)] ∧
      (∃ content, artboardParts "wall.svg" none wall = .ok content ∧
        0 < s.canvas.width.toNat ∧ 0 < s.canvas.height.toNat ∧
        (∃ es, s.layers.map Placed.element ~ es ∧
          List.Forall₂ (fun e v => ∃ d, Drafted wallOverrides d v ∧ e.id = d.layerName ∧
            e.frame = d.frame) es (topmost content)) ∧
        (∃ os : List Origin,
          (s.layers.map Placed.element).flatMap Element.descendants ~ os.flatMap Origin.elements ∧
            (∀ o ∈ os, o.Sound) ∧
            ∃ vs, vs <+~ visitedIn content ∧
              List.Forall₂ (Drafted wallOverrides) (os.flatMap Origin.nodes) vs) ∧
        ∀ p ∈ s.layers, ∀ e ∈ p.element.descendants, e.frame.IsWhole) := by
  have layers : (screen "wall.svg" wallOverrides none wall).outcome.toOption.map
      (fun s => s.layers.map fun p => (p.id, p.pixelFrame.y)) = some [("photos", 80)] := by
    decide +kernel
  obtain ⟨s, drawn, layers⟩ := Outcome.exists_of_toOption layers
  exact ⟨s, drawn, layers, screen_frames drawn⟩

end CanvasLayout.Drawing
