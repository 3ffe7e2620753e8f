import Mathlib
import CanvasLayout.Inspection.Summary

/-!
# Where elements are stored

Each variant of a layer has its own fields for elements. A place in an element is the list of the
fields that lead to it (`Element.at?`), so an element that is stored twice has two places. The
elements nested in an element are those at its places, each place counted once
(`Element.exists_places`); it follows what the summary of a screen counts (`Screen.summary_counts`).
-/

namespace CanvasLayout

section Lists

variable {α β γ : Type}

theorem map_getElem?_range (as : List α) :
    (List.range as.length).map (as[·]?) = as.map some := by
  apply List.ext_getElem
  · simp
  · simp

/-- Lists put together have no entry twice if each is tagged with a tag of its own. -/
theorem nodup_flatMap_tagged {tag : α → β → γ} (inj : tag.Injective2) {tags : List α}
    {f : α → List β} (distinct : tags.Nodup) (each : ∀ a ∈ tags, (f a).Nodup) :
    (tags.flatMap fun a => (f a).map (tag a)).Nodup := by
  rw [List.nodup_flatMap]
  refine ⟨fun a ha => (each a ha).map (inj.right a), distinct.imp fun {a b} other => ?_⟩
  intro c hc hc'
  obtain ⟨x, -, rfl⟩ := List.mem_map.1 hc
  obtain ⟨y, -, same⟩ := List.mem_map.1 hc'
  exact other (inj same).1.symm

end Lists

variable {ε : Type}

namespace Layer

/-- A field that holds an element, or an entry of a field that holds a list of elements. -/
inductive Slot where
  | frameShape
  | label
  | header
  | cells (i : Nat)
  | bound
  | sections (i : Nat)
  | options
  | content
  | children (i : Nat)
  deriving DecidableEq

/-- What a layer has in a field: buttons a shape and a label, sections a header, cells and a bound,
lists sections and a bound, sliders options, content and a bound, and containers their children. -/
def at? : Layer ε → Slot → Option ε
  | button b, .frameShape => b.frameShape
  | button b, .label => some b.label
  | group g, .header => g.header
  | group g, .cells i => g.cells[i]?
  | group g, .bound => some g.bound
  | list l, .sections i => l.sections[i]?
  | list l, .bound => l.bound
  | slider s, .options => some s.options
  | slider s, .content => some s.content
  | slider s, .bound => s.bound
  | container c, .children i => c.children[i]?
  | _, _ => none

/-- The fields that hold something, in order. -/
def slots : Layer ε → List Slot
  | shape _ => []
  | text _ => []
  | button b => (b.frameShape.map fun _ => Slot.frameShape).toList ++ [.label]
  | group g =>
    (g.header.map fun _ => Slot.header).toList ++ (List.range g.cells.length).map .cells ++ [.bound]
  | list l => (List.range l.sections.length).map .sections ++ (l.bound.map fun _ => Slot.bound).toList
  | slider s => [.options, .content] ++ (s.bound.map fun _ => Slot.bound).toList
  | container c => (List.range c.children.length).map .children

/-- The slots of a layer are the fields with something in them. -/
theorem mem_slots {l : Layer ε} {slot : Slot} : slot ∈ l.slots ↔ (l.at? slot).isSome := by
  cases l <;> cases slot <;> simp [slots, at?, Option.isSome_iff_exists, List.getElem?_eq_some_iff]

theorem nodup_slots (l : Layer ε) : l.slots.Nodup := by
  have entries (slot : Nat → Slot) (inj : slot.Injective) (n : Nat) :
      ((List.range n).map slot).Nodup := List.nodup_range.map inj
  cases l with
  | shape k => exact .nil
  | text t => exact .nil
  | button b => cases h : b.frameShape <;> simp [slots, h]
  | group g =>
    have cells := entries .cells (fun _ _ => Slot.cells.inj) g.cells.length
    cases h : g.header <;> simp [slots, h, List.nodup_append, cells]
  | list l =>
    have sections := entries .sections (fun _ _ => Slot.sections.inj) l.sections.length
    cases h : l.bound <;> simp [slots, h, List.nodup_append, sections]
  | slider s => cases h : s.bound <;> simp [slots, h]
  | container c => exact entries .children (fun _ _ => Slot.children.inj) c.children.length

/-- The elements held directly are those in the fields. -/
theorem map_at?_slots (l : Layer ε) : l.slots.map l.at? = l.children.map some := by
  cases l with
  | shape k => rfl
  | text t => rfl
  | button b => cases h : b.frameShape <;> simp [slots, at?, children, h]
  | group g =>
    have cells := map_getElem?_range g.cells
    cases h : g.header <;> simp [slots, at?, children, h, Function.comp_def, cells]
  | list l =>
    have sections := map_getElem?_range l.sections
    cases h : l.bound <;> simp [slots, at?, children, h, Function.comp_def, sections]
  | slider s => cases h : s.bound <;> simp [slots, at?, children, h]
  | container c =>
    have children := map_getElem?_range c.children
    simp [slots, at?, Layer.children, Function.comp_def, children]

end Layer

namespace Element

open Layer (Slot)

/-- What is stored in an element at the end of a path of fields. -/
def at? : Element → List Slot → Option Element
  | e, [] => some e
  | e, slot :: path => (e.layer.at? slot).bind (at? · path)

/-- The paths lead to the element and to what is nested in it, to each place once. -/
structure ListsPlaces (e : Element) (paths : List (List Slot)) : Prop where
  nodup : paths.Nodup
  mem_iff : ∀ path, path ∈ paths ↔ (e.at? path).isSome
  elements : paths.map e.at? = e.descendants.map some

/-- The paths through the fields of an element, given the paths in what the fields hold. -/
def pathsThrough (paths : Element → List (List Slot)) (e : Element) : List (List Slot) :=
  e.layer.slots.flatMap fun slot => ((e.layer.at? slot).elim [] paths).map (slot :: ·)

variable {paths : Element → List (List Slot)} {e : Element}

/-- A path goes through a slot and on through what is stored there. -/
theorem mem_pathsThrough {path : List Slot} : path ∈ pathsThrough paths e ↔
    ∃ slot rest c, path = slot :: rest ∧ e.layer.at? slot = some c ∧ rest ∈ paths c := by
  unfold pathsThrough
  simp only [List.mem_flatMap, List.mem_map, Layer.mem_slots]
  constructor
  · rintro ⟨slot, filled, rest, hrest, rfl⟩
    obtain ⟨c, hc⟩ := Option.isSome_iff_exists.1 filled
    rw [hc, Option.elim_some] at hrest
    exact ⟨slot, rest, c, rfl, hc, hrest⟩
  · rintro ⟨slot, rest, c, rfl, hc, hrest⟩
    refine ⟨slot, by rw [hc]; rfl, rest, ?_, rfl⟩
    rw [hc]
    exact hrest

theorem mem_children_of_at? {slot : Slot} {c : Element} (h : e.layer.at? slot = some c) :
    c ∈ e.children := by
  have mem : e.layer.at? slot ∈ e.layer.children.map some := by
    rw [← Layer.map_at?_slots]
    exact List.mem_map_of_mem (Layer.mem_slots.2 (by rw [h]; rfl))
  rw [h] at mem
  obtain ⟨c', hc', same⟩ := List.mem_map.1 mem
  exact Option.some.inj same ▸ hc'

/-- The paths through an element lead to all that is nested in its children, in order. -/
theorem map_at?_pathsThrough (listed : ∀ c ∈ e.children, c.ListsPlaces (paths c)) :
    (pathsThrough paths e).map e.at? = (e.children.flatMap descendants).map some := by
  have through : ∀ slot ∈ e.layer.slots,
      (((e.layer.at? slot).elim [] paths).map (slot :: ·)).map e.at? =
        (e.layer.at? slot).elim [] fun c => c.descendants.map some := by
    intro slot _
    rw [List.map_map]
    show List.map (fun rest => (e.layer.at? slot).bind (at? · rest)) _ = _
    cases hc : e.layer.at? slot with
    | none => rfl
    | some c => exact (listed c (mem_children_of_at? hc)).elements
  calc (pathsThrough paths e).map e.at?
    _ = e.layer.slots.flatMap fun slot =>
          (e.layer.at? slot).elim [] fun c => c.descendants.map some := by
      rw [pathsThrough, List.map_flatMap]
      exact List.flatMap_congr through
    _ = (e.layer.children.map some).flatMap fun held =>
          held.elim [] fun c => c.descendants.map some := by
      rw [← Layer.map_at?_slots, List.flatMap_map]
    _ = (e.children.flatMap descendants).map some := by
      rw [List.flatMap_map, List.map_flatMap]
      rfl

/-- The elements nested in an element are those at its places, each place counted once. -/
theorem exists_places (e : Element) : ∃ paths, e.ListsPlaces paths := by
  induction e using Element.induct with
  | step e ih =>
    choose! paths listed using ih
    refine ⟨[] :: pathsThrough paths e, ?_, fun path => ?_, ?_⟩
    · rw [List.nodup_cons]
      constructor
      · intro mem
        obtain ⟨slot, rest, c, same, -⟩ := mem_pathsThrough.1 mem
        cases same
      · apply nodup_flatMap_tagged (fun _ _ _ _ same => List.cons.inj same) (Layer.nodup_slots _)
        intro slot _
        cases hc : e.layer.at? slot with
        | none => exact .nil
        | some c => exact (listed c (mem_children_of_at? hc)).nodup
    · cases path with
      | nil => simp [at?]
      | cons slot rest =>
        rw [List.mem_cons, mem_pathsThrough, at?]
        cases hc : e.layer.at? slot with
        | none => simp [hc]
        | some c =>
          rw [Option.bind_some, ← (listed c (mem_children_of_at? hc)).mem_iff]
          simp [hc]
    · rw [List.map_cons, map_at?_pathsThrough listed, descendants_eq, List.map_cons]
      rfl

end Element

namespace Placed

/-- The paths lead to the elements nested in the layer, to each place once. -/
theorem exists_places (p : PlacedLayer) : ∃ paths : List (List Layer.Slot), paths.Nodup ∧
    (∀ path, path ∈ paths ↔ path ≠ [] ∧ (p.element.at? path).isSome) ∧
    paths.length = p.nested.length := by
  obtain ⟨paths, listed⟩ := p.element.exists_places
  have root : [] ∈ paths := (listed.mem_iff []).2 rfl
  refine ⟨paths.erase [], listed.nodup.erase [], fun path => ?_, ?_⟩
  · rw [listed.nodup.mem_erase_iff, listed.mem_iff]
  · have all := congrArg List.length listed.elements
    rw [List.length_map, List.length_map, Element.descendants_eq, List.length_cons] at all
    rw [List.length_erase_of_mem root, all]
    rfl

end Placed

namespace Screen

/-- What a screen stores at the end of a path of fields in one of its layers. -/
def at? (s : Screen) (i : Nat) (path : List Layer.Slot) : Option Element :=
  s.layers[i]?.bind (·.element.at? path)

/-- The places inside the layers of a screen, each listed once, are as many as there are elements
nested in them. -/
theorem exists_places (s : Screen) : ∃ places : List (Nat × List Layer.Slot), places.Nodup ∧
    (∀ i path, (i, path) ∈ places ↔ path ≠ [] ∧ (s.at? i path).isSome) ∧
    places.length = (s.layers.flatMap Placed.nested).length := by
  choose paths nodup mem_iff length using Placed.exists_places
  refine ⟨(List.range s.layers.length).flatMap fun i =>
    (s.layers[i]?.elim [] paths).map (i, ·), ?_, fun i path => ?_, ?_⟩
  · apply nodup_flatMap_tagged (fun _ _ _ _ same => Prod.mk.inj same) List.nodup_range
    intro i _
    cases s.layers[i]? with
    | none => exact .nil
    | some p => exact nodup p
  · rw [List.mem_flatMap]
    unfold at?
    constructor
    · rintro ⟨j, -, mem⟩
      obtain ⟨path', known, same⟩ := List.mem_map.1 mem
      obtain ⟨rfl, rfl⟩ := Prod.mk.inj same
      cases hj : s.layers[j]? with
      | none =>
        rw [hj] at known
        cases known
      | some p =>
        rw [hj] at known
        exact (mem_iff p _).1 known
    · rintro ⟨inside, stored⟩
      obtain ⟨p, hp⟩ := Option.isSome_iff_exists.1 (Option.isSome_of_isSome_bind stored)
      rw [hp] at stored
      refine ⟨i, List.mem_range.2 (List.getElem?_eq_some_iff.1 hp).1, List.mem_map.2 ⟨path, ?_, rfl⟩⟩
      rw [hp]
      exact (mem_iff p path).2 ⟨inside, stored⟩
  · rw [List.length_flatMap, List.length_flatMap]
    simp only [List.length_map, ← length]
    calc ((List.range s.layers.length).map fun i => (s.layers[i]?.elim [] paths).length).sum
      _ = (((List.range s.layers.length).map (s.layers[·]?)).map fun held =>
            (held.elim [] paths).length).sum := by
        rw [List.map_map]
        rfl
      _ = (s.layers.map fun p => (paths p).length).sum := by
        rw [map_getElem?_range, List.map_map]
        rfl

end Screen

/-- The kinds of layers divide the layers among them. -/
theorem LayerKind.sum_countP {α : Type} (kind : α → LayerKind) (as : List α) :
    (LayerKind.all.map fun k => as.countP (kind · = k)).sum = as.length := by
  induction as with
  | nil => rfl
  | cons a as ih =>
    have one : (LayerKind.all.map fun k => if kind a = k then 1 else 0).sum = 1 := by
      cases kind a <;> rfl
    simp only [List.countP_cons, decide_eq_true_eq, List.sum_map_add, ih, one, List.length_cons]

/-- The summary of a screen counts each layer and each element stored anywhere inside a layer once. It
has a count for each of the seven kinds of layers, that of the layers of the kind, and these add up to
the number of layers. It lists each layer once, in order, with its own anchors. -/
theorem Screen.summary_counts (s : Screen) :
    (∃ places : List (Nat × List Layer.Slot), places.Nodup ∧
      (∀ i path, (i, path) ∈ places ↔ path ≠ [] ∧ (s.at? i path).isSome) ∧
      s.summary.elements = s.layers.length + places.length) ∧
    (s.summary.kinds.length = 7 ∧
      (∀ k n, (k, n) ∈ s.summary.kinds ↔
        n = (s.layers.filter fun p => p.content.layer.kind = k).length) ∧
      (s.summary.kinds.map Prod.snd).sum = s.layers.length) ∧
    List.Forall₂ (fun p row => row.id = p.id ∧ row.kind = p.content.layer.kind ∧
        row.vertical = ⟨p.vertical.reference, p.vertical.distance⟩ ∧
        row.horizontal = ⟨p.horizontal.reference, p.horizontal.distance⟩)
      s.layers s.summary.entries := by
  refine ⟨?_, ⟨rfl, fun k n => ?_, ?_⟩, ?_⟩
  · obtain ⟨places, nodup, mem_iff, length⟩ := s.exists_places
    exact ⟨places, nodup, mem_iff, by rw [length]; rfl⟩
  · show (k, n) ∈ LayerKind.all.map (fun k => (k, s.layers.countP (·.kind = k))) ↔ _
    rw [List.mem_map, ← List.countP_eq_length_filter]
    constructor
    · rintro ⟨k', -, same⟩
      obtain ⟨rfl, rfl⟩ := Prod.mk.inj same
      rfl
    · rintro rfl
      exact ⟨k, by cases k <;> decide, rfl⟩
  · show ((LayerKind.all.map fun k => (k, s.layers.countP (·.kind = k))).map Prod.snd).sum = _
    rw [List.map_map]
    exact LayerKind.sum_countP Placed.kind s.layers
  · show List.Forall₂ _ s.layers (s.layers.map Placed.entry)
    rw [List.forall₂_map_right_iff, List.forall₂_same]
    exact fun p _ => ⟨rfl, rfl, rfl, rfl⟩

end CanvasLayout
