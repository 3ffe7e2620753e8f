import CanvasLayout.Proofs.RoundTrip

/-!
# How deep screens are written

An element is written on three levels, those that it holds on three further ones each time. So a
screen whose numbers are finite is read from its text if no more than 41 elements stand in each
other (`Screen.ofText_text_of_within`); the reader gives up at level 128.
-/

namespace CanvasLayout

open Json (Datum Form)
open Json.Form (Readable readable_array_of readable_object_of write)

/-! ## Numbers and nesting -/

/-- The numbers of a style. -/
def Style.numbers (s : Style) : List Float :=
  s.strokeWidth.toList ++ s.opacity.toList ++ s.fontSize.toList ++ s.borderRadius.toList

/-- The numbers of a frame. -/
def Frame.numbers {s : Space} (f : Frame s Float) : List Float := [f.x, f.y, f.width, f.height]

/-- The numbers of a layer, without those of the elements that it holds. -/
def Layer.numbers {ε : Type} : Layer ε → List Float
  | .text t => [t.center.x, t.center.y]
  | .group g => g.separator
  | .list l => l.separator
  | _ => []

namespace Element

/-- The numbers of an element, without those of the elements that it holds. -/
def numbers (e : Element) : List Float := e.style.numbers ++ e.frame.numbers ++ e.layer.numbers

/-- The element and all elements nested in it have a property, and no more than so many of them
stand in each other. -/
def Within (P : Element → Prop) : Nat → Element → Prop
  | 0, _ => False
  | n + 1, e => P e ∧ ∀ c ∈ e.children, Within P n c

variable {P Q : Element → Prop}

theorem Within.mono {m n : Nat} {e : Element} (h : e.Within P m) (le : m ≤ n) : e.Within P n := by
  induction m generalizing n e with
  | zero => exact h.elim
  | succ m ih =>
    obtain ⟨k, rfl⟩ : ∃ k, n = k + 1 := ⟨n - 1, by omega⟩
    exact ⟨h.1, fun c hc => ih (h.2 c hc) (by omega)⟩

/-- A property of all elements can be replaced by one that it implies. -/
theorem Within.imp {n : Nat} {e : Element} (h : e.Within P n) (imp : ∀ x, P x → Q x) :
    e.Within Q n := by
  induction n generalizing e with
  | zero => exact h.elim
  | succ n ih => exact ⟨imp e h.1, fun c hc => ih (h.2 c hc)⟩

end Element

/-- The numbers that placement gives a layer. -/
def Placed.numbers (p : PlacedLayer) : List Float :=
  p.frame.numbers ++ [p.vertical.distance, p.horizontal.distance]

namespace Interchange

/-- A datum is written readably wherever there is room for `n` levels. -/
def Stands (n : Nat) (form : Form Record) (d : Datum) : Prop :=
  ∀ depth, depth + n ≤ Json.depthLimit → Readable depth (write fields form d)

variable {n : Nat}

theorem Stands.mono {m : Nat} {form : Form Record} {d : Datum} (h : Stands m form d) (le : m ≤ n) :
    Stands n form d := by
  intro depth room
  exact h depth (by omega)

/-- What is no container stands everywhere. -/
theorem stands_leaf {form : Form Record} {d : Datum} {j : Json} (written : write fields form d = j)
    (leaf : j.leaves = [j]) (flat : j.depth = 0) (range : j.InRange) : Stands n form d := by
  intro depth room
  rw [written]
  exact Json.readable_leaf (by omega) leaf flat range

theorem stands_absent (form : Form Record) : Stands n form .absent :=
  stands_leaf (Form.write_absent fields form) rfl rfl trivial

@[simp] theorem stands_text (s : String) : Stands n .text (.text s) :=
  stands_leaf rfl rfl rfl trivial

@[simp] theorem stands_flag (b : Bool) : Stands n .flag (.flag b) := stands_leaf rfl rfl rfl trivial

@[simp] theorem stands_choice (names : List String) (s : String) :
    Stands n (.choice names) (.choice s) :=
  stands_leaf rfl rfl rfl trivial

@[simp] theorem stands_real {x : Float} (finite : x.isFinite) : Stands n .real (.real x) :=
  stands_leaf rfl rfl rfl finite

theorem stands_whole {bound k : Nat} (lt : k < UInt64.size) : Stands n (.whole bound) (.whole k) := by
  have size : UInt64.size = 2 ^ 64 := rfl
  exact stands_leaf rfl rfl rfl ⟨by omega, by omega⟩

/-- An optional datum stands where the datum does, for its absence is no container. -/
theorem stands_option {α : Type} {form : Form Record} {datum : α → Datum} {o : Option α}
    (each : ∀ a ∈ o, Stands n form (datum a)) : Stands n form (.ofOption datum o) := by
  cases o with
  | none => exact stands_absent form
  | some a => exact each a rfl

theorem stands_list {form : Form Record} {ds : List Datum} (each : ∀ d ∈ ds, Stands n form d) :
    Stands (n + 1) (.list form) (.list ds) := by
  intro depth room
  rw [write]
  apply readable_array_of (by omega)
  exact Form.forall_mem_writeItems fun d hd => each d hd (depth + 1) (by omega)

theorem stands_record {r : Record} {ds : List Datum}
    (each : List.Forall₂ (fun f d => Stands n f.form d) (fields r) ds) :
    Stands (n + 1) (.record r) (.record ds) := by
  intro depth room
  rw [write]
  apply readable_object_of (by omega)
  exact Form.forall_mem_writeFields (each.imp fun f d h => h (depth + 1) (by omega))

theorem stands_layer {r : Record} {name : String} {ds : List Datum}
    (known : [("shape", Record.shape), ("text", .label), ("button", .button), ("section", .group),
      ("collection", .list), ("slider", .slider), ("container", .container)].lookup name = some r)
    (each : List.Forall₂ (fun f d => Stands n f.form d) (fields r) ds) :
    Stands (n + 1) layerForm (.tagged name ds) := by
  intro depth room
  rw [layerForm, write, known]
  apply readable_object_of (by omega)
  refine List.forall_mem_cons.2 ⟨?_, ?_⟩
  · exact Json.readable_leaf (by omega) rfl rfl trivial
  · exact Form.forall_mem_writeFields (each.imp fun f d h => h (depth + 1) (by omega))

/-! ## What a screen is made of -/

@[simp] theorem stands_color (c : Rgb) : Stands (n + 1) (.record .color) c.datum := by
  have byte (k : UInt8) : Stands n (.whole UInt8.size) (.whole k.toNat) :=
    stands_whole (k.toNat_lt.trans (by decide))
  apply stands_record
  simp [fields, byte]

@[simp] theorem stands_colorOption (c : Option Rgb) :
    Stands (n + 1) (.record .color) (.ofOption Rgb.datum c) :=
  stands_option fun c _ => stands_color c

/-- A style takes two levels: its own and that of its colors. -/
theorem stands_style {s : Style} (finite : ∀ x ∈ s.numbers, x.isFinite) :
    Stands (n + 2) (.record .style) s.datum := by
  have real {o : Option Float} (h : ∀ x ∈ o, x.isFinite) :
      Stands (n + 1) .real (.ofOption .real o) :=
    stands_option fun x hx => stands_real (h x hx)
  have text (o : Option String) : Stands (n + 1) .text (.ofOption .text o) :=
    stands_option fun s _ => stands_text s
  have align (o : Option Alignment) : Stands (n + 1) (.choice (Alignment.all.map Alignment.name))
      (.ofOption (fun a => .choice a.name) o) :=
    stands_option fun _ _ => stands_choice _ _
  simp only [Style.numbers, List.forall_mem_append, Option.mem_toList] at finite
  apply stands_record
  simp [fields, real finite.1.1.1, real finite.1.1.2, real finite.1.2, real finite.2, text, align]

theorem stands_frame {s : Space} {f : Frame s Float} (finite : ∀ x ∈ f.numbers, x.isFinite) :
    Stands (n + 1) (.record .frame) f.datum := by
  simp only [Frame.numbers, List.forall_mem_cons] at finite
  apply stands_record
  simp [fields, finite]

theorem stands_reals {xs : List Float} (finite : ∀ x ∈ xs, x.isFinite) :
    Stands (n + 1) (.list .real) (realsDatum xs) :=
  stands_list (List.forall_mem_map.2 fun x hx => stands_real (finite x hx))

@[simp] theorem stands_names (m : NameMap String) : Stands (n + 1) (.dict .text) (namesDatum m) := by
  intro depth room
  rw [namesDatum_eq, write]
  apply readable_object_of (by omega)
  apply Form.forall_mem_writeEntries
  intro e he
  obtain ⟨entry, -, rfl⟩ := List.mem_map.1 he
  exact stands_text (n := n) entry.2 (depth + 1) (by omega)

/-- The datum of an element stands on so many levels. -/
def StandsElement (n : Nat) (e : Element) : Prop := Stands n (.record .element) e.datum

section Layers

variable {l : Layer Element} (inside : ∀ c ∈ l.children, StandsElement n c)

theorem stands_optionDatum {o : Option Element} (h : ∀ e ∈ o, StandsElement n e) :
    Stands (n + 1) (.record .element) (Element.optionDatum o) := by
  cases o with
  | none => exact stands_absent _
  | some e => exact (h e rfl).mono (by omega)

theorem stands_listData {es : List Element} (h : ∀ e ∈ es, StandsElement n e) :
    Stands (n + 1) (.list (.record .element)) (.list (Element.listData es)) := by
  rw [listData_eq]
  exact stands_list (List.forall_mem_map.2 h)

include inside in
/-- A layer is written on two levels more than the elements that it holds. -/
theorem stands_layerDatum (finite : ∀ x ∈ l.numbers, x.isFinite) :
    Stands (n + 2) layerForm (Element.layerDatum l) := by
  have element {e : Element} (h : StandsElement n e) : Stands (n + 1) (.record .element) e.datum :=
    h.mono (by omega)
  cases l with
  | shape kind =>
    apply stands_layer (r := .shape) (by decide)
    simp [fields]
  | text label =>
    simp only [Layer.numbers, List.forall_mem_cons] at finite
    have center : Stands (n + 1) (.record .point)
        (.record [.real label.center.x, .real label.center.y]) := by
      apply stands_record
      simp [fields, finite]
    apply stands_layer (r := .label) (by decide)
    simp [TextLabel.data, fields, center]
  | button b =>
    simp only [Layer.children, List.forall_mem_append, List.forall_mem_singleton,
      Option.mem_toList] at inside
    apply stands_layer (r := .button) (by decide)
    simp [fields, stands_optionDatum inside.1, element inside.2]
  | group g =>
    simp only [Layer.children, List.forall_mem_append, List.forall_mem_singleton,
      Option.mem_toList] at inside
    have separator : Stands (n + 1) (.list .real) (realsDatum g.separator) := stands_reals finite
    apply stands_layer (r := .group) (by decide)
    simp [fields, stands_optionDatum inside.1.1, stands_listData inside.1.2, element inside.2,
      separator]
  | list l =>
    simp only [Layer.children, List.forall_mem_append, Option.mem_toList] at inside
    have scroll : Stands (n + 1) (.choice (ScrollDirection.all.map ScrollDirection.name))
        (.ofOption (fun d => .choice d.name) l.scroll) :=
      stands_option fun _ _ => stands_choice _ _
    have separator : Stands (n + 1) (.list .real) (realsDatum l.separator) := stands_reals finite
    apply stands_layer (r := .list) (by decide)
    simp [fields, scroll, stands_listData inside.1, separator, stands_optionDatum inside.2]
  | slider s =>
    simp only [Layer.children, List.forall_mem_append, List.forall_mem_cons,
      Option.mem_toList] at inside
    apply stands_layer (r := .slider) (by decide)
    simp [fields, element inside.1.1, element inside.1.2.1, stands_optionDatum inside.2]
  | container c =>
    simp only [Layer.children] at inside
    apply stands_layer (r := .container) (by decide)
    simp [fields, stands_listData inside]

end Layers

/-- Each element in another takes three levels more. -/
theorem stands_of_within {e : Element}
    (h : e.Within (fun x => ∀ y ∈ x.numbers, y.isFinite) n) : StandsElement (3 * n) e := by
  induction n generalizing e with
  | zero => exact h.elim
  | succ n ih =>
    obtain ⟨own, nested⟩ := h
    obtain ⟨id, style, frame, layer⟩ := e
    simp only [Element.numbers, List.forall_mem_append] at own
    have inside : ∀ c ∈ layer.children, StandsElement (3 * n) c := fun c hc => ih (nested c hc)
    have pixels : Stands (3 * n + 2) (.record .frame) frame.datum := stands_frame own.1.2
    rw [StandsElement, Element.datum]
    apply stands_record (n := 3 * n + 2)
    simp [fields, stands_style own.1.1, pixels, stands_layerDatum inside own.2]

theorem stands_anchor {a : Anchor Float} (finite : a.distance.isFinite) :
    Stands (n + 1) (.record .anchor) a.datum := by
  have reference : Stands n .text (.ofOption .text a.reference) :=
    stands_option fun s _ => stands_text s
  apply stands_record
  simp [fields, reference, finite]

/-- A layer takes three levels more than the elements in it: its own, that of its element and that
of the element's layer. -/
theorem stands_placed {p : PlacedLayer} (finite : ∀ x ∈ p.numbers, x.isFinite)
    (own : ∀ x ∈ p.element.numbers, x.isFinite) (inside : ∀ c ∈ p.element.children, StandsElement n c) :
    Stands (n + 3) (.record .node) p.datum := by
  simp only [Placed.numbers, Element.numbers, List.forall_mem_append, List.forall_mem_cons] at finite own
  have frame : Stands (n + 2) (.record .frame) p.frame.datum := stands_frame finite.1
  have pixels : Stands (n + 2) (.record .frame) p.pixelFrame.datum := stands_frame own.1.2
  have vertical : Stands (n + 2) (.record .anchor) p.vertical.datum := stands_anchor finite.2.1
  have horizontal : Stands (n + 2) (.record .anchor) p.horizontal.datum :=
    stands_anchor finite.2.2.1
  have style : Stands (n + 2) (.record .style) p.content.style.datum := stands_style own.1.1
  have layer : Stands (n + 2) layerForm (Element.layerDatum p.content.layer) :=
    stands_layerDatum inside own.2
  apply stands_record
  simp [fields, style, frame, pixels, vertical, horizontal, layer]

/-- A canvas takes two levels, the second one for its background. -/
theorem stands_canvas (c : Canvas) : Stands (n + 2) (.record .canvas) c.datum := by
  have word (k : UInt32) : Stands (n + 1) (.whole UInt32.size) (.whole k.toNat) :=
    stands_whole (k.toNat_lt.trans (by decide))
  apply stands_record
  simp [fields, word]

end Interchange

open Interchange

/-- A screen is read from its text if its numbers are finite and no more than 41 elements stand in
each other. -/
theorem Screen.ofText_text_of_within {s : Screen}
    (placed : ∀ p ∈ s.layers, ∀ x ∈ p.numbers, x.isFinite)
    (within : ∀ p ∈ s.layers, p.element.Within (fun e => ∀ x ∈ e.numbers, x.isFinite) 41) :
    ofText s.text = .ok s := by
  have layers : Stands 124 (.list (.record .node)) (.list (s.layers.map Placed.datum)) := by
    apply stands_list
    rw [List.forall_mem_map]
    intro p hp
    obtain ⟨own, nested⟩ := within p hp
    exact stands_placed (n := 120) (placed p hp) own fun c hc => stands_of_within (nested c hc)
  have stands : Stands 125 (.record .screen) s.datum := by
    apply stands_record
    have canvas : Stands 124 (.record .canvas) s.canvas.datum := stands_canvas _
    simp [fields, canvas, layers]
  exact ofText_text_of_readable (stands 0 (by decide))

end CanvasLayout
