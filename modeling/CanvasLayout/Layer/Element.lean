import CanvasLayout.Adjacency
import CanvasLayout.Attribute.Style
import CanvasLayout.Layer.Kind

/-!
# Elements

A classified element: an identity, a style, a frame in pixels, and a layer that is one of
seven variants. The variants are written over the type of the elements they hold, so a
layer's own shape and the tree it stands in are kept apart. `Layer.children` lists the
elements a layer holds directly, in field order, and `Element.induct` is the induction it
gives.
-/

namespace CanvasLayout

/-- A text label. -/
structure TextLabel where
  text : String
  /-- Half the sum of the origin and the size on each axis, where labels are positioned. -/
  center : Point .pixel Float
  /-- The fill set on the label or in its override entry, nothing inherited. -/
  ownFill : Option Rgb

/-- A button, its title carried by a label. -/
structure Button (ε : Type) where
  title : String
  titleColor : Option Rgb
  /-- The shape that draws the background. -/
  frameShape : Option ε
  label : ε

/-- A section of a list. -/
structure Group (ε : Type) where
  header : Option ε
  /-- Cells from top to bottom. -/
  cells : List ε
  /-- The first cell of each derived cell name. -/
  customCells : NameMap String
  /-- The rectangle that marks the section's extent. -/
  bound : ε
  /-- Spacing between cells in pixels, filled in by the list around the section. -/
  separator : List Float
  /-- The cells of a table section that do not touch. -/
  tableSeparate : Bool

/-- A table or collection. -/
structure ListView (ε : Type) where
  kind : ListKind
  /-- Set on collections only. -/
  scroll : Option ScrollDirection
  /-- Sections from top to bottom. -/
  sections : List ε
  /-- Spacing between the first two sections in pixels. -/
  separator : List Float
  /-- The first header of each derived header name. -/
  customHeaders : NameMap String
  bound : Option ε

/-- A slider of pages. -/
structure Slider (ε : Type) where
  /-- The strip that selects the page. -/
  options : ε
  /-- The pages, as a collection of one cell. -/
  content : ε
  bound : Option ε

/-- A plain container. -/
structure Container (ε : Type) where
  role : ContainerRole
  children : List ε

/-- What a layer is, over the elements `ε` it holds. -/
inductive Layer (ε : Type) where
  | shape (kind : ShapeKind)
  | text (label : TextLabel)
  | button (b : Button ε)
  | group (g : Group ε)
  | list (l : ListView ε)
  | slider (s : Slider ε)
  | container (c : Container ε)

namespace Layer

variable {ε : Type}

/-- The layer's variant. -/
def kind : Layer ε → LayerKind
  | shape _ => .shape
  | text _ => .text
  | button _ => .button
  | group _ => .group
  | list _ => .list
  | slider _ => .slider
  | container _ => .container

/-- The elements held directly, in field order. -/
def children : Layer ε → List ε
  | shape _ => []
  | text _ => []
  | button b => b.frameShape.toList ++ [b.label]
  | group g => g.header.toList ++ g.cells ++ [g.bound]
  | list l => l.sections ++ l.bound.toList
  | slider s => [s.options, s.content] ++ s.bound.toList
  | container c => c.children

/-- The label, if the layer is one. -/
def label? : Layer ε → Option TextLabel
  | text t => some t
  | _ => none

/-- The section, if the layer is one. -/
def group? : Layer ε → Option (Group ε)
  | group g => some g
  | _ => none

/-- The container's role, if the layer is one. -/
def role? : Layer ε → Option ContainerRole
  | container c => some c.role
  | _ => none

end Layer

/-- A classified element that is not anchored yet. -/
structure Element where
  id : String
  style : Style
  frame : PixelFrame Float
  layer : Layer Element

namespace Element

/-- The element's variant. -/
def kind (e : Element) : LayerKind := e.layer.kind

/-- The elements held directly. -/
def children (e : Element) : List Element := e.layer.children

theorem sizeOf_lt_of_mem_children {c e : Element} (h : c ∈ e.children) : sizeOf c < sizeOf e := by
  obtain ⟨i, s, f, l⟩ := e
  cases l with
  | shape k => simp [children, Layer.children] at h
  | text t => simp [children, Layer.children] at h
  | button b =>
    obtain ⟨t, tc, fs, lb⟩ := b
    simp only [children, Layer.children, List.mem_append, Option.mem_toList, List.mem_singleton] at h
    rcases h with h | h
    · cases fs <;> simp_all
      omega
    · subst h; simp; omega
  | group g =>
    obtain ⟨hd, cs, cc, b, sep, ts⟩ := g
    simp only [children, Layer.children, List.mem_append, Option.mem_toList, List.mem_singleton] at h
    rcases h with (h | h) | h
    · cases hd <;> simp_all
      omega
    · have := List.sizeOf_lt_of_mem h
      simp; omega
    · subst h; simp; omega
  | list l =>
    obtain ⟨k, sc, ss, sep, ch, b⟩ := l
    simp only [children, Layer.children, List.mem_append, Option.mem_toList] at h
    rcases h with h | h
    · have := List.sizeOf_lt_of_mem h
      simp; omega
    · cases b <;> simp_all
      omega
  | slider s =>
    obtain ⟨o, c, b⟩ := s
    simp only [children, Layer.children, List.mem_append, List.mem_cons, Option.mem_toList,
      List.not_mem_nil, or_false] at h
    rcases h with (h | h) | h
    · subst h; simp; omega
    · subst h; simp; omega
    · cases b <;> simp_all
      omega
  | container c =>
    obtain ⟨r, cs⟩ := c
    simp only [children, Layer.children] at h
    have := List.sizeOf_lt_of_mem h
    simp; omega

/-- Induction on elements by the elements they hold directly. -/
theorem induct {P : Element → Prop} (step : ∀ e : Element, (∀ c ∈ e.children, P c) → P e)
    (e : Element) : P e :=
  step e fun c _ => induct step c
termination_by sizeOf e
decreasing_by exact sizeOf_lt_of_mem_children ‹_›

/-- The element and everything nested in it, from the outside in. -/
def descendants (e : Element) : List Element :=
  e :: e.children.attach.flatMap fun ⟨c, _⟩ => c.descendants
termination_by sizeOf e
decreasing_by exact sizeOf_lt_of_mem_children ‹_›

theorem descendants_eq (e : Element) :
    e.descendants = e :: e.children.flatMap descendants := by
  rw [descendants]
  simp [List.flatMap]

end Element

end CanvasLayout
