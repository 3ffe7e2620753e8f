import CanvasLayout.Interchange.Schema
import CanvasLayout.Screen

/-!
# Screens as data

A screen as a datum of the interchange format, and the screen that a datum holds. The two
are inverse to each other; names of alignments, directions and the like are looked up among
the names of all of them.
-/

namespace CanvasLayout

open Json (Datum)

namespace Interchange

/-- What a datum holds, unless it is absent. -/
def unlessAbsent {α : Type} (d : Datum) (value : Option α) : Option (Option α) :=
  match d with
  | .absent => some none
  | _ => value.map some

/-- The member of a list that a choice names. -/
def named? {α : Type} (all : List α) (name : α → String) : Datum → Option α
  | .choice s => all.find? fun a => name a == s
  | _ => none

/-- The text of a datum. -/
def text? : Datum → Option String
  | .text s => some s
  | _ => none

/-- The number of a datum. -/
def real? : Datum → Option Float
  | .real x => some x
  | _ => none

/-- Numbers as a datum. -/
def realsDatum (xs : List Float) : Datum := .list (xs.map .real)

/-- The numbers of a datum. -/
def reals? : Datum → Option (List Float)
  | .list ds => ds.mapM real?
  | _ => none

/-- Names under names as a datum. -/
def namesDatum (m : NameMap String) : Datum := .dict (m.entries.map fun (k, v) => (k, .text v))

/-- The names under names of a datum. -/
def names? : Datum → Option (NameMap String)
  | .dict es => (es.mapM fun e => (text? e.2).map fun s => (e.1, s)).map NameMap.ofList
  | _ => none

end Interchange

open Interchange

/-- The color as a datum. -/
def Rgb.datum (c : Rgb) : Datum :=
  .record [.whole c.red.toNat, .whole c.green.toNat, .whole c.blue.toNat]

/-- The color that a datum holds. -/
def Rgb.ofDatum? : Datum → Option Rgb
  | .record [.whole r, .whole g, .whole b] => some ⟨.ofNat r, .ofNat g, .ofNat b⟩
  | _ => none

/-- The style as a datum. -/
def Style.datum (s : Style) : Datum :=
  .record
    [.ofOption Rgb.datum s.fill, .ofOption Rgb.datum s.strokeColor, .ofOption .real s.strokeWidth,
      .ofOption .real s.opacity, .ofOption .text s.fontFamily, .ofOption .real s.fontSize,
      .ofOption (fun a => .choice a.name) s.textAlign, .ofOption .real s.borderRadius,
      .ofOption Rgb.datum s.textColor, .ofOption Rgb.datum s.titleColor,
      .ofOption .text s.placeholder]

/-- The style that a datum holds. -/
def Style.ofDatum? : Datum → Option Style
  | .record [fill, stroke, strokeWidth, opacity, family, size, align, radius, text, title, hint] => do
    return {
      fill := ← unlessAbsent fill (Rgb.ofDatum? fill)
      strokeColor := ← unlessAbsent stroke (Rgb.ofDatum? stroke)
      strokeWidth := ← unlessAbsent strokeWidth (real? strokeWidth)
      opacity := ← unlessAbsent opacity (real? opacity)
      fontFamily := ← unlessAbsent family (text? family)
      fontSize := ← unlessAbsent size (real? size)
      textAlign := ← unlessAbsent align (named? Alignment.all Alignment.name align)
      borderRadius := ← unlessAbsent radius (real? radius)
      textColor := ← unlessAbsent text (Rgb.ofDatum? text)
      titleColor := ← unlessAbsent title (Rgb.ofDatum? title)
      placeholder := ← unlessAbsent hint (text? hint) }
  | _ => none

namespace Frame

variable {s : Space}

/-- The frame as a datum. -/
def datum (f : Frame s Float) : Datum := .record [.real f.x, .real f.y, .real f.width, .real f.height]

/-- The frame that a datum holds. -/
def ofDatum? : Datum → Option (Frame s Float)
  | .record [.real x, .real y, .real w, .real h] => some ⟨x, y, w, h⟩
  | _ => none

end Frame

/-- The label as a datum's fields. -/
def TextLabel.data (t : TextLabel) : List Datum :=
  [.text t.text, .record [.real t.center.x, .real t.center.y], .ofOption Rgb.datum t.ownFill]

/-- The label that fields hold. -/
def TextLabel.ofData? : List Datum → Option TextLabel
  | [.text s, .record [.real x, .real y], fill] => do
    return ⟨s, ⟨x, y⟩, ← unlessAbsent fill (Rgb.ofDatum? fill)⟩
  | _ => none

namespace Element

mutual

/-- The element as a datum. -/
def datum : Element → Datum
  | ⟨id, style, frame, layer⟩ => .record [.text id, style.datum, frame.datum, layerDatum layer]

/-- A layer as a datum. -/
def layerDatum : Layer Element → Datum
  | .shape kind => .tagged "shape" [.choice kind.name]
  | .text label => .tagged "text" label.data
  | .button ⟨title, color, shape, label⟩ =>
    .tagged "button" [.text title, .ofOption Rgb.datum color, optionDatum shape, datum label]
  | .group ⟨header, cells, names, bound, separator, separate⟩ =>
    .tagged "section"
      [optionDatum header, .list (listData cells), namesDatum names, datum bound,
        realsDatum separator, .flag separate]
  | .list ⟨kind, scroll, sections, separator, names, bound⟩ =>
    .tagged "collection"
      [.choice kind.name, .ofOption (fun d => .choice d.name) scroll, .list (listData sections),
        realsDatum separator, namesDatum names, optionDatum bound]
  | .slider ⟨options, content, bound⟩ =>
    .tagged "slider" [datum options, datum content, optionDatum bound]
  | .container ⟨role, children⟩ =>
    .tagged "container" [.choice role.name, .list (listData children)]

/-- An element that may be absent as a datum. -/
def optionDatum : Option Element → Datum
  | none => .absent
  | some e => datum e

/-- Elements as data. -/
def listData : List Element → List Datum
  | [] => []
  | e :: es => datum e :: listData es

end

mutual

/-- The element that a datum holds. -/
def ofDatum? : Datum → Option Element
  | .record [.text id, style, frame, layer] => do
    return ⟨id, ← Style.ofDatum? style, ← Frame.ofDatum? frame, ← layerOfDatum? layer⟩
  | _ => none

/-- The layer that a datum holds. -/
def layerOfDatum? : Datum → Option (Layer Element)
  | .tagged "shape" [kind] => (named? ShapeKind.all ShapeKind.name kind).map .shape
  | .tagged "text" values => (TextLabel.ofData? values).map .text
  | .tagged "button" [.text title, color, shape, label] => do
    return .button
      { title
        titleColor := ← unlessAbsent color (Rgb.ofDatum? color)
        frameShape := ← unlessAbsent shape (ofDatum? shape)
        label := ← ofDatum? label }
  | .tagged "section" [header, .list cells, names, bound, separator, .flag separate] => do
    return .group
      { header := ← unlessAbsent header (ofDatum? header)
        cells := ← listOfData? cells
        customCells := ← names? names
        bound := ← ofDatum? bound
        separator := ← reals? separator
        tableSeparate := separate }
  | .tagged "collection" [kind, scroll, .list sections, separator, names, bound] => do
    return .list
      { kind := ← named? ListKind.all ListKind.name kind
        scroll := ← unlessAbsent scroll (named? ScrollDirection.all ScrollDirection.name scroll)
        sections := ← listOfData? sections
        separator := ← reals? separator
        customHeaders := ← names? names
        bound := ← unlessAbsent bound (ofDatum? bound) }
  | .tagged "slider" [options, content, bound] => do
    return .slider
      { options := ← ofDatum? options
        content := ← ofDatum? content
        bound := ← unlessAbsent bound (ofDatum? bound) }
  | .tagged "container" [role, .list children] => do
    return .container
      { role := ← named? ContainerRole.all ContainerRole.name role
        children := ← listOfData? children }
  | _ => none

/-- The elements that data hold. -/
def listOfData? : List Datum → Option (List Element)
  | [] => some []
  | d :: ds => do
    let e ← ofDatum? d
    let es ← listOfData? ds
    return e :: es

end

end Element

/-- The anchor as a datum. -/
def Anchor.datum (a : Anchor Float) : Datum :=
  .record [.choice a.direction.name, .ofOption .text a.reference, .real a.distance]

/-- The anchor that a datum holds. -/
def Anchor.ofDatum? : Datum → Option (Anchor Float)
  | .record [direction, reference, .real distance] => do
    return ⟨← named? Direction.all Direction.name direction,
      ← unlessAbsent reference (text? reference), distance⟩
  | _ => none

/-- The layer as a datum. -/
def Placed.datum (p : PlacedLayer) : Datum :=
  .record
    [.text p.id, p.content.style.datum, p.frame.datum, p.pixelFrame.datum, p.vertical.datum,
      p.horizontal.datum, Element.layerDatum p.content.layer]

/-- The layer that a datum holds. -/
def Placed.ofDatum? : Datum → Option PlacedLayer
  | .record [.text id, style, frame, pixelFrame, vertical, horizontal, layer] => do
    return {
      id
      content := ⟨← Style.ofDatum? style, ← Element.layerOfDatum? layer⟩
      frame := ← Frame.ofDatum? frame
      pixelFrame := ← Frame.ofDatum? pixelFrame
      vertical := ← Anchor.ofDatum? vertical
      horizontal := ← Anchor.ofDatum? horizontal }
  | _ => none

/-- The canvas as a datum. -/
def Canvas.datum (c : Canvas) : Datum :=
  .record
    [.whole c.width.toNat, .whole c.height.toNat, c.background.datum, .text c.page, .text c.artboard]

/-- The canvas that a datum holds. -/
def Canvas.ofDatum? : Datum → Option Canvas
  | .record [.whole width, .whole height, background, .text page, .text artboard] => do
    return ⟨.ofNat width, .ofNat height, ← Rgb.ofDatum? background, page, artboard⟩
  | _ => none

/-- The screen as a datum. -/
def Screen.datum (s : Screen) : Datum := .record [s.canvas.datum, .list (s.layers.map Placed.datum)]

/-- The screen that a datum holds. -/
def Screen.ofDatum? : Datum → Option Screen
  | .record [canvas, .list layers] => do
    return ⟨← Canvas.ofDatum? canvas, ← layers.mapM Placed.ofDatum?⟩
  | _ => none

end CanvasLayout
