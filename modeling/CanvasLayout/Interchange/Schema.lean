import CanvasLayout.Alignment
import CanvasLayout.Adjacency
import CanvasLayout.Json.Form
import CanvasLayout.Layer.Kind

/-!
# The interchange format of screens

The records a screen is written with and the names of their fields. Layers are told apart by
a member `type`, and an own fill is the one field that is left out when absent.
-/

namespace CanvasLayout.Interchange

open Json (Form)

/-- The records of the format. -/
inductive Record where
  | screen
  | canvas
  | color
  | node
  | style
  | frame
  | point
  | anchor
  | element
  | shape
  | label
  | button
  | group
  | list
  | slider
  | container
  deriving DecidableEq, Repr

/-- What holds a layer of any variant. -/
def layerForm : Form Record :=
  .tagged "type"
    [("shape", .shape), ("text", .label), ("button", .button), ("section", .group),
      ("collection", .list), ("slider", .slider), ("container", .container)]

/-- The fields of each record in the order in which they are written. -/
def fields : Record → List (Json.Field Record)
  | .screen => [⟨"canvas", .record .canvas, .required⟩, ⟨"layers", .list (.record .node), .required⟩]
  | .canvas =>
    [⟨"width", .whole UInt32.size, .required⟩,
      ⟨"height", .whole UInt32.size, .required⟩,
      ⟨"background", .record .color, .required⟩,
      ⟨"page", .text, .required⟩,
      ⟨"artboard", .text, .required⟩]
  | .color =>
    [⟨"r", .whole UInt8.size, .required⟩, ⟨"g", .whole UInt8.size, .required⟩, ⟨"b", .whole UInt8.size, .required⟩]
  | .node =>
    [⟨"id", .text, .required⟩,
      ⟨"style", .record .style, .required⟩,
      ⟨"frame", .record .frame, .required⟩,
      ⟨"pixel_frame", .record .frame, .required⟩,
      ⟨"vertical", .record .anchor, .required⟩,
      ⟨"horizontal", .record .anchor, .required⟩,
      ⟨"layer", layerForm, .required⟩]
  | .style =>
    [⟨"fill", .record .color, .nullable⟩,
      ⟨"stroke_color", .record .color, .nullable⟩,
      ⟨"stroke_width", .real, .nullable⟩,
      ⟨"opacity", .real, .nullable⟩,
      ⟨"font_family", .text, .nullable⟩,
      ⟨"font_size", .real, .nullable⟩,
      ⟨"text_align", .choice (Alignment.all.map Alignment.name), .nullable⟩,
      ⟨"border_radius", .real, .nullable⟩,
      ⟨"text_color", .record .color, .nullable⟩,
      ⟨"title_color", .record .color, .nullable⟩,
      ⟨"placeholder", .text, .nullable⟩]
  | .frame =>
    [⟨"x", .real, .required⟩,
      ⟨"y", .real, .required⟩,
      ⟨"width", .real, .required⟩,
      ⟨"height", .real, .required⟩]
  | .point => [⟨"x", .real, .required⟩, ⟨"y", .real, .required⟩]
  | .anchor =>
    [⟨"direction", .choice (Direction.all.map Direction.name), .required⟩,
      ⟨"reference", .text, .nullable⟩,
      ⟨"distance", .real, .required⟩]
  | .element =>
    [⟨"id", .text, .required⟩,
      ⟨"style", .record .style, .required⟩,
      ⟨"frame", .record .frame, .required⟩,
      ⟨"layer", layerForm, .required⟩]
  | .shape => [⟨"shape", .choice (ShapeKind.all.map ShapeKind.name), .required⟩]
  | .label =>
    [⟨"text", .text, .required⟩,
      ⟨"center", .record .point, .required⟩,
      ⟨"own_fill", .record .color, .optional⟩]
  | .button =>
    [⟨"title", .text, .required⟩,
      ⟨"title_color", .record .color, .nullable⟩,
      ⟨"frame_shape", .record .element, .nullable⟩,
      ⟨"label", .record .element, .required⟩]
  | .group =>
    [⟨"header", .record .element, .nullable⟩,
      ⟨"cells", .list (.record .element), .required⟩,
      ⟨"custom_cells", .dict .text, .required⟩,
      ⟨"bound", .record .element, .required⟩,
      ⟨"separator", .list .real, .required⟩,
      ⟨"table_separate", .flag, .required⟩]
  | .list =>
    [⟨"list", .choice (ListKind.all.map ListKind.name), .required⟩,
      ⟨"scroll_dir", .choice (ScrollDirection.all.map ScrollDirection.name), .nullable⟩,
      ⟨"sections", .list (.record .element), .required⟩,
      ⟨"separator", .list .real, .required⟩,
      ⟨"custom_headers", .dict .text, .required⟩,
      ⟨"bound", .record .element, .nullable⟩]
  | .slider =>
    [⟨"options", .record .element, .required⟩,
      ⟨"content", .record .element, .required⟩,
      ⟨"bound", .record .element, .nullable⟩]
  | .container =>
    [⟨"role", .choice (ContainerRole.all.map ContainerRole.name), .required⟩,
      ⟨"children", .list (.record .element), .required⟩]

end CanvasLayout.Interchange
