/-!
# Kinds of layers

What a node declares itself to be (`DeclaredKind`, read from its `type` attribute or its
tag) and what a finished layer is (`LayerKind`). The words for declared kinds are matched
exactly, case included.
-/

namespace CanvasLayout

/-- A geometric primitive. -/
inductive ShapeKind where
  | rect
  | circle
  | ellipse
  | line
  | path
  | polygon
  | polyline
  | image
  deriving DecidableEq, Repr

/-- Whether a list has one column or is a grid. -/
inductive ListKind where
  | table
  | collection
  deriving DecidableEq, Repr

/-- The direction in which a collection scrolls. -/
inductive ScrollDirection where
  | horizontal
  | vertical
  deriving DecidableEq, Repr

/-- What a container stands for in its parent. -/
inductive ContainerRole where
  | view
  | cell
  | header
  | sliderOptions
  | sliderContent
  deriving DecidableEq, Repr

/-- What a node declares itself to be. -/
inductive DeclaredKind where
  | shape
  | text
  | button
  | group
  | list (kind : ListKind)
  | slider
  | container (role : ContainerRole)
  deriving DecidableEq, Repr

/-- What a finished layer is. -/
inductive LayerKind where
  | shape
  | text
  | button
  | group
  | list
  | slider
  | container
  deriving DecidableEq, Repr

namespace ShapeKind

/-- All primitives. -/
def all : List ShapeKind := [rect, circle, ellipse, line, path, polygon, polyline, image]

/-- The primitive's name, which is also the tag that draws it. -/
def name : ShapeKind → String
  | rect => "rect"
  | circle => "circle"
  | ellipse => "ellipse"
  | line => "line"
  | path => "path"
  | polygon => "polygon"
  | polyline => "polyline"
  | image => "image"

/-- The primitive that a tag draws. -/
def ofTag? (tag : String) : Option ShapeKind := all.find? (·.name == tag)

end ShapeKind

namespace ListKind

/-- All kinds of lists. -/
def all : List ListKind := [table, collection]

/-- The name of a kind of list. -/
def name : ListKind → String
  | table => "table"
  | collection => "collection"

end ListKind

namespace ScrollDirection

/-- All scroll directions. -/
def all : List ScrollDirection := [horizontal, vertical]

/-- The direction's name. -/
def name : ScrollDirection → String
  | horizontal => "horizontal"
  | vertical => "vertical"

end ScrollDirection

namespace ContainerRole

/-- All roles. -/
def all : List ContainerRole := [view, cell, header, sliderOptions, sliderContent]

/-- The role's name. -/
def name : ContainerRole → String
  | view => "view"
  | cell => "cell"
  | header => "header"
  | sliderOptions => "slider_options"
  | sliderContent => "slider_content"

end ContainerRole

namespace DeclaredKind

/-- The kind that a word declares. -/
def parse? : String → Option DeclaredKind
  | "rect" | "circle" | "ellipse" | "line" | "path" | "polygon" | "polyline" | "image"
  | "Shape" | "UIImageView" => some shape
  | "text" | "Text" | "UILabel" => some text
  | "Button" | "UIButton" => some button
  | "Section" => some group
  | "UITableView" | "TableView" => some (list .table)
  | "UICollectionView" | "CollectionView" => some (list .collection)
  | "SliderView" => some slider
  | "g" | "UIView" | "Container" => some (container .view)
  | "Cell" => some (container .cell)
  | "Header" => some (container .header)
  | "SliderOptions" => some (container .sliderOptions)
  | "SliderContent" => some (container .sliderContent)
  | _ => none

end DeclaredKind

namespace LayerKind

/-- All kinds of layers in the order in which they are counted. -/
def all : List LayerKind := [shape, text, button, group, list, slider, container]

/-- The kind's name. -/
def name : LayerKind → String
  | shape => "PrimitiveShape"
  | text => "TextLabel"
  | button => "Button"
  | group => "Section"
  | list => "TableOrCollectionView"
  | slider => "SliderView"
  | container => "Container"

end LayerKind

end CanvasLayout
