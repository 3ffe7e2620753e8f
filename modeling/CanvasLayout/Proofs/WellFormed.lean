import CanvasLayout.Proofs.Classification

/-!
# Well-formed elements

What layout code relies on in each kind of element: parts of the right kind in the right slots,
in order, and names that refer to parts that exist (`Layer.WellFormed`). Elements are put
together from finished ones, which are moved, sorted, rewritten by the list around them or
wrapped into pages; `Prepared.build_sound` shows that none of this breaks what held before, and
`Draft.build_wellFormed` that a built tree is well formed at every depth.
-/

namespace CanvasLayout

/-- The name has `bound` in it, in letters of either case. -/
def MarksBound (id : String) : Prop := "bound".toList <:+: id.toList.map Char.toLower

theorem marksBound_iff {id : String} : MarksBound id ↔ Layer.isBoundName id = true :=
  Text.occursIn_iff.symm

/-- The elements stand from top to bottom. -/
def TopDown (es : List Element) : Prop :=
  es.Pairwise fun a b => Scalar.rankLE a.frame.y b.frame.y

/-- A button has a label that carries its title and is drawn by a shape or not at all. -/
structure Button.WellFormed (style : Style) (b : Button Element) : Prop where
  label : ∃ t, b.label.layer = .text t ∧ b.title = t.text
  frameShape : ∀ s ∈ b.frameShape, ∃ k, s.layer = .shape k
  bare : b.frameShape = none →
    style.fill = none ∧ style.strokeColor = none ∧ style.strokeWidth = none

/-- A section has cells from top to bottom, its named cells among them, at most one header and
a bound that is neither. -/
structure Group.WellFormed (g : Group Element) : Prop where
  nonempty : g.cells ≠ []
  cells : ∀ c ∈ g.cells, c.layer.role? = some .cell
  sorted : TopDown g.cells
  header : ∀ h ∈ g.header, h.layer.role? = some .header
  boundName : MarksBound g.bound.id
  boundRole : g.bound.layer.role? ≠ some .cell ∧ g.bound.layer.role? ≠ some .header
  customCells : ∀ name id, g.customCells.get? name = some id → ∃ c ∈ g.cells, c.id = id

/-- A list has sections from top to bottom, tables do not scroll, and a bound is no section. -/
structure ListView.WellFormed (l : ListView Element) : Prop where
  nonempty : l.sections ≠ []
  sections : ∀ s ∈ l.sections, ∃ g, s.layer = .group g
  sorted : TopDown l.sections
  scroll : l.kind = .table → l.scroll = none
  bound : ∀ b ∈ l.bound, b.layer.group? = none ∧ MarksBound b.id

/-- A slider has a strip of options and pages in the one cell of a collection. -/
structure Slider.WellFormed (s : Slider Element) : Prop where
  options : s.options.layer.role? = some .sliderOptions
  content : ∃ l section_ g cell, s.content.layer = .list l ∧ l.kind = .collection ∧
    l.sections = [section_] ∧ section_.layer = .group g ∧ g.cells = [cell]

/-- The parts of an element with the given style and layer are what its kind calls for. -/
def Layer.WellFormed (style : Style) : Layer Element → Prop
  | .shape k => (shape k : Layer Element).children = []
  | .text t => (text t : Layer Element).children = []
  | .button b => b.WellFormed style
  | .group g => g.WellFormed
  | .list l => l.WellFormed
  | .slider s => s.WellFormed
  | .container _ => True

namespace Element

/-- The parts of the element are what its kind calls for. -/
def WellFormed (e : Element) : Prop := e.layer.WellFormed e.style

/-- The element and everything nested in it are well formed. -/
def Sound (e : Element) : Prop := ∀ x ∈ e.descendants, x.WellFormed

/-- An element is sound when it is well formed and its children are sound. -/
theorem sound_iff {e : Element} : e.Sound ↔ e.WellFormed ∧ ∀ c ∈ e.children, c.Sound := by
  unfold Sound
  rw [descendants_eq, List.forall_mem_cons]
  simp only [List.mem_flatMap]
  constructor
  · rintro ⟨own, nested⟩
    exact ⟨own, fun c hc x hx => nested x ⟨c, hc, hx⟩⟩
  · rintro ⟨own, nested⟩
    exact ⟨own, fun x ⟨c, hc, hx⟩ => nested c hc x hx⟩

/-- The parts found inside containers are as sound as the element they are found in. -/
theorem Sound.of_mem_parts {e x : Element} (he : e.Sound) (hx : x ∈ e.parts) : x.Sound := by
  induction e using induct with
  | step e ih =>
    cases role : e.layer.role? with
    | none =>
      rw [parts_of_not_container role, List.mem_singleton] at hx
      exact hx ▸ he
    | some r =>
      obtain ⟨c, hc, -⟩ := Layer.role?_eq_some.1 role
      rw [parts_of_container hc, List.mem_flatMap] at hx
      obtain ⟨y, hy, hx⟩ := hx
      have child : y ∈ e.children := by
        rw [children, hc]
        exact hy
      exact ih y child ((sound_iff.1 he).2 y child) hx

end Element

variable {d : Draft} {children : List Element} {e : Element}

namespace Button

/-- A button is well formed with any label and any background shape. -/
theorem wellFormed_make (d : Draft) {label : Element} {frameShape : Option Element}
    (hlabel : label.kind = .text) (hshape : ∀ s ∈ frameShape, s.kind = .shape) :
    (make d label frameShape).WellFormed := by
  obtain ⟨t, ht⟩ : ∃ t, label.layer = .text t := by
    cases hl : label.layer <;> simp_all [Element.kind, Layer.kind]
  refine ⟨⟨t, ht, by rw [ht]; rfl⟩, fun s hs => ?_, fun bare => ?_⟩
  · have := hshape s hs
    cases hl : s.layer <;> simp_all [Element.kind, Layer.kind]
  · obtain rfl : frameShape = none := bare
    exact ⟨rfl, rfl, rfl⟩

theorem build_sound (sound : ∀ c ∈ children, c.Sound) (h : (build d children).outcome = .ok e) :
    e.Sound := by
  obtain ⟨label, hlabel, -, rfl⟩ := build_eq_ok h
  have parts {x : Element} (hx : x ∈ children.flatMap Element.parts) : x.Sound := by
    obtain ⟨c, hc, hx⟩ := List.mem_flatMap.1 hx
    exact (sound c hc).of_mem_parts hx
  have labels : label ∈ (children.flatMap Element.parts).filter (·.kind = .text) := by
    rw [hlabel]
    exact List.mem_singleton_self label
  obtain ⟨memLabel, kindLabel⟩ := List.mem_filter.1 labels
  have shapes {s : Element}
      (hs : s ∈ ((children.flatMap Element.parts).filter (·.kind = .shape)).head?) :
      s ∈ children.flatMap Element.parts ∧ s.kind = .shape := by
    have := List.mem_filter.1 (List.mem_of_mem_head? hs)
    exact ⟨this.1, by simpa using this.2⟩
  apply Element.sound_iff.2
  constructor
  · exact wellFormed_make d (by simpa using kindLabel) fun s hs => (shapes hs).2
  · intro c hc
    rcases List.mem_append.1 hc with hc | hc
    · exact parts (shapes (Option.mem_toList.1 hc)).1
    · rw [List.mem_singleton.1 hc]
      exact parts memLabel

end Button

namespace Group

/-- A section of parts that were sorted out by their slots is well formed. -/
theorem wellFormed_sorted {header : Option Element} {cells : List Element} {bound : Element}
    (nonempty : cells ≠ []) (hcells : ∀ c ∈ cells, part c = .cell)
    (hheader : ∀ h ∈ header, part h = .header) (hbound : part bound = .bound) :
    WellFormed
      { header, cells := Element.topDown cells, customCells := cellNames cells, bound,
        separator := [], tableSeparate := false } where
  nonempty := by
    obtain ⟨c, hc⟩ := List.exists_mem_of_ne_nil cells nonempty
    exact List.ne_nil_of_mem (Element.mem_topDown.2 hc)
  cells c hc := part_eq_cell.1 (hcells c (Element.mem_topDown.1 hc))
  sorted := Element.pairwise_topDown cells
  header h hh := part_eq_header.1 (hheader h hh)
  boundName := marksBound_iff.2 (part_eq_bound.1 hbound).2.2
  boundRole := ⟨(part_eq_bound.1 hbound).2.1, (part_eq_bound.1 hbound).1⟩
  customCells name id h := by
    rw [cellNames, NameMap.get?_firstOf] at h
    obtain ⟨c, hc, named⟩ := List.mem_map.1 (NameMap.mem_of_lookup h)
    exact ⟨c, Element.mem_topDown.2 hc, (Prod.mk.inj named).2⟩

theorem build_sound (sound : ∀ c ∈ children, c.Sound) (h : (build d children).outcome = .ok e) :
    e.Sound := by
  obtain ⟨bound, hbound, nonempty, rfl⟩ := build_eq_ok h
  have header : ∀ h ∈ children.find? (part · = .header), part h = .header := by
    intro h hh
    exact (of_find?_part hh).2
  have cells : ∀ c ∈ children.filter (part · = .cell), part c = .cell := by
    intro c hc
    exact (mem_filter_part.1 hc).2
  apply Element.sound_iff.2
  constructor
  · exact wellFormed_sorted nonempty cells header (of_find?_part hbound).2
  · intro c hc
    apply sound
    rcases List.mem_append.1 hc with hc | hc
    · rcases List.mem_append.1 hc with hc | hc
      · exact (of_find?_part (Option.mem_toList.1 hc)).1
      · exact (mem_filter_part.1 (Element.mem_topDown.1 hc)).1
    · rw [List.mem_singleton.1 hc]
      exact (of_find?_part hbound).1

end Group

namespace ListView

/-- Spacing touches nothing of a section but its gaps and whether its cells stand apart. -/
theorem space_of_group {kind : ListKind} {s : Element} {g : Group Element}
    (h : s.layer = .group g) : space kind s = { s with layer := .group (g.spaced kind) } := by
  unfold space
  rw [h]

@[simp] theorem frame_space (kind : ListKind) (s : Element) : (space kind s).frame = s.frame := by
  unfold space
  split <;> rfl

/-- The spacing that a list writes into a section leaves the section's parts as they are. -/
theorem sound_space {s : Element} (kind : ListKind) (hs : s.Sound) : (space kind s).Sound := by
  cases hl : s.layer with
  | group g =>
    obtain ⟨own, nested⟩ := Element.sound_iff.1 hs
    rw [Element.WellFormed, hl] at own
    rw [Element.children, hl] at nested
    rw [space_of_group hl]
    exact Element.sound_iff.2 ⟨⟨own.nonempty, own.cells, own.sorted, own.header, own.boundName,
      own.boundRole, own.customCells⟩, nested⟩
  | _ =>
    rw [space, hl]
    exact hs

theorem identity_table {id id' : String} {scroll : Option ScrollDirection}
    (h : identity .table id = .ok (id', scroll)) : scroll = none := by
  cases h
  rfl

/-- A list of parts that were sorted out by their slots is well formed. -/
theorem wellFormed_sorted {kind : ListKind} {id id' : String} {scroll : Option ScrollDirection}
    {sections : List Element} {bound : Option Element} (nonempty : sections ≠ [])
    (named : identity kind id = .ok (id', scroll)) (hsections : ∀ s ∈ sections, part s = .group)
    (hbound : ∀ b ∈ bound, part b = .bound) (separator : List Float)
    (customHeaders : NameMap String) :
    WellFormed
      { kind, scroll, sections := (Element.topDown sections).map (space kind), separator,
        customHeaders, bound } where
  nonempty := by
    obtain ⟨s, hs⟩ := List.exists_mem_of_ne_nil sections nonempty
    exact List.ne_nil_of_mem (List.mem_map_of_mem (Element.mem_topDown.2 hs))
  sections s hs := by
    obtain ⟨t, ht, rfl⟩ := List.mem_map.1 hs
    have := part_eq_group.1 (hsections t (Element.mem_topDown.1 ht))
    obtain ⟨g, hg⟩ : ∃ g, t.layer = .group g := by
      cases hl : t.layer <;> simp_all [Layer.group?]
    exact ⟨g.spaced kind, by rw [space_of_group hg]⟩
  sorted := by
    rw [TopDown, List.pairwise_map]
    simpa using Element.pairwise_topDown sections
  scroll := by
    rintro rfl
    exact identity_table named
  bound b hb :=
    have := part_eq_bound.1 (hbound b hb)
    ⟨this.1, marksBound_iff.2 this.2⟩

/-- A list built from sound children is sound, its sections after they are spaced too. -/
theorem build_sound {kind : ListKind} (sound : ∀ c ∈ children, c.Sound)
    (h : (build d kind children).outcome = .ok e) : e.Sound := by
  obtain ⟨id, scroll, named, nonempty, rfl⟩ := build_eq_ok h
  have sections : ∀ s ∈ children.filter (part · = .group), part s = .group := by
    intro s hs
    exact (mem_filter_part.1 hs).2
  have bound : ∀ b ∈ children.find? (part · = .bound), part b = .bound := by
    intro b hb
    exact (of_find?_part hb).2
  apply Element.sound_iff.2
  constructor
  · exact wellFormed_sorted nonempty named sections bound _ _
  · intro c hc
    rcases List.mem_append.1 hc with hc | hc
    · obtain ⟨s, hs, rfl⟩ := List.mem_map.1 hc
      have drawn : s ∈ children := (mem_filter_part.1 (Element.mem_topDown.1 hs)).1
      exact sound_space kind (sound s drawn)
    · exact sound c (of_find?_part (Option.mem_toList.1 hc)).1

end ListView

namespace Slider

/-- What is held in one part of an element is among its children. -/
theorem mem_children_of_mem_held {e x : Element} (h : x ∈ held e) : x ∈ e.children := by
  unfold held at h
  split at h
  · rename_i c hc
    rw [Element.children, hc]
    exact h
  · cases h

/-- The section that holds the pages of a slider. -/
theorem wellFormed_pages (name id list : String) (style : Style) (frame : PixelFrame Float)
    (pages : List Element) :
    Group.WellFormed
      { header := none
        cells := [⟨id, style, frame, .container ⟨.cell, pages⟩⟩]
        customCells := NameMap.firstOf [(name, id)]
        bound := ⟨list ++ "Bound", {}, frame, .shape .rect⟩
        separator := [0]
        tableSeparate := false } where
  nonempty := List.cons_ne_nil _ _
  cells c hc := by
    rw [List.mem_singleton.1 hc]
    rfl
  sorted := List.pairwise_singleton _ _
  header := nofun
  boundName := by
    refine ⟨list.toList.map Char.toLower, [], ?_⟩
    rw [String.toList_append, List.map_append, List.append_nil]
    rfl
  boundRole := ⟨nofun, nofun⟩
  customCells n i h := by
    rw [NameMap.get?_firstOf] at h
    have := List.mem_singleton.1 (NameMap.mem_of_lookup h)
    exact ⟨_, List.mem_singleton_self _, (Prod.mk.inj this).2.symm⟩

/-- Wrapping a block into pages keeps what it holds and adds well-formed layers around it. -/
theorem sound_paged (id : String) {content : Element} (h : content.Sound) :
    (paged id content).Sound := by
  have pages : ∀ c ∈ held content, c.Sound := by
    intro c hc
    exact (Element.sound_iff.1 h).2 c (mem_children_of_mem_held hc)
  -- from the inside out: the cell around the pages, the section around the cell, the list
  have cell (name : String) :
      (⟨name, content.style, content.frame, .container ⟨.cell, held content⟩⟩ : Element).Sound :=
    Element.sound_iff.2 ⟨trivial, pages⟩
  have bound (name : String) : (⟨name, {}, content.frame, .shape .rect⟩ : Element).Sound :=
    Element.sound_iff.2 ⟨rfl, nofun⟩
  apply Element.sound_iff.2
  constructor
  · refine ⟨List.cons_ne_nil _ _, ?_, List.pairwise_singleton _ _, nofun, nofun⟩
    intro s hs
    rw [List.mem_singleton.1 hs]
    exact ⟨_, rfl⟩
  · intro s hs
    rw [List.mem_singleton.1 hs]
    apply Element.sound_iff.2
    constructor
    · exact wellFormed_pages _ _ _ _ _ _
    · intro c hc
      rcases List.mem_cons.1 hc with rfl | hc
      · exact cell _
      · rw [List.mem_singleton.1 hc]
        exact bound _

/-- A slider built from sound children is sound: its wrappers are well formed, and what they hold
was sound before. -/
theorem build_sound (sound : ∀ c ∈ children, c.Sound) (h : (build d children).outcome = .ok e) :
    e.Sound := by
  obtain ⟨options, content, hoptions, hcontent, rfl⟩ := build_eq_ok h
  have wellFormed : WellFormed
      ⟨options, paged d.id content, children.find? (part · = .bound)⟩ :=
    ⟨part_eq_options.1 (of_find?_part hoptions).2, _, _, _, _, rfl, rfl, rfl, rfl, rfl⟩
  apply Element.sound_iff.2
  constructor
  · exact wellFormed
  · intro c hc
    rcases List.mem_append.1 hc with hc | hc
    · rcases List.mem_cons.1 hc with rfl | hc
      · exact sound c (of_find?_part hoptions).1
      · rw [List.mem_singleton.1 hc]
        exact sound_paged d.id (sound content (of_find?_part hcontent).1)
    · exact sound c (of_find?_part (Option.mem_toList.1 hc)).1

end Slider

/-- An element made of sound children is sound, whatever its kind. -/
theorem Prepared.build_sound (p : Prepared) (children : List Element) (e : Element)
    (sound : ∀ c ∈ children, c.Sound) (h : (p.build children).outcome = .ok e) : e.Sound := by
  unfold Prepared.build at h
  split at h
  · obtain rfl := Except.ok.inj (Draft.outcome_childless_bind.symm.trans h)
    exact Element.sound_iff.2 ⟨rfl, nofun⟩
  · obtain rfl := Except.ok.inj (Draft.outcome_childless_bind.symm.trans h)
    exact Element.sound_iff.2 ⟨rfl, nofun⟩
  · exact Button.build_sound sound h
  · exact Group.build_sound sound h
  · exact ListView.build_sound sound h
  · exact Slider.build_sound sound h
  · cases h
    exact Element.sound_iff.2 ⟨trivial, sound⟩

namespace Draft

/-- Every element of a built tree is well formed, at any depth. -/
theorem build_wellFormed {d : Draft} {ancestor : Bag} {overrides : Overrides} {e : Element}
    (h : (d.build ancestor overrides).outcome = .ok e) : ∀ x ∈ e.descendants, x.WellFormed :=
  build_keeps Prepared.build_sound d ancestor e h

/-- A node of the given kind, as wide as a screen of one column. -/
def row (kind id : String) (y : Float) (children : List Draft := []) : Draft where
  id := id
  kind := kind
  tag := "g"
  frame := ⟨0, y, 320, 40⟩
  attributes := .empty
  runs := ["Buy"]
  children := children

/-- A table with its cells drawn from the bottom up and a button in one of them, above a
slider. -/
def shop : Draft :=
  row "Container" "shop" 0 [
    row "UITableView" "goods" 0 [
      row "Section" "fruit" 0 [
        row "Header" "fruitHeader" 0,
        row "Cell" "pearCell" 80 [
          row "UIButton" "buy" 80 [
            row "g" "face" 80 [row "rect" "plate" 80],
            row "UILabel" "price" 80]],
        row "Cell" "appleCell" 40,
        row "rect" "fruitBOUND" 0]],
    row "SliderView" "tour" 120 [
      row "SliderOptions" "tabs" 120,
      row "SliderContent" "pages" 160 [row "UILabel" "welcome" 160]]]

/-- The table and the slider of the shop are well formed, and so is the button in one of its cells.
-/
theorem build_wellFormed_shop :
    ∃ e, (shop.build .empty .empty).outcome = .ok e ∧ e.children.map (·.id) = ["goods", "tour"] ∧
      ∀ x ∈ e.descendants, x.WellFormed := by
  have ids : (shop.build .empty .empty).outcome.toOption.map (fun e => e.children.map (·.id)) =
      some ["goods", "tour"] := by
    decide +kernel
  cases built : (shop.build .empty .empty).outcome with
  | error f =>
    rw [built] at ids
    cases ids
  | ok e =>
    rw [built] at ids
    exact ⟨e, rfl, Option.some.inj ids, build_wellFormed built⟩

end Draft

end CanvasLayout
