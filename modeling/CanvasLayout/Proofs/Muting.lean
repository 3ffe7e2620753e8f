import CanvasLayout.Drawing.Screen
import CanvasLayout.Proofs.PartRules

/-!
# What does not depend on texts

An element is muted by leaving out the texts of labels and the titles of buttons, at any depth. The
part that a child plays does not depend on texts, so children that are the same when muted pass the
same checks and are made into elements that are the same when muted (`Prepared.build_muted`). Nor
does the place of a layer depend on what it shows: the screens of elements that are the same when
muted are the same when muted (`Screen.muted_ofElements`).
-/

namespace CanvasLayout

/-! ## Muted elements -/

/-- The layer without its text, and with the elements that it holds replaced. -/
def Layer.mute {ε δ : Type} (f : ε → δ) : Layer ε → Layer δ
  | .shape kind => .shape kind
  | .text label => .text { label with text := "" }
  | .button ⟨_, color, border, label⟩ => .button ⟨"", color, border.map f, f label⟩
  | .group ⟨header, cells, names, bound, separator, separate⟩ =>
    .group ⟨header.map f, cells.map f, names, f bound, separator, separate⟩
  | .list ⟨kind, scroll, sections, separator, names, bound⟩ =>
    .list ⟨kind, scroll, sections.map f, separator, names, bound.map f⟩
  | .slider ⟨options, content, bound⟩ => .slider ⟨f options, f content, bound.map f⟩
  | .container ⟨role, children⟩ => .container ⟨role, children.map f⟩

namespace Layer

variable {ε δ : Type} {f : ε → δ}

@[simp] theorem kind_mute (l : Layer ε) : (l.mute f).kind = l.kind := by
  cases l <;> rfl

@[simp] theorem role?_mute (l : Layer ε) : (l.mute f).role? = l.role? := by
  cases l <;> rfl

@[simp] theorem isSome_group?_mute (l : Layer ε) :
    (l.mute f).group?.isSome = l.group?.isSome := by
  cases l <;> rfl

/-- The fill of a label is no text and stays. -/
theorem ownFill_mute (l : Layer ε) :
    (l.mute f).label?.bind TextLabel.ownFill = l.label?.bind TextLabel.ownFill := by
  cases l <;> rfl

end Layer

mutual

/-- The element without the texts in it. -/
def Element.muted : Element → Element
  | ⟨id, style, frame, layer⟩ => ⟨id, style, frame, mutedLayer layer⟩

/-- A layer without the texts in it. -/
def mutedLayer : Layer Element → Layer Element
  | .shape kind => .shape kind
  | .text label => .text { label with text := "" }
  | .button ⟨_, color, border, label⟩ => .button ⟨"", color, mutedOption border, label.muted⟩
  | .group ⟨header, cells, names, bound, separator, separate⟩ =>
    .group ⟨mutedOption header, mutedAll cells, names, bound.muted, separator, separate⟩
  | .list ⟨kind, scroll, sections, separator, names, bound⟩ =>
    .list ⟨kind, scroll, mutedAll sections, separator, names, mutedOption bound⟩
  | .slider ⟨options, content, bound⟩ => .slider ⟨options.muted, content.muted, mutedOption bound⟩
  | .container ⟨role, children⟩ => .container ⟨role, mutedAll children⟩

/-- An element that may be absent, without the texts in it. -/
def mutedOption : Option Element → Option Element
  | none => none
  | some e => some e.muted

/-- Elements without the texts in them. -/
def mutedAll : List Element → List Element
  | [] => []
  | e :: es => e.muted :: mutedAll es

end

/-- The mutual recursion of muting, written as maps. -/
theorem mutedOption_eq (e : Option Element) : mutedOption e = e.map Element.muted := by
  cases e <;> rfl

theorem mutedAll_eq (es : List Element) : mutedAll es = es.map Element.muted := by
  induction es with
  | nil => rfl
  | cons e es ih => rw [mutedAll, ih, List.map_cons]

theorem mutedLayer_eq (l : Layer Element) : mutedLayer l = l.mute Element.muted := by
  cases l <;> simp [mutedLayer, Layer.mute, mutedOption_eq, mutedAll_eq]

namespace Element

/-- Muting an element mutes its layer and nothing else. -/
theorem muted_eq (e : Element) : e.muted = { e with layer := e.layer.mute muted } := by
  obtain ⟨id, style, frame, layer⟩ := e
  rw [muted, mutedLayer_eq]

@[simp] theorem id_muted (e : Element) : e.muted.id = e.id := by
  rw [muted_eq]

@[simp] theorem style_muted (e : Element) : e.muted.style = e.style := by
  rw [muted_eq]

@[simp] theorem frame_muted (e : Element) : e.muted.frame = e.frame := by
  rw [muted_eq]

@[simp] theorem layer_muted (e : Element) : e.muted.layer = e.layer.mute muted := by
  rw [muted_eq]

@[simp] theorem kind_muted (e : Element) : e.muted.kind = e.kind := by
  rw [kind, layer_muted, Layer.kind_mute, kind]

/-- The parts of a button are found by their kinds. -/
theorem parts_muted (e : Element) : e.muted.parts = e.parts.map muted := by
  induction e using induct with
  | step e ih =>
    cases role : e.layer.role? with
    | none => rw [parts_of_not_container role, parts_of_not_container (by simpa using role)]; rfl
    | some r =>
      obtain ⟨⟨r, children⟩, layer, -⟩ := Layer.role?_eq_some.1 role
      have mem : ∀ c ∈ children, c.muted.parts = c.parts.map muted := by
        intro c hc
        apply ih
        rw [Element.children, layer]
        exact hc
      have layer' : e.muted.layer = .container ⟨r, children.map muted⟩ := by
        rw [layer_muted, layer, Layer.mute]
      rw [parts_of_container layer, parts_of_container layer', List.flatMap_map, List.map_flatMap]
      exact List.flatMap_congr mem

/-- Sorting does not look at texts. -/
theorem map_topDown (es : List Element) : (topDown es).map muted = topDown (es.map muted) := by
  apply List.map_mergeSort
  intro a _ b _
  simp [notBelow]

variable {es es' : List Element} {p : Element → Bool}

/-- What is found without regard to texts is the same when muted. -/
theorem map_find?_muted (same : es.map muted = es'.map muted) (blind : ∀ e, p e.muted = p e) :
    (es.find? p).map muted = (es'.find? p).map muted := by
  have found := congrArg (List.find? p) same
  simpa only [List.find?_map, Function.comp_def, blind] using found

/-- Elements that agree but for texts are filtered alike by what does not look at texts. -/
theorem map_filter_muted (same : es.map muted = es'.map muted) (blind : ∀ e, p e.muted = p e) :
    (es.filter p).map muted = (es'.filter p).map muted := by
  have kept := congrArg (List.filter p) same
  simpa only [List.filter_map, Function.comp_def, blind] using kept

end Element

open Element (muted map_find?_muted map_filter_muted)

/-- Muting what a draft becomes is muting the layer it becomes. -/
theorem Draft.muted_element (d : Draft) (l : Layer Element) :
    (d.element l).muted = d.element (l.mute muted) :=
  Element.muted_eq _

/-! ## The checks on children -/

/-- Of a draft itself only its name is in the verdicts on its children. -/
theorem Draft.repeated_congr {π : Type} [DecidableEq π] {d d' : Draft} (named : d.id = d'.id)
    (part : Element → π) (rule : Element → Option StructuralRule) (before children : List Element) :
    d.repeated part rule before children = d'.repeated part rule before children := by
  induction children generalizing before with
  | nil => rfl
  | cons c cs ih => rw [repeated, repeated, named, ih]

/-- Which children repeat a part does not depend on texts, if neither parts nor rules do. -/
theorem Draft.repeated_muted {π : Type} [DecidableEq π] {d : Draft} {part : Element → π}
    {rule : Element → Option StructuralRule} (parts : ∀ c : Element, part c.muted = part c)
    (rules : ∀ c : Element, rule c.muted = rule c) (before children : List Element) :
    d.repeated part rule (before.map muted) (children.map muted) =
      d.repeated part rule before children := by
  induction children generalizing before with
  | nil => rfl
  | cons c cs ih =>
    have next := ih (before ++ [c])
    rw [List.map_append, List.map_singleton] at next
    rw [List.map_cons, repeated, repeated, next]
    simp only [List.any_map, Function.comp_def, parts, rules]

namespace Group

/-- What a child is to a section is told by its role and its name. -/
@[simp] theorem part_muted (c : Element) : part c.muted = part c := by
  simp [part]

theorem rule_muted (c : Element) : rule c.muted = rule c := by
  simp [rule]

/-- The checks on a section do not see texts. -/
theorem checks_muted (d : Draft) (children : List Element) :
    checks d (children.map muted) = checks d children := by
  unfold checks
  rw [← Draft.repeated_muted part_muted rule_muted [] children]
  simp [List.filter_map, List.find?_map, Function.comp_def]

end Group

namespace ListView

/-- What a child is to a list is told by its layer's variant and its name. -/
@[simp] theorem part_muted (c : Element) : part c.muted = part c := by
  simp [part]

theorem rule_muted (c : Element) : rule c.muted = rule c := by
  simp [rule]

/-- The checks on a list do not see texts. -/
theorem checks_muted (d : Draft) (kind : ListKind) (children : List Element) :
    checks d kind (children.map muted) = checks d kind children := by
  unfold checks
  rw [← Draft.repeated_muted part_muted rule_muted [] children]
  simp [List.filter_map, Function.comp_def]

end ListView

namespace Slider

/-- What a child is to a slider is told by its role and its name. -/
@[simp] theorem part_muted (c : Element) : part c.muted = part c := by
  simp [part]

theorem rule_muted (c : Element) : rule c.muted = rule c := by
  simp [rule]

/-- The checks on a slider do not see texts. -/
theorem checks_muted (d : Draft) (children : List Element) :
    checks d (children.map muted) = checks d children := by
  unfold checks
  rw [← Draft.repeated_muted part_muted rule_muted [] children]
  simp [List.find?_map]

end Slider

namespace Button

/-- The parts of a button are found in muted children as in others. -/
theorem flatMap_parts_muted (children : List Element) :
    (children.map muted).flatMap Element.parts = (children.flatMap Element.parts).map muted := by
  rw [List.flatMap_map, List.map_flatMap]
  exact List.flatMap_congr fun c _ => c.parts_muted

/-- The checks on a button do not see texts. -/
theorem checks_muted (d : Draft) (children : List Element) :
    checks d (children.map muted) = checks d children := by
  have count (k : LayerKind) (es : List Element) :
      ((es.map muted).filter (·.kind = k)).length = (es.filter (·.kind = k)).length := by
    simp [List.filter_map, Function.comp_def]
  unfold checks
  simp only [flatMap_parts_muted, count]

end Button

/-- Whatever is built, the checks on its children do not see texts. -/
theorem Prepared.checks_muted (p : Prepared) (children : List Element) :
    p.checks (children.map muted) = p.checks children := by
  unfold Prepared.checks
  cases p.declared with
  | shape => rfl
  | text => rfl
  | button => exact Button.checks_muted p.draft children
  | group => exact Group.checks_muted p.draft children
  | list kind => exact ListView.checks_muted p.draft kind children
  | slider => exact Slider.checks_muted p.draft children
  | container role => rfl

/-! ## What is built -/

namespace Group

variable {d : Draft} {children children' : List Element} {e e' : Element}

/-- Cells are named by their ids. -/
theorem cellNames_muted (cells : List Element) : cellNames (cells.map muted) = cellNames cells := by
  unfold cellNames
  simp [Function.comp_def]

/-- Sections of children that agree but for texts agree but for texts. -/
theorem build_muted (same : children.map muted = children'.map muted)
    (h : (build d children).outcome = .ok e) (h' : (build d children').outcome = .ok e') :
    e.muted = e'.muted := by
  obtain ⟨bound, hbound, -, rfl⟩ := build_eq_ok h
  obtain ⟨bound', hbound', -, rfl⟩ := build_eq_ok h'
  have header := map_find?_muted (p := (part · = .header)) same (by simp)
  have bounds := map_find?_muted (p := (part · = .bound)) same (by simp)
  have cells := map_filter_muted (p := (part · = .cell)) same (by simp)
  rw [hbound, hbound', Option.map_some, Option.map_some, Option.some.injEq] at bounds
  have names := congrArg cellNames cells
  rw [cellNames_muted, cellNames_muted] at names
  simp only [Draft.muted_element, Layer.mute, Element.map_topDown, header, bounds, cells, names]

end Group

namespace ListKind

/-- Spacing is told by frames. -/
theorem cellSpacing_muted (kind : ListKind) (cells : List Element) :
    kind.cellSpacing (cells.map muted) = kind.cellSpacing cells := by
  cases kind with
  | table =>
    rcases cells with _ | ⟨a, _ | ⟨b, rest⟩⟩ <;> simp [cellSpacing]
  | collection =>
    rcases cells with _ | ⟨a, _ | ⟨b, rest⟩⟩
    · rfl
    · rfl
    · have below : (((a :: b :: rest).map muted).find? fun c => Scalar.lt a.frame.y c.frame.y) =
          ((a :: b :: rest).find? fun c => Scalar.lt a.frame.y c.frame.y).map muted := by
        simp only [List.find?_map, Function.comp_def, Element.frame_muted]
      simp only [List.map_cons] at below
      simp [cellSpacing, below, Function.comp_def]

end ListKind

namespace ListView

variable {d : Draft} {kind : ListKind} {children children' : List Element} {e e' : Element}

/-- A section is given its spacing before or after it is muted. -/
theorem space_muted (kind : ListKind) (e : Element) :
    space kind e.muted = (space kind e).muted := by
  obtain ⟨id, style, frame, layer⟩ := e
  cases layer with
  | group g =>
    simp [space, Element.muted, mutedLayer, Group.spaced, mutedAll_eq, ListKind.cellSpacing_muted]
  | _ => rfl

/-- The spacing of sections and their texts have nothing to do with each other. -/
theorem map_space_muted (kind : ListKind) (es : List Element) :
    (es.map muted).map (space kind) = (es.map (space kind)).map muted := by
  rw [List.map_map, List.map_map]
  exact List.map_congr_left fun e _ => space_muted kind e

theorem sectionSpacing_muted (sections : List Element) :
    sectionSpacing (sections.map muted) = sectionSpacing sections := by
  rcases sections with _ | ⟨a, _ | ⟨b, rest⟩⟩ <;> simp [sectionSpacing]

/-- Headers are named by their ids. -/
theorem headerNames_muted (sections : List Element) :
    headerNames (sections.map muted) = headerNames sections := by
  have header (s : Element) : (s.muted.layer.group?.bind (·.header)) =
      (s.layer.group?.bind (·.header)).map muted := by
    rw [Element.layer_muted]
    cases s.layer <;> rfl
  unfold headerNames
  simp only [List.filterMap_map, Function.comp_def, header]
  rw [← List.map_filterMap]
  simp [Function.comp_def]

/-- Lists of children that agree but for texts agree but for texts. -/
theorem build_muted (same : children.map muted = children'.map muted)
    (h : (build d kind children).outcome = .ok e) (h' : (build d kind children').outcome = .ok e') :
    e.muted = e'.muted := by
  obtain ⟨id, scroll, named, -, rfl⟩ := build_eq_ok h
  obtain ⟨id', scroll', named', -, rfl⟩ := build_eq_ok h'
  obtain ⟨rfl, rfl⟩ := Prod.mk.inj (Except.ok.inj (named.symm.trans named'))
  have bound := map_find?_muted (p := (part · = .bound)) same (by simp)
  have groups := map_filter_muted (p := (part · = .group)) same (by simp)
  have sections := congrArg (fun es => (Element.topDown es).map (space kind)) groups
  simp only [← Element.map_topDown, map_space_muted] at sections
  have spacing := congrArg sectionSpacing sections
  rw [sectionSpacing_muted, sectionSpacing_muted] at spacing
  have names := congrArg headerNames sections
  rw [headerNames_muted, headerNames_muted] at names
  rw [Element.muted_eq, Element.muted_eq]
  simp only [Draft.element, Layer.mute, bound, sections, spacing, names]

end ListView

namespace Slider

variable {d : Draft} {children children' : List Element} {e e' : Element}

/-- What a muted container holds is what it held, muted. -/
theorem held_muted (e : Element) : held e.muted = (held e).map muted := by
  obtain ⟨id, style, frame, layer⟩ := e
  cases layer with
  | container c => exact mutedAll_eq c.children
  | _ => rfl

/-- Blocks that agree but for texts are wrapped into pages that do. -/
theorem muted_paged {content content' : Element} (id : String)
    (same : content.muted = content'.muted) : (paged id content).muted = (paged id content').muted := by
  have style := congrArg Element.style same
  have frame := congrArg Element.frame same
  have held := congrArg held same
  simp only [Element.style_muted, Element.frame_muted, held_muted] at style frame held
  simp [paged, Element.muted, mutedLayer, mutedAll_eq, mutedOption_eq, style, frame, held]

/-- Sliders of children that agree but for texts agree but for texts. -/
theorem build_muted (same : children.map muted = children'.map muted)
    (h : (build d children).outcome = .ok e) (h' : (build d children').outcome = .ok e') :
    e.muted = e'.muted := by
  obtain ⟨options, content, hoptions, hcontent, rfl⟩ := build_eq_ok h
  obtain ⟨options', content', hoptions', hcontent', rfl⟩ := build_eq_ok h'
  have strip := map_find?_muted (p := (part · = .options)) same (by simp)
  have pages := map_find?_muted (p := (part · = .content)) same (by simp)
  have bound := map_find?_muted (p := (part · = .bound)) same (by simp)
  rw [hoptions, hoptions', Option.map_some, Option.map_some, Option.some.injEq] at strip
  rw [hcontent, hcontent', Option.map_some, Option.map_some, Option.some.injEq] at pages
  simp only [Draft.muted_element, Layer.mute, strip, muted_paged d.id pages, bound]

end Slider

namespace Button

variable {d : Draft} {children children' : List Element} {e e' : Element}

/-- Buttons whose labels and shapes agree but for texts agree but for texts: the title is one of the
texts. -/
theorem muted_make {label label' : Element} {shape shape' : Option Element}
    (labels : label.muted = label'.muted) (shapes : shape.map muted = shape'.map muted) :
    (make d label shape).muted = (make d label' shape').muted := by
  have fill := congrArg (fun e => e.layer.label?.bind TextLabel.ownFill) labels
  simp only [Element.layer_muted, Layer.ownFill_mute] at fill
  have border : style (Style.ofBag d.attributes) shape = style (Style.ofBag d.attributes) shape' := by
    cases shape with
    | none => cases shape' with
      | none => rfl
      | some s' => cases shapes
    | some s => cases shape' with
      | none => cases shapes
      | some s' =>
        have drawn := congrArg Element.style (Option.some.inj shapes)
        rw [Element.style_muted, Element.style_muted] at drawn
        simp only [style, drawn]
  rw [Element.muted_eq, Element.muted_eq]
  simp only [make, Draft.element, Layer.mute, labels, shapes, fill, border]

/-- So do buttons that are built of children. -/
theorem build_muted (same : children.map muted = children'.map muted)
    (h : (build d children).outcome = .ok e) (h' : (build d children').outcome = .ok e') :
    e.muted = e'.muted := by
  obtain ⟨label, hlabel, -, rfl⟩ := build_eq_ok h
  obtain ⟨label', hlabel', -, rfl⟩ := build_eq_ok h'
  have parts := congrArg (List.flatMap Element.parts) same
  rw [flatMap_parts_muted, flatMap_parts_muted] at parts
  have labels := map_filter_muted (p := (·.kind = .text)) parts (by simp)
  rw [hlabel, hlabel'] at labels
  have shapes := congrArg List.head? (map_filter_muted (p := (·.kind = .shape)) parts (by simp))
  rw [List.head?_map, List.head?_map] at shapes
  exact muted_make (List.cons.inj labels).1 shapes

end Button

namespace Prepared

/-- The prepared draft with other character data. -/
def withRuns (p : Prepared) (runs : List String) : Prepared :=
  { p with draft := { p.draft with runs } }

variable {p : Prepared} {runs : List String} {children children' : List Element} {e e' : Element}

/-- Of the character data of a draft only its text is made. -/
theorem build_withRuns (h : (p.withRuns runs).draft.text = p.draft.text) (children : List Element) :
    (p.withRuns runs).build children = p.build children := by
  obtain ⟨d, declared, fill⟩ := p
  cases declared with
  | text =>
    unfold Prepared.build
    simp only [withRuns] at h ⊢
    rw [h]
    rfl
  | _ => rfl

/-- No check looks at the character data of a draft. -/
theorem checks_withRuns (p : Prepared) (runs : List String) (children : List Element) :
    (p.withRuns runs).checks children = p.checks children := by
  obtain ⟨d, declared, fill⟩ := p
  have repeated {π : Type} [DecidableEq π] (part : Element → π)
      (rule : Element → Option StructuralRule) :
      ({ d with runs } : Draft).repeated part rule [] children =
        d.repeated part rule [] children := by
    apply Draft.repeated_congr
    rfl
  cases declared with
  | group => exact congrArg (· ++ _) (repeated _ _)
  | list kind => exact congrArg (fun checks => (_ :: checks) ++ _) (repeated _ _)
  | slider => exact congrArg (· ++ _) (repeated _ _)
  | _ => rfl

/-- And the text is only the text of a label. -/
theorem build_muted_of_ok (same : children.map muted = children'.map muted)
    (h : (p.build children).outcome = .ok e)
    (h' : ((p.withRuns runs).build children').outcome = .ok e') : e.muted = e'.muted := by
  unfold Prepared.build at h h'
  have declared : (p.withRuns runs).declared = p.declared := rfl
  rw [declared] at h'
  cases hk : p.declared with
  | shape =>
    simp only [hk] at h h'
    obtain rfl := Except.ok.inj (Draft.outcome_childless_bind.symm.trans h)
    obtain rfl := Except.ok.inj (Draft.outcome_childless_bind.symm.trans h')
    rfl
  | text =>
    simp only [hk] at h h'
    obtain rfl := Except.ok.inj (Draft.outcome_childless_bind.symm.trans h)
    obtain rfl := Except.ok.inj (Draft.outcome_childless_bind.symm.trans h')
    rfl
  | button =>
    simp only [hk] at h h'
    exact Button.build_muted same h h'
  | group =>
    simp only [hk] at h h'
    exact Group.build_muted same h h'
  | list kind =>
    simp only [hk] at h h'
    exact ListView.build_muted same h h'
  | slider =>
    simp only [hk] at h h'
    exact Slider.build_muted same h h'
  | container role =>
    simp only [hk] at h h'
    cases h
    cases h'
    simp only [Draft.muted_element, Layer.mute, same]
    rfl

/-- Texts aside, what is made of a prepared draft, and why nothing is made, depends on its children
without their texts. -/
theorem build_muted (same : children.map muted = children'.map muted) :
    (p.build children).outcome.map muted = ((p.withRuns runs).build children').outcome.map muted := by
  have checks : (p.withRuns runs).checks children' = p.checks children := by
    rw [checks_withRuns, ← p.checks_muted children, same, checks_muted]
  have fault : ((p.withRuns runs).build children').outcome.fault? =
      (p.build children).outcome.fault? := by
    rw [fault?_build, fault?_build, checks]
  cases built : (p.build children).outcome with
  | error f =>
    rw [built, Outcome.fault?_error] at fault
    rw [Outcome.fault?_eq_some.1 fault]
  | ok e =>
    rw [built, Outcome.fault?_ok] at fault
    obtain ⟨e', built'⟩ := Outcome.fault?_eq_none.1 fault
    rw [built', Except.map, Except.map, build_muted_of_ok same built built']

end Prepared

/-! ## Where layers are placed -/

/-- The block with other content. -/
def Block.mapContent {α γ δ : Type} (f : γ → δ) (b : Block α γ) : Block α δ :=
  ⟨b.id, b.frame, f b.content⟩

/-- The placed block with other content. -/
def Placed.mapContent {α γ δ : Type} (f : γ → δ) (p : Placed α γ) : Placed α δ :=
  ⟨p.id, f p.content, p.frame, p.pixelFrame, p.vertical, p.horizontal⟩

namespace Block

variable {α γ δ : Type} [Scalar α] (f : γ → δ) (canvas : Extent α)

/-- The search for something to hang off looks at frames and names only. -/
theorem scan_mapContent (frame : PixelFrame α) (s : Supports α) (ps : List (Placed α γ)) :
    Supports.scan frame s (ps.map (Placed.mapContent f)) = Supports.scan frame s ps := by
  induction ps generalizing s with
  | nil => rfl
  | cons p ps ih =>
    rw [List.map_cons, Supports.scan, Supports.scan, ih]
    rfl

/-- So where a block is put does not depend on what it holds. -/
theorem place_mapContent (earlier : List (Placed α γ)) (b : Block α γ) :
    (b.mapContent f).place canvas (earlier.map (Placed.mapContent f)) =
      (b.place canvas earlier).mapContent f := by
  unfold place
  rw [show (b.mapContent f).frame = b.frame from rfl, scan_mapContent]
  rfl

/-- Neither does the place of any block of a list. -/
theorem placeAfter_mapContent (earlier : List (Placed α γ)) (bs : List (Block α γ)) :
    placeAfter canvas (earlier.map (Placed.mapContent f)) (bs.map (mapContent f)) =
      (placeAfter canvas earlier bs).map (Placed.mapContent f) := by
  induction bs generalizing earlier with
  | nil => rfl
  | cons b bs ih =>
    rw [List.map_cons, placeAfter, placeAfter, List.map_cons, place_mapContent, ← ih, List.map_cons]

/-- The place of a block does not depend on the contents of blocks. -/
theorem placeAll_mapContent (bs : List (Block α γ)) :
    placeAll canvas (bs.map (mapContent f)) = (placeAll canvas bs).map (Placed.mapContent f) := by
  have sorted : (bs.mergeSort reads).map (mapContent f) = (bs.map (mapContent f)).mergeSort reads :=
    List.map_mergeSort fun a _ b _ => rfl
  rw [placeAll, ← sorted]
  exact placeAfter_mapContent f canvas [] _

end Block

/-- The content without the texts in it. -/
def Content.muted (c : Content) : Content := { c with layer := c.layer.mute Element.muted }

/-- The screen without the texts in its layers. -/
def Screen.muted (s : Screen) : Screen :=
  { s with layers := s.layers.map (Placed.mapContent Content.muted) }

/-- An element without its texts is placed where the element is. -/
theorem Element.block_muted (e : Element) : e.muted.block = e.block.mapContent Content.muted := by
  rw [muted_eq]
  rfl

/-- The screen of muted elements is the muted screen. -/
theorem Screen.muted_ofElements (c : Canvas) (es : List Element) :
    (ofElements c es).muted = ofElements c (es.map Element.muted) := by
  have blocks : (es.map Element.muted).map Element.block =
      (es.map Element.block).map (Block.mapContent Content.muted) := by
    rw [List.map_map, List.map_map]
    exact List.map_congr_left fun e _ => e.block_muted
  unfold ofElements muted
  rw [blocks, Block.placeAll_mapContent]

end CanvasLayout
