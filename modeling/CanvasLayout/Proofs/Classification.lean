import Mathlib
import CanvasLayout.Layer.Build
import CanvasLayout.Proofs.Outcome

/-!
# How elements are made from their parts

For each kind of element the part that a child plays, and the element that is made when the
children play their parts: `Button.build_eq_ok`, `Group.build_eq_ok`, `ListView.build_eq_ok` and
`Slider.build_eq_ok`. `Draft.build_relates` carries a relation between drafts and the elements they
make from the children of one draft to trees of any depth.
-/

namespace CanvasLayout

open Logged (bind_eq_ok)

/-- Log lines do not decide what follows them. -/
theorem Logged.outcome_notes_bind {β : Type} (lines : List Line) (f : Unit → Logged β) :
    (notes lines >>= f).outcome = (f ()).outcome := rfl

theorem Draft.outcome_childless_bind {d : Draft} {children : List Element} {e : Element} :
    (d.childless children >>= fun _ => pure e).outcome = .ok e := by
  unfold Draft.childless
  rw [Logged.outcome_notes_bind]
  rfl

/-- Only containers have a role. -/
theorem Layer.role?_eq_some {ε : Type} {l : Layer ε} {role : ContainerRole} :
    l.role? = some role ↔ ∃ c, l = .container c ∧ c.role = role := by
  cases l <;> simp [Layer.role?]

section Parts

variable {π : Type} [DecidableEq π] {part : Element → π} {slot : π} {children : List Element}
  {c : Element}

theorem of_find?_part (h : children.find? (part · = slot) = some c) :
    c ∈ children ∧ part c = slot :=
  ⟨List.mem_of_find?_eq_some h, by simpa using List.find?_some h⟩

theorem mem_filter_part : c ∈ children.filter (part · = slot) ↔ c ∈ children ∧ part c = slot := by
  simp

end Parts

namespace Group

/-- What a child is to a section. -/
inductive Part where
  | header
  | cell
  | bound
  | ignored
  deriving DecidableEq

/-- What a child is to a section: its role decides, and its name if it has neither role. -/
def part (c : Element) : Part :=
  match c.layer.role? with
  | some .header => .header
  | some .cell => .cell
  | _ => if Layer.isBoundName c.id then .bound else .ignored

theorem part_eq_header {c : Element} : part c = .header ↔ c.layer.role? = some .header := by
  unfold part
  split
  · simp_all
  · simp_all
  · split <;> simp_all

theorem part_eq_cell {c : Element} : part c = .cell ↔ c.layer.role? = some .cell := by
  unfold part
  split
  · simp_all
  · simp_all
  · split <;> simp_all

theorem part_eq_bound {c : Element} : part c = .bound ↔
    c.layer.role? ≠ some .header ∧ c.layer.role? ≠ some .cell ∧
      Layer.isBoundName c.id = true := by
  unfold part
  split <;> simp_all

variable {d : Draft} {children : List Element} {e : Element}

/-- What one more child changes. -/
theorem add_eq_ok {p q : Parts} {c : Element} (h : (Parts.add d p c).outcome = .ok q) :
    match part c with
    | .header => p.header = none ∧ q = { p with header := some c }
    | .cell => q = { p with cells := p.cells ++ [c] }
    | .bound => p.bound = none ∧ q = { p with bound := some c }
    | .ignored => q = p := by
  unfold Parts.add at h
  unfold part
  split at h
  · split at h
    · cases h
    · cases h
      simp_all
  · cases h
    simp_all
  · split at h
    · split at h
      · cases h
      · cases h
        simp_all
    · cases h
      simp_all

/-- The children collected into each slot. -/
theorem foldlM_add_eq_ok {p q : Parts} (h : (children.foldlM (Parts.add d) p).outcome = .ok q) :
    q.header = p.header.or (children.find? (part · = .header)) ∧
      q.cells = p.cells ++ children.filter (part · = .cell) ∧
      q.bound = p.bound.or (children.find? (part · = .bound)) := by
  refine ⟨Logged.foldlM_find? Parts.header (fun r c r' hr => ?_) h,
    Logged.foldlM_filter Parts.cells (fun r c r' hr => ?_) h,
    Logged.foldlM_find? Parts.bound (fun r c r' hr => ?_) h⟩
  · have step := add_eq_ok hr
    cases hc : part c <;> simp_all
  · have step := add_eq_ok hr
    cases hc : part c <;> simp_all
  · have step := add_eq_ok hr
    cases hc : part c <;> simp_all

/-- The section that is made: its cells are sorted, its header and bound are as drawn. -/
theorem build_eq_ok (h : (build d children).outcome = .ok e) :
    ∃ bound, children.find? (part · = .bound) = some bound ∧
      children.filter (part · = .cell) ≠ [] ∧
      e = d.element (.group
        { header := children.find? (part · = .header)
          cells := Element.topDown (children.filter (part · = .cell))
          customCells := cellNames (children.filter (part · = .cell))
          bound
          separator := []
          tableSeparate := false }) := by
  obtain ⟨p, hp, h⟩ := bind_eq_ok.1 h
  obtain ⟨header, cells, bound⟩ := foldlM_add_eq_ok hp
  rw [Option.none_or] at header bound
  rw [List.nil_append] at cells
  rw [← header, ← cells, ← bound]
  split at h
  · cases h
  · rename_i nonempty
    split at h
    · cases h
    · rename_i b hb
      exact ⟨b, hb, by simpa using nonempty, (Except.ok.inj h).symm⟩

end Group

namespace ListView

/-- What a child is to a list. -/
inductive Part where
  | group
  | bound
  | ignored
  deriving DecidableEq

/-- What a child is to a list: sections are taken by their kind, a bound by its name. -/
def part (c : Element) : Part :=
  if c.layer.group?.isSome then .group
  else if Layer.isBoundName c.id then .bound else .ignored

theorem part_eq_group {c : Element} : part c = .group ↔ c.layer.group?.isSome = true := by
  unfold part
  split
  · simp_all
  · split <;> simp_all

theorem part_eq_bound {c : Element} : part c = .bound ↔
    c.layer.group? = none ∧ Layer.isBoundName c.id = true := by
  unfold part
  split
  · simp_all [Option.isSome_iff_ne_none]
  · split <;> simp_all

variable {d : Draft} {kind : ListKind} {children : List Element} {e : Element}

/-- What one more child changes. -/
theorem add_eq_ok {p q : Parts} {c : Element} (h : (Parts.add d p c).outcome = .ok q) :
    match part c with
    | .group => q = { p with sections := p.sections ++ [c] }
    | .bound => p.bound = none ∧ q = { p with bound := some c }
    | .ignored => q = p := by
  unfold Parts.add at h
  unfold part
  split at h
  · cases h
    simp_all
  · split at h
    · split at h
      · cases h
      · cases h
        simp_all
    · cases h
      simp_all

/-- The children collected into each slot. -/
theorem foldlM_add_eq_ok {p q : Parts} (h : (children.foldlM (Parts.add d) p).outcome = .ok q) :
    q.sections = p.sections ++ children.filter (part · = .group) ∧
      q.bound = p.bound.or (children.find? (part · = .bound)) := by
  refine ⟨Logged.foldlM_filter Parts.sections (fun r c r' hr => ?_) h,
    Logged.foldlM_find? Parts.bound (fun r c r' hr => ?_) h⟩
  · have step := add_eq_ok hr
    cases hc : part c <;> simp_all
  · have step := add_eq_ok hr
    cases hc : part c <;> simp_all

/-- The list that is made: its sections are sorted and then given their spacing. -/
theorem build_eq_ok (h : (build d kind children).outcome = .ok e) :
    ∃ id scroll, identity kind d.id = .ok (id, scroll) ∧
      children.filter (part · = .group) ≠ [] ∧
      let sections := (Element.topDown (children.filter (part · = .group))).map (space kind)
      e = { d.element (.list
        { kind
          scroll
          sections
          separator := sectionSpacing sections
          customHeaders := headerNames sections
          bound := children.find? (part · = .bound) }) with id } := by
  obtain ⟨⟨id, scroll⟩, named, h⟩ := bind_eq_ok.1 h
  obtain ⟨p, hp, h⟩ := bind_eq_ok.1 h
  obtain ⟨sections, bound⟩ := foldlM_add_eq_ok hp
  rw [List.nil_append] at sections
  rw [Option.none_or] at bound
  rw [← sections, ← bound]
  split at h
  · cases h
  · rename_i nonempty
    exact ⟨id, scroll, named, by simpa using nonempty, (Except.ok.inj h).symm⟩

end ListView

namespace Slider

/-- What a child is to a slider. -/
inductive Part where
  | options
  | content
  | bound
  | ignored
  deriving DecidableEq

/-- What a child is to a slider: its role decides, and its name if it has neither role. -/
def part (c : Element) : Part :=
  match c.layer.role? with
  | some .sliderOptions => .options
  | some .sliderContent => .content
  | _ => if Layer.isBoundName c.id then .bound else .ignored

theorem part_eq_options {c : Element} :
    part c = .options ↔ c.layer.role? = some .sliderOptions := by
  unfold part
  split
  · simp_all
  · simp_all
  · split <;> simp_all

theorem part_eq_content {c : Element} :
    part c = .content ↔ c.layer.role? = some .sliderContent := by
  unfold part
  split
  · simp_all
  · simp_all
  · split <;> simp_all

variable {d : Draft} {children : List Element} {e : Element}

theorem fill_eq_ok {slot slot' : Option Element} {c : Element}
    (h : (fill d slot c).outcome = .ok slot') : slot = none ∧ slot' = some c := by
  unfold fill at h
  split at h
  · cases h
  · cases h
    simp_all

/-- What one more child changes. -/
theorem add_eq_ok {p q : Parts} {c : Element} (h : (Parts.add d p c).outcome = .ok q) :
    match part c with
    | .options => p.options = none ∧ q = { p with options := some c }
    | .content => p.content = none ∧ q = { p with content := some c }
    | .bound => p.bound = none ∧ q = { p with bound := some c }
    | .ignored => q = p := by
  unfold Parts.add at h
  unfold part
  split at h
  · obtain ⟨slot, hslot, h⟩ := bind_eq_ok.1 h
    obtain ⟨free, rfl⟩ := fill_eq_ok hslot
    cases h
    simp_all
  · obtain ⟨slot, hslot, h⟩ := bind_eq_ok.1 h
    obtain ⟨free, rfl⟩ := fill_eq_ok hslot
    cases h
    simp_all
  · split at h
    · obtain ⟨slot, hslot, h⟩ := bind_eq_ok.1 h
      obtain ⟨free, rfl⟩ := fill_eq_ok hslot
      cases h
      simp_all
    · cases h
      simp_all

/-- The children collected into each slot. -/
theorem foldlM_add_eq_ok {p q : Parts} (h : (children.foldlM (Parts.add d) p).outcome = .ok q) :
    q.options = p.options.or (children.find? (part · = .options)) ∧
      q.content = p.content.or (children.find? (part · = .content)) ∧
      q.bound = p.bound.or (children.find? (part · = .bound)) := by
  refine ⟨Logged.foldlM_find? Parts.options (fun r c r' hr => ?_) h,
    Logged.foldlM_find? Parts.content (fun r c r' hr => ?_) h,
    Logged.foldlM_find? Parts.bound (fun r c r' hr => ?_) h⟩
  · have step := add_eq_ok hr
    cases hc : part c <;> simp_all
  · have step := add_eq_ok hr
    cases hc : part c <;> simp_all
  · have step := add_eq_ok hr
    cases hc : part c <;> simp_all

/-- The slider that is made: options and bound are as drawn, the content is paged. -/
theorem build_eq_ok (h : (build d children).outcome = .ok e) :
    ∃ options content, children.find? (part · = .options) = some options ∧
      children.find? (part · = .content) = some content ∧
      e = d.element (.slider
        ⟨options, paged d.id content, children.find? (part · = .bound)⟩) := by
  obtain ⟨p, hp, h⟩ := bind_eq_ok.1 h
  obtain ⟨options, content, bound⟩ := foldlM_add_eq_ok hp
  rw [Option.none_or] at options content bound
  rw [← options, ← content, ← bound]
  split at h
  · cases h
  · cases h
  · rename_i o c ho hc
    exact ⟨o, c, ho, hc, (Except.ok.inj h).symm⟩

end Slider

namespace Button

variable {d : Draft} {children : List Element} {e : Element}

/-- The button that is made of its label and its background. -/
theorem build_eq_ok (h : (build d children).outcome = .ok e) :
    let parts := children.flatMap Element.parts
    ∃ label, parts.filter (·.kind = .text) = [label] ∧
      (parts.filter (·.kind = .shape)).length ≤ 1 ∧
      e = make d label (parts.filter (·.kind = .shape)).head? := by
  intro parts
  unfold build at h
  rw [Logged.outcome_notes_bind] at h
  dsimp only at h
  split at h
  · cases h
  · rename_i labels
    split at h
    · cases h
    · rename_i shapes
      split at h
      · cases h
      · rename_i label first
        obtain ⟨rest, hrest⟩ := List.head?_eq_some_iff.1 first
        have : rest = [] := by
          rw [hrest, List.length_cons] at labels
          exact List.length_eq_zero_iff.1 (by omega)
        subst this
        exact ⟨label, hrest, Nat.le_of_not_lt shapes, (Except.ok.inj h).symm⟩

end Button

/-- Classification leaves the frame of a draft alone. -/
theorem Prepared.frame_build {p : Prepared} {children : List Element} {e : Element}
    (h : (p.build children).outcome = .ok e) : e.frame = p.draft.frame := by
  unfold Prepared.build at h
  split at h
  · obtain rfl := Except.ok.inj (Draft.outcome_childless_bind.symm.trans h)
    rfl
  · obtain rfl := Except.ok.inj (Draft.outcome_childless_bind.symm.trans h)
    rfl
  · obtain ⟨label, -, -, rfl⟩ := Button.build_eq_ok h
    rfl
  · obtain ⟨bound, -, -, rfl⟩ := Group.build_eq_ok h
    rfl
  · obtain ⟨id, scroll, -, -, rfl⟩ := ListView.build_eq_ok h
    rfl
  · obtain ⟨options, content, -, -, rfl⟩ := Slider.build_eq_ok h
    rfl
  · cases h
    rfl

namespace Draft

/-- Preparation in its three steps, of which only the first looks at the parent. -/
theorem prepare_eq (d : Draft) (ancestor : Bag) (overrides : Overrides) :
    d.prepare ancestor overrides =
      (d.attributes.resolve d.id ancestor (overrides.get? d.id)).bind fun b =>
        d.declaredKind.bind fun declared =>
          (if declared = .text then d.ownFill overrides else .ok none).bind fun fill =>
            .ok ⟨{ d with attributes := b }, declared, fill⟩ := by
  unfold prepare resolve
  cases d.attributes.resolve d.id ancestor (overrides.get? d.id) with
  | error f => rfl
  | ok b =>
    show Except.bind d.declaredKind _ = Except.bind d.declaredKind _
    cases d.declaredKind with
    | error f => rfl
    | ok declared =>
      by_cases text : declared = .text
      · subst text
        rfl
      · simp only [Except.bind, if_neg text]
        rfl

theorem declaredKind_eq_ok {d : Draft} {declared : DeclaredKind} :
    d.declaredKind = .ok declared ↔ DeclaredKind.parse? d.kind = some declared := by
  unfold declaredKind
  split
  · rename_i known hk
    rw [hk, Except.ok.injEq, Option.some.injEq]
  · rename_i hk
    simp [hk]

/-- A draft that is prepared is of a known kind, and only its attributes are replaced. -/
theorem prepare_eq_ok {d : Draft} {ancestor : Bag} {overrides : Overrides} {p : Prepared}
    (h : d.prepare ancestor overrides = .ok p) :
    DeclaredKind.parse? d.kind = some p.declared ∧
      ∃ b, p.draft = { d with attributes := b } := by
  rw [prepare_eq] at h
  obtain ⟨b, -, h⟩ := Outcome.bind_eq_ok.1 h
  obtain ⟨declared, known, h⟩ := Outcome.bind_eq_ok.1 h
  obtain ⟨fill, -, h⟩ := Outcome.bind_eq_ok.1 h
  cases h
  exact ⟨declaredKind_eq_ok.1 known, b, rfl⟩

/-- Preparation leaves the frame of a draft alone. -/
theorem frame_prepare {d : Draft} {ancestor : Bag} {overrides : Overrides} {p : Prepared}
    (h : d.prepare ancestor overrides = .ok p) : p.draft.frame = d.frame := by
  obtain ⟨-, b, hb⟩ := prepare_eq_ok h
  rw [hb]

variable {overrides : Overrides}

mutual

/-- A relation that each draft and its element get from the drafts below and their elements holds of
trees. -/
theorem build_relates {R : Draft → Element → Prop}
    (step : ∀ (d : Draft) (ancestor : Bag) (p : Prepared) (children : List Element) (e : Element),
      d.prepare ancestor overrides = .ok p → List.Forall₂ R d.children children →
        (p.build children).outcome = .ok e → R d e) :
    ∀ (d : Draft) (ancestor : Bag) (e : Element),
      (d.build ancestor overrides).outcome = .ok e → R d e
  | ⟨id, kind, tag, frame, attributes, runs, children⟩, ancestor, e, h => by
    rw [build_eq] at h
    obtain ⟨p, hp, h⟩ := bind_eq_ok.1 h
    obtain ⟨built, hbuilt, h⟩ := bind_eq_ok.1 h
    exact step _ ancestor p built e hp (buildAll_relates step children attributes built hbuilt) h

/-- Trees and what they are built to are in any relation that each step of the build gives. -/
theorem buildAll_relates {R : Draft → Element → Prop}
    (step : ∀ (d : Draft) (ancestor : Bag) (p : Prepared) (children : List Element) (e : Element),
      d.prepare ancestor overrides = .ok p → List.Forall₂ R d.children children →
        (p.build children).outcome = .ok e → R d e) :
    ∀ (ds : List Draft) (ancestor : Bag) (es : List Element),
      (buildAll ds ancestor overrides).outcome = .ok es → List.Forall₂ R ds es
  | [], ancestor, es, h => by
    rw [buildAll] at h
    cases h
    exact .nil
  | d :: ds, ancestor, es, h => by
    rw [buildAll] at h
    obtain ⟨e, he, h⟩ := bind_eq_ok.1 h
    obtain ⟨rest, hrest, h⟩ := bind_eq_ok.1 h
    cases h
    exact .cons (build_relates step d ancestor e he) (buildAll_relates step ds ancestor rest hrest)

end

/-- A property of elements that each element gets from its children holds of built trees. -/
theorem build_keeps {P : Element → Prop}
    (step : ∀ (p : Prepared) (children : List Element) (e : Element),
      (∀ c ∈ children, P c) → (p.build children).outcome = .ok e → P e)
    (d : Draft) (ancestor : Bag) (e : Element)
    (h : (d.build ancestor overrides).outcome = .ok e) : P e := by
  apply build_relates (R := fun _ e => P e) _ d ancestor e h
  intro d ancestor p children e _ kept
  apply step p children e
  intro c hc
  obtain ⟨-, related⟩ := List.forall₂_iff_get.1 kept
  obtain ⟨i, hi, rfl⟩ := List.getElem_of_mem hc
  exact related i (by rw [kept.length_eq]; exact hi) hi

end Draft

end CanvasLayout
