import CanvasLayout.Proofs.NestedElements
import CanvasLayout.Proofs.Precedence
import CanvasLayout.Proofs.ScreenChecks
import CanvasLayout.Proofs.WellFormed

/-!
# Elements whose numbers stay in the range

Resolution multiplies opacities, and lists subtract frames from each other. With opacities between 0
and 1 and whole frames below `2 ^ 52` pixels what comes out is finite, so what is built of a modest
draft and of modest children is modest (`Prepared.build_within`). It stands one level above its
children; the pages of a slider are put two levels deeper.
-/

namespace CanvasLayout

open Binary64 (Has)

/-! ## Attributes -/

theorem AttributeValue.eq_number {v : AttributeValue} {x : Float} (h : v.number? = some x) :
    v = .number x := by
  cases v with
  | number y =>
    cases h
    rfl
  | _ => cases h

/-- The numbers of a style are taken from attributes of their kind; the fill opacity is not one of
them. -/
theorem Style.exists_key_of_mem_numbers {b : Bag} {x : Float} (h : x ∈ (ofBag b).numbers) :
    ∃ k : AttributeKey, k ≠ .fillOpacity ∧
      (b.get? k.name).bind AttributeValue.number? = some x := by
  simp only [numbers, List.mem_append, Option.mem_toList] at h
  rcases h with ((h | h) | h) | h
  · exact ⟨.strokeWidth, by decide, h⟩
  · exact ⟨.opacity, by decide, h⟩
  · exact ⟨.fontSize, by decide, h⟩
  · exact ⟨.borderRadius, by decide, h⟩

namespace Bag

/-- The number that a recognized attribute of a bag stands for, if it stands for one. -/
def number? (b : Bag) (k : AttributeKey) : Option Float :=
  (b.find? k).bind fun v => (k.convert v).toOption.bind AttributeValue.number?

/-- The numbers of a bag are finite, and its opacities lie between 0 and 1. -/
def IsModest (b : Bag) : Prop :=
  ∀ k, ∀ x ∈ b.number? k, x.isFinite ∧ (k = .opacity ∨ k = .fillOpacity → 0 ≤ x ∧ x ≤ 1)

instance (b : Bag) : Decidable b.IsModest :=
  inferInstanceAs (Decidable (∀ k, ∀ x ∈ b.number? k, x.isFinite ∧
    (k = .opacity ∨ k = .fillOpacity → 0 ≤ x ∧ x ≤ 1)))

variable {own ancestor b : Bag} {entry : Option Bag} {k : AttributeKey} {element : String}

/-- An attribute that is found stands for the number that it converts to. -/
theorem number?_of_find? {v : AttributeValue} {x : Float} (found : b.find? k = some v)
    (h : k.convert v = .ok (.number x)) : b.number? k = some x := by
  rw [number?, found, Option.bind_some, h]
  rfl

/-- A winning number is one of the node, of its parent or of the entry. -/
theorem number?_of_winner {x : Float} (h : k.convert (own.winner ancestor entry k) = .ok (.number x)) :
    own.number? k = some x ∨ ancestor.number? k = some x ∨ ∃ b ∈ entry, b.number? k = some x := by
  unfold winner at h
  cases first : own.find? k with
  | some v =>
    rw [first] at h
    exact .inl (number?_of_find? first h)
  | none =>
    cases second : ancestor.find? k with
    | some v =>
      rw [first, second] at h
      exact .inr (.inl (number?_of_find? second h))
    | none =>
      cases third : entry.bind (·.find? k) with
      | some v =>
        rw [first, second, third] at h
        obtain ⟨b, hb, found⟩ := Option.bind_eq_some_iff.1 third
        exact .inr (.inr ⟨b, hb, number?_of_find? found h⟩)
      | none =>
        rw [first, second, third] at h
        cases h

/-- An opacity is one of two, or the product of both. -/
theorem number_combinedOpacity {fill layer : Option Float} {x : Float}
    (h : (combinedOpacity fill layer).number? = some x) :
    layer = some x ∨ fill = some x ∨ ∃ y z, fill = some y ∧ layer = some z ∧ y * z = x := by
  cases fill <;> cases layer <;> cases h
  · exact .inl rfl
  · exact .inr (.inl rfl)
  · exact .inr (.inr ⟨_, _, rfl, rfl, rfl⟩)

section Modest

variable (modest : own.IsModest) (parent : ancestor.IsModest) (table : ∀ b ∈ entry, b.IsModest)

include modest parent table

/-- A number that wins over others is as modest as the bag that it comes from. -/
theorem modest_of_winner {x : Float} (h : k.convert (own.winner ancestor entry k) = .ok (.number x)) :
    x.isFinite ∧ (k = .opacity ∨ k = .fillOpacity → 0 ≤ x ∧ x ≤ 1) := by
  rcases number?_of_winner h with found | found | ⟨b, hb, found⟩
  · exact modest k x found
  · exact parent k x found
  · exact table b hb k x found

/-- The numbers of a style that modest bags are resolved to are finite, the opacity among them. -/
theorem isFinite_of_resolve (h : own.resolve element ancestor entry = .ok b) :
    ∀ x ∈ (Style.ofBag b).numbers, x.isFinite := by
  obtain ⟨v, hv, rfl⟩ := resolve_eq_ok.1 h
  have won {k : AttributeKey} {x : Float} (h : (v k).number? = some x) :
      x.isFinite ∧ (k = .opacity ∨ k = .fillOpacity → 0 ≤ x ∧ x ≤ 1) :=
    modest_of_winner modest parent table (AttributeValue.eq_number h ▸ hv k)
  intro x hx
  obtain ⟨k, reaches, hx⟩ := Style.exists_key_of_mem_numbers hx
  by_cases opacity : k = .opacity
  · subst opacity
    rw [get?_foldOpacity_opacity, get?_settle_name, get?_settle_name] at hx
    rcases number_combinedOpacity hx with layer | fill | ⟨y, z, fill, layer, rfl⟩
    · exact (won layer).1
    · exact (won fill).1
    · exact Binary64.isFinite_mul_of_le_one (won fill).1 ((won fill).2 (.inr rfl)) (won layer).1
        ((won layer).2 (.inl rfl))
  · rw [get?_foldOpacity_of_ne (mt AttributeKey.name_injective opacity)
      (mt AttributeKey.name_injective reaches), get?_settle_name] at hx
    exact (won hx).1

end Modest

end Bag

/-! ## Frames -/

namespace Frame

variable {f g : PixelFrame Float}

/-- The gap between two whole and small frames is finite. -/
theorem IsWhole.isFinite_spacing (wholeF : f.IsWhole) (wholeG : g.IsWhole) (smallF : f.IsSmall)
    (smallG : g.IsSmall) (a : Axis) : (f.spacing g a).isFinite := by
  obtain ⟨⟨x, hx⟩, ⟨w, hw⟩⟩ := wholeF a
  obtain ⟨⟨y, hy⟩, -⟩ := wholeG a
  exact Binary64.isFinite_sub_sub hy hx hw (lt_of_small hy (smallG a).1)
    (lt_of_small hx (smallF a).1) (lt_of_small hw (smallF a).2)

/-- So are the coordinates of the point where a label of the frame is positioned. -/
theorem IsWhole.isFinite_labelPoint (whole : f.IsWhole) (small : f.IsSmall) :
    (Draft.labelPoint f).x.isFinite ∧ (Draft.labelPoint f).y.isFinite := by
  have half (a : Axis) : ((f.start a + f.extent a) / 2).isFinite := by
    obtain ⟨⟨x, hx⟩, ⟨w, hw⟩⟩ := whole a
    have ltX := lt_of_small hx (small a).1
    have ltW := lt_of_small hw (small a).2
    exact Binary64.isFinite_half_add hx hw (by omega)
  exact ⟨half .horizontal, half .vertical⟩

theorem IsWhole.isFinite_numbers {s : Space} {f : Frame s Float} (whole : f.IsWhole) :
    ∀ x ∈ f.numbers, x.isFinite := by
  obtain ⟨⟨_, hx⟩, ⟨_, hw⟩⟩ := whole .horizontal
  obtain ⟨⟨_, hy⟩, ⟨_, hh⟩⟩ := whole .vertical
  simpa [numbers] using ⟨hx.isFinite, hy.isFinite, hw.isFinite, hh.isFinite⟩

end Frame

/-! ## Elements -/

/-- The frame of an element is whole and small, and its other numbers are finite. -/
structure Element.IsModest (e : Element) : Prop where
  whole : e.frame.IsWhole
  small : e.frame.IsSmall
  style : ∀ x ∈ e.style.numbers, x.isFinite
  layer : ∀ x ∈ e.layer.numbers, x.isFinite

namespace Element

theorem IsModest.isFinite_numbers {e : Element} (h : e.IsModest) : ∀ x ∈ e.numbers, x.isFinite :=
  List.forall_mem_append.2 ⟨List.forall_mem_append.2 ⟨h.style, h.whole.isFinite_numbers⟩, h.layer⟩

variable {P : Element → Prop} {n : Nat} {e x : Element}

theorem Within.own (h : e.Within P n) : P e := by
  cases n with
  | zero => exact h.elim
  | succ n => exact h.1

theorem Within.nested (h : e.Within P n) : ∀ c ∈ e.children, c.Within P n := by
  cases n with
  | zero => exact h.elim
  | succ n => exact fun c hc => (h.2 c hc).mono (by omega)

/-- What stands inside containers of an element has no more room than the element. -/
theorem Within.of_mem_parts (h : e.Within P n) (hx : x ∈ e.parts) : x.Within P n := by
  induction e using Element.induct with
  | step e ih =>
    cases role : e.layer.role? with
    | none =>
      rw [parts_of_not_container role, List.mem_singleton] at hx
      exact hx ▸ h
    | some r =>
      obtain ⟨c, hc, -⟩ := Layer.role?_eq_some.1 role
      rw [parts_of_container hc, List.mem_flatMap] at hx
      obtain ⟨y, hy, hx⟩ := hx
      have child : y ∈ e.children := by
        rw [children, hc]
        exact hy
      exact ih y child (h.nested y child) hx

end Element

/-- On how many levels an element of a kind stands above those that were drawn in it. -/
def DeclaredKind.levels : DeclaredKind → Nat
  | .slider => 3
  | _ => 1

variable {d : Draft} {children : List Element} {e : Element} {n : Nat}

namespace Draft

/-- The frame of a resolved draft is whole and small, and the numbers of its style are finite. -/
structure IsSettled (d : Draft) : Prop where
  whole : d.frame.IsWhole
  small : d.frame.IsSmall
  style : ∀ x ∈ (Style.ofBag d.attributes).numbers, x.isFinite

/-- A settled draft makes a modest element, if the numbers of its layer are finite. -/
theorem IsSettled.element (h : d.IsSettled) {l : Layer Element} (layer : ∀ x ∈ l.numbers, x.isFinite) :
    (d.element l).IsModest :=
  ⟨h.whole, h.small, h.style, layer⟩

end Draft

section Build

variable (settled : d.IsSettled) (inside : ∀ c ∈ children, c.Within Element.IsModest n)

include settled inside

namespace Button

theorem build_within (h : (build d children).outcome = .ok e) :
    e.Within Element.IsModest (n + 1) := by
  obtain ⟨label, labels, -, rfl⟩ := build_eq_ok h
  have parts {x : Element} (hx : x ∈ children.flatMap Element.parts) :
      x.Within Element.IsModest n := by
    obtain ⟨c, hc, hx⟩ := List.mem_flatMap.1 hx
    exact (inside c hc).of_mem_parts hx
  have shapes : ∀ s ∈ ((children.flatMap Element.parts).filter (·.kind = .shape)).head?,
      s.Within Element.IsModest n :=
    fun s hs => parts (List.mem_filter.1 (List.mem_of_mem_head? hs)).1
  generalize ((children.flatMap Element.parts).filter (·.kind = .shape)).head? = frameShape at shapes
  refine ⟨⟨settled.whole, settled.small, ?_, List.forall_mem_nil _⟩, ?_⟩
  · have own := settled.style
    simp only [Style.numbers, List.forall_mem_append, Option.mem_toList] at own ⊢
    cases frameShape with
    | none =>
      have unbordered : ∀ x : Float, none = some x → x.isFinite :=
        fun x h => absurd h.symm (Option.some_ne_none x)
      exact ⟨⟨⟨unbordered, own.1.1.2⟩, own.1.2⟩, own.2⟩
    | some shape =>
      have drawn := (shapes shape rfl).own.style
      simp only [Style.numbers, List.forall_mem_append, Option.mem_toList] at drawn
      refine ⟨⟨⟨fun x hx => ?_, own.1.1.2⟩, own.1.2⟩, fun x hx => ?_⟩
      · rcases Option.or_eq_some_iff.1 hx with hx | ⟨-, hx⟩
        · exact drawn.1.1.1 x hx
        · exact own.1.1.1 x hx
      · rcases Option.or_eq_some_iff.1 hx with hx | ⟨-, hx⟩
        · exact drawn.2 x hx
        · exact own.2 x hx
  · intro c hc
    rcases List.mem_append.1 hc with hc | hc
    · exact shapes c (Option.mem_toList.1 hc)
    · rw [List.mem_singleton.1 hc]
      have mem : label ∈ (children.flatMap Element.parts).filter (·.kind = .text) := by
        rw [labels]
        exact List.mem_singleton_self label
      exact parts (List.mem_filter.1 mem).1

end Button

namespace Group

/-- A section adds one level to its cells, its header and its bound. -/
theorem build_within (h : (build d children).outcome = .ok e) :
    e.Within Element.IsModest (n + 1) := by
  obtain ⟨bound, hbound, -, rfl⟩ := build_eq_ok h
  refine ⟨settled.element (List.forall_mem_nil _), fun c hc => ?_⟩
  rcases List.mem_append.1 hc with hc | hc
  · rcases List.mem_append.1 hc with hc | hc
    · exact inside c (of_find?_part (Option.mem_toList.1 hc)).1
    · exact inside c (mem_filter_part.1 (Element.mem_topDown.1 hc)).1
  · rw [List.mem_singleton.1 hc]
    exact inside bound (of_find?_part hbound).1

end Group

namespace ListView

omit settled inside in
/-- The spacing of modest cells is finite. -/
theorem isFinite_cellSpacing {kind : ListKind} {cells : List Element}
    (modest : ∀ c ∈ cells, c.IsModest) : ∀ x ∈ kind.cellSpacing cells, x.isFinite := by
  have spacing {a b : Element} (ha : a ∈ cells) (hb : b ∈ cells) (axis : Axis) :
      (a.frame.spacing b.frame axis).isFinite :=
    (modest a ha).whole.isFinite_spacing (modest b hb).whole (modest a ha).small
      (modest b hb).small axis
  unfold ListKind.cellSpacing
  split
  · simpa using spacing (by simp) (by simp) .vertical
  · rename_i a b rest
    rw [List.forall_mem_cons]
    refine ⟨spacing (by simp) (by simp) .horizontal, fun x hx => ?_⟩
    obtain ⟨c, hc, rfl⟩ := Option.map_eq_some_iff.1 (Option.mem_toList.1 hx)
    exact spacing (by simp) (List.mem_of_find?_eq_some hc) .vertical
  · exact List.forall_mem_nil _

omit settled inside in
theorem sectionSpacing_eq (es : List Element) :
    sectionSpacing es = ListKind.cellSpacing .table es := by
  rcases es with _ | ⟨a, _ | ⟨b, rest⟩⟩ <;> rfl

omit settled inside in
/-- A section has the room it had when it is given its spacing. -/
theorem within_space {s : Element} (kind : ListKind) (h : s.Within Element.IsModest n) :
    (space kind s).Within Element.IsModest n := by
  cases hl : s.layer with
  | group g =>
    cases n with
    | zero => exact h.elim
    | succ n =>
      obtain ⟨own, nested⟩ := h
      rw [Element.children, hl] at nested
      have cells : ∀ c ∈ g.cells, c.IsModest := fun c hc =>
        (nested c (List.mem_append_left _ (List.mem_append_right _ hc))).own
      rw [space_of_group hl]
      exact ⟨⟨own.whole, own.small, own.style, isFinite_cellSpacing cells⟩, nested⟩
  | _ =>
    rw [space, hl]
    exact h

/-- A list adds one level to its sections and its bound, with gaps that are finite. -/
theorem build_within {kind : ListKind} (h : (build d kind children).outcome = .ok e) :
    e.Within Element.IsModest (n + 1) := by
  obtain ⟨id, scroll, -, -, rfl⟩ := build_eq_ok h
  have spaced : ∀ s ∈ (Element.topDown (children.filter (part · = .group))).map (space kind),
      s.Within Element.IsModest n := by
    intro s hs
    obtain ⟨t, ht, rfl⟩ := List.mem_map.1 hs
    exact within_space kind (inside t (mem_filter_part.1 (Element.mem_topDown.1 ht)).1)
  refine ⟨⟨settled.whole, settled.small, settled.style, ?_⟩, fun c hc => ?_⟩
  · change ∀ x ∈ sectionSpacing _, x.isFinite
    rw [sectionSpacing_eq]
    exact isFinite_cellSpacing fun s hs => (spaced s hs).own
  · rcases List.mem_append.1 hc with hc | hc
    · exact spaced c hc
    · exact inside c (of_find?_part (Option.mem_toList.1 hc)).1

end ListView

namespace Slider

omit settled inside in
/-- The pages of a slider stand in a section of a list, two levels deeper than in their block. -/
theorem within_paged (id : String) {content : Element} (h : content.Within Element.IsModest n) :
    (paged id content).Within Element.IsModest (n + 2) := by
  have own := h.own
  have zero : ∀ x ∈ [(0 : Float)], x.isFinite := by
    rw [List.forall_mem_singleton]
    decide +kernel
  have bound (name : String) : (⟨name, {}, content.frame, .shape .rect⟩ : Element).Within
      Element.IsModest n := by
    cases n with
    | zero => exact h.elim
    | succ n =>
      exact ⟨⟨own.whole, own.small, List.forall_mem_nil _, List.forall_mem_nil _⟩,
        List.forall_mem_nil _⟩
  have cell (name : String) : (⟨name, content.style, content.frame,
      .container ⟨.cell, held content⟩⟩ : Element).Within Element.IsModest n := by
    cases n with
    | zero => exact h.elim
    | succ n =>
      refine ⟨⟨own.whole, own.small, own.style, List.forall_mem_nil _⟩, fun c hc => ?_⟩
      exact h.2 c (mem_children_of_mem_held hc)
  refine ⟨⟨own.whole, own.small, own.style, zero⟩, fun s hs => ?_⟩
  rw [List.mem_singleton.1 hs]
  refine ⟨⟨own.whole, own.small, List.forall_mem_nil _, zero⟩, fun c hc => ?_⟩
  rcases List.mem_cons.1 hc with rfl | hc
  · exact cell _
  · rw [List.mem_singleton.1 hc]
    exact bound _

/-- A slider adds three levels: its own and those of the section and the cell around its pages. -/
theorem build_within (h : (build d children).outcome = .ok e) :
    e.Within Element.IsModest (n + 3) := by
  obtain ⟨options, content, hoptions, hcontent, rfl⟩ := build_eq_ok h
  refine ⟨settled.element (List.forall_mem_nil _), fun c hc => ?_⟩
  rcases List.mem_append.1 hc with hc | hc
  · rcases List.mem_cons.1 hc with rfl | hc
    · exact (inside c (of_find?_part hoptions).1).mono (by omega)
    · rw [List.mem_singleton.1 hc]
      exact within_paged d.id (inside content (of_find?_part hcontent).1)
  · exact (inside c (of_find?_part (Option.mem_toList.1 hc)).1).mono (by omega)

end Slider

end Build

/-- What is built of a settled draft and of modest children is modest, whatever its kind. -/
theorem Prepared.build_within {p : Prepared} (settled : p.draft.IsSettled)
    (inside : ∀ c ∈ children, c.Within Element.IsModest n)
    (h : (p.build children).outcome = .ok e) :
    e.Within Element.IsModest (n + p.declared.levels) := by
  obtain ⟨d, declared, fill⟩ := p
  cases declared with
  | shape =>
    obtain rfl := Except.ok.inj (Draft.outcome_childless_bind.symm.trans h)
    exact ⟨settled.element (List.forall_mem_nil _), List.forall_mem_nil _⟩
  | text =>
    obtain rfl := Except.ok.inj (Draft.outcome_childless_bind.symm.trans h)
    obtain ⟨x, y⟩ := settled.whole.isFinite_labelPoint settled.small
    exact ⟨settled.element (by simpa [Layer.numbers] using ⟨x, y⟩), List.forall_mem_nil _⟩
  | button => exact Button.build_within settled inside h
  | group => exact Group.build_within settled inside h
  | list kind => exact ListView.build_within settled inside h
  | slider => exact Slider.build_within settled inside h
  | container role =>
    obtain rfl := Except.ok.inj h
    exact ⟨settled.element (List.forall_mem_nil _), inside⟩

section Placement

variable {c : Canvas} {es : List Element} (width : 0 < c.width.toNat) (height : 0 < c.height.toNat)
  (whole : ∀ e ∈ es, e.frame.IsWhole)
  (small : ∀ p ∈ (Screen.ofElements c es).layers, p.pixelFrame.IsSmall)

include width height whole small

/-- Placement gives layers on small whole frames finite numbers. -/
theorem Screen.isFinite_numbers :
    ∀ p ∈ (ofElements c es).layers, ∀ x ∈ p.numbers, x.isFinite := by
  intro p hp
  obtain ⟨i, hi⟩ := List.mem_iff_getElem?.1 hp
  have distance (a : Axis) : (p.anchor a).distance.isFinite := by
    obtain ⟨q, hq⟩ := has_distance width height whole small hi a
    exact hq.isFinite
  have frame : p.frame.isFinite = true := by
    rw [(Block.frame_placeAll hi).2]
    exact Frame.isFinite_normalize width height (isWhole_ofElements whole hi)
  rw [Frame.isFinite_iff] at frame
  obtain ⟨x, w⟩ := frame .horizontal
  obtain ⟨y, h⟩ := frame .vertical
  simpa [Placed.numbers, Frame.numbers] using
    ⟨x, y, w, h, distance .vertical, distance .horizontal⟩

end Placement

end CanvasLayout
