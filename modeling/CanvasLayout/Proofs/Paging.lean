import Mathlib
import CanvasLayout.Proofs.Assembly

/-!
# What sliders are put together from

A slider has a strip of options and a block of content among its children, one of each, and at most
one bound among the others. `Prepared.build_slider` tells when a slider is made, which rule ends it
otherwise, and what it is: the children that were found, and the pages of the block as they were
drawn, in the one cell of the one section of a collection.
-/

namespace CanvasLayout

/-- A map of one entry. -/
theorem NameMap.get?_firstOf_singleton {α : Type} (name : String) (a : α) (n : String) :
    (firstOf [(name, a)]).get? n = if n = name then some a else none := by
  rw [get?_firstOf]
  simp only [lookup, eq_comm]

namespace Slider

variable {d : Draft} {children : List Element}

/-- A bound is known by its name, unless it is one of the two blocks. -/
theorem part_eq_bound {c : Element} : part c = .bound ↔
    c.layer.role? ∉ [some .sliderOptions, some .sliderContent] ∧
      Layer.isBoundName c.id = true := by
  unfold part
  split <;> simp_all

/-- The strips among children. -/
theorem filter_part_options : children.filter (part · = .options) =
    children.filter (·.layer.role? = some .sliderOptions) := by
  simp only [part_eq_options]

/-- The blocks of content among children. -/
theorem filter_part_content : children.filter (part · = .content) =
    children.filter (·.layer.role? = some .sliderContent) := by
  simp only [part_eq_content]

/-- The bounds are those of the remaining children with the name of one. -/
theorem filter_part_bound : children.filter (part · = .bound) =
    (children.filter (·.layer.role? ∉ [some .sliderOptions, some .sliderContent])).filter
      (Layer.isBoundName ·.id) := by
  rw [List.filter_filter]
  simp only [part_eq_bound, Bool.decide_and, Bool.decide_eq_true, Bool.and_comm]

theorem isSome_rule_iff (c : Element) : (rule c).isSome ↔ part c ≠ .ignored := by
  unfold rule
  cases part c <;> simp

/-- At most one child takes each of the slots. -/
theorem unrepeated_iff : Draft.Unrepeated part rule children ↔
    (children.filter (part · = .options)).length ≤ 1 ∧
      (children.filter (part · = .content)).length ≤ 1 ∧
        (children.filter (part · = .bound)).length ≤ 1 := by
  rw [Draft.unrepeated_iff (· ≠ .ignored) isSome_rule_iff]
  constructor
  · intro single
    exact ⟨single .options (by simp), single .content (by simp), single .bound (by simp)⟩
  · rintro ⟨options, content, bound⟩ slot ruled
    cases slot with
    | options => exact options
    | content => exact content
    | bound => exact bound
    | ignored => exact absurd rfl ruled

/-- A slider is built from exactly one strip of options, exactly one content and at most one bound.
-/
theorem build_ok_iff : (∃ e, (build d children).outcome = .ok e) ↔
    (children.filter (part · = .options)).length = 1 ∧
      (children.filter (part · = .content)).length = 1 ∧
        (children.filter (part · = .bound)).length ≤ 1 := by
  rw [← Outcome.fault?_eq_none, fault?_build, checks, Outcome.firstFault_append,
    Option.or_eq_none_iff, Draft.firstFault_repeated_eq_none, unrepeated_iff,
    Draft.firstFault_verdict_eq_none, Draft.firstFault_verdict_eq_none, ← List.head?_filter,
    ← List.head?_filter, Option.isNone_eq_false_iff, Option.isNone_eq_false_iff,
    List.isSome_head?, List.isSome_head?, ← List.length_pos_iff, ← List.length_pos_iff]
  constructor
  · rintro ⟨⟨options, content, bound⟩, strip, block, -⟩
    exact ⟨by omega, by omega, bound⟩
  · rintro ⟨strip, block, bound⟩
    exact ⟨⟨strip.le, block.le, bound⟩, by omega, by omega, rfl⟩

/-- Which rule a slider breaks: the first repetition, then missing options, then missing content. -/
theorem build_error_iff {f : Failure} : (build d children).outcome = .error f ↔
    ∃ r, f = .structural d.id r ∧ (Draft.BreaksFirst part rule children r ∨
      Draft.Unrepeated part rule children ∧
        (children.filter (part · = .options) = [] ∧ r = .noOptions ∨
          children.filter (part · = .options) ≠ [] ∧ children.filter (part · = .content) = [] ∧
            r = .noContent)) := by
  rw [← Outcome.fault?_eq_some, fault?_build, checks, Outcome.firstFault_append,
    Option.or_eq_some_iff, Draft.firstFault_repeated_eq_none, Draft.firstFault_repeated_eq_some,
    Draft.firstFault_verdict_eq_some, Draft.firstFault_verdict_eq_some, ← List.head?_filter,
    ← List.head?_filter, Option.isNone_iff_eq_none, Option.isNone_iff_eq_none,
    List.head?_eq_none_iff, List.head?_eq_none_iff, Option.isNone_eq_false_iff, List.isSome_head?]
  constructor
  · rintro (⟨r, rfl, first⟩ | ⟨apart, ⟨strip, rfl⟩ | ⟨strip, ⟨block, rfl⟩ | ⟨-, rest⟩⟩⟩)
    · exact ⟨r, rfl, .inl first⟩
    · exact ⟨_, rfl, .inr ⟨apart, .inl ⟨strip, rfl⟩⟩⟩
    · exact ⟨_, rfl, .inr ⟨apart, .inr ⟨strip, block, rfl⟩⟩⟩
    · cases rest
  · rintro ⟨r, rfl, first | ⟨apart, ⟨strip, rfl⟩ | ⟨strip, block, rfl⟩⟩⟩
    · exact .inl ⟨r, rfl, first⟩
    · exact .inr ⟨apart, .inl ⟨strip, rfl⟩⟩
    · exact .inr ⟨apart, .inr ⟨strip, .inl ⟨block, rfl⟩⟩⟩

end Slider

/-- A slider is made of children among which exactly one is a strip of options, exactly one is a block
of content and at most one of the others has the name of a bound. Otherwise the first child that comes
second for one of these decides the failure, and if there is none the lack of a strip goes before the
lack of a block. Strip and bound are kept as they are, and the pages of the block are kept in their
order in the one cell of a collection that has the frame and the style of the block. -/
theorem Prepared.build_slider {p : Prepared} (declared : p.declared = .slider)
    (children : List Element) :
    let strips := children.filter (·.layer.role? = some .sliderOptions)
    let blocks := children.filter (·.layer.role? = some .sliderContent)
    let others :=
      children.filter (·.layer.role? ∉ [some .sliderOptions, some .sliderContent])
    let bounds := others.filter (Layer.isBoundName ·.id)
    ((∃ e, (p.build children).outcome = .ok e) ↔
        strips.length = 1 ∧ blocks.length = 1 ∧ bounds.length ≤ 1) ∧
      (∀ f, (p.build children).outcome = .error f ↔ ∃ r, f = .structural p.draft.id r ∧
        (Draft.BreaksFirst Slider.part Slider.rule children r ∨
          strips.length ≤ 1 ∧ blocks.length ≤ 1 ∧ bounds.length ≤ 1 ∧
            (strips = [] ∧ r = .noOptions ∨ strips ≠ [] ∧ blocks = [] ∧ r = .noContent))) ∧
      ∀ e, (p.build children).outcome = .ok e → ∃ strip block bound pages names,
        strips = [strip] ∧ blocks = [block] ∧ bounds = bound.toList ∧
        block.layer = .container ⟨.sliderContent, pages⟩ ∧
        let list := p.draft.id ++ "CollectionView"
        let name := Text.upperFirst list ++ "Cell"
        let cell : Element :=
          ⟨Text.lowerFirst name, block.style, block.frame, .container ⟨.cell, pages⟩⟩
        (∀ n, names.get? n = if n = name then some cell.id else none) ∧
        e = p.draft.element (.slider
          { options := strip
            content := ⟨list, block.style, block.frame, .list
              { kind := .collection
                scroll := none
                sections := [⟨list ++ "Section", {}, block.frame, .group
                  { header := none
                    cells := [cell]
                    customCells := names
                    bound := ⟨list ++ "Bound", {}, block.frame, .shape .rect⟩
                    separator := [0]
                    tableSeparate := false }⟩]
                separator := [0]
                customHeaders := .empty
                bound := none }⟩
            bound }) := by
  intro strips blocks others bounds
  rw [show p.build children = Slider.build p.draft children by rw [Prepared.build, declared]]
  have hstrips : children.filter (Slider.part · = .options) = strips := Slider.filter_part_options
  have hblocks : children.filter (Slider.part · = .content) = blocks := Slider.filter_part_content
  have hbounds : children.filter (Slider.part · = .bound) = bounds := Slider.filter_part_bound
  have made_iff := @Slider.build_ok_iff p.draft children
  have apart_iff := @Slider.unrepeated_iff children
  rw [hstrips, hblocks, hbounds] at made_iff apart_iff
  refine ⟨made_iff, fun f => ?_, fun e made => ?_⟩
  · rw [Slider.build_error_iff, apart_iff, hstrips, hblocks]
    simp only [and_assoc]
  · obtain ⟨single, single', few⟩ := made_iff.1 ⟨e, made⟩
    obtain ⟨strip, block, first, first', rfl⟩ := Slider.build_eq_ok made
    obtain ⟨o, ho⟩ := List.length_eq_one_iff.1 single
    obtain ⟨c, hc⟩ := List.length_eq_one_iff.1 single'
    rw [← List.head?_filter, hstrips, ho, List.head?_cons, Option.some.injEq] at first
    rw [← List.head?_filter, hblocks, hc, List.head?_cons, Option.some.injEq] at first'
    subst first first'
    have drawn : c ∈ blocks := by
      rw [hc]
      exact List.mem_singleton_self c
    obtain ⟨⟨_, pages⟩, hl, rfl⟩ :=
      Layer.role?_eq_some.1 (of_decide_eq_true (List.mem_filter.1 drawn).2)
    refine ⟨o, c, bounds.head?, pages, _, ho, hc, eq_toList_head? few, hl,
      NameMap.get?_firstOf_singleton _ _, ?_⟩
    rw [← List.head?_filter, hbounds]
    unfold Slider.paged Slider.held
    rw [hl]

namespace Slider

/-- A page of a gallery. -/
def photo (id : String) : Element := ⟨id, {}, ⟨0, 44, 90, 60⟩, .shape .image⟩

/-- The second picture is drawn first. The block is called a bound, which its role overrules. -/
def photos : Element where
  id := "photosBound"
  style := { opacity := some 0.5 }
  frame := ⟨0, 44, 90, 120⟩
  layer := .container ⟨.sliderContent, [photo "second", photo "first"]⟩

/-- A block of content, a remark, a strip and a bound. -/
def galleryParts : List Element :=
  [photos, ⟨"note", {}, ⟨0, 0, 9, 9⟩, .shape .line⟩,
    ⟨"tabs", {}, ⟨0, 0, 90, 44⟩, .container ⟨.sliderOptions, []⟩⟩,
    ⟨"galleryBound", {}, ⟨0, 0, 90, 164⟩, .shape .rect⟩]

/-- A slider without attributes. -/
def gallery : Prepared where
  draft := ⟨"gallery", "SliderView", "g", ⟨0, 0, 90, 164⟩, .empty, [], []⟩
  declared := .slider
  ownFill := none

end Slider

open CanvasLayout.Slider in
/-- The pictures stay in the order in which they are drawn. -/
theorem Prepared.build_slider_gallery : ∃ e s g,
    (gallery.build galleryParts).outcome = .ok e ∧ e.layer = .slider s ∧
      s.options.id = "tabs" ∧ s.bound.map (·.id) = some "galleryBound" ∧
      s.content.id = "galleryCollectionView" ∧ s.content.style = { opacity := some 0.5 } ∧
      s.content.children.map (·.layer.group?) = [some g] ∧
      g.cells.map (fun c => (c.id, c.children.map (·.id))) =
        [("galleryCollectionViewCell", ["second", "first"])] ∧
      g.customCells.get? "GalleryCollectionViewCell" = some "galleryCollectionViewCell" := by
  obtain ⟨made, -, known⟩ := @Prepared.build_slider gallery rfl galleryParts
  obtain ⟨e, he⟩ := made.2 ⟨by decide +kernel, by decide +kernel, by decide +kernel⟩
  obtain ⟨strip, block, bound, pages, names, strips, blocks, bounds, held, entered, rfl⟩ :=
    known e he
  have tabs := congrArg (List.map (·.id)) strips
  have ends := congrArg (List.map (·.id)) bounds
  obtain rfl : photos = block := List.singleton_inj.1 blocks
  obtain rfl : [photo "second", photo "first"] = pages :=
    (Container.mk.inj (Layer.container.inj held)).2
  refine ⟨_, _, _, he, rfl, ?_, ?_, ?_, rfl, rfl, ?_, ?_⟩
  · have named : ["tabs"] = [strip.id] := tabs
    exact (List.singleton_inj.1 named).symm
  · have named : bound.toList.map (·.id) = ["galleryBound"] := ends.symm
    rw [← Option.toList_map] at named
    exact Option.toList_eq_singleton_iff.1 named
  · show gallery.draft.id ++ "CollectionView" = _
    decide +kernel
  · show [(Text.lowerFirst (Text.upperFirst (gallery.draft.id ++ "CollectionView") ++ "Cell"),
      ["second", "first"])] = _
    decide +kernel
  · show names.get? _ = _
    rw [entered]
    decide +kernel

end CanvasLayout
