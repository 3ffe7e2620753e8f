import CanvasLayout.Proofs.Classification

/-!
# How far inheritance reaches

The attributes of a parent are looked at once, when a draft is prepared, and all they leave there
are the resolved attributes of the draft itself (`Draft.prepare_congr_ancestor`). Its children are
built from what is written on the draft, and of a resolved draft the layer of an element takes
nothing but the color of a button's title (`Prepared.build_congr_attributes`). So under two parents
a tree of drafts makes elements that differ at the root alone: `Draft.build_congr_ancestor`.
-/

namespace CanvasLayout

open Logged (bind_eq_ok)

/-- The layer with another color for its title, if it is a button. -/
def Layer.withTitleColor {ε : Type} (c : Option Rgb) : Layer ε → Layer ε
  | .button b => .button { b with titleColor := c }
  | l => l

@[simp] theorem Layer.children_withTitleColor {ε : Type} (c : Option Rgb) (l : Layer ε) :
    (l.withTitleColor c).children = l.children := by
  cases l <;> rfl

namespace Element

/-- The second element is the first but for its style and, on a button, the color of the title. -/
def SameInside (e e' : Element) : Prop :=
  e'.id = e.id ∧ e'.frame = e.frame ∧ ∃ c, e'.layer = e.layer.withTitleColor c

/-- What hangs below an element is part of its layer. -/
theorem SameInside.children_eq {e e' : Element} (h : e.SameInside e') :
    e'.children = e.children := by
  obtain ⟨-, -, c, layer⟩ := h
  show e'.layer.children = e.layer.children
  rw [layer, Layer.children_withTitleColor]

end Element

/-- The prepared draft with other attributes. -/
def Prepared.withAttributes (p : Prepared) (b : Bag) : Prepared :=
  { p with draft := { p.draft with attributes := b } }

/-- The layer that a draft becomes is its own where the draft gives only its identity. -/
theorem Draft.sameInside_element (d : Draft) (b : Bag) (l : Layer Element) :
    (d.element l).SameInside (Draft.element { d with attributes := b } l) := by
  refine ⟨rfl, rfl, ?_⟩
  cases l with
  | button content => exact ⟨content.titleColor, rfl⟩
  | _ => exact ⟨none, rfl⟩

namespace Prepared

variable {p : Prepared} {b : Bag} {children : List Element} {e e' : Element}

/-- Of the attributes of a prepared draft only the style of the element and the color of a title
are made. -/
theorem build_congr_attributes (h : (p.build children).outcome = .ok e)
    (h' : ((p.withAttributes b).build children).outcome = .ok e') : e.SameInside e' := by
  unfold Prepared.build at h h'
  have declared : (p.withAttributes b).declared = p.declared := rfl
  rw [declared] at h'
  cases hk : p.declared with
  | shape =>
    simp only [hk] at h h'
    obtain rfl := Except.ok.inj (Draft.outcome_childless_bind.symm.trans h)
    obtain rfl := Except.ok.inj (Draft.outcome_childless_bind.symm.trans h')
    apply Draft.sameInside_element
  | text =>
    simp only [hk] at h h'
    obtain rfl := Except.ok.inj (Draft.outcome_childless_bind.symm.trans h)
    obtain rfl := Except.ok.inj (Draft.outcome_childless_bind.symm.trans h')
    apply Draft.sameInside_element
  | button =>
    simp only [hk] at h h'
    obtain ⟨label, labels, -, rfl⟩ := Button.build_eq_ok h
    obtain ⟨label', labels', -, rfl⟩ := Button.build_eq_ok h'
    obtain rfl : label = label' := by
      rw [labels] at labels'
      exact (List.cons.inj labels').1
    exact ⟨rfl, rfl, _, rfl⟩
  | group =>
    simp only [hk] at h h'
    obtain ⟨bound, found, -, rfl⟩ := Group.build_eq_ok h
    obtain ⟨bound', found', -, rfl⟩ := Group.build_eq_ok h'
    obtain rfl : bound = bound' := Option.some.inj (found.symm.trans found')
    apply Draft.sameInside_element
  | list kind =>
    simp only [hk] at h h'
    obtain ⟨id, scroll, named, -, rfl⟩ := ListView.build_eq_ok h
    obtain ⟨id', scroll', named', -, rfl⟩ := ListView.build_eq_ok h'
    obtain ⟨rfl, rfl⟩ := Prod.mk.inj (Except.ok.inj (named.symm.trans named'))
    exact ⟨rfl, rfl, none, rfl⟩
  | slider =>
    simp only [hk] at h h'
    obtain ⟨options, content, ho, hc, rfl⟩ := Slider.build_eq_ok h
    obtain ⟨options', content', ho', hc', rfl⟩ := Slider.build_eq_ok h'
    obtain rfl : options = options' := Option.some.inj (ho.symm.trans ho')
    obtain rfl : content = content' := Option.some.inj (hc.symm.trans hc')
    apply Draft.sameInside_element
  | container role =>
    simp only [hk] at h h'
    cases h
    cases h'
    apply Draft.sameInside_element

end Prepared

namespace Draft

variable {d : Draft} {ancestor ancestor' : Bag} {overrides : Overrides}

/-- Under two parents a draft is prepared to the same but for its resolved attributes. -/
theorem prepare_congr_ancestor {p q : Prepared} (h : d.prepare ancestor overrides = .ok p)
    (h' : d.prepare ancestor' overrides = .ok q) : ∃ b, q = p.withAttributes b := by
  rw [prepare_eq] at h h'
  obtain ⟨b, -, h⟩ := Outcome.bind_eq_ok.1 h
  obtain ⟨b', -, h'⟩ := Outcome.bind_eq_ok.1 h'
  obtain ⟨declared, hk, h⟩ := Outcome.bind_eq_ok.1 h
  obtain ⟨declared', hk', h'⟩ := Outcome.bind_eq_ok.1 h'
  obtain rfl : declared = declared' := Except.ok.inj (hk.symm.trans hk')
  obtain ⟨fill, hf, h⟩ := Outcome.bind_eq_ok.1 h
  obtain ⟨fill', hf', h'⟩ := Outcome.bind_eq_ok.1 h'
  obtain rfl : fill = fill' := Except.ok.inj (hf.symm.trans hf')
  cases h
  cases h'
  exact ⟨b', rfl⟩

/-- Inheritance reaches one level. Under two parents a tree of drafts makes elements of one identity
and frame with the same elements below them, and only their style and, on a button, the color of the
title can differ. -/
theorem build_congr_ancestor {e e' : Element} (h : (d.build ancestor overrides).outcome = .ok e)
    (h' : (d.build ancestor' overrides).outcome = .ok e') :
    e'.id = e.id ∧ e'.frame = e.frame ∧ e'.children = e.children ∧
      ∃ c, e'.layer = e.layer.withTitleColor c := by
  rw [build_eq] at h h'
  obtain ⟨p, hp, h⟩ := bind_eq_ok.1 h
  obtain ⟨q, hq, h'⟩ := bind_eq_ok.1 h'
  obtain ⟨built, hbuilt, h⟩ := bind_eq_ok.1 h
  obtain ⟨built', hbuilt', h'⟩ := bind_eq_ok.1 h'
  -- the children see what is written on the draft, whatever its parent
  obtain rfl : built = built' := Except.ok.inj (hbuilt.symm.trans hbuilt')
  obtain ⟨b, rfl⟩ := prepare_congr_ancestor hp hq
  have same : e.SameInside e' := Prepared.build_congr_attributes h h'
  exact ⟨same.1, same.2.1, same.children_eq, same.2.2⟩

/-- A button without colors of its own, its label in a container that has one. -/
def cancel : Draft where
  id := "cancel"
  kind := "UIButton"
  tag := "g"
  frame := ⟨0, 0, 60, 20⟩
  attributes := .ofRaw [("stroke-width", "2")]
  runs := []
  children := [
    ⟨"cancelBg", "rect", "rect", ⟨0, 0, 60, 20⟩, .empty, [], []⟩,
    ⟨"wrapper", "g", "g", ⟨0, 0, 60, 20⟩, .ofRaw [("fill", "#00FF00")], [], [
      ⟨"caption", "text", "text", ⟨4, 4, 52, 12⟩, .empty, ["Cancel"], []⟩]⟩]

/-- A red and a blue parent give the button its fill and its title their color, and leave the parts
of the button alone. -/
theorem build_congr_ancestor_cancel : ∃ e e',
    (cancel.build (.ofRaw [("fill", "#FF0000")]) .empty).outcome = .ok e ∧
      (cancel.build (.ofRaw [("fill", "#0000FF"), ("rx", "4")]) .empty).outcome = .ok e' ∧
      e.style.fill ≠ e'.style.fill ∧ e.children.length = 2 ∧
      e'.id = e.id ∧ e'.frame = e.frame ∧ e'.children = e.children ∧
      ∃ c, e'.layer = e.layer.withTitleColor c := by
  have red : (cancel.build (.ofRaw [("fill", "#FF0000")]) .empty).outcome.toOption.map
      (fun e => (e.style.fill, e.children.length)) = some (some ⟨255, 0, 0⟩, 2) := by
    decide +kernel
  have blue : (cancel.build (.ofRaw [("fill", "#0000FF"), ("rx", "4")]) .empty).outcome.toOption.map
      (fun e => e.style.fill) = some (some ⟨0, 0, 255⟩) := by
    decide +kernel
  obtain ⟨e, built, seen⟩ := Outcome.exists_of_toOption red
  obtain ⟨e', built', fill'⟩ := Outcome.exists_of_toOption blue
  obtain ⟨fill, length⟩ := Prod.mk.inj seen
  refine ⟨e, e', built, built', ?_, length, build_congr_ancestor built built'⟩
  rw [fill, fill']
  decide

end Draft

end CanvasLayout
