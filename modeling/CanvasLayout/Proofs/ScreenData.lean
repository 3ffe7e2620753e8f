import CanvasLayout.Interchange.Text
import CanvasLayout.Proofs.FormRead

/-!
# Screens as data, both ways

Each kind of thing in a screen and the form it has in the interchange format agree
(`Renders`): its datum fits the form, holds the thing again, and is the only datum of the form
that does.
-/

namespace CanvasLayout

open Json (Datum Form)
open Json.Form (Fits FitsFields FitsField Lawful LawfulFields)

namespace Interchange

/-- No layer has a field named like the tag that tells its variant. -/
theorem lawful_layerForm : layerForm.Lawful fields := by
  have tags : ∀ c ∈ [Record.shape, .label, .button, .group, .list, .slider, .container],
      "type" ∉ (fields c).map Json.Field.name := by
    decide
  intro c hc f hf same
  refine tags c.2 ?_ (same ▸ List.mem_map_of_mem hf)
  exact List.mem_map_of_mem (f := Prod.snd) hc

/-- The records of the format are read as they are written. -/
theorem lawful_fields : LawfulFields fields where
  distinct n := by cases n <;> decide
  explicit n := by cases n <;> decide
  forms n := by
    have layer := lawful_layerForm
    have word : UInt32.size ≤ UInt64.size := by decide
    have byte : UInt8.size ≤ UInt64.size := by decide
    cases n <;> simp [fields, Lawful, layer, word, byte]

/-- A thing and its datum stand for each other among the data of a form. -/
structure Renders {α : Type} (form : Form Record) (datum : α → Datum) (of? : Datum → Option α) :
    Prop where
  fits : ∀ a, form.Fits fields (datum a)
  back : ∀ a, of? (datum a) = some a
  only : ∀ {d a}, form.Fits fields d → of? d = some a → datum a = d

/-- A required field takes values of its form only. -/
theorem fitsField_required {name : String} {form : Form Record} {d : Datum} :
    FitsField fields ⟨name, form, .required⟩ d ↔ form.Fits fields d := by
  simp [FitsField, Json.Field.allowsNull]

/-- A nullable field takes an absent value as well. -/
theorem fitsField_nullable {name : String} {form : Form Record} {d : Datum} :
    FitsField fields ⟨name, form, .nullable⟩ d ↔ d = .absent ∨ form.Fits fields d := by
  simp [FitsField, Json.Field.allowsNull]

/-- So does an optional one. -/
theorem fitsField_optional {name : String} {form : Form Record} {d : Datum} :
    FitsField fields ⟨name, form, .optional⟩ d ↔ d = .absent ∨ form.Fits fields d := by
  simp [FitsField, Json.Field.allowsNull]

/-- A record fits if its values fit its fields one by one. -/
theorem fits_record {n : Record} {ds : List Datum} :
    Fits fields (.record n) (.record ds) ↔ List.Forall₂ (FitsField fields) (fields n) ds := by
  rw [Fits, Form.fitsFields_iff]

theorem fits_whole {bound n : Nat} : Fits fields (.whole bound) (.whole n) ↔ n < bound := Iff.rfl

namespace Renders

variable {α : Type} {form : Form Record} {datum : α → Datum} {of? : Datum → Option α}

/-- Nothing that is there is written as absent. -/
theorem ne_absent (h : Renders form datum of?) (a : α) : datum a ≠ .absent := by
  intro absent
  have := h.fits a
  rw [absent] at this
  cases form <;> simp [Fits] at this

/-- What may be absent fits a field that may. -/
theorem fits_option (h : Renders form datum of?) (o : Option α) :
    Datum.ofOption datum o = .absent ∨ form.Fits fields (.ofOption datum o) := by
  cases o with
  | none => exact .inl rfl
  | some a => exact .inr (h.fits a)

/-- It is held again, absent or not. -/
theorem back_option (h : Renders form datum of?) (o : Option α) :
    unlessAbsent (.ofOption datum o) (of? (.ofOption datum o)) = some o := by
  cases o with
  | none => rfl
  | some a =>
    have := h.ne_absent a
    rw [Datum.ofOption, h.back, unlessAbsent]
    · rfl
    · exact this

/-- And it is held by its own datum only. -/
theorem only_option (h : Renders form datum of?) {d : Datum} {o : Option α}
    (fits : d = .absent ∨ form.Fits fields d) (held : unlessAbsent d (of? d) = some o) :
    Datum.ofOption datum o = d := by
  unfold unlessAbsent at held
  split at held
  · cases held
    rfl
  · rename_i present
    obtain ⟨a, ha, rfl⟩ := Option.map_eq_some_iff.1 held
    exact h.only (fits.resolve_left present) ha

end Renders

theorem renders_text : Renders .text .text text? where
  fits _ := trivial
  back _ := rfl
  only {d _} _ held := by
    cases d <;> simp only [text?, reduceCtorEq] at held
    cases held
    rfl

theorem renders_real : Renders .real .real real? where
  fits _ := trivial
  back _ := rfl
  only {d _} _ held := by
    cases d <;> simp only [real?, reduceCtorEq] at held
    cases held
    rfl

/-- A thing among a few that are told apart by their names is written as its name. -/
theorem renders_choice {α : Type} {all : List α} {name : α → String}
    (named : ∀ a, all.find? (fun b => name b == name a) = some a) :
    Renders (.choice (all.map name)) (fun a => .choice (name a)) (named? all name) where
  fits a := List.mem_map_of_mem (List.mem_of_find?_eq_some (named a))
  back a := named a
  only {d a} _ held := by
    cases d <;> simp only [named?, reduceCtorEq] at held
    have := List.find?_some held
    rw [eq_of_beq this]

/-- Things that are each found again are all found again. -/
theorem mapM_map_some {α β : Type} {f : α → β} {g : β → Option α} (h : ∀ a, g (f a) = some a)
    (as : List α) : (as.map f).mapM g = some as := by
  induction as with
  | nil => rfl
  | cons a as ih =>
    rw [List.map_cons, List.mapM_cons, h, ih]
    rfl

/-- If each datum is the only one of what it holds, so is a list of them. -/
theorem map_of_mapM_some {α β : Type} {f : α → β} {g : β → Option α} {bs : List β} {as : List α}
    (held : bs.mapM g = some as) (h : ∀ b ∈ bs, ∀ a, g b = some a → f a = b) : as.map f = bs := by
  induction bs generalizing as with
  | nil =>
    obtain rfl : [] = as := by simpa using held
    rfl
  | cons b bs ih =>
    rw [List.forall_mem_cons] at h
    rw [List.mapM_cons] at held
    obtain ⟨a, ha, held⟩ := Option.bind_eq_some_iff.1 held
    obtain ⟨as', has, held⟩ := Option.bind_eq_some_iff.1 held
    cases held
    rw [List.map_cons, h.1 a ha, ih has h.2]

/-- A list of numbers and its datum stand for each other. -/
theorem renders_reals : Renders (.list .real) realsDatum reals? where
  fits xs := by
    rw [realsDatum, Fits, Form.fitsItems_iff]
    simpa using fun x _ => renders_real.fits x
  back xs := mapM_map_some (f := Datum.real) (g := real?) (fun _ => rfl) xs
  only {d xs} fits held := by
    cases d <;> simp only [reals?, reduceCtorEq] at held
    rw [Fits, Form.fitsItems_iff] at fits
    rw [realsDatum, map_of_mapM_some held fun b hb a => renders_real.only (fits b hb)]

/-- The datum of a table of names, as a map over its entries. -/
theorem namesDatum_eq (m : NameMap String) :
    namesDatum m = .dict (m.entries.map fun e => (e.1, Datum.text e.2)) := rfl

/-- A table of names and its datum stand for each other, since both are sorted. -/
theorem renders_names : Renders (.dict .text) namesDatum names? where
  fits m := by
    rw [namesDatum_eq, Fits, Form.fitsEntries_iff, List.pairwise_map]
    refine ⟨m.sorted, fun e he => ?_⟩
    obtain ⟨_, _, rfl⟩ := List.mem_map.1 he
    trivial
  back m := by
    have entries := mapM_map_some (f := fun e => (e.1, Datum.text e.2))
      (g := fun e => (text? e.2).map fun s => (e.1, s)) (fun _ => rfl) m.entries
    rw [namesDatum_eq, names?, entries, Option.map_some, NameMap.ofList_entries]
  only {d m} fits held := by
    cases d <;> simp only [names?, reduceCtorEq] at held
    rename_i es
    rw [Fits, Form.fitsEntries_iff] at fits
    obtain ⟨as, has, rfl⟩ := Option.map_eq_some_iff.1 held
    have entries : as.map (fun e => (e.1, Datum.text e.2)) = es :=
      map_of_mapM_some has fun e he a ha => by
        obtain ⟨s, hs, rfl⟩ := Option.map_eq_some_iff.1 ha
        exact Prod.ext rfl (renders_text.only (fits.2 e he) hs)
    have sorted : as.Pairwise fun a b => a.1 < b.1 := by
      have := fits.1
      rwa [← entries, List.pairwise_map] at this
    rw [namesDatum_eq, NameMap.entries_ofList sorted, entries]

/-- A color and its three channels stand for each other. -/
theorem renders_color : Renders (.record .color) Rgb.datum Rgb.ofDatum? where
  fits c := by
    simp [Rgb.datum, fits_record, fields, fitsField_required, Fits, UInt8.size, c.red.toNat_lt,
      c.green.toNat_lt, c.blue.toNat_lt]
  back c := by simp [Rgb.datum, Rgb.ofDatum?]
  only {d c} fits held := by
    unfold Rgb.ofDatum? at held
    split at held
    · cases held
      simp only [fits_record, fields, List.forall₂_cons, fitsField_required, fits_whole] at fits
      rw [Rgb.datum, UInt8.toNat_ofNat', UInt8.toNat_ofNat', UInt8.toNat_ofNat',
        Nat.mod_eq_of_lt fits.1, Nat.mod_eq_of_lt fits.2.1, Nat.mod_eq_of_lt fits.2.2.1]
    · contradiction

theorem renders_alignment :
    Renders (.choice (Alignment.all.map Alignment.name)) (fun a => .choice a.name)
      (named? Alignment.all Alignment.name) :=
  renders_choice fun a => by cases a <;> decide

theorem renders_direction :
    Renders (.choice (Direction.all.map Direction.name)) (fun a => .choice a.name)
      (named? Direction.all Direction.name) :=
  renders_choice fun a => by cases a <;> decide

/-- A frame of either space and its datum stand for each other. -/
theorem renders_frame {s : Space} :
    Renders (.record .frame) (Frame.datum (s := s)) Frame.ofDatum? where
  fits f := by simp [Frame.datum, Fits, FitsFields, fields]
  back f := rfl
  only {d f} _ held := by
    unfold Frame.ofDatum? at held
    split at held
    · cases held
      rfl
    · contradiction

/-- A style and its datum stand for each other, absent fields included. -/
theorem renders_style : Renders (.record .style) Style.datum Style.ofDatum? where
  fits s := by
    simp [Style.datum, fits_record, fields, fitsField_nullable, renders_color.fits_option,
      renders_real.fits_option, renders_text.fits_option, renders_alignment.fits_option]
  back s := by
    simp [Style.datum, Style.ofDatum?, renders_color.back_option, renders_real.back_option,
      renders_text.back_option, renders_alignment.back_option]
  only {d s} fits held := by
    unfold Style.ofDatum? at held
    split at held
    · simp only [fits_record, fields, List.forall₂_cons, fitsField_nullable] at fits
      simp only [bind, Option.bind_eq_some_iff, pure, Option.some.injEq] at held
      obtain ⟨_, h₁, _, h₂, _, h₃, _, h₄, _, h₅, _, h₆, _, h₇, _, h₈, _, h₉, _, h₁₀, _, h₁₁, rfl⟩ :=
        held
      obtain ⟨f₁, f₂, f₃, f₄, f₅, f₆, f₇, f₈, f₉, f₁₀, f₁₁, -⟩ := fits
      simp only [Style.datum, renders_color.only_option f₁ h₁, renders_color.only_option f₂ h₂,
        renders_real.only_option f₃ h₃, renders_real.only_option f₄ h₄,
        renders_text.only_option f₅ h₅, renders_real.only_option f₆ h₆,
        renders_alignment.only_option f₇ h₇, renders_real.only_option f₈ h₈,
        renders_color.only_option f₉ h₉, renders_color.only_option f₁₀ h₁₀,
        renders_text.only_option f₁₁ h₁₁]
    · contradiction

/-- An anchor and its datum stand for each other. -/
theorem renders_anchor : Renders (.record .anchor) Anchor.datum Anchor.ofDatum? where
  fits a := by
    simp [Anchor.datum, fits_record, fields, fitsField_required, fitsField_nullable,
      renders_text.fits_option, renders_direction.fits, renders_real.fits]
  back a := by
    simp [Anchor.datum, Anchor.ofDatum?, renders_text.back_option, renders_direction.back]
  only {d a} fits held := by
    unfold Anchor.ofDatum? at held
    split at held
    · simp only [fits_record, fields, List.forall₂_cons, fitsField_required,
        fitsField_nullable] at fits
      simp only [bind, Option.bind_eq_some_iff, pure, Option.some.injEq] at held
      obtain ⟨_, h₁, _, h₂, rfl⟩ := held
      rw [Anchor.datum, renders_direction.only fits.1 h₁, renders_text.only_option fits.2.1 h₂]
    · contradiction

/-- A canvas and its datum stand for each other. -/
theorem renders_canvas : Renders (.record .canvas) Canvas.datum Canvas.ofDatum? where
  fits c := by
    simp [Canvas.datum, fits_record, fields, fitsField_required, Fits, renders_color.fits,
      UInt32.size, c.width.toNat_lt, c.height.toNat_lt]
  back c := by simp [Canvas.datum, Canvas.ofDatum?, renders_color.back]
  only {d c} fits held := by
    unfold Canvas.ofDatum? at held
    split at held
    · simp only [fits_record, fields, List.forall₂_cons, fitsField_required, fits_whole] at fits
      simp only [bind, Option.bind_eq_some_iff, pure, Option.some.injEq] at held
      obtain ⟨_, background, rfl⟩ := held
      rw [Canvas.datum, UInt32.toNat_ofNat', UInt32.toNat_ofNat', Nat.mod_eq_of_lt fits.1,
        Nat.mod_eq_of_lt fits.2.1, renders_color.only fits.2.2.1 background]
    · contradiction

theorem renders_shape :
    Renders (.choice (ShapeKind.all.map ShapeKind.name)) (fun a => .choice a.name)
      (named? ShapeKind.all ShapeKind.name) :=
  renders_choice fun a => by cases a <;> decide

theorem renders_listKind :
    Renders (.choice (ListKind.all.map ListKind.name)) (fun a => .choice a.name)
      (named? ListKind.all ListKind.name) :=
  renders_choice fun a => by cases a <;> decide

theorem renders_scroll :
    Renders (.choice (ScrollDirection.all.map ScrollDirection.name)) (fun a => .choice a.name)
      (named? ScrollDirection.all ScrollDirection.name) :=
  renders_choice fun a => by cases a <;> decide

theorem renders_role :
    Renders (.choice (ContainerRole.all.map ContainerRole.name)) (fun a => .choice a.name)
      (named? ContainerRole.all ContainerRole.name) :=
  renders_choice fun a => by cases a <;> decide

/-- The mutual recursion over elements, written as a map. -/
theorem listData_eq (es : List Element) : Element.listData es = es.map Element.datum := by
  induction es with
  | nil => rfl
  | cons e es ih => rw [Element.listData, ih, List.map_cons]

/-- A layer fits if its values fit the fields of its variant. -/
theorem fits_layer {name : String} {n : Record} {ds : List Datum}
    (known : [("shape", Record.shape), ("text", .label), ("button", .button), ("section", .group),
      ("collection", .list), ("slider", .slider), ("container", .container)].lookup name = some n) :
    Fits fields layerForm (.tagged name ds) ↔ List.Forall₂ (FitsField fields) (fields n) ds := by
  rw [layerForm, Fits, known]
  simp [Form.fitsFields_iff]

/-- The element's datum is one of the form for elements. -/
def FitsElement (e : Element) : Prop := Fits fields (.record .element) e.datum

/-- An element that may be absent fits a field that may. -/
theorem fits_optionDatum {o : Option Element} (h : ∀ e ∈ o, FitsElement e) :
    Element.optionDatum o = .absent ∨ Fits fields (.record .element) (Element.optionDatum o) := by
  cases o with
  | none => exact .inl rfl
  | some e => exact .inr (h e rfl)

theorem fits_listData {es : List Element} (h : ∀ e ∈ es, FitsElement e) :
    Fits fields (.list (.record .element)) (.list (Element.listData es)) := by
  rw [listData_eq, Fits, Form.fitsItems_iff]
  exact List.forall_mem_map.2 h

/-- A layer of any variant fits its form if the elements in it fit theirs. -/
theorem fits_layerDatum {l : Layer Element} (inside : ∀ c ∈ l.children, FitsElement c) :
    Fits fields layerForm (Element.layerDatum l) := by
  cases l with
  | shape kind =>
    rw [Element.layerDatum, fits_layer (n := .shape) (by decide)]
    simp [fields, fitsField_required, renders_shape.fits]
  | text label =>
    rw [Element.layerDatum, fits_layer (n := .label) (by decide)]
    simp [TextLabel.data, fields, fitsField_required, fitsField_optional, fits_record,
      renders_text.fits, renders_real.fits, renders_color.fits_option]
  | button b =>
    simp only [Layer.children, List.forall_mem_append, List.forall_mem_singleton,
      Option.mem_toList] at inside
    have label : Fits fields (.record .element) b.label.datum := inside.2
    rw [Element.layerDatum, fits_layer (n := .button) (by decide)]
    simp [fields, fitsField_required, fitsField_nullable, renders_text.fits,
      renders_color.fits_option, fits_optionDatum inside.1, label]
  | group g =>
    simp only [Layer.children, List.forall_mem_append, List.forall_mem_singleton,
      Option.mem_toList] at inside
    have bound : Fits fields (.record .element) g.bound.datum := inside.2
    have separate : Fits fields .flag (.flag g.tableSeparate) := trivial
    rw [Element.layerDatum, fits_layer (n := .group) (by decide)]
    simp [fields, fitsField_required, fitsField_nullable, fits_optionDatum inside.1.1,
      fits_listData inside.1.2, renders_names.fits, bound, renders_reals.fits, separate]
  | list l =>
    simp only [Layer.children, List.forall_mem_append, Option.mem_toList] at inside
    rw [Element.layerDatum, fits_layer (n := .list) (by decide)]
    simp [fields, fitsField_required, fitsField_nullable, renders_listKind.fits,
      renders_scroll.fits_option, fits_listData inside.1, renders_reals.fits, renders_names.fits,
      fits_optionDatum inside.2]
  | slider s =>
    simp only [Layer.children, List.forall_mem_append, List.forall_mem_cons,
      Option.mem_toList] at inside
    have options : Fits fields (.record .element) s.options.datum := inside.1.1
    have content : Fits fields (.record .element) s.content.datum := inside.1.2.1
    rw [Element.layerDatum, fits_layer (n := .slider) (by decide)]
    simp [fields, fitsField_required, fitsField_nullable, options, content,
      fits_optionDatum inside.2]
  | container c =>
    simp only [Layer.children] at inside
    rw [Element.layerDatum, fits_layer (n := .container) (by decide)]
    simp [fields, fitsField_required, renders_role.fits, fits_listData inside]

/-- So by induction every element fits its form. -/
theorem fits_element (e : Element) : FitsElement e := by
  induction e using Element.induct with
  | step e ih =>
    obtain ⟨id, style, frame, layer⟩ := e
    rw [FitsElement, Element.datum, fits_record]
    simp [fields, fitsField_required, renders_text.fits, renders_style.fits, renders_frame.fits,
      fits_layerDatum ih]

/-- The element is held by its datum. -/
def HeldElement (e : Element) : Prop := Element.ofDatum? e.datum = some e

theorem held_optionDatum {o : Option Element} (h : ∀ e ∈ o, HeldElement e) :
    unlessAbsent (Element.optionDatum o) (Element.ofDatum? (Element.optionDatum o)) = some o := by
  cases o with
  | none => rfl
  | some e =>
    have held : Element.ofDatum? e.datum = some e := h e rfl
    obtain ⟨id, style, frame, layer⟩ := e
    rw [Element.optionDatum, held]
    rfl

theorem held_listData {es : List Element} (h : ∀ e ∈ es, HeldElement e) :
    Element.listOfData? (Element.listData es) = some es := by
  induction es with
  | nil => rfl
  | cons e es ih =>
    rw [List.forall_mem_cons] at h
    have held : Element.ofDatum? e.datum = some e := h.1
    rw [Element.listData, Element.listOfData?, held, ih h.2]
    rfl

/-- A layer of any variant is held by its datum if the elements in it are held by theirs. -/
theorem held_layerDatum {l : Layer Element} (inside : ∀ c ∈ l.children, HeldElement c) :
    Element.layerOfDatum? (Element.layerDatum l) = some l := by
  cases l with
  | shape kind =>
    rw [Element.layerDatum, Element.layerOfDatum?, renders_shape.back]
    rfl
  | text label =>
    rw [Element.layerDatum, Element.layerOfDatum?, TextLabel.data, TextLabel.ofData?,
      renders_color.back_option]
    rfl
  | button b =>
    simp only [Layer.children, List.forall_mem_append, List.forall_mem_singleton,
      Option.mem_toList] at inside
    have label : Element.ofDatum? b.label.datum = some b.label := inside.2
    rw [Element.layerDatum, Element.layerOfDatum?, renders_color.back_option,
      held_optionDatum inside.1, label]
    rfl
  | group g =>
    simp only [Layer.children, List.forall_mem_append, List.forall_mem_singleton,
      Option.mem_toList] at inside
    have bound : Element.ofDatum? g.bound.datum = some g.bound := inside.2
    rw [Element.layerDatum, Element.layerOfDatum?, held_optionDatum inside.1.1,
      held_listData inside.1.2, renders_names.back, bound, renders_reals.back]
    rfl
  | list l =>
    simp only [Layer.children, List.forall_mem_append, Option.mem_toList] at inside
    rw [Element.layerDatum, Element.layerOfDatum?, renders_listKind.back,
      renders_scroll.back_option, held_listData inside.1, renders_reals.back, renders_names.back,
      held_optionDatum inside.2]
    rfl
  | slider s =>
    simp only [Layer.children, List.forall_mem_append, List.forall_mem_cons,
      Option.mem_toList] at inside
    have options : Element.ofDatum? s.options.datum = some s.options := inside.1.1
    have content : Element.ofDatum? s.content.datum = some s.content := inside.1.2.1
    rw [Element.layerDatum, Element.layerOfDatum?, options, content, held_optionDatum inside.2]
    rfl
  | container c =>
    simp only [Layer.children] at inside
    rw [Element.layerDatum, Element.layerOfDatum?, renders_role.back, held_listData inside]
    rfl

/-- So by induction every element is held by its datum. -/
theorem held_element (e : Element) : HeldElement e := by
  induction e using Element.induct with
  | step e ih =>
    obtain ⟨id, style, frame, layer⟩ := e
    rw [HeldElement, Element.datum, Element.ofDatum?, renders_style.back, renders_frame.back,
      held_layerDatum ih]
    rfl

/-- The datum is the only one that holds what it holds: as an element, a layer, or a list. -/
structure Only (d : Datum) : Prop where
  element : ∀ e, Fits fields (.record .element) d → Element.ofDatum? d = some e → e.datum = d
  layer : ∀ l, Fits fields layerForm d → Element.layerOfDatum? d = some l →
    Element.layerDatum l = d
  list : ∀ ds es, d = .list ds → Fits fields (.list (.record .element)) d →
    Element.listOfData? ds = some es → Element.listData es = ds

theorem Only.option {d : Datum} {o : Option Element} (h : Only d)
    (fits : d = .absent ∨ Fits fields (.record .element) d)
    (held : unlessAbsent d (Element.ofDatum? d) = some o) : Element.optionDatum o = d := by
  unfold unlessAbsent at held
  split at held
  · cases held
    rfl
  · rename_i present
    obtain ⟨e, he, rfl⟩ := Option.map_eq_some_iff.1 held
    exact h.element e (fits.resolve_left present) he

/-- Data of a list are the data of the elements that they hold. -/
theorem only_listData {ds : List Datum} {es : List Element} (inside : ∀ d ∈ ds, Only d)
    (fits : ∀ d ∈ ds, Fits fields (.record .element) d) (held : Element.listOfData? ds = some es) :
    Element.listData es = ds := by
  induction ds generalizing es with
  | nil =>
    cases held
    rfl
  | cons d ds ih =>
    rw [List.forall_mem_cons] at inside fits
    rw [Element.listOfData?] at held
    obtain ⟨e, he, held⟩ := Option.bind_eq_some_iff.1 held
    obtain ⟨es', hes, held⟩ := Option.bind_eq_some_iff.1 held
    cases held
    rw [Element.listData, inside.1.element e fits.1 he, ih inside.2 fits.2 hes]

/-- The datum of an element is that of no other, if that is so of the data in it. -/
theorem only_record {ds : List Datum} {e : Element} (inside : ∀ d ∈ ds, Only d)
    (fits : Fits fields (.record .element) (.record ds))
    (held : Element.ofDatum? (.record ds) = some e) : e.datum = .record ds := by
  unfold Element.ofDatum? at held
  split at held
  · rename_i id style frame layer eq
    cases eq
    simp only [fits_record, fields, List.forall₂_cons, fitsField_required] at fits
    simp only [bind, Option.bind_eq_some_iff, pure, Option.some.injEq] at held
    obtain ⟨_, h₁, _, h₂, _, h₃, rfl⟩ := held
    rw [Element.datum, renders_style.only fits.2.1 h₁, renders_frame.only fits.2.2.1 h₂,
      (inside layer (by simp)).layer _ fits.2.2.2.1 h₃]
  · contradiction

/-- The same for a layer, variant by variant. -/
theorem only_tagged {name : String} {ds : List Datum} {l : Layer Element}
    (inside : ∀ d ∈ ds, Only d) (fits : Fits fields layerForm (.tagged name ds))
    (held : Element.layerOfDatum? (.tagged name ds) = some l) :
    Element.layerDatum l = .tagged name ds := by
  -- One case for each variant of a layer; every value in it is determined by its own form.
  unfold Element.layerOfDatum? at held
  split at held
  · rename_i kind eq
    cases eq
    rw [fits_layer (n := .shape) (by decide)] at fits
    simp only [fields, List.forall₂_cons, fitsField_required] at fits
    obtain ⟨k, hk, rfl⟩ := Option.map_eq_some_iff.1 held
    rw [Element.layerDatum, renders_shape.only fits.1 hk]
  · rename_i values eq
    cases eq
    rw [fits_layer (n := .label) (by decide)] at fits
    obtain ⟨label, hlabel, rfl⟩ := Option.map_eq_some_iff.1 held
    unfold TextLabel.ofData? at hlabel
    split at hlabel
    · simp only [fields, List.forall₂_cons, fitsField_required, fitsField_optional] at fits
      simp only [bind, Option.bind_eq_some_iff, pure, Option.some.injEq] at hlabel
      obtain ⟨_, fill, rfl⟩ := hlabel
      rw [Element.layerDatum, TextLabel.data, renders_color.only_option fits.2.2.1 fill]
    · contradiction
  · rename_i title color shape label eq
    cases eq
    rw [fits_layer (n := .button) (by decide)] at fits
    simp only [fields, List.forall₂_cons, fitsField_required, fitsField_nullable] at fits
    simp only [bind, Option.bind_eq_some_iff, pure, Option.some.injEq] at held
    obtain ⟨_, h₁, _, h₂, _, h₃, rfl⟩ := held
    rw [Element.layerDatum, renders_color.only_option fits.2.1 h₁,
      (inside shape (by simp)).option fits.2.2.1 h₂,
      (inside label (by simp)).element _ fits.2.2.2.1 h₃]
  · rename_i header cells names bound separator separate eq
    cases eq
    rw [fits_layer (n := .group) (by decide)] at fits
    simp only [fields, List.forall₂_cons, fitsField_required, fitsField_nullable] at fits
    simp only [bind, Option.bind_eq_some_iff, pure, Option.some.injEq] at held
    obtain ⟨_, h₁, _, h₂, _, h₃, _, h₄, _, h₅, rfl⟩ := held
    rw [Element.layerDatum, (inside header (by simp)).option fits.1 h₁,
      (inside (.list cells) (by simp)).list _ _ rfl fits.2.1 h₂, renders_names.only fits.2.2.1 h₃,
      (inside bound (by simp)).element _ fits.2.2.2.1 h₄, renders_reals.only fits.2.2.2.2.1 h₅]
  · rename_i kind scroll sections separator names bound eq
    cases eq
    rw [fits_layer (n := .list) (by decide)] at fits
    simp only [fields, List.forall₂_cons, fitsField_required, fitsField_nullable] at fits
    simp only [bind, Option.bind_eq_some_iff, pure, Option.some.injEq] at held
    obtain ⟨_, h₁, _, h₂, _, h₃, _, h₄, _, h₅, _, h₆, rfl⟩ := held
    rw [Element.layerDatum, renders_listKind.only fits.1 h₁,
      renders_scroll.only_option fits.2.1 h₂,
      (inside (.list sections) (by simp)).list _ _ rfl fits.2.2.1 h₃,
      renders_reals.only fits.2.2.2.1 h₄, renders_names.only fits.2.2.2.2.1 h₅,
      (inside bound (by simp)).option fits.2.2.2.2.2.1 h₆]
  · rename_i options content bound eq
    cases eq
    rw [fits_layer (n := .slider) (by decide)] at fits
    simp only [fields, List.forall₂_cons, fitsField_required, fitsField_nullable] at fits
    simp only [bind, Option.bind_eq_some_iff, pure, Option.some.injEq] at held
    obtain ⟨_, h₁, _, h₂, _, h₃, rfl⟩ := held
    rw [Element.layerDatum, (inside options (by simp)).element _ fits.1 h₁,
      (inside content (by simp)).element _ fits.2.1 h₂,
      (inside bound (by simp)).option fits.2.2.1 h₃]
  · rename_i role children eq
    cases eq
    rw [fits_layer (n := .container) (by decide)] at fits
    simp only [fields, List.forall₂_cons, fitsField_required] at fits
    simp only [bind, Option.bind_eq_some_iff, pure, Option.some.injEq] at held
    obtain ⟨_, h₁, _, h₂, rfl⟩ := held
    rw [Element.layerDatum, renders_role.only fits.1 h₁,
      (inside (.list children) (by simp)).list _ _ rfl fits.2.1 h₂]
  · contradiction

/-- By induction on data, no datum of the form holds what another one holds. -/
theorem only_datum (d : Datum) : Only d := by
  induction d using Datum.induct with
  | record ds ih =>
    refine ⟨fun e fits held => only_record ih fits held, fun l _ held => ?_, fun ds es h => ?_⟩
    · unfold Element.layerOfDatum? at held
      contradiction
    · contradiction
  | tagged name ds ih =>
    refine ⟨fun e _ held => ?_, fun l fits held => only_tagged ih fits held, fun ds es h => ?_⟩
    · unfold Element.ofDatum? at held
      contradiction
    · contradiction
  | list ds ih =>
    refine ⟨fun e _ held => ?_, fun l _ held => ?_, fun ds' es h fits held => ?_⟩
    · unfold Element.ofDatum? at held
      contradiction
    · unfold Element.layerOfDatum? at held
      contradiction
    · cases h
      rw [Fits, Form.fitsItems_iff] at fits
      exact only_listData ih fits held
  | _ =>
    refine ⟨fun e _ held => ?_, fun l _ held => ?_, fun ds es h => ?_⟩
    · unfold Element.ofDatum? at held
      contradiction
    · unfold Element.layerOfDatum? at held
      contradiction
    · contradiction

/-- A layer of any variant and its datum stand for each other. -/
theorem renders_layer : Renders layerForm Element.layerDatum Element.layerOfDatum? where
  fits _ := fits_layerDatum fun c _ => fits_element c
  back _ := held_layerDatum fun c _ => held_element c
  only fits held := (only_datum _).layer _ fits held

/-- A layer in its place and its datum stand for each other. -/
theorem renders_placed : Renders (.record .node) Placed.datum Placed.ofDatum? where
  fits p := by
    simp [Placed.datum, fits_record, fields, fitsField_required, renders_text.fits,
      renders_style.fits, renders_frame.fits, renders_anchor.fits, renders_layer.fits]
  back p := by
    simp [Placed.datum, Placed.ofDatum?, renders_style.back, renders_frame.back,
      renders_anchor.back, renders_layer.back]
  only {d p} fits held := by
    unfold Placed.ofDatum? at held
    split at held
    · simp only [fits_record, fields, List.forall₂_cons, fitsField_required] at fits
      simp only [bind, Option.bind_eq_some_iff, pure, Option.some.injEq] at held
      obtain ⟨_, h₁, _, h₂, _, h₃, _, h₄, _, h₅, _, h₆, rfl⟩ := held
      rw [Placed.datum, renders_style.only fits.2.1 h₁, renders_layer.only fits.2.2.2.2.2.2.1 h₂,
        renders_frame.only fits.2.2.1 h₃, renders_frame.only fits.2.2.2.1 h₄,
        renders_anchor.only fits.2.2.2.2.1 h₅, renders_anchor.only fits.2.2.2.2.2.1 h₆]
    · contradiction

/-- A screen and its datum stand for each other. -/
theorem renders_screen : Renders (.record .screen) Screen.datum Screen.ofDatum? where
  fits s := by
    have layers : Fits fields (.list (.record .node)) (.list (s.layers.map Placed.datum)) := by
      rw [Fits, Form.fitsItems_iff]
      exact List.forall_mem_map.2 fun p _ => renders_placed.fits p
    simp [Screen.datum, fits_record, fields, fitsField_required, renders_canvas.fits, layers]
  back s := by
    simp [Screen.datum, Screen.ofDatum?, renders_canvas.back, mapM_map_some renders_placed.back,
      -List.mapM_map]
  only {d s} fits held := by
    unfold Screen.ofDatum? at held
    split at held
    · simp only [fits_record, fields, List.forall₂_cons, fitsField_required] at fits
      simp only [bind, Option.bind_eq_some_iff, pure, Option.some.injEq] at held
      obtain ⟨_, h₁, _, h₂, rfl⟩ := held
      have layers := fits.2.1
      rw [Fits, Form.fitsItems_iff] at layers
      rw [Screen.datum, renders_canvas.only fits.1 h₁,
        map_of_mapM_some h₂ fun d hd p => renders_placed.only (layers d hd)]
    · contradiction

end Interchange

end CanvasLayout
