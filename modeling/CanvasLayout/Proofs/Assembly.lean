import Mathlib
import CanvasLayout.Proofs.PartRules
import CanvasLayout.Proofs.ReadingOrder
import CanvasLayout.Proofs.WellFormed

/-!
# What elements are put together from

For the kinds of elements that are made of parts, all that building does: when an element is made,
which rule ends it otherwise, and what the element is (`Prepared.build_button`,
`Prepared.build_group`, `Prepared.build_list`). The parts are told without the folds that collect
them: what is found through containers (`Button.Found`), the first child that comes second for a slot
(`Draft.BreaksFirst`), a stable sort from top to bottom (`Element.SortsTo`), the gaps that a kind of
list records (`ListKind.Gaps`).
-/

namespace CanvasLayout

open Outcome (fault? firstFault)

/-- Of the values listed under a key the first one counts. -/
theorem NameMap.get?_firstOf_map {α β : Type} (key : α → String) (value : α → β) (as : List α)
    (name : String) : (firstOf (as.map fun a => (key a, value a))).get? name =
      (as.find? (key · = name)).map value := by
  rw [get?_firstOf]
  induction as with
  | nil => rfl
  | cons a as ih =>
    rw [List.map_cons, lookup, List.find?_cons, ih]
    by_cases h : key a = name <;> simp [h]

/-- A list of at most one member is its head. -/
theorem eq_toList_head? {α : Type} {as : List α} (h : as.length ≤ 1) : as = as.head?.toList := by
  match as, h with
  | [], _ => rfl
  | [a], _ => rfl

/-! ## Children that come second -/

namespace Draft

section Repeated

variable {π : Type} (part : Element → π) (rule : Element → Option StructuralRule)

/-- No child for whose part there is a rule comes behind another child with that part. -/
def Unrepeated (children : List Element) : Prop :=
  children.Pairwise fun x c => (rule c).isSome → part x ≠ part c

/-- The rule against the first child that comes second for the slot of its part. -/
def BreaksFirst (children : List Element) (r : StructuralRule) : Prop :=
  ∃ before c after, children = before ++ c :: after ∧ Unrepeated part rule before ∧
    (∃ x ∈ before, part x = part c) ∧ rule c = some r

variable {part rule} {d : Draft} {before children : List Element} {c : Element} {f : Failure}

/-- One child more is no repetition unless a child in front of it has its part and there is a rule
for that. -/
theorem unrepeated_concat : Unrepeated part rule (before ++ [c]) ↔
    Unrepeated part rule before ∧ ((rule c).isSome → ∀ x ∈ before, part x ≠ part c) := by
  simp only [Unrepeated, List.pairwise_append, List.pairwise_singleton, List.mem_singleton,
    forall_eq, true_and]
  exact and_congr_right fun _ => ⟨fun h hr x hx => h x hx hr, fun h x hx hr => h hr x hx⟩

/-- Children at the end do not change which repetition is the first. -/
theorem BreaksFirst.concat {r : StructuralRule} (h : BreaksFirst part rule children r) :
    BreaksFirst part rule (children ++ [c]) r := by
  obtain ⟨before, x, after, rfl, first⟩ := h
  exact ⟨before, x, after ++ [c], by simp, first⟩

/-- There is a first child that comes second unless there is none that does. -/
theorem exists_breaksFirst_iff :
    (∃ r, BreaksFirst part rule children r) ↔ ¬ Unrepeated part rule children := by
  constructor
  · rintro ⟨r, before, c, after, rfl, -, ⟨x, hx, same⟩, hr⟩ apart
    have other := (List.pairwise_append.1 apart).2.2 x hx c List.mem_cons_self
    exact other (by rw [hr]; rfl) same
  · intro repeated
    induction children using List.reverseRecOn with
    | nil => exact absurd .nil repeated
    | append_singleton children c ih =>
      by_cases front : Unrepeated part rule children
      · rw [unrepeated_concat] at repeated
        obtain ⟨r, hr, second⟩ : ∃ r, rule c = some r ∧ ∃ x ∈ children, part x = part c := by
          simpa [front, Option.isSome_iff_exists] using repeated
        exact ⟨r, children, c, [], rfl, front, second, hr⟩
      · obtain ⟨r, first⟩ := ih front
        exact ⟨r, first.concat⟩

variable [DecidableEq π]

/-- There is no verdict on a child that leaves the children so far unrepeated. -/
theorem verdict_eq_none (h : Unrepeated part rule (before ++ [c])) :
    (if before.any (part · = part c) then (rule c).map (Failure.structural d.id) else none) =
      none := by
  cases hr : rule c with
  | none => rw [Option.map_none, ite_self]
  | some r =>
    have other := (unrepeated_concat.1 h).2 (by rw [hr]; rfl)
    rw [if_neg]
    simpa using other

/-- The induction is on the children that are still to come; those in `before` are unrepeated. -/
theorem firstFault_repeated_from (unrepeated : Unrepeated part rule before) :
    (firstFault (d.repeated part rule before children) = none ↔
        Unrepeated part rule (before ++ children)) ∧
      (firstFault (d.repeated part rule before children) = some f ↔ ∃ mid c after r,
        children = mid ++ c :: after ∧ Unrepeated part rule (before ++ mid) ∧
          (∃ x ∈ before ++ mid, part x = part c) ∧ rule c = some r ∧ f = .structural d.id r) := by
  induction children generalizing before with
  | nil => simp [repeated, firstFault, unrepeated]
  | cons c cs ih =>
    rw [repeated, firstFault, List.findSome?_cons, id]
    by_cases next : Unrepeated part rule (before ++ [c])
    · rw [verdict_eq_none next]
      obtain ⟨passes, fails⟩ := ih next
      refine ⟨passes.trans (by rw [List.append_assoc, List.singleton_append]), fails.trans ?_⟩
      constructor
      · rintro ⟨mid, x, after, r, rfl, free, second, hr, rfl⟩
        rw [List.append_assoc] at free second
        exact ⟨c :: mid, x, after, r, rfl, free, second, hr, rfl⟩
      · rintro ⟨mid, x, after, r, split, free, second, hr, rfl⟩
        cases mid with
        | nil =>
          obtain ⟨rfl, rfl⟩ := List.cons.inj split
          rw [List.append_nil] at second
          obtain ⟨y, hy, same⟩ := second
          exact absurd same ((unrepeated_concat.1 next).2 (by rw [hr]; rfl) y hy)
        | cons c' mid =>
          obtain ⟨rfl, rfl⟩ := List.cons.inj split
          refine ⟨mid, x, after, r, rfl, ?_, ?_, hr, rfl⟩
          · rwa [List.append_assoc]
          · rwa [List.append_assoc]
    · obtain ⟨r, hr, second⟩ : ∃ r, rule c = some r ∧ ∃ x ∈ before, part x = part c := by
        rw [unrepeated_concat] at next
        simpa [unrepeated, Option.isSome_iff_exists] using next
      have hit : before.any (part · = part c) = true := by simpa using second
      rw [if_pos hit, hr]
      constructor
      · refine iff_of_false (Option.some_ne_none _) fun h => next ?_
        rw [← List.singleton_append, ← List.append_assoc] at h
        exact (List.pairwise_append.1 h).1
      · constructor
        · rintro ⟨rfl⟩
          exact ⟨[], c, cs, r, rfl, by simpa using unrepeated, by simpa using second, hr, rfl⟩
        · rintro ⟨mid, x, after, r', split, free, -, hr', rfl⟩
          cases mid with
          | nil =>
            obtain ⟨rfl, rfl⟩ := List.cons.inj split
            rw [Option.some.inj (hr.symm.trans hr')]
            rfl
          | cons c' mid =>
            obtain ⟨rfl, rfl⟩ := List.cons.inj split
            rw [← List.singleton_append, ← List.append_assoc] at free
            exact absurd (List.pairwise_append.1 free).1 next

/-- The checks for repetitions pass when nothing is repeated. -/
theorem firstFault_repeated_eq_none :
    firstFault (d.repeated part rule [] children) = none ↔ Unrepeated part rule children :=
  (firstFault_repeated_from (f := .file .notFound) .nil).1

/-- The checks for repetitions fail with the rule of the first repetition. -/
theorem firstFault_repeated_eq_some : firstFault (d.repeated part rule [] children) = some f ↔
    ∃ r, f = .structural d.id r ∧ BreaksFirst part rule children r := by
  rw [(firstFault_repeated_from .nil).2]
  constructor
  · rintro ⟨mid, c, after, r, rfl, free, second, hr, rfl⟩
    exact ⟨r, rfl, mid, c, after, rfl, free, second, hr⟩
  · rintro ⟨r, rfl, mid, c, after, rfl, free, second, hr⟩
    exact ⟨mid, c, after, r, rfl, free, second, hr, rfl⟩

/-- No child comes second if and only if at most one child has each part with a rule. -/
theorem unrepeated_iff (ruled : π → Prop) (h : ∀ c, (rule c).isSome ↔ ruled (part c)) :
    Unrepeated part rule children ↔
      ∀ slot, ruled slot → (children.filter (part · = slot)).length ≤ 1 := by
  rw [Unrepeated, List.pairwise_iff_forall_sublist]
  constructor
  · intro apart slot hslot
    by_contra more
    obtain ⟨x, tail, hx⟩ := List.exists_cons_of_length_pos (Nat.zero_lt_of_lt (not_le.1 more))
    rw [hx, List.length_cons] at more
    obtain ⟨c, rest, rfl⟩ := List.exists_cons_of_length_pos (show 0 < tail.length by omega)
    have mem (y : Element) (hy : y ∈ x :: c :: rest) : part y = slot := by
      rw [← hx] at hy
      exact (mem_filter_part.1 hy).2
    have sub : [x, c].Sublist children := by
      refine .trans ?_ (List.filter_sublist (p := (part · = slot)))
      rw [hx]
      exact .cons_cons _ (.cons_cons _ (List.nil_sublist _))
    have hc : part c = slot := mem c (by simp)
    exact apart sub ((h c).2 (hc ▸ hslot)) ((mem x (by simp)).trans hc.symm)
  · intro single x c sub hr same
    have both := (sub.filter (part · = part c)).length_le
    rw [List.filter_eq_self.2 (by simpa using same)] at both
    exact absurd (both.trans (single (part c) ((h c).1 hr))) (by simp)

end Repeated

variable {d : Draft} {broken : Bool} {r : StructuralRule} {checks : List (Option Failure)}

/-- A check in front of others passes when its condition does not hold. -/
theorem firstFault_verdict_eq_none : firstFault (d.verdict broken r :: checks) = none ↔
    broken = false ∧ firstFault checks = none := by
  cases broken <;> simp [verdict, firstFault]

/-- A check in front of others that does not pass decides the fault; otherwise they do. -/
theorem firstFault_verdict_eq_some {f : Failure} :
    firstFault (d.verdict broken r :: checks) = some f ↔
      broken = true ∧ f = .structural d.id r ∨ broken = false ∧ firstFault checks = some f := by
  cases broken <;> simp [verdict, firstFault, eq_comm]

end Draft

/-! ## Buttons -/

namespace Button

/-- What is found in elements by going, in order, into containers and into nothing else. -/
inductive Found : List Element → List Element → Prop
  | nil : Found [] []
  | through {e : Element} {c : Container Element} {es inside rest : List Element}
    (container : e.layer = .container c) (found : Found c.children inside)
    (further : Found es rest) : Found (e :: es) (inside ++ rest)
  | part {e : Element} {es rest : List Element} (other : e.kind ≠ .container)
    (further : Found es rest) : Found (e :: es) (e :: rest)

theorem role?_eq_none {e : Element} (h : e.kind ≠ .container) : e.layer.role? = none := by
  unfold Element.kind at h
  cases hl : e.layer with
  | container c => exact absurd (by rw [hl]; rfl) h
  | _ => rfl

/-- What is found in each of several elements is found in all of them, in order. -/
theorem found_flatMap {es : List Element}
    (h : ∀ e ∈ es, ∀ es' rest, Found es' rest → Found (e :: es') (e.parts ++ rest)) :
    Found es (es.flatMap Element.parts) := by
  induction es with
  | nil => exact .nil
  | cons e es ih =>
    rw [List.forall_mem_cons] at h
    exact h.1 es _ (ih h.2)

theorem found_parts (e : Element) :
    ∀ es rest, Found es rest → Found (e :: es) (e.parts ++ rest) := by
  induction e using Element.induct with
  | step e ih =>
    intro es rest further
    cases hl : e.layer with
    | container c =>
      rw [Element.parts_of_container hl]
      rw [Element.children, hl] at ih
      exact .through hl (found_flatMap ih) further
    | _ =>
      have other : e.kind ≠ .container := by simp [Element.kind, hl, Layer.kind]
      rw [Element.parts_of_not_container (role?_eq_none other)]
      exact .part other further

/-- The search finds one list of parts. -/
theorem found_iff {es parts : List Element} :
    Found es parts ↔ parts = es.flatMap Element.parts := by
  constructor
  · intro h
    induction h with
    | nil => rfl
    | through container _ _ inside rest =>
      rw [List.flatMap_cons, Element.parts_of_container container, inside, rest]
    | part other _ rest =>
      rw [List.flatMap_cons, Element.parts_of_not_container (role?_eq_none other), rest]
      rfl
  · rintro rfl
    exact found_flatMap fun e _ => found_parts e

variable {d : Draft} {children : List Element}

/-- A button is built from exactly one label and at most one background, wherever they stand. -/
theorem build_ok_iff : (∃ e, (build d children).outcome = .ok e) ↔
    ((children.flatMap Element.parts).filter (·.kind = .text)).length = 1 ∧
      ((children.flatMap Element.parts).filter (·.kind = .shape)).length ≤ 1 := by
  rw [← Outcome.fault?_eq_none, fault?_build, checks, Draft.firstFault_verdict_eq_none,
    Draft.firstFault_verdict_eq_none, Draft.firstFault_verdict_eq_none]
  simp only [decide_eq_false_iff_not]
  constructor
  · rintro ⟨labels, shapes, label, -⟩
    omega
  · rintro ⟨label, shapes⟩
    exact ⟨by omega, by omega, by omega, rfl⟩

/-- Which rule a button breaks, labels being looked at before backgrounds. -/
theorem build_error_iff {f : Failure} : (build d children).outcome = .error f ↔
    let labels := (children.flatMap Element.parts).filter (·.kind = .text)
    let shapes := (children.flatMap Element.parts).filter (·.kind = .shape)
    ∃ r, f = .structural d.id r ∧ (1 < labels.length ∧ r = .tooManyLabels labels.length ∨
      labels.length ≤ 1 ∧ 1 < shapes.length ∧ r = .tooManyShapes shapes.length ∨
      labels = [] ∧ shapes.length ≤ 1 ∧ r = .noLabel) := by
  dsimp only
  rw [← Outcome.fault?_eq_some, fault?_build, checks, Draft.firstFault_verdict_eq_some,
    Draft.firstFault_verdict_eq_some, Draft.firstFault_verdict_eq_some]
  simp only [decide_eq_true_eq, decide_eq_false_iff_not, not_lt, List.length_eq_zero_iff]
  constructor
  · rintro (⟨many, rfl⟩ | ⟨few, ⟨many, rfl⟩ | ⟨few', ⟨none, rfl⟩ | ⟨-, rest⟩⟩⟩)
    · exact ⟨_, rfl, .inl ⟨many, rfl⟩⟩
    · exact ⟨_, rfl, .inr (.inl ⟨few, many, rfl⟩)⟩
    · exact ⟨_, rfl, .inr (.inr ⟨none, few', rfl⟩)⟩
    · cases rest
  · rintro ⟨r, rfl, ⟨many, rfl⟩ | ⟨few, many, rfl⟩ | ⟨none, few, rfl⟩⟩
    · exact .inl ⟨many, rfl⟩
    · exact .inr ⟨few, .inl ⟨many, rfl⟩⟩
    · exact .inr ⟨by simp [none], .inr ⟨few, .inl ⟨none, rfl⟩⟩⟩

/-- A shape gives a button its border where it has one, and a button without a shape draws
nothing. -/
theorem style_eq (own : Style) (shape : Option Element) : style own shape =
    { own with
      fill := shape.bind fun _ => own.fill
      borderRadius := (shape.bind (·.style.borderRadius)).or own.borderRadius
      strokeColor := shape.bind fun s => s.style.strokeColor.or own.strokeColor
      strokeWidth := shape.bind fun s => s.style.strokeWidth.or own.strokeWidth } := by
  cases shape <;> rfl

end Button

/-- A button is made of what is found in its children through containers, if exactly one label and at
most one shape are found. Otherwise too many labels go before too many shapes, and these before the
lack of a label. The title has the color set on the label itself, else the button's fill as it was
resolved, and the border is that of the shape where the shape has one. -/
theorem Prepared.build_button {p : Prepared} (declared : p.declared = .button)
    (children : List Element) :
    ∃ parts, (∀ found, Button.Found children found ↔ found = parts) ∧
      let labels := parts.filter (·.kind = .text)
      let shapes := parts.filter (·.kind = .shape)
      ((∃ e, (p.build children).outcome = .ok e) ↔ labels.length = 1 ∧ shapes.length ≤ 1) ∧
      (∀ f, (p.build children).outcome = .error f ↔ ∃ r, f = .structural p.draft.id r ∧
        (1 < labels.length ∧ r = .tooManyLabels labels.length ∨
          labels.length ≤ 1 ∧ 1 < shapes.length ∧ r = .tooManyShapes shapes.length ∨
          labels = [] ∧ shapes.length ≤ 1 ∧ r = .noLabel)) ∧
      ∀ e, (p.build children).outcome = .ok e → ∃ label text shape,
        labels = [label] ∧ label.layer = .text text ∧ shapes = shape.toList ∧
        let own := Style.ofBag p.draft.attributes
        e = { id := p.draft.id
              frame := p.draft.frame
              style :=
                { own with
                  fill := shape.bind fun _ => own.fill
                  borderRadius := (shape.bind (·.style.borderRadius)).or own.borderRadius
                  strokeColor := shape.bind fun s => s.style.strokeColor.or own.strokeColor
                  strokeWidth := shape.bind fun s => s.style.strokeWidth.or own.strokeWidth }
              layer := .button
                { title := text.text, titleColor := text.ownFill.or own.fill,
                  frameShape := shape, label } } := by
  refine ⟨children.flatMap Element.parts, fun _ => Button.found_iff, ?_⟩
  intro labels shapes
  rw [show p.build children = Button.build p.draft children by rw [Prepared.build, declared]]
  refine ⟨Button.build_ok_iff, fun f => Button.build_error_iff, ?_⟩
  intro e made
  obtain ⟨label, only, few, rfl⟩ := Button.build_eq_ok made
  obtain ⟨text, htext⟩ : ∃ text, label.layer = .text text := by
    have labelled : label ∈ labels := by
      rw [show labels = [label] from only]
      exact List.mem_singleton_self label
    have kind := (List.mem_filter.1 labelled).2
    cases hl : label.layer <;> simp_all [Element.kind, Layer.kind]
  refine ⟨label, text, shapes.head?, only, htext, eq_toList_head? few, ?_⟩
  intro own
  rw [Button.make, Button.style_eq, htext]
  rfl

namespace Button

/-- A cell around elements. -/
def boxed (es : List Element) : Element := ⟨"box", {}, ⟨0, 0, 60, 20⟩, .container ⟨.cell, es⟩⟩

/-- A label that sets no fill of its own. -/
def caption : Element := ⟨"caption", {}, ⟨4, 4, 52, 12⟩, .text ⟨"Buy", ⟨28, 8⟩, none⟩⟩

/-- A background with a border. -/
def plate : Element := ⟨"plate", { strokeWidth := some 1 }, ⟨0, 0, 60, 20⟩, .shape .rect⟩

/-- A button with a label of its own. -/
def inner : Element := ⟨"inner", {}, ⟨4, 4, 9, 9⟩, .button ⟨"Ask", none, none, caption⟩⟩

/-- A button with a fill and a border. -/
def buy : Prepared where
  draft := ⟨"buy", "UIButton", "g", ⟨0, 0, 60, 20⟩,
    .ofList [("fill", .color ⟨51, 102, 153⟩), ("stroke-width", .number 2)], [], []⟩
  declared := .button
  ownFill := none

end Button

open CanvasLayout.Button in
/-- The label stands two cells deep, and the label of the other button is not found. -/
theorem Prepared.build_button_boxed : ∃ e,
    (buy.build [plate, inner, boxed [boxed [caption]]]).outcome = .ok e ∧
      e.layer = .button ⟨"Buy", some ⟨51, 102, 153⟩, some plate, caption⟩ ∧
      e.style = { fill := some ⟨51, 102, 153⟩, strokeWidth := some 1 } := by
  obtain ⟨parts, found, made, -, known⟩ :=
    Prepared.build_button (p := buy) rfl [plate, inner, boxed [boxed [caption]]]
  have deep : Found [boxed [caption]] ([caption] ++ []) := .through rfl (.part nofun .nil) .nil
  have deeper : Found [boxed [boxed [caption]]] ([caption] ++ []) := .through rfl deep .nil
  obtain rfl : [plate, inner, caption] = parts := (found _).1 (.part nofun (.part nofun deeper))
  obtain ⟨e, he⟩ := made.2 (by decide)
  obtain ⟨label, text, shape, labels, htext, shapes, rfl⟩ := known e he
  obtain rfl : caption = label := List.singleton_inj.1 labels
  obtain rfl : ⟨"Buy", ⟨28, 8⟩, none⟩ = text := Layer.text.inj htext
  obtain rfl : shape = some plate := Option.toList_eq_singleton_iff.1 shapes.symm
  have own : Style.ofBag buy.draft.attributes =
      { fill := some ⟨51, 102, 153⟩, strokeWidth := some 2 } := by
    decide +kernel
  refine ⟨_, he, ?_, ?_⟩
  · rw [own]
    rfl
  · rw [own]
    rfl

/-! ## Elements from top to bottom -/

namespace Element

/-- How far down an element stands: the place of its upper edge in the total order of IEEE 754. -/
def level (e : Element) : ℤ := Binary64.place e.frame.y.toBits

theorem notBelow_iff (a b : Element) : notBelow a b = true ↔ a.level ≤ b.level := decide_eq_true_iff

/-- The second list is the first one sorted from top to bottom, in which elements at one height keep
their order. -/
structure SortsTo (es sorted : List Element) : Prop where
  perm : sorted.Perm es
  ordered : sorted.Pairwise (·.level ≤ ·.level)
  stable : ∀ y, sorted.filter (·.level = y) = es.filter (·.level = y)

/-- The sort by height keeps the order of elements at one height. -/
theorem sortsTo_topDown (es : List Element) : SortsTo es (topDown es) where
  perm := List.mergeSort_perm es notBelow
  ordered := pairwise_mergeSort_key notBelow_iff es
  stable := filter_mergeSort_key notBelow_iff es

/-- There is one list that is sorted in this way. -/
theorem SortsTo.unique {es sorted sorted' : List Element} (h : SortsTo es sorted)
    (h' : SortsTo es sorted') : sorted = sorted' := by
  apply eq_of_pairwise_of_filter h.ordered h'.ordered
  intro y
  rw [h.stable, h'.stable]

theorem sortsTo_pair {a b : Element} (h : b.level < a.level) : SortsTo [a, b] [b, a] where
  perm := .swap a b []
  ordered := List.pairwise_pair.2 h.le
  stable y := by
    by_cases low : a.level = y
    · simp [low, (low ▸ h).ne]
    · simp [List.filter_cons, low]

end Element

/-! ## Sections -/

namespace Group

variable {d : Draft} {children : List Element}

theorem isSome_rule_iff (c : Element) :
    (rule c).isSome ↔ part c = .header ∨ part c = .bound := by
  unfold rule
  cases part c <;> simp

/-- At most one child is a header, and at most one is a bound. -/
theorem unrepeated_iff : Draft.Unrepeated part rule children ↔
    (children.filter (part · = .header)).length ≤ 1 ∧
      (children.filter (part · = .bound)).length ≤ 1 := by
  rw [Draft.unrepeated_iff (fun slot => slot = .header ∨ slot = .bound) isSome_rule_iff]
  simp

/-- A section is built from at most one header, exactly one bound and at least one cell. -/
theorem build_ok_iff : (∃ e, (build d children).outcome = .ok e) ↔
    (children.filter (part · = .header)).length ≤ 1 ∧
      (children.filter (part · = .bound)).length = 1 ∧ children.filter (part · = .cell) ≠ [] := by
  rw [← Outcome.fault?_eq_none, fault?_build, checks, Outcome.firstFault_append,
    Option.or_eq_none_iff, Draft.firstFault_repeated_eq_none, unrepeated_iff,
    Draft.firstFault_verdict_eq_none, Draft.firstFault_verdict_eq_none, ← List.head?_filter,
    List.isEmpty_eq_false_iff, Option.isNone_eq_false_iff, List.isSome_head?]
  have one (bounds : List Element) : bounds.length = 1 ↔ bounds.length ≤ 1 ∧ bounds ≠ [] := by
    rw [← List.length_pos_iff]
    omega
  rw [one]
  constructor
  · rintro ⟨⟨headers, bounds⟩, cells, some, -⟩
    exact ⟨headers, ⟨bounds, some⟩, cells⟩
  · rintro ⟨headers, ⟨bounds, some⟩, cells⟩
    exact ⟨⟨headers, bounds⟩, cells, some, rfl⟩

/-- Which rule a section breaks: the first repetition, then the missing cells, then the missing
bound. -/
theorem build_error_iff {f : Failure} : (build d children).outcome = .error f ↔
    ∃ r, f = .structural d.id r ∧ (Draft.BreaksFirst part rule children r ∨
      (children.filter (part · = .header)).length ≤ 1 ∧
        (children.filter (part · = .bound)).length ≤ 1 ∧
          (children.filter (part · = .cell) = [] ∧ r = .noCells ∨
            children.filter (part · = .cell) ≠ [] ∧ children.filter (part · = .bound) = [] ∧
              r = .noSectionBound)) := by
  rw [← Outcome.fault?_eq_some, fault?_build, checks, Outcome.firstFault_append,
    Option.or_eq_some_iff, Draft.firstFault_repeated_eq_none, Draft.firstFault_repeated_eq_some,
    unrepeated_iff, Draft.firstFault_verdict_eq_some, Draft.firstFault_verdict_eq_some,
    ← List.head?_filter, List.isEmpty_iff, List.isEmpty_eq_false_iff, Option.isNone_iff_eq_none,
    List.head?_eq_none_iff]
  constructor
  · rintro (⟨r, rfl, first⟩ | ⟨⟨headers, bounds⟩, ⟨cells, rfl⟩ | ⟨cells, ⟨none, rfl⟩ | ⟨-, rest⟩⟩⟩)
    · exact ⟨r, rfl, .inl first⟩
    · exact ⟨_, rfl, .inr ⟨headers, bounds, .inl ⟨cells, rfl⟩⟩⟩
    · exact ⟨_, rfl, .inr ⟨headers, bounds, .inr ⟨cells, none, rfl⟩⟩⟩
    · cases rest
  · rintro ⟨r, rfl, first | ⟨headers, bounds, ⟨cells, rfl⟩ | ⟨cells, none, rfl⟩⟩⟩
    · exact .inl ⟨r, rfl, first⟩
    · exact .inr ⟨⟨headers, bounds⟩, .inl ⟨cells, rfl⟩⟩
    · exact .inr ⟨⟨headers, bounds⟩, .inr ⟨cells, .inl ⟨none, rfl⟩⟩⟩

end Group

/-- A section is made of children among which at most one is a header, exactly one is a bound and at
least one is a cell. Otherwise the first child that comes second for the header or the bound decides
the failure, and if there is none the lack of cells goes before the lack of a bound. The cells are
sorted from top to bottom, and the names of their types stand for the cells drawn first. -/
theorem Prepared.build_group {p : Prepared} (declared : p.declared = .group)
    (children : List Element) :
    let headers := children.filter (Group.part · = .header)
    let cells := children.filter (Group.part · = .cell)
    let bounds := children.filter (Group.part · = .bound)
    ((∃ e, (p.build children).outcome = .ok e) ↔
        headers.length ≤ 1 ∧ bounds.length = 1 ∧ cells ≠ []) ∧
      (∀ f, (p.build children).outcome = .error f ↔ ∃ r, f = .structural p.draft.id r ∧
        (Draft.BreaksFirst Group.part Group.rule children r ∨
          headers.length ≤ 1 ∧ bounds.length ≤ 1 ∧
            (cells = [] ∧ r = .noCells ∨ cells ≠ [] ∧ bounds = [] ∧ r = .noSectionBound))) ∧
      ∀ e, (p.build children).outcome = .ok e → ∃ header bound sorted names,
        headers = header.toList ∧ bounds = [bound] ∧ Element.SortsTo cells sorted ∧
        (∀ name, names.get? name =
          (cells.find? fun c => Layer.derivedName c.id "cell" = name).map (·.id)) ∧
        e = p.draft.element (.group
          { header, cells := sorted, customCells := names, bound,
            separator := [], tableSeparate := false }) := by
  intro headers cells bounds
  rw [show p.build children = Group.build p.draft children by rw [Prepared.build, declared]]
  refine ⟨Group.build_ok_iff, fun f => Group.build_error_iff, ?_⟩
  intro e made
  obtain ⟨single, one, -⟩ := Group.build_ok_iff.1 ⟨e, made⟩
  obtain ⟨bound, first, -, rfl⟩ := Group.build_eq_ok made
  obtain ⟨b, hb⟩ := List.length_eq_one_iff.1 one
  rw [← List.head?_filter] at first
  refine ⟨_, bound, _, _, ?_, ?_, Element.sortsTo_topDown cells, ?_, rfl⟩
  · rw [← List.head?_filter]
    exact eq_toList_head? single
  · rw [hb, List.head?_cons, Option.some.injEq] at first
    exact first ▸ hb
  · intro name
    exact NameMap.get?_firstOf_map _ _ cells name

namespace Group

/-- A container at the given height. -/
def placed (id : String) (y : Float) (role : ContainerRole) : Element :=
  ⟨id, {}, ⟨0, y, 60, 20⟩, .container ⟨role, []⟩⟩

/-- The cells are drawn bottom up, and the lower one is called a bound. -/
def menuParts : List Element :=
  [placed "menuCellBound" 60 .cell, placed "menuHeader" 0 .header,
    ⟨"menuBound", {}, ⟨0, 0, 60, 80⟩, .shape .rect⟩, placed "menuCell" 40 .cell,
    placed "note" 80 .view]

/-- A section without attributes. -/
def menu : Prepared where
  draft := ⟨"menu", "Section", "g", ⟨0, 0, 60, 80⟩, .empty, [], []⟩
  declared := .group
  ownFill := none

end Group

open CanvasLayout.Group in
/-- The lower cell comes last and stands for the type of both, for it is drawn first. -/
theorem Prepared.build_group_menu : ∃ e g, (menu.build menuParts).outcome = .ok e ∧
    e.layer = .group g ∧ g.cells.map (·.id) = ["menuCell", "menuCellBound"] ∧
      g.customCells.get? "MenuCell" = some "menuCellBound" ∧ g.bound.id = "menuBound" := by
  obtain ⟨made, -, known⟩ := Prepared.build_group (p := menu) rfl menuParts
  have cells : 0 < (menuParts.filter (part · = .cell)).length := by decide +kernel
  obtain ⟨e, he⟩ :=
    made.2 ⟨by decide +kernel, by decide +kernel, List.ne_nil_of_length_pos cells⟩
  obtain ⟨header, bound, sorted, names, -, bounds, sorts, named, rfl⟩ := known e he
  refine ⟨_, _, he, rfl, ?_, ?_, ?_⟩
  · show sorted.map (·.id) = _
    have below : (placed "menuCell" 40 .cell).level < (placed "menuCellBound" 60 .cell).level := by
      decide +kernel
    rw [sorts.unique (Element.sortsTo_pair below)]
    rfl
  · show names.get? "MenuCell" = _
    rw [named]
    decide +kernel
  · have only : (menuParts.filter (part · = .bound)).map (·.id) = ["menuBound"] := by
      decide +kernel
    rw [bounds] at only
    exact List.singleton_inj.1 only

/-! ## Tables and collections -/

/-- The gaps that a kind of list records of elements one behind the other: fewer than two have none, a
table has the gap from the first down to the second, and a collection the gap from the first across
to the second and, if there is one further down than the first, the gap down to the first such. -/
inductive ListKind.Gaps : ListKind → List Element → List Float → Prop
  | few {kind : ListKind} {es : List Element} (few : es.length < 2) : Gaps kind es []
  | table {a b : Element} {rest : List Element} :
    Gaps .table (a :: b :: rest) [a.frame.spacing b.frame .vertical]
  | row {a b : Element} {rest : List Element}
    (level : ∀ c ∈ a :: b :: rest, ¬ a.frame.y < c.frame.y) :
    Gaps .collection (a :: b :: rest) [a.frame.spacing b.frame .horizontal]
  | rows {a b c : Element} {rest before after : List Element}
    (split : a :: b :: rest = before ++ c :: after)
    (level : ∀ x ∈ before, ¬ a.frame.y < x.frame.y) (below : a.frame.y < c.frame.y) :
    Gaps .collection (a :: b :: rest)
      [a.frame.spacing b.frame .horizontal, a.frame.spacing c.frame .vertical]

theorem ListKind.gaps_cellSpacing (kind : ListKind) (es : List Element) :
    Gaps kind es (kind.cellSpacing es) := by
  match es with
  | [] => cases kind <;> exact .few (by simp)
  | [a] => cases kind <;> exact .few (by simp)
  | a :: b :: rest =>
    cases kind with
    | table => exact .table
    | collection =>
      unfold cellSpacing
      dsimp only
      cases found : (a :: b :: rest).find? fun c => Scalar.lt a.frame.y c.frame.y with
      | none =>
        rw [List.find?_eq_none] at found
        exact .row fun c hc below => found c hc (decide_eq_true below)
      | some c =>
        obtain ⟨below, before, after, split, level⟩ := List.find?_eq_some_iff_append.1 found
        refine .rows split (fun x hx above => ?_) (of_decide_eq_true below)
        have apart : (!decide (a.frame.y < x.frame.y)) = true := level x hx
        simp [above] at apart

/-- A kind of list records nothing else. -/
theorem ListKind.Gaps.eq_cellSpacing {kind : ListKind} {es : List Element} {gaps : List Float}
    (h : Gaps kind es gaps) : gaps = kind.cellSpacing es := by
  cases h with
  | few few =>
    match es, few with
    | [], _ => cases kind <;> rfl
    | [_], _ => cases kind <;> rfl
  | table => rfl
  | @row a b rest level =>
    have none : (a :: b :: rest).find? (fun c => Scalar.lt a.frame.y c.frame.y) = none := by
      rw [List.find?_eq_none]
      exact fun c hc below => level c hc (of_decide_eq_true below)
    unfold cellSpacing
    simp only [none, Option.map_none, Option.toList_none]
  | @rows a b c rest before after split level below =>
    have first : (a :: b :: rest).find? (fun c => Scalar.lt a.frame.y c.frame.y) = some c := by
      rw [List.find?_eq_some_iff_append]
      refine ⟨decide_eq_true below, before, after, split, fun x hx => ?_⟩
      have apart : Scalar.lt a.frame.y x.frame.y = false := decide_eq_false (level x hx)
      rw [apart, Bool.not_false]
    unfold cellSpacing
    simp only [first, Option.map_some, Option.toList_some]

namespace ListView

/-- The second element is the section that the first one is, with the gaps between its cells as a
list of the kind records them, and marked when the cells of a table stand apart. -/
def Spaces (kind : ListKind) (s s' : Element) : Prop :=
  ∃ g separator tableSeparate, s.layer = .group g ∧
    s' = { s with layer := .group { g with separator, tableSeparate } } ∧
    kind.Gaps g.cells separator ∧
    (tableSeparate = true ↔ kind = .table ∧ ∃ gap, separator = [gap] ∧ 0 < gap)

theorem spaces_space {kind : ListKind} {s : Element} (h : s.layer.group?.isSome) :
    Spaces kind s (space kind s) := by
  obtain ⟨g, hg⟩ : ∃ g, s.layer = .group g := by
    cases hl : s.layer <;> simp_all [Layer.group?]
  have gaps := kind.gaps_cellSpacing g.cells
  refine ⟨g, _, _, hg, space_of_group hg, gaps, ?_⟩
  cases kind with
  | collection => simp
  | table =>
    generalize g.cells = cells at gaps ⊢
    generalize ListKind.cellSpacing .table cells = separator at gaps ⊢
    cases gaps with
    | few => simp
    | table => simp [Scalar.lt]

/-- Which gaps these are. -/
theorem Spaces.separator_eq {kind : ListKind} {s s' : Element} (h : Spaces kind s s') :
    s'.layer.group?.map (·.separator) = s.layer.group?.map fun g => kind.cellSpacing g.cells := by
  obtain ⟨g, separator, tableSeparate, hg, rfl, gaps, -⟩ := h
  rw [hg, gaps.eq_cellSpacing]
  rfl

/-- Lists record the gap between sections as tables do between cells, and the gaps between cells that
are written into the sections do not change it. -/
theorem sectionSpacing_space (kind : ListKind) (es : List Element) :
    sectionSpacing (es.map (space kind)) = ListKind.cellSpacing .table es := by
  match es with
  | [] => rfl
  | [_] => rfl
  | a :: b :: rest =>
    show [(space kind a).frame.spacing (space kind b).frame .vertical] = _
    rw [frame_space, frame_space]
    rfl

/-- Nor do they change the headers. -/
theorem headerNames_space (kind : ListKind) (es : List Element) :
    headerNames (es.map (space kind)) = headerNames es := by
  have header (s : Element) : (space kind s).layer.group?.bind (·.header) =
      s.layer.group?.bind (·.header) := by
    unfold space
    cases hl : s.layer with
    | group g => rfl
    | _ => simp only [hl]
  unfold headerNames
  rw [List.filterMap_map]
  simp only [Function.comp_def, header]

variable {d : Draft} {kind : ListKind} {children : List Element}

theorem unrepeated_iff : Draft.Unrepeated part rule children ↔
    (children.filter (part · = .bound)).length ≤ 1 := by
  have ruled (c : Element) : (rule c).isSome ↔ part c = .bound := by
    unfold rule
    cases part c <;> simp
  rw [Draft.unrepeated_iff (· = .bound) ruled, forall_eq]

/-- The only child that may not come second is a bound. -/
theorem breaksFirst_iff {r : StructuralRule} : Draft.BreaksFirst part rule children r ↔
    1 < (children.filter (part · = .bound)).length ∧ r = .secondListBound := by
  have only (r' : StructuralRule) (h : Draft.BreaksFirst part rule children r') :
      r' = .secondListBound := by
    obtain ⟨before, c, after, -, -, -, hr⟩ := h
    unfold rule at hr
    cases hc : part c <;> simp_all
  rw [← not_le, ← unrepeated_iff, ← Draft.exists_breaksFirst_iff]
  constructor
  · exact fun h => ⟨⟨r, h⟩, only r h⟩
  · rintro ⟨⟨r', h⟩, rfl⟩
    exact only r' h ▸ h

variable {id : String} {scroll : Option ScrollDirection}

/-- With a name that a list can have, what is left to check are the children. -/
theorem fault?_build_named (named : identity kind d.id = .ok (id, scroll)) :
    (build d kind children).outcome.fault? = firstFault (d.repeated part rule [] children ++
      [d.verdict (children.filter (part · = .group)).isEmpty .noSections]) := by
  rw [fault?_build, checks, named]
  rfl

/-- A list is built from at most one bound and at least one section. -/
theorem build_ok_iff (named : identity kind d.id = .ok (id, scroll)) :
    (∃ e, (build d kind children).outcome = .ok e) ↔
      (children.filter (part · = .bound)).length ≤ 1 ∧ children.filter (part · = .group) ≠ [] := by
  rw [← Outcome.fault?_eq_none, fault?_build_named named, Outcome.firstFault_append,
    Option.or_eq_none_iff, Draft.firstFault_repeated_eq_none, unrepeated_iff,
    Draft.firstFault_verdict_eq_none, List.isEmpty_eq_false_iff]
  exact and_congr_right fun _ => and_iff_left rfl

/-- Which rule a list breaks: a second bound goes before missing sections. -/
theorem build_error_iff (named : identity kind d.id = .ok (id, scroll)) {f : Failure} :
    (build d kind children).outcome = .error f ↔ ∃ r, f = .structural d.id r ∧
      (1 < (children.filter (part · = .bound)).length ∧ r = .secondListBound ∨
        (children.filter (part · = .bound)).length ≤ 1 ∧ children.filter (part · = .group) = [] ∧
          r = .noSections) := by
  rw [← Outcome.fault?_eq_some, fault?_build_named named, Outcome.firstFault_append,
    Option.or_eq_some_iff, Draft.firstFault_repeated_eq_none, Draft.firstFault_repeated_eq_some,
    unrepeated_iff, Draft.firstFault_verdict_eq_some, List.isEmpty_iff]
  simp only [breaksFirst_iff]
  constructor
  · rintro (⟨r, rfl, many, rfl⟩ | ⟨few, ⟨sections, rfl⟩ | ⟨-, rest⟩⟩)
    · exact ⟨_, rfl, .inl ⟨many, rfl⟩⟩
    · exact ⟨_, rfl, .inr ⟨few, sections, rfl⟩⟩
    · cases rest
  · rintro ⟨r, rfl, ⟨many, rfl⟩ | ⟨few, sections, rfl⟩⟩
    · exact .inl ⟨_, rfl, many, rfl⟩
    · exact .inr ⟨few, .inl ⟨sections, rfl⟩⟩

end ListView

/-- A list with a name that it can have is made of children among which at most one is a bound, which
is checked first, and at least one is a section. The sections are sorted from top to bottom and then
each is given the gaps between its cells; the list records the gap between the first two of them, and
the names of types of headers stand for the headers of the sections that come first. -/
theorem Prepared.build_list {p : Prepared} {kind : ListKind} {id : String}
    {scroll : Option ScrollDirection} (declared : p.declared = .list kind)
    (named : ListView.identity kind p.draft.id = .ok (id, scroll)) (children : List Element) :
    let sections := children.filter (ListView.part · = .group)
    let bounds := children.filter (ListView.part · = .bound)
    ((∃ e, (p.build children).outcome = .ok e) ↔ bounds.length ≤ 1 ∧ sections ≠ []) ∧
      (∀ f, (p.build children).outcome = .error f ↔ ∃ r, f = .structural p.draft.id r ∧
        (1 < bounds.length ∧ r = .secondListBound ∨
          bounds.length ≤ 1 ∧ sections = [] ∧ r = .noSections)) ∧
      ∀ e, (p.build children).outcome = .ok e → ∃ sorted spaced separator names bound,
        Element.SortsTo sections sorted ∧ List.Forall₂ (ListView.Spaces kind) sorted spaced ∧
        ListKind.Gaps .table sorted separator ∧
        (∀ name, names.get? name = ((sorted.filterMap fun s => s.layer.group?.bind (·.header)).find?
          fun h => Layer.derivedName h.id "header" = name).map (·.id)) ∧
        bounds = bound.toList ∧
        e = { p.draft.element (.list
                { kind, scroll, sections := spaced, separator, customHeaders := names, bound })
              with id } := by
  intro sections bounds
  rw [show p.build children = ListView.build p.draft kind children by rw [Prepared.build, declared]]
  refine ⟨ListView.build_ok_iff named, fun f => ListView.build_error_iff named, ?_⟩
  intro e made
  have single := ((ListView.build_ok_iff named).1 ⟨e, made⟩).1
  obtain ⟨id', scroll', named', -, rfl⟩ := ListView.build_eq_ok made
  obtain ⟨rfl, rfl⟩ := Prod.mk.inj (Except.ok.inj (named.symm.trans named'))
  have drawn : ∀ s ∈ Element.topDown sections, s.layer.group?.isSome := by
    intro s hs
    exact ListView.part_eq_group.1 (mem_filter_part.1 (Element.mem_topDown.1 hs)).2
  let spaced := (Element.topDown sections).map (ListView.space kind)
  refine ⟨Element.topDown sections, spaced, ListView.sectionSpacing spaced,
    ListView.headerNames spaced, bounds.head?, Element.sortsTo_topDown sections, ?_, ?_, ?_,
    eq_toList_head? single, ?_⟩
  · rw [List.forall₂_map_right_iff, List.forall₂_same]
    exact fun s hs => ListView.spaces_space (drawn s hs)
  · rw [ListView.sectionSpacing_space kind]
    exact ListKind.gaps_cellSpacing .table _
  · intro name
    rw [ListView.headerNames_space kind]
    exact NameMap.get?_firstOf_map _ _ _ name
  · rw [List.head?_filter]

namespace ListView

/-- A cell at the given corner. -/
def cell (x y : Float) : Element := ⟨"cell", {}, ⟨x, y, 20, 10⟩, .container ⟨.cell, []⟩⟩

/-- A section at the given height with a header. -/
def block (id : String) (y : Float) (cells : List Element) : Element where
  id := id
  style := {}
  frame := ⟨0, y, 60, 30⟩
  layer := .group
    { header := some ⟨id ++ "Header1", {}, ⟨0, y, 60, 5⟩, .container ⟨.header, []⟩⟩
      cells
      customCells := .empty
      bound := ⟨"bound", {}, ⟨0, y, 60, 30⟩, .shape .rect⟩
      separator := []
      tableSeparate := false }

/-- A section of two rows. -/
def upper : Element := block "list" 0 [cell 0 5, cell 24 5, cell 48 5, cell 0 18]

/-- A section of one cell. -/
def lower : Element := block "list" 36 [cell 0 42]

/-- A collection that scrolls. -/
def grid : Prepared where
  draft := ⟨"grid:horizontal", "UICollectionView", "g", ⟨0, 0, 60, 80⟩, .empty, [], []⟩
  declared := .list .collection
  ownFill := none

end ListView

open CanvasLayout.ListView in
/-- The sections are drawn bottom up, and only the upper one has gaps between its cells. -/
theorem Prepared.build_list_grid : ∃ e l, (grid.build [lower, cell 0 0, upper]).outcome = .ok e ∧
    e.id = "grid" ∧ e.layer = .list l ∧ l.scroll = some .horizontal ∧ l.separator = [6] ∧
      l.sections.map (fun s => s.layer.group?.map (·.separator)) = [some [4, 3], some []] ∧
      l.customHeaders.get? "ListHeader" = some "listHeader1" := by
  have name : identity .collection grid.draft.id = .ok ("grid", some .horizontal) := by
    decide +kernel
  obtain ⟨made, -, known⟩ := Prepared.build_list (p := grid) rfl name [lower, cell 0 0, upper]
  have sections : [lower, cell 0 0, upper].filter (part · = .group) = [lower, upper] := rfl
  obtain ⟨e, he⟩ := made.2 ⟨by decide +kernel, by rw [sections]; nofun⟩
  obtain ⟨sorted, spaced, separator, names, bound, sorts, spaces, gaps, named, -, rfl⟩ := known e he
  have below : upper.level < lower.level := by decide +kernel
  rw [sections] at sorts
  obtain rfl := sorts.unique (Element.sortsTo_pair below)
  obtain ⟨u, _, upper', rest, rfl⟩ := List.forall₂_cons_left_iff.1 spaces
  obtain ⟨l, _, lower', last, rfl⟩ := List.forall₂_cons_left_iff.1 rest
  obtain rfl := List.forall₂_nil_left_iff.1 last
  refine ⟨_, _, he, rfl, rfl, rfl, ?_, ?_, ?_⟩
  · show separator = _
    rw [gaps.eq_cellSpacing]
    decide +kernel
  · show [u.layer.group?.map (·.separator), l.layer.group?.map (·.separator)] = _
    rw [upper'.separator_eq, lower'.separator_eq]
    decide +kernel
  · show names.get? "ListHeader" = _
    rw [named]
    decide +kernel

end CanvasLayout
