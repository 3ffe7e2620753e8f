import CanvasLayout.Layer.Draft
import CanvasLayout.Proofs.Outcome
import Mathlib.Tactic.Choose

/-!
# What resolution makes of attributes

`Bag.resolve_eq_ok` and `Bag.resolve_eq_error` say when a bag is resolved, to which bag, and
which attribute is to blame otherwise. `Draft.resolve_law` restates this by lookups alone. A bag
that came out of resolution is `Bag.Resolved`, and such a bag takes nothing from any other
source: `Draft.resolve_of_resolve`.
-/

namespace CanvasLayout

namespace AttributeKey

variable {k : AttributeKey} {v w : AttributeValue}

/-- The value is null or of the attribute's kind. -/
def Admits (k : AttributeKey) : AttributeValue → Prop
  | .raw _ => False
  | .null => True
  | .color _ => k.kind = .color
  | .number _ => k.kind = .number
  | .text _ => k.kind = .text

/-- What a text is converted to is of the attribute's kind. -/
theorem admits_of_convertRaw {s : String} (h : k.convertRaw s = .ok w) : k.Admits w := by
  unfold convertRaw at h
  cases kind : k.kind with
  | color =>
    simp only [kind] at h
    split at h
    · obtain rfl := Except.ok.inj h
      trivial
    · split at h
      · obtain rfl := Except.ok.inj h
        exact kind
      · cases h
  | number =>
    simp only [kind] at h
    split at h
    · obtain rfl := Except.ok.inj h
      exact kind
    · cases h
  | text =>
    simp only [kind] at h
    split at h
    · obtain rfl := Except.ok.inj h
      exact kind
    · split at h
      · obtain rfl := Except.ok.inj h
        exact kind
      · cases h
    · obtain rfl := Except.ok.inj h
      exact kind

theorem ite_eq_ok {p : Prop} [Decidable p] {fault : ConversionFault} :
    (if p then .ok v else .error fault : Except ConversionFault AttributeValue) = .ok w ↔
      p ∧ v = w := by
  by_cases h : p <;> simp [h]

/-- What any value is converted to is null or of the attribute's kind. -/
theorem admits_of_convert (h : k.convert v = .ok w) : k.Admits w := by
  cases v with
  | raw s => exact admits_of_convertRaw (s := s) h
  | null =>
    obtain rfl : .null = w := Except.ok.inj h
    trivial
  | color c =>
    obtain ⟨kind, rfl⟩ := ite_eq_ok.1 h
    exact kind
  | number x =>
    obtain ⟨kind, rfl⟩ := ite_eq_ok.1 h
    exact kind
  | text s =>
    obtain ⟨kind, rfl⟩ := ite_eq_ok.1 h
    exact kind

/-- A value that needs no conversion stands for itself. -/
theorem convert_of_admits (h : k.Admits w) : k.convert w = .ok w := by
  cases w with
  | raw s => cases h
  | null => rfl
  | color c => exact if_pos h
  | number x => exact if_pos h
  | text s => exact if_pos h

end AttributeKey

namespace Bag

variable {own ancestor : Bag} {entry : Option Bag} {b : Bag} {k : AttributeKey}
  {v : AttributeKey → AttributeValue} {element : String}

/-! ## The winning value -/

/-- The lookups that decide a recognized attribute, in order: under each of its spellings on the
node itself, on its parent, and in the override entry. -/
def lookups (own ancestor : Bag) (entry : Option Bag) (k : AttributeKey) :
    List (Option AttributeValue) :=
  k.spellings.map own.get? ++ k.spellings.map ancestor.get? ++
    entry.elim [] fun b => k.spellings.map b.get?

/-- The first hit of the lookups, null when all of them miss. -/
def firstHit (own ancestor : Bag) (entry : Option Bag) (k : AttributeKey) : AttributeValue :=
  ((own.lookups ancestor entry k).findSome? id).getD .null

theorem winner_eq_firstHit (own ancestor : Bag) (entry : Option Bag) (k : AttributeKey) :
    own.winner ancestor entry k = own.firstHit ancestor entry k := by
  have hits (b : Bag) : (k.spellings.map b.get?).findSome? id = b.find? k := by
    rw [List.findSome?_map]
    rfl
  unfold winner firstHit lookups
  rw [List.findSome?_append, List.findSome?_append, hits, hits]
  cases entry with
  | none => cases own.find? k <;> cases ancestor.find? k <;> rfl
  | some e =>
    rw [Option.elim_some, hits]
    cases own.find? k <;> cases ancestor.find? k <;> rfl

/-- A value under the canonical name wins over everything else. -/
theorem winner_of_get? {w : AttributeValue} (h : own.get? k.name = some w) (ancestor : Bag)
    (entry : Option Bag) : own.winner ancestor entry k = w := by
  have found : own.find? k = some w := by
    rw [find?, AttributeKey.spellings, List.findSome?_cons, h]
  rw [winner, found]
  rfl

/-! ## Writing values under canonical names -/

/-- The bag with a value for each recognized attribute under its canonical name. -/
def settle (b : Bag) (v : AttributeKey → AttributeValue) : Bag :=
  AttributeKey.all.foldl (fun b k => b.insert k.name (v k)) b

/-- Values inserted one after the other stand under the names of their keys. -/
theorem get?_foldl_insert (ks : List AttributeKey) (b : Bag) (name : String) :
    (ks.foldl (fun b k => b.insert k.name (v k)) b).get? name =
      ((ks.find? (·.name = name)).map v).or (b.get? name) := by
  induction ks generalizing b with
  | nil => rfl
  | cons k ks ih =>
    rw [List.foldl_cons, ih, NameMap.get?_insert, List.find?_cons]
    by_cases h : k.name = name
    · simp only [h, decide_true, if_true, Option.map_some, Option.some_or]
      cases hj : ks.find? (·.name = name) with
      | none => rfl
      | some j =>
        have : j = k := AttributeKey.name_injective (by simpa [h] using List.find?_some hj)
        rw [this]
        rfl
    · simp only [h, Ne.symm h, decide_false, if_false]

theorem get?_settle_name (b : Bag) (v : AttributeKey → AttributeValue) (k : AttributeKey) :
    (b.settle v).get? k.name = some (v k) := by
  have found : AttributeKey.all.find? (·.name = k.name) = some k := by
    cases h : AttributeKey.all.find? (·.name = k.name) with
    | none => simpa using List.find?_eq_none.1 h k k.mem_all
    | some j =>
      have : j = k := AttributeKey.name_injective (by simpa using List.find?_some h)
      rw [this]
  rw [settle, get?_foldl_insert, found]
  rfl

theorem get?_settle_of_ne {name : String} (h : ∀ k : AttributeKey, k.name ≠ name) :
    (b.settle v).get? name = b.get? name := by
  have absent : AttributeKey.all.find? (·.name = name) = none := by
    rw [List.find?_eq_none]
    intro k _
    simpa using h k
  rw [settle, get?_foldl_insert, absent]
  rfl

theorem get?_foldOpacity_fillOpacity (b : Bag) :
    b.foldOpacity.get? AttributeKey.fillOpacity.name = some .null := by
  rw [foldOpacity, NameMap.get?_insert, if_pos rfl]

theorem get?_foldOpacity_opacity (b : Bag) :
    b.foldOpacity.get? AttributeKey.opacity.name = some (combinedOpacity
      ((b.get? AttributeKey.fillOpacity.name).bind AttributeValue.number?)
      ((b.get? AttributeKey.opacity.name).bind AttributeValue.number?)) := by
  rw [foldOpacity, NameMap.get?_insert, if_neg (by decide), NameMap.get?_insert, if_pos rfl]

theorem get?_foldOpacity_of_ne {name : String} (opacity : name ≠ AttributeKey.opacity.name)
    (fill : name ≠ AttributeKey.fillOpacity.name) : b.foldOpacity.get? name = b.get? name := by
  rw [foldOpacity, NameMap.get?_insert, if_neg fill, NameMap.get?_insert, if_neg opacity]

/-! ## The outcome -/

/-- An attribute is resolved when the winning value converts. -/
theorem resolved_eq_ok {w : AttributeValue} :
    own.resolved element ancestor entry k = .ok w ↔
      k.convert (own.winner ancestor entry k) = .ok w := by
  rw [resolved]
  cases k.convert (own.winner ancestor entry k) with
  | ok w' => simp
  | error reason => simp

/-- Otherwise it fails on the winning value, for the reason that its conversion gives. -/
theorem resolved_eq_error {f : Failure} :
    own.resolved element ancestor entry k = .error f ↔
      ∃ reason, k.convert (own.winner ancestor entry k) = .error reason ∧
        f = .conversion element k (own.winner ancestor entry k) reason := by
  rw [resolved]
  cases k.convert (own.winner ancestor entry k) with
  | ok w => simp
  | error reason => simp [eq_comm]

/-- The named result for one attribute, as resolution collects it. -/
def named (element : String) (own ancestor : Bag) (entry : Option Bag) (k : AttributeKey) :
    Outcome (String × AttributeValue) :=
  (own.resolved element ancestor entry k).bind fun w => .ok (k.name, w)

/-- Resolution in two steps: all attributes first, then the fold of the opacities. -/
theorem resolve_eq_bind : own.resolve element ancestor entry =
    (AttributeKey.all.mapM (named element own ancestor entry)).bind fun values =>
      .ok (foldOpacity (values.foldl (fun b (name, w) => b.insert name w) own)) := rfl

/-- When all winning values convert, the bag is settled with what they convert to. -/
theorem resolve_of_convert
    (h : ∀ k : AttributeKey, k.convert (own.winner ancestor entry k) = .ok (v k)) :
    own.resolve element ancestor entry = .ok (own.settle v).foldOpacity := by
  have collected : AttributeKey.all.mapM (named element own ancestor entry) =
      .ok (AttributeKey.all.map fun k => (k.name, v k)) := by
    rw [Outcome.mapM_eq_ok, List.map_map]
    refine List.map_congr_left fun k _ => ?_
    rw [named, resolved_eq_ok.2 (h k)]
    rfl
  rw [resolve_eq_bind, collected, settle]
  simp only [Except.bind, List.foldl_map]

theorem convert_of_resolve (h : own.resolve element ancestor entry = .ok b) (k : AttributeKey) :
    ∃ w, k.convert (own.winner ancestor entry k) = .ok w := by
  obtain ⟨values, collected, -⟩ := Outcome.bind_eq_ok.1 (resolve_eq_bind ▸ h)
  have mem : named element own ancestor entry k ∈ values.map Except.ok := by
    rw [← Outcome.mapM_eq_ok.1 collected]
    exact List.mem_map_of_mem k.mem_all
  obtain ⟨p, -, hp⟩ := List.mem_map.1 mem
  obtain ⟨w, hw, -⟩ := Outcome.bind_eq_ok.1 hp.symm
  exact ⟨w, resolved_eq_ok.1 hw⟩

/-- A bag is resolved when all winners convert, and then to their converted values. -/
theorem resolve_eq_ok : own.resolve element ancestor entry = .ok b ↔
    ∃ v : AttributeKey → AttributeValue,
      (∀ k : AttributeKey, k.convert (own.winner ancestor entry k) = .ok (v k)) ∧
        b = (own.settle v).foldOpacity := by
  constructor
  · intro h
    choose v hv using convert_of_resolve h
    refine ⟨v, hv, ?_⟩
    rw [resolve_of_convert hv] at h
    exact (Except.ok.inj h).symm
  · rintro ⟨v, hv, rfl⟩
    exact resolve_of_convert hv

/-- A bag is not resolved when some winner does not convert, and the first such attribute is to
blame. -/
theorem resolve_eq_error {f : Failure} : own.resolve element ancestor entry = .error f ↔
    ∃ before k after reason, AttributeKey.all = before ++ k :: after ∧
      (∀ j ∈ before, ∃ w, j.convert (own.winner ancestor entry j) = .ok w) ∧
      k.convert (own.winner ancestor entry k) = .error reason ∧
      f = .conversion element k (own.winner ancestor entry k) reason := by
  have one (k : AttributeKey) : named element own ancestor entry k = .error f ↔
      ∃ reason, k.convert (own.winner ancestor entry k) = .error reason ∧
        f = .conversion element k (own.winner ancestor entry k) reason := by
    rw [named, Outcome.bind_eq_error, resolved_eq_error]
    simp
  have fine (k : AttributeKey) : (∃ p, named element own ancestor entry k = .ok p) ↔
      ∃ w, k.convert (own.winner ancestor entry k) = .ok w := by
    simp only [named, Outcome.bind_eq_ok, resolved_eq_ok]
    constructor
    · rintro ⟨-, w, hw, -⟩
      exact ⟨w, hw⟩
    · rintro ⟨w, hw⟩
      exact ⟨_, w, hw, rfl⟩
  rw [resolve_eq_bind, Outcome.bind_eq_error, Outcome.mapM_eq_error]
  simp [one, fine]

/-! ## Resolved bags -/

/-- Nothing is left to resolve: each recognized attribute stands under its canonical name with a
value of its kind or null, and the fill opacity is folded away. -/
structure Resolved (b : Bag) : Prop where
  settled : ∀ k : AttributeKey, ∃ w, b.get? k.name = some w ∧ k.Admits w
  folded : b.get? AttributeKey.fillOpacity.name = some .null

theorem admits_combinedOpacity (fill layer : Option Float) :
    AttributeKey.opacity.Admits (combinedOpacity fill layer) := by
  cases fill <;> cases layer <;> trivial

theorem resolved_of_resolve (h : own.resolve element ancestor entry = .ok b) : b.Resolved := by
  obtain ⟨v, hv, rfl⟩ := resolve_eq_ok.1 h
  refine ⟨fun k => ?_, get?_foldOpacity_fillOpacity _⟩
  by_cases fill : k = .fillOpacity
  · subst fill
    exact ⟨.null, get?_foldOpacity_fillOpacity _, trivial⟩
  by_cases opacity : k = .opacity
  · subst opacity
    exact ⟨_, get?_foldOpacity_opacity _, admits_combinedOpacity _ _⟩
  · refine ⟨v k, ?_, AttributeKey.admits_of_convert (hv k)⟩
    rw [get?_foldOpacity_of_ne (mt AttributeKey.name_injective opacity)
      (mt AttributeKey.name_injective fill), get?_settle_name]

/-- Writing down what is there already changes nothing. -/
theorem settle_of_get? (h : ∀ k : AttributeKey, b.get? k.name = some (v k)) : b.settle v = b := by
  apply NameMap.ext_get?
  intro name
  by_cases canonical : ∃ k : AttributeKey, k.name = name
  · obtain ⟨k, rfl⟩ := canonical
    rw [get?_settle_name, h]
  · exact get?_settle_of_ne (not_exists.1 canonical)

/-- Folding a second time finds no fill opacity, and the opacity stays. -/
theorem Resolved.foldOpacity (hb : b.Resolved) : b.foldOpacity = b := by
  apply NameMap.ext_get?
  intro name
  by_cases fill : name = AttributeKey.fillOpacity.name
  · rw [fill, get?_foldOpacity_fillOpacity, hb.folded]
  by_cases opacity : name = AttributeKey.opacity.name
  · obtain ⟨w, found, settled⟩ := hb.settled .opacity
    rw [opacity, get?_foldOpacity_opacity, hb.folded, found]
    cases w with
    | null => rfl
    | number x => rfl
    | raw s => cases settled
    | color c => cases settled
    | text s => cases settled
  · exact get?_foldOpacity_of_ne opacity fill

/-- A resolved bag takes nothing from any other source. -/
theorem Resolved.resolve (hb : b.Resolved) (element : String) (ancestor : Bag)
    (entry : Option Bag) : b.resolve element ancestor entry = .ok b := by
  choose v found settled using hb.settled
  have winners (k : AttributeKey) : k.convert (b.winner ancestor entry k) = .ok (v k) := by
    rw [winner_of_get? (found k)]
    exact AttributeKey.convert_of_admits (settled k)
  rw [resolve_of_convert winners, settle_of_get? found, hb.foldOpacity]

end Bag

namespace Draft

variable {d r : Draft} {ancestor ancestor' : Bag} {overrides overrides' : Overrides}

theorem resolve_eq_ok : d.resolve ancestor overrides = .ok r ↔
    ∃ b, d.attributes.resolve d.id ancestor (overrides.get? d.id) = .ok b ∧
      { d with attributes := b } = r := by
  refine Outcome.bind_eq_ok.trans (exists_congr fun b => and_congr_right fun _ => ?_)
  simp [pure, Except.pure]

theorem resolve_eq_error {f : Failure} : d.resolve ancestor overrides = .error f ↔
    d.attributes.resolve d.id ancestor (overrides.get? d.id) = .error f := by
  refine Outcome.bind_eq_error.trans ⟨fun h => ?_, .inl⟩
  rcases h with h | ⟨b, -, h⟩
  · exact h
  · cases h

/-- A resolved draft stays as it is when it is resolved again, under whatever parent and
overrides. -/
theorem resolve_of_resolve (h : d.resolve ancestor overrides = .ok r) :
    r.resolve ancestor' overrides' = .ok r := by
  obtain ⟨b, hb, rfl⟩ := resolve_eq_ok.1 h
  exact resolve_eq_ok.2 ⟨b, (Bag.resolved_of_resolve hb).resolve _ _ _, rfl⟩

/-- A half transparent rectangle that names its stroke by another spelling. -/
def veil : Draft where
  id := "veil"
  kind := "rect"
  tag := "rect"
  frame := ⟨0, 0, 40, 30⟩
  attributes := .ofRaw [("fill-opacity", "0.5"), ("stroke", "#004080"), ("data-note", "dim")]
  runs := []
  children := []

/-- The opacity of the parent is multiplied in once, and another parent and an override entry
come too late. -/
theorem resolve_of_resolve_veil :
    ∃ r, veil.resolve (.ofRaw [("opacity", "0.4"), ("fill", "none")]) .empty = .ok r ∧
      r.attributes.get? "opacity" = some (.number 0.2) ∧
      r.resolve (.ofRaw [("fill-opacity", "0.5"), ("fill", "red")])
        (.ofList [("veil", .ofRaw [("opacity", "half")])]) = .ok r := by
  obtain ⟨r, hr⟩ : ∃ r, veil.resolve (.ofRaw [("opacity", "0.4"), ("fill", "none")]) .empty = .ok r :=
    ⟨_, rfl⟩
  have opacity : (veil.resolve (.ofRaw [("opacity", "0.4"), ("fill", "none")]) .empty).toOption.bind
      (·.attributes.get? "opacity") = some (.number 0.2) := by
    decide +kernel
  rw [hr] at opacity
  exact ⟨r, hr, opacity, resolve_of_resolve hr⟩

/-- What resolution does, by lookups alone. It fails when some winner does not convert, for the
first such attribute, and otherwise writes the converted winners, which are of the kinds of their
attributes, under the canonical names and touches nothing else; only the opacities differ, the fill
opacity being folded into the other. -/
theorem resolve_law (d : Draft) (ancestor : Bag) (overrides : Overrides) :
    let won := d.attributes.firstHit ancestor (overrides.get? d.id)
    ((∃ f, d.resolve ancestor overrides = .error f) ↔
        ∃ k : AttributeKey, ∀ w, k.convert (won k) ≠ .ok w) ∧
      (∀ f, d.resolve ancestor overrides = .error f →
        ∃ before k after reason, AttributeKey.all = before ++ k :: after ∧
          (∀ j ∈ before, ∃ w, j.convert (won j) = .ok w) ∧
          k.convert (won k) = .error reason ∧ f = .conversion d.id k (won k) reason) ∧
      ∀ r, d.resolve ancestor overrides = .ok r →
        r = { d with attributes := r.attributes } ∧
        (∀ name, (∀ k : AttributeKey, k.name ≠ name) →
          r.attributes.get? name = d.attributes.get? name) ∧
        ∃ v : AttributeKey → AttributeValue,
          (∀ k : AttributeKey, k.convert (won k) = .ok (v k) ∧ k.Admits (v k)) ∧
          (∀ k : AttributeKey, k ≠ .fillOpacity → k ≠ .opacity →
            r.attributes.get? k.name = some (v k)) ∧
          r.attributes.get? AttributeKey.fillOpacity.name = some .null ∧
          r.attributes.get? AttributeKey.opacity.name = some
            (match (v .fillOpacity).number?, (v .opacity).number? with
            | some fill, some layer => .number (fill * layer)
            | some only, none => .number only
            | none, some only => .number only
            | none, none => .null) := by
  intro won
  have winner (k : AttributeKey) : d.attributes.winner ancestor (overrides.get? d.id) k = won k :=
    Bag.winner_eq_firstHit ..
  refine ⟨⟨?_, ?_⟩, ?_, ?_⟩
  · rintro ⟨f, h⟩
    obtain ⟨_, k, _, reason, -, -, fails, -⟩ := Bag.resolve_eq_error.1 (resolve_eq_error.1 h)
    refine ⟨k, fun w => ?_⟩
    rw [← winner, fails]
    nofun
  · rintro ⟨k, fails⟩
    cases h : d.resolve ancestor overrides with
    | error f => exact ⟨f, rfl⟩
    | ok r =>
      obtain ⟨b, hb, -⟩ := resolve_eq_ok.1 h
      obtain ⟨w, hw⟩ := Bag.convert_of_resolve hb k
      exact absurd (winner k ▸ hw) (fails w)
  · intro f h
    simpa only [winner] using Bag.resolve_eq_error.1 (resolve_eq_error.1 h)
  · intro r h
    obtain ⟨b, hb, rfl⟩ := resolve_eq_ok.1 h
    obtain ⟨v, hv, rfl⟩ := Bag.resolve_eq_ok.1 hb
    refine ⟨rfl, fun name other => ?_, v, fun k => ⟨winner k ▸ hv k, AttributeKey.admits_of_convert (hv k)⟩,
      fun k fill opacity => ?_, Bag.get?_foldOpacity_fillOpacity _, ?_⟩
    · rw [Bag.get?_foldOpacity_of_ne (Ne.symm (other _)) (Ne.symm (other _)),
        Bag.get?_settle_of_ne other]
    · rw [Bag.get?_foldOpacity_of_ne (mt AttributeKey.name_injective opacity)
        (mt AttributeKey.name_injective fill), Bag.get?_settle_name]
    · rw [Bag.get?_foldOpacity_opacity, Bag.get?_settle_name, Bag.get?_settle_name]
      rfl

end Draft

end CanvasLayout
