import Mathlib
import CanvasLayout.Drawing.Screen
import CanvasLayout.Proofs.Classification
import CanvasLayout.Proofs.Resolution

/-!
# Where an attribute is taken from

A recognized attribute is taken from the draft, else from its parent, else from the overrides. A
label is resolved a second time as if it had no parent, for the fill that is its own, and then the
overrides are the next to be asked: what they hold for an attribute that only the parent sets is
converted after all, and can fail. `Draft.build_shadowed` says which differences between two tables
of overrides a tree of drafts does not see.

What the layers of an artboard inherit is its own attributes, filled in from those of the page name
by name, while an attribute is looked up by its spellings in order. `Bag.find?_fillFrom_law` says
which of the two then gives the value.
-/

namespace CanvasLayout

/-! ## Overrides that are not used -/

namespace Bag

variable {own a a' : Bag} {e e' : Option Bag} {element : String}

theorem find?_empty (k : AttributeKey) : find? .empty k = none := by
  unfold find?
  simp

/-- What an attribute is resolved to depends on no more than the winning value. -/
theorem resolved_congr {k : AttributeKey} (h : own.winner a e k = own.winner a' e' k) :
    own.resolved element a e k = own.resolved element a' e' k := by
  unfold resolved
  rw [h]

/-- Of what a bag is resolved to, and of the failure otherwise, only the winners matter. -/
theorem resolve_congr (h : ∀ k, own.winner a e k = own.winner a' e' k) :
    own.resolve element a e = own.resolve element a' e' := by
  unfold resolve
  simp only [resolved_congr (h _)]

/-- The fill that a bag is resolved to, if it is resolved. -/
def resolvedFill (own : Bag) (element : String) (a : Bag) (e : Option Bag) : Outcome (Option Rgb) :=
  (own.resolve element a e).map fun b => (Style.ofBag b).fill

/-- The fill of a settled bag is the value that it was settled with. -/
theorem fill_settle {v : AttributeKey → AttributeValue} :
    (Style.ofBag (own.settle v).foldOpacity).fill = (v .fill).color? := by
  have (b : Bag) : (Style.ofBag b).fill = (b.get? AttributeKey.fill.name).bind (·.color?) := rfl
  rw [this, get?_foldOpacity_of_ne (by decide) (by decide), get?_settle_name, Option.bind_some]

/-- For the fill only its own winner matters, as long as other winners convert. -/
theorem resolvedFill_congr (fill : own.winner a e .fill = own.winner a' e' .fill)
    (others : ∀ k : AttributeKey, own.winner a e k = own.winner a' e' k ∨
      (∃ w, k.convert (own.winner a e k) = .ok w) ∧ ∃ w, k.convert (own.winner a' e' k) = .ok w) :
    own.resolvedFill element a e = own.resolvedFill element a' e' := by
  unfold resolvedFill
  cases h : own.resolve element a e with
  | error f =>
    obtain ⟨before, k, after, reason, all, passed, fails, rfl⟩ := resolve_eq_error.1 h
    have same : own.winner a e k = own.winner a' e' k := by
      rcases others k with same | ⟨⟨w, converts⟩, -⟩
      · exact same
      · rw [fails] at converts
        cases converts
    have passed' : ∀ j ∈ before, ∃ w, j.convert (own.winner a' e' j) = .ok w := by
      intro j hj
      rcases others j with same | ⟨-, converts⟩
      · rw [← same]
        exact passed j hj
      · exact converts
    rw [same] at fails
    rw [resolve_eq_error.2 ⟨before, k, after, reason, all, passed', fails, rfl⟩, same]
  | ok b =>
    obtain ⟨v, converts, rfl⟩ := resolve_eq_ok.1 h
    have converts' (k : AttributeKey) : ∃ w, k.convert (own.winner a' e' k) = .ok w := by
      rcases others k with same | ⟨-, converts'⟩
      · exact ⟨v k, same ▸ converts k⟩
      · exact converts'
    choose v' converts' using converts'
    have same : v' .fill = v .fill := by
      have := converts' .fill
      rw [← fill, converts .fill] at this
      exact (Except.ok.inj this).symm
    rw [resolve_eq_ok.2 ⟨v', converts', rfl⟩]
    simp only [Except.map, fill_settle, same]

end Bag

/-- The value that the entry for a layer gives a recognized attribute. -/
def Overrides.value? (o : Overrides) (id : String) (k : AttributeKey) : Option AttributeValue :=
  (o.get? id).bind (·.find? k)

/-- Whatever the entry for a layer gives a recognized attribute is of its kind. -/
def Overrides.Converts (o : Overrides) (id : String) (k : AttributeKey) : Prop :=
  ∀ v, o.value? id k = some v → ∃ w, k.convert v = .ok w

instance (o : Overrides) (id : String) (k : AttributeKey) : Decidable (o.Converts id k) :=
  decidable_of_iff ((o.value? id k).all fun v => (k.convert v).isOk) <| by
    unfold Overrides.Converts
    cases o.value? id k with
    | none => simp
    | some v => cases h : k.convert v <;> simp [h, Except.isOk, Except.toBool]

namespace AttributeKey

theorem forall_iff {p : AttributeKey → Prop} : (∀ k, p k) ↔ ∀ k ∈ all, p k :=
  ⟨fun h k _ => h k, fun h k => h k k.mem_all⟩

instance {p : AttributeKey → Prop} [DecidablePred p] : Decidable (∀ k, p k) :=
  decidable_of_iff _ forall_iff.symm

end AttributeKey

namespace Draft

/-- The draft declares a label. -/
def IsLabel (d : Draft) : Prop := DeclaredKind.parse? d.kind = some .text

instance (d : Draft) : Decidable d.IsLabel :=
  inferInstanceAs (Decidable (DeclaredKind.parse? d.kind = some .text))

/-- The override values of a recognized attribute in two tables are the same, or a value of the
draft goes before them, or one of its parent does. Nothing goes before the fill of a label but its
own: what a label inherits is put aside when its own fill is looked for. -/
inductive Shadows (d : Draft) (ancestor : Bag) (o o' : Overrides) (k : AttributeKey) : Prop
  | same (h : o.value? d.id k = o'.value? d.id k)
  | own (h : (d.attributes.find? k).isSome)
  | inherited (h : (ancestor.find? k).isSome) (fill : d.IsLabel → k ≠ .fill)

/-- An override value that a label would take without its parent is of its kind. -/
def Tolerates (d : Draft) (o : Overrides) (k : AttributeKey) : Prop :=
  d.IsLabel → d.attributes.find? k = none → o.Converts d.id k

variable {d : Draft} {ancestor : Bag} {o o' : Overrides} {k : AttributeKey}

/-- The three ways in which override values are put in the shadow. -/
theorem shadows_iff : d.Shadows ancestor o o' k ↔ o.value? d.id k = o'.value? d.id k ∨
    (d.attributes.find? k).isSome ∨ (ancestor.find? k).isSome ∧ (d.IsLabel → k ≠ .fill) := by
  constructor
  · rintro (h | h | ⟨h, fill⟩)
    · exact .inl h
    · exact .inr (.inl h)
    · exact .inr (.inr ⟨h, fill⟩)
  · rintro (h | h | ⟨h, fill⟩)
    · exact .same h
    · exact .own h
    · exact .inherited h fill

instance : Decidable (d.Shadows ancestor o o' k) := decidable_of_iff _ shadows_iff.symm

instance : Decidable (d.Tolerates o k) :=
  inferInstanceAs (Decidable (d.IsLabel → d.attributes.find? k = none → o.Converts d.id k))

/-- An override value in the shadow does not decide the winner. -/
theorem Shadows.winner_eq (h : d.Shadows ancestor o o' k) :
    d.attributes.winner ancestor (o.get? d.id) k = d.attributes.winner ancestor (o'.get? d.id) k := by
  unfold Bag.winner
  cases h with
  | same h =>
    unfold Overrides.value? at h
    rw [h]
  | own h =>
    obtain ⟨v, hv⟩ := Option.isSome_iff_exists.1 h
    rw [hv]
    rfl
  | inherited h _ =>
    obtain ⟨v, hv⟩ := Option.isSome_iff_exists.1 h
    rw [hv]
    rfl

/-- Without a parent, what a draft does not set itself comes from its override entry. -/
theorem winner_empty (absent : d.attributes.find? k = none) :
    d.attributes.winner .empty (o.get? d.id) k = (o.value? d.id k).getD .null := by
  unfold Bag.winner
  rw [absent, Bag.find?_empty]
  rfl

/-- Where neither the draft nor a parent sets an attribute, the winner converts if the table's value
does. -/
theorem convert_winner_of_converts (absent : d.attributes.find? k = none)
    (h : o.Converts d.id k) : ∃ w, k.convert (d.attributes.winner .empty (o.get? d.id) k) = .ok w := by
  rw [winner_empty absent]
  cases hv : o.value? d.id k with
  | none => exact ⟨.null, rfl⟩
  | some v => exact h v hv

/-! ### The own fill of a label -/

/-- The own fill of a label is the one that it is resolved to without a parent. -/
theorem ownFill_eq (d : Draft) (o : Overrides) :
    d.ownFill o = d.attributes.resolvedFill d.id .empty (o.get? d.id) := by
  unfold ownFill resolve Bag.resolvedFill
  cases d.attributes.resolve d.id .empty (o.get? d.id) <;> rfl

/-- A label whose own fill is found tolerates what the table gives it. -/
theorem tolerates_of_ownFill {fill : Option Rgb} (h : d.ownFill o = .ok fill) (k : AttributeKey) :
    d.Tolerates o k := by
  intro _ absent v hv
  rw [ownFill_eq] at h
  unfold Bag.resolvedFill at h
  cases resolved : d.attributes.resolve d.id .empty (o.get? d.id) with
  | error f =>
    rw [resolved] at h
    cases h
  | ok b =>
    obtain ⟨w, converts⟩ := Bag.convert_of_resolve resolved k
    rw [winner_empty absent, hv] at converts
    exact ⟨w, converts⟩

/-- Two tables that a label tolerates give it the same fill of its own. -/
theorem ownFill_congr_shadowed (label : d.IsLabel) (h : ∀ k, d.Shadows ancestor o o' k)
    (tolerated : ∀ k, o.value? d.id k = o'.value? d.id k ∨ d.Tolerates o k ∧ d.Tolerates o' k) :
    d.ownFill o = d.ownFill o' := by
  -- an attribute that is there or is the same in both tables has one winner without the parent too
  have same {k : AttributeKey} (either : o.value? d.id k = o'.value? d.id k ∨
      (d.attributes.find? k).isSome) : d.attributes.winner .empty (o.get? d.id) k =
        d.attributes.winner .empty (o'.get? d.id) k :=
    (either.elim .same .own : d.Shadows .empty o o' k).winner_eq
  rw [ownFill_eq, ownFill_eq]
  apply Bag.resolvedFill_congr
  · cases h .fill with
    | same h => exact same (.inl h)
    | own h => exact same (.inr h)
    | inherited _ fill => exact absurd rfl (fill label)
  · intro k
    cases absent : d.attributes.find? k with
    | some v => exact .inl (same (.inr (by rw [absent]; rfl)))
    | none =>
      rcases tolerated k with h | ⟨converts, converts'⟩
      · exact .inl (same (.inl h))
      · exact .inr ⟨convert_winner_of_converts absent (converts label absent),
          convert_winner_of_converts absent (converts' label absent)⟩

/-! ### One draft -/

/-- Shadowed values that are tolerated in both tables change nothing in how a node is prepared,
failures included. -/
theorem prepare_congr_shadowed (h : ∀ k, d.Shadows ancestor o o' k)
    (tolerated : ∀ k, o.value? d.id k = o'.value? d.id k ∨ d.Tolerates o k ∧ d.Tolerates o' k) :
    d.prepare ancestor o = d.prepare ancestor o' := by
  rw [prepare_eq, prepare_eq, Bag.resolve_congr fun k => (h k).winner_eq]
  apply Outcome.bind_congr
  intro b _
  apply Outcome.bind_congr
  intro declared known
  have own (text : declared = .text) : d.ownFill o = d.ownFill o' := by
    subst text
    exact ownFill_congr_shadowed (declaredKind_eq_ok.1 known) h tolerated
  rw [ite_congr rfl own fun _ => rfl]

/-- A label is only prepared when the override values it would take without its parent are of their
kinds, whether its parent has values for them or not. -/
theorem tolerates_of_prepare {p : Prepared} (h : d.prepare ancestor o = .ok p) (k : AttributeKey) :
    d.Tolerates o k := by
  intro label absent
  rw [prepare_eq] at h
  obtain ⟨b, -, h⟩ := Outcome.bind_eq_ok.1 h
  obtain ⟨declared, known, h⟩ := Outcome.bind_eq_ok.1 h
  obtain rfl : DeclaredKind.text = declared :=
    Option.some.inj (label.symm.trans (declaredKind_eq_ok.1 known))
  obtain ⟨fill, own, -⟩ := Outcome.bind_eq_ok.1 h
  exact tolerates_of_ownFill own k label absent

/-- When a node is prepared with one table, it is prepared alike with another exactly when it
tolerates that. -/
theorem prepare_eq_ok_shadowed {p : Prepared} (h : ∀ k, d.Shadows ancestor o o' k)
    (prepared : d.prepare ancestor o' = .ok p) :
    d.prepare ancestor o = .ok p ↔ ∀ k, d.Tolerates o k := by
  constructor
  · intro prepared
    exact tolerates_of_prepare prepared
  · intro tolerated
    rw [← prepared]
    exact prepare_congr_shadowed h fun k => .inr ⟨tolerated k, tolerates_of_prepare prepared k⟩

/-! ### Trees of drafts -/

mutual

/-- The nodes of a tree, each with the attributes of its parent. -/
def family (d : Draft) (ancestor : Bag) : List (Draft × Bag) :=
  match d with
  | ⟨id, kind, tag, frame, attributes, runs, children⟩ =>
    (⟨id, kind, tag, frame, attributes, runs, children⟩, ancestor) :: familyIn children attributes

/-- The nodes of several trees under one parent, each with the attributes of its own parent. -/
def familyIn (ds : List Draft) (ancestor : Bag) : List (Draft × Bag) :=
  match ds with
  | [] => []
  | d :: ds => d.family ancestor ++ familyIn ds ancestor

end

mutual

/-- A tree is built alike with two tables when each of its nodes is prepared alike. -/
theorem build_congr_prepare : ∀ (d : Draft) (ancestor : Bag),
    (∀ x ∈ d.family ancestor, x.1.prepare x.2 o = x.1.prepare x.2 o') →
      d.build ancestor o = d.build ancestor o'
  | ⟨id, kind, tag, frame, attributes, runs, children⟩, ancestor, h => by
    rw [family, List.forall_mem_cons] at h
    rw [build_eq, build_eq, h.1, buildAll_congr_prepare children attributes h.2]

theorem buildAll_congr_prepare : ∀ (ds : List Draft) (ancestor : Bag),
    (∀ x ∈ familyIn ds ancestor, x.1.prepare x.2 o = x.1.prepare x.2 o') →
      buildAll ds ancestor o = buildAll ds ancestor o'
  | [], ancestor, _ => by rw [buildAll, buildAll]
  | d :: ds, ancestor, h => by
    rw [familyIn, List.forall_mem_append] at h
    rw [buildAll, buildAll, build_congr_prepare d ancestor h.1,
      buildAll_congr_prepare ds ancestor h.2]

end

mutual

/-- A tree is built only when each of its nodes is prepared. -/
theorem prepare_of_build : ∀ (d : Draft) (ancestor : Bag) (e : Element),
    (d.build ancestor o).outcome = .ok e →
      ∀ x ∈ d.family ancestor, ∃ p, x.1.prepare x.2 o = .ok p
  | ⟨id, kind, tag, frame, attributes, runs, children⟩, ancestor, e, h => by
    rw [build_eq] at h
    obtain ⟨p, prepared, h⟩ := Logged.bind_eq_ok.1 h
    obtain ⟨es, built, -⟩ := Logged.bind_eq_ok.1 h
    rw [family, List.forall_mem_cons]
    exact ⟨⟨p, prepared⟩, prepare_of_buildAll children attributes es built⟩

theorem prepare_of_buildAll : ∀ (ds : List Draft) (ancestor : Bag) (es : List Element),
    (buildAll ds ancestor o).outcome = .ok es →
      ∀ x ∈ familyIn ds ancestor, ∃ p, x.1.prepare x.2 o = .ok p
  | [], ancestor, _, _ => by
    rw [familyIn]
    nofun
  | d :: ds, ancestor, _, h => by
    rw [buildAll] at h
    obtain ⟨e, first, h⟩ := Logged.bind_eq_ok.1 h
    obtain ⟨es, rest, -⟩ := Logged.bind_eq_ok.1 h
    rw [familyIn, List.forall_mem_append]
    exact ⟨prepare_of_build d ancestor e first, prepare_of_buildAll ds ancestor es rest⟩

end

/-- When a tree is built with one table, it is built alike with another exactly when all of its
nodes tolerate that. -/
theorem build_eq_ok_shadowed {e : Element}
    (h : ∀ x ∈ d.family ancestor, ∀ k, x.1.Shadows x.2 o o' k)
    (built : (d.build ancestor o').outcome = .ok e) :
    (d.build ancestor o).outcome = .ok e ↔
      ∀ x ∈ d.family ancestor, ∀ k, x.1.Tolerates o k := by
  constructor
  · intro built x hx
    obtain ⟨p, prepared⟩ := prepare_of_build d ancestor e built x hx
    exact tolerates_of_prepare prepared
  · intro tolerated
    rw [← built, build_congr_prepare d ancestor]
    intro x hx
    obtain ⟨p, prepared⟩ := prepare_of_build d ancestor e built x hx
    rw [prepared]
    exact (prepare_eq_ok_shadowed (h x hx) prepared).2 (tolerated x hx)

/-- What shadows the values for a node and for all nodes below it shadows those for the family. -/
theorem shadows_family (own : ∀ k, d.Shadows ancestor o o' k)
    (below : ∀ x ∈ familyIn d.children d.attributes, ∀ k, x.1.Shadows x.2 o o' k) :
    ∀ x ∈ d.family ancestor, ∀ k, x.1.Shadows x.2 o o' k := by
  obtain ⟨id, kind, tag, frame, attributes, runs, children⟩ := d
  rw [family, List.forall_mem_cons]
  exact ⟨own, below⟩

/-- Two tables give a draft the same result, failures included, where a value of the draft or its
parent goes before the values in which they differ, unless the draft is a label that gets from one
of them a value of a wrong kind for an attribute it does not set itself. A label that is prepared
with one of them is prepared with the other if and only if it gets no such value from it. The same
holds of whole trees. -/
theorem build_shadowed (own : ∀ k, d.Shadows ancestor o o' k) :
    (¬ d.IsLabel → d.prepare ancestor o = d.prepare ancestor o') ∧
      ((∀ k, d.Tolerates o k ∧ d.Tolerates o' k) → d.prepare ancestor o = d.prepare ancestor o') ∧
      (∀ p, d.prepare ancestor o' = .ok p →
        (d.prepare ancestor o = .ok p ↔ ∀ k, d.Tolerates o k)) ∧
      ((∀ x ∈ familyIn d.children d.attributes, ∀ k, x.1.Shadows x.2 o o' k) →
        ((∀ x ∈ d.family ancestor, ∀ k, x.1.Tolerates o k ∧ x.1.Tolerates o' k) →
          d.build ancestor o = d.build ancestor o') ∧
        ∀ e, (d.build ancestor o').outcome = .ok e →
          ((d.build ancestor o).outcome = .ok e ↔
            ∀ x ∈ d.family ancestor, ∀ k, x.1.Tolerates o k)) := by
  have prepared (tolerated : ∀ k, d.Tolerates o k ∧ d.Tolerates o' k) :
      d.prepare ancestor o = d.prepare ancestor o' :=
    prepare_congr_shadowed own fun k => .inr (tolerated k)
  refine ⟨fun other => ?_, prepared, fun p hp => prepare_eq_ok_shadowed own hp, fun below => ?_⟩
  · have tolerated (o : Overrides) (k : AttributeKey) : d.Tolerates o k :=
      fun label => absurd label other
    exact prepared fun k => ⟨tolerated o k, tolerated o' k⟩
  · have shadowed := shadows_family own below
    refine ⟨fun tolerated => ?_, fun e built => build_eq_ok_shadowed shadowed built⟩
    refine build_congr_prepare d ancestor fun x hx => ?_
    exact prepare_congr_shadowed (shadowed x hx) fun k => .inr (tolerated x hx k)

/-- A label without attributes of its own. -/
def caption : Draft := ⟨"caption", "text", "text", ⟨4, 4, 52, 12⟩, .empty, ["Hi"], []⟩

/-- A bar and a caption in a cell that sets a stroke and the size of the font. -/
def menuItem : Draft where
  id := "menuItem"
  kind := "Cell"
  tag := "g"
  frame := ⟨0, 0, 60, 20⟩
  attributes := .ofRaw [("stroke", "#004080"), ("font-size", "12")]
  runs := []
  children := [⟨"bar", "rect", "rect", ⟨0, 0, 60, 20⟩, .empty, [], []⟩, caption]

/-- Overrides for what the menu item sets: a stroke that is no color, and another size. -/
def menuOverrides : Overrides := .ofList
  [("bar", .ofRaw [("stroke-color", "mauve")]), ("caption", .ofRaw [("font-size", "14")])]

/-- The stroke that is no color is for the bar and is not looked at. -/
theorem build_shadowed_menuItem : ∃ e, (menuItem.build .empty .empty).outcome = .ok e ∧
    (menuItem.build .empty menuOverrides).outcome = .ok e := by
  have made : (menuItem.build .empty .empty).outcome.toOption.map (·.id) = some "menuItem" := by
    decide +kernel
  obtain ⟨e, built, -⟩ := Outcome.exists_of_toOption made
  have shadowed : ∀ k, menuItem.Shadows .empty menuOverrides .empty k := by decide +kernel
  refine ⟨e, built, (((build_shadowed shadowed).2.2.2 ?_).2 e built).2 ?_⟩
  · decide +kernel
  · decide +kernel

/-- The same for the caption is looked at: a size that is no number goes behind that of the parent
and still the caption is not built. -/
theorem build_caption_refused :
    let parent : Bag := .ofRaw [("font-size", "12")]
    let big : Overrides := .ofList [("caption", .ofRaw [("font-size", "big")])]
    (∀ k, big.value? "caption" k ≠ none → k ≠ .fill ∧ (parent.find? k).isSome) ∧
      (∃ e, (caption.build parent .empty).outcome = .ok e) ∧
      (caption.build parent big).outcome =
        .error (.conversion "caption" .fontSize (.raw "big") .notNumber) := by
  intro parent big
  refine ⟨by decide +kernel, ?_, ?_⟩
  · have made : (caption.build parent .empty).outcome.toOption.map (·.id) = some "caption" := by
      decide +kernel
    obtain ⟨e, built, -⟩ := Outcome.exists_of_toOption made
    exact ⟨e, built⟩
  · exact Outcome.fault?_eq_some.1 (by decide +kernel)

end Draft

/-! ## Attributes filled in from another bag -/

namespace Bag

variable {own other : Bag} {k : AttributeKey}

/-- A search through two sources at once finds what the second source has for the keys before the
first hit in the first source, else that hit. -/
theorem findSome?_or {α β : Type} (f g : α → Option β) (as : List α) :
    (as.findSome? fun a => (f a).or (g a)) =
      ((as.takeWhile fun a => (f a).isNone).findSome? g).or (as.findSome? f) := by
  induction as with
  | nil => rfl
  | cons a as ih =>
    cases hit : f a with
    | some b => simp [hit]
    | none =>
      simp only [List.findSome?_cons, List.takeWhile_cons, hit, Option.none_or, Option.isNone_none,
        if_true, ih]
      cases g a <;> rfl

/-- The spellings of a recognized attribute that are preferred to the one a bag uses: all of them if
it uses none. -/
def ahead (own : Bag) (k : AttributeKey) : List String :=
  k.spellings.takeWhile fun name => (own.get? name).isNone

/-- All spellings are ahead where the bag has none of them. -/
theorem ahead_of_find?_eq_none (h : own.find? k = none) : own.ahead k = k.spellings := by
  unfold find? at h
  rw [List.findSome?_eq_none_iff] at h
  rw [ahead, List.takeWhile_eq_self_iff]
  intro name hname
  rw [h name hname]
  rfl

theorem ahead_of_get?_name (h : (own.get? k.name).isSome) : own.ahead k = [] := by
  obtain ⟨v, found⟩ := Option.isSome_iff_exists.1 h
  unfold ahead AttributeKey.spellings
  rw [List.takeWhile_cons, found]
  rfl

/-- Filling a bag brings in an attribute under a spelling that is ahead of the bag's own. -/
theorem find?_fillFrom (own other : Bag) (k : AttributeKey) : find? (own.fillFrom other) k =
    ((own.ahead k).findSome? other.get?).or (own.find? k) := by
  unfold find? ahead
  simp only [NameMap.get?_fillFrom]
  exact findSome?_or own.get? other.get? k.spellings

/-- A bag keeps its own value for a recognized attribute when it is filled in from another, unless
the other has a different one under a spelling that is preferred to the one the bag uses. -/
theorem find?_fillFrom_eq_or : find? (own.fillFrom other) k = (own.find? k).or (other.find? k) ↔
    ∀ v, own.find? k = some v → ∀ w, (own.ahead k).findSome? other.get? = some w → w = v := by
  rw [find?_fillFrom]
  cases found : own.find? k with
  | none =>
    rw [ahead_of_find?_eq_none found]
    simp [find?, Option.none_or]
  | some v => cases (own.ahead k).findSome? other.get? <;> simp

/-- What a recognized attribute is after filling in: the value the other bag has under a spelling
preferred to the bag's own, else the bag's own. So the bag's own value goes first for an attribute
with a single spelling, and wherever the bag uses the canonical name. -/
theorem find?_fillFrom_law (own other : Bag) (k : AttributeKey) :
    find? (own.fillFrom other) k = ((own.ahead k).findSome? other.get?).or (own.find? k) ∧
      (find? (own.fillFrom other) k = (own.find? k).or (other.find? k) ↔
        ∀ v, own.find? k = some v → ∀ w, (own.ahead k).findSome? other.get? = some w → w = v) ∧
      (k.aliases = [] ∨ (own.get? k.name).isSome →
        find? (own.fillFrom other) k = (own.find? k).or (other.find? k)) := by
  refine ⟨find?_fillFrom own other k, find?_fillFrom_eq_or, ?_⟩
  intro plain
  rw [find?_fillFrom_eq_or]
  intro v found
  have none_ahead : own.ahead k = [] := by
    rcases plain with single | canonical
    · apply ahead_of_get?_name
      unfold find? AttributeKey.spellings at found
      rw [single, List.findSome?_singleton] at found
      rw [found]
      rfl
    · exact ahead_of_get?_name canonical
  rw [none_ahead]
  nofun

/-- A red stroke under another spelling gives way to the blue one of the bag it is filled in from. -/
theorem find?_fillFrom_stroke :
    let own : Bag := .ofRaw [("stroke", "#FF0000")]
    let other : Bag := .ofRaw [("stroke-color", "#0000FF")]
    own.find? .strokeColor = some (.raw "#FF0000") ∧
      find? (own.fillFrom other) .strokeColor = some (.raw "#0000FF") := by
  decide +kernel

end Bag

end CanvasLayout
