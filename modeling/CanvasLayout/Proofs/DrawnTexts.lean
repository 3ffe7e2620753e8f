import CanvasLayout.Proofs.DrawnChecks
import CanvasLayout.Proofs.ModestElements

/-!
# Drawings whose screens are read back

What keeps the text of a screen from being read is a number that is not finite or a nesting that is
too deep, and a drawing can lead to both. It does not if its frames are small, its opacities lie
between 0 and 1 and no more than 41 elements stand in each other: `Drawing.ofText_text_of_modest`.
-/

namespace CanvasLayout

/-- The frame of a draft is small, and its attributes and those that the overrides hold for it are
modest. -/
structure Draft.IsModest (overrides : Overrides) (d : Draft) : Prop where
  small : d.frame.IsSmall
  own : d.attributes.IsModest
  entry : ∀ b ∈ overrides.get? d.id, b.IsModest

namespace Draft

variable {d : Draft} {overrides : Overrides} {ancestor : Bag} {p : Prepared}

instance : Decidable (d.IsModest overrides) :=
  decidable_of_iff
    (d.frame.IsSmall ∧ d.attributes.IsModest ∧ ∀ b ∈ overrides.get? d.id, b.IsModest)
    ⟨fun h => ⟨h.1, h.2.1, h.2.2⟩, fun h => ⟨h.small, h.own, h.entry⟩⟩

/-- A modest element with a frame in whole pixels is settled once it is prepared. -/
theorem IsModest.isSettled (modest : d.IsModest overrides) (whole : d.frame.IsWhole)
    (parent : ancestor.IsModest) (h : d.prepare ancestor overrides = .ok p) : p.draft.IsSettled := by
  rw [prepare_eq] at h
  obtain ⟨b, resolved, h⟩ := Outcome.bind_eq_ok.1 h
  obtain ⟨declared, -, h⟩ := Outcome.bind_eq_ok.1 h
  obtain ⟨fill, -, h⟩ := Outcome.bind_eq_ok.1 h
  cases h
  exact ⟨whole, modest.small, Bag.isFinite_of_resolve modest.own parent modest.entry resolved⟩

end Draft

namespace Drawing

open Xml (Node Tag)
open Logged (bind_eq_ok)

section Elements

variable (overrides : Overrides)

/-- An element of a drawing is drafted modestly, if it is drafted. -/
def IsModest (v : Tag × List Node) : Prop :=
  ∀ d, draft overrides v.1 v.2 = .ok d → d.IsModest overrides

instance (v : Tag × List Node) : Decidable (IsModest overrides v) :=
  decidable_of_iff ((draft overrides v.1 v.2).toOption.all fun d => decide (d.IsModest overrides)) <| by
    unfold IsModest
    cases draft overrides v.1 v.2 <;> simp [Except.toOption]

/-- On how many levels an element of a drawing stands above those in it. -/
def levels (v : Tag × List Node) : Nat :=
  ((DeclaredKind.parse? (drawnKind overrides v)).map DeclaredKind.levels).getD 1

mutual

/-- How many elements stand in each other at most in what is made of a part of a drawing. -/
def nesting : Node → Nat
  | .element tag content =>
    if tag.name ∈ metadataTags then 0
    else (if tag.name = "text" then 0 else nestingIn content) + levels overrides (tag, content)
  | _ => 0

/-- How many elements stand in each other at most in what is made of parts of a drawing. -/
def nestingIn : List Node → Nat
  | [] => 0
  | n :: ns => max (nesting n) (nestingIn ns)

end

end Elements

variable {overrides : Overrides} {ancestor : Bag} {tag : Tag} {content : List Node}

theorem nesting_element (h : tag.name ∉ metadataTags) : nesting overrides (.element tag content) =
    nestingIn overrides (below tag content) + levels overrides (tag, content) := by
  rw [nesting, if_neg h, below]
  split
  · rw [nestingIn]
  · rfl

/-- One element: what is built of it is modest if what is built below it is. -/
theorem within_layer {e : Element} (parent : ancestor.IsModest)
    (modest : IsModest overrides (tag, content))
    (inside : ∀ own es, own.IsModest → (layersIn overrides own (below tag content)).outcome = .ok es →
      ∀ c ∈ es, c.Within Element.IsModest (nestingIn overrides (below tag content)))
    (h : (layer overrides ancestor tag content).outcome = .ok e) :
    e.Within Element.IsModest
      (nestingIn overrides (below tag content) + levels overrides (tag, content)) := by
  obtain ⟨d, hd, h⟩ := bind_eq_ok.1 h
  obtain ⟨p, hp, h⟩ := bind_eq_ok.1 h
  obtain ⟨children, hchildren, built⟩ := bind_eq_ok.1 h
  rw [Logged.outcome_lift] at hd hp
  have own := modest d hd
  have known : levels overrides (tag, content) = p.declared.levels := by
    have kind : drawnKind overrides (tag, content) = d.kind := (drafted_of_draft hd []).drawnKind
    rw [levels, kind, (Draft.prepare_eq_ok hp).1, Option.map_some, Option.getD_some]
  rw [known]
  exact Prepared.build_within (own.isSettled (isWhole_of_draft hd) parent hp)
    (inside d.attributes children own.own hchildren) built

mutual

/-- A layer of modest elements is modest, and nested as deep as the drawing says. -/
theorem within_layer? : ∀ (n : Node) (ancestor : Bag) (e : Element), ancestor.IsModest →
    (∀ v ∈ visited n, IsModest overrides v) →
      (layer? overrides ancestor n).outcome = .ok (some e) →
        e.Within Element.IsModest (nesting overrides n)
  | .element tag content, ancestor, e, parent, modest, h => by
    by_cases metadata : tag.name ∈ metadataTags
    · rw [layer?, if_pos metadata] at h
      cases h
    · rw [layer?_element metadata, map_eq_pure_bind] at h
      obtain ⟨e, built, h⟩ := bind_eq_ok.1 h
      cases h
      rw [visited_element metadata, List.forall_mem_cons] at modest
      rw [nesting_element metadata]
      refine within_layer parent modest.1 (fun own es parent walked => ?_) built
      have nested := modest.2
      unfold below at nested walked ⊢
      by_cases text : tag.name = "text"
      · rw [if_pos text, layersIn] at walked
        cases walked
        nofun
      · rw [if_neg text] at nested walked ⊢
        exact within_layersIn content own es parent nested walked
  | .text s, ancestor, e, _, _, h => by
    rw [layer?] at h
    · cases h
    · nofun
  | .remark, ancestor, e, _, _, h => by
    rw [layer?] at h
    · cases h
    · nofun

/-- What a walk over modest elements makes is modest, and no deeper than the drawing. -/
theorem within_layersIn : ∀ (ns : List Node) (ancestor : Bag) (es : List Element),
    ancestor.IsModest → (∀ v ∈ visitedIn ns, IsModest overrides v) →
      (layersIn overrides ancestor ns).outcome = .ok es →
        ∀ e ∈ es, e.Within Element.IsModest (nestingIn overrides ns)
  | [], ancestor, es, _, _, h => by
    rw [layersIn] at h
    cases h
    nofun
  | n :: ns, ancestor, es, parent, modest, h => by
    rw [layersIn] at h
    obtain ⟨e, he, h⟩ := bind_eq_ok.1 h
    obtain ⟨es', hes, h⟩ := bind_eq_ok.1 h
    cases h
    rw [visitedIn, List.forall_mem_append] at modest
    rw [nestingIn]
    intro x hx
    rcases List.mem_append.1 hx with hx | hx
    · rw [Option.mem_toList] at hx
      rw [hx] at he
      exact (within_layer? n ancestor x parent modest.1 he).mono (le_max_left _ _)
    · exact (within_layersIn ns ancestor es' parent modest.2 hes x hx).mono (le_max_right _ _)

end

/-- The screen of a drawing is read from its text if the frames of the drawing are small, its
opacities lie between 0 and 1, those of the artboard and in the overrides among them, and no more than
41 elements stand in each other. -/
theorem ofText_text_of_modest {path : String} {name : Option String} {drawing : String}
    {inherits : Bag} {s : Screen} (h : (screen path overrides name drawing).outcome = .ok s)
    (parts : artboardParts path name drawing = .ok content)
    (bag : artboardBag path name drawing = .ok inherits) (parent : inherits.IsModest)
    (modest : ∀ v ∈ visitedIn content, IsModest overrides v)
    (shallow : nestingIn overrides content ≤ 41) : Screen.ofText s.text = .ok s := by
  obtain ⟨content', inherits', es, parts', bag', walked, same, width, height⟩ := screen_eq_layersIn h
  obtain rfl : content' = content := Except.ok.inj (parts'.symm.trans parts)
  obtain rfl : inherits' = inherits := Except.ok.inj (bag'.symm.trans bag)
  have within : ∀ e ∈ es, e.Within Element.IsModest 41 := fun e he =>
    (within_layersIn content' inherits' es parent modest walked e he).mono shallow
  have elements : ∀ p ∈ s.layers, p.element ∈ es := by
    intro p hp
    rw [same] at hp
    exact (Screen.perm_ofElements s.canvas es).subset (List.mem_map_of_mem hp)
  have whole : ∀ e ∈ es, e.frame.IsWhole := fun e he => (within e he).own.whole
  have small : ∀ p ∈ (Screen.ofElements s.canvas es).layers, p.pixelFrame.IsSmall := by
    rw [← same]
    exact fun p hp => (within _ (elements p hp)).own.small
  apply Screen.ofText_text_of_within
  · rw [same]
    exact Screen.isFinite_numbers width height whole small
  · exact fun p hp => (within _ (elements p hp)).imp fun e modest => modest.isFinite_numbers

/-- A drawing of a card with a sheet over its title. -/
def card : String :=
  "<svg width=\"90\" height=\"60\"><g opacity=\".5\"><g><g id=\"card\"><text id=\"title\">Hi</text>" ++
    "<rect id=\"sheet\" fill-opacity=\".25\" opacity=\".5\"/></g></g></g></svg>"

/-- The frames of the card and of what is on it. -/
def cardOverrides : Overrides :=
  let frame (y height : String) := [("x", "0"), ("y", y), ("width", "90"), ("height", height)]
  NameMap.ofList [("card", Bag.ofRaw (frame "0" "60")), ("title", Bag.ofRaw (frame "7" "20")),
    ("sheet", Bag.ofRaw (("rx", "3.5") :: frame "0" "60"))]

/-- The opacities of the page, of the sheet and of its fill come together, and the screen is read. -/
theorem ofText_text_of_modest_card :
    ∃ s content inherits, (screen "card.svg" cardOverrides none card).outcome = .ok s ∧
      artboardParts "card.svg" none card = .ok content ∧
      artboardBag "card.svg" none card = .ok inherits ∧ inherits.IsModest ∧
      (∀ v ∈ visitedIn content, IsModest cardOverrides v) ∧ nestingIn cardOverrides content ≤ 41 ∧
      s.layers.map (fun p => (p.content.style.opacity,
        p.content.layer.children.map (·.style.opacity))) =
          [(some 0.5, [none, some 0.125])] ∧
      Screen.ofText s.text = .ok s := by
  have drawn : (screen "card.svg" cardOverrides none card).outcome.toOption.map (fun s =>
      s.layers.map fun p => (p.content.style.opacity,
        p.content.layer.children.map (·.style.opacity))) = some [(some 0.5, [none, some 0.125])] := by
    decide +kernel
  have read : (artboardParts "card.svg" none card).toOption.map (fun content =>
      ((visitedIn content).all fun v => decide (IsModest cardOverrides v),
        decide (nestingIn cardOverrides content ≤ 41))) = some (true, true) := by
    decide +kernel
  have inherited : (artboardBag "card.svg" none card).toOption.map (fun bag =>
      decide bag.IsModest) = some true := by
    decide +kernel
  obtain ⟨s, made, opacities⟩ := Outcome.exists_of_toOption drawn
  obtain ⟨content, parts, read⟩ := Outcome.exists_of_toOption read
  obtain ⟨inherits, bag, parent⟩ := Outcome.exists_of_toOption inherited
  simp only [Prod.mk.injEq, decide_eq_true_eq, List.all_eq_true] at read parent
  obtain ⟨modest, shallow⟩ := read
  exact ⟨s, content, inherits, made, parts, bag, parent, modest, shallow, opacities,
    ofText_text_of_modest made parts bag parent modest shallow⟩

/-- A drawing of a rectangle with two opacities whose product passes the greatest number. -/
def glare : String :=
  "<svg width=\"9\" height=\"9\"><g><g><rect id=\"r\" x=\"0\" y=\"0\" width=\"9\" height=\"9\" " ++
    "opacity=\"1e200\" fill-opacity=\"1e200\"/></g></g></svg>"

/-- A screen that is drawn need not be read from its text. -/
theorem ofText_text_glare_fails : ∃ s, (screen "glare.svg" .empty none glare).outcome = .ok s ∧
    Screen.ofText s.text ≠ .ok s := by
  have infinite : (screen "glare.svg" .empty none glare).outcome.toOption.map (fun s =>
      s.json.leaves.all fun v => decide v.InRange) = some false := by
    decide +kernel
  obtain ⟨s, made, infinite⟩ := Outcome.exists_of_toOption infinite
  refine ⟨s, made, fun read => ?_⟩
  have range : (s.json.leaves.all fun v => decide v.InRange) = true :=
    List.all_eq_true.2 fun v hv => decide_eq_true ((Screen.readable_of_ofText read).1 v hv)
  rw [range] at infinite
  cases infinite

end Drawing

end CanvasLayout
