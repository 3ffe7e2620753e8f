import Mathlib
import CanvasLayout.Proofs.DraftTrees
import CanvasLayout.Proofs.DrawnLayers
import CanvasLayout.Proofs.FormRead

/-!
# Which override entries count

A drawing is read with the overrides beside it, and all that the walk over the drawing asks them is
the entry under the name of each element that it comes to (`Drawing.layersIn_congr`). That entry is
made of the first one in the document with the name, as far as its members are scalars
(`Overrides.get?_of_document`). So two documents that agree there give the same screen or the same
failure, whatever else is in them: `Drawing.screen_congr_entries`.
-/

namespace CanvasLayout

open Json (Fault Form RawText)

/-- Only what follows a result matters to a sequence. -/
theorem Logged.bind_congr {α β : Type} {x : Logged α} {f g : α → Logged β}
    (h : ∀ a, x.outcome = .ok a → f a = g a) : x >>= f = x >>= g := by
  show Logged.bind x f = Logged.bind x g
  unfold Logged.bind
  cases hx : x.outcome with
  | error e => rfl
  | ok a =>
    dsimp only
    rw [h a hx]

namespace Overrides

/-- The name of the layer that an entry is for. -/
def name? (ms : List (String × Json)) : Option String :=
  (Json.member? nameKey ms).bind Json.string?

/-- The first entry for a layer. -/
def entryOf? (name : String) (es : List (List (String × Json))) :
    Option (List (String × Json)) :=
  es.find? (name? · = some name)

/-- The members of an entry that are scalars, the name aside, as attribute values. -/
def scalars (ms : List (String × Json)) : List (String × AttributeValue) :=
  (ms.filter (·.1 != nameKey)).filterMap fun m => (AttributeValue.ofJson? m.2).map (m.1, ·)

/-- The entries of a document in the order of the document. -/
def document (t : RawText) : Except Fault (List (List (String × Json))) :=
  (t.read (Form.read documentFields 0 (.record ()))).map entries

section FirstEntry

variable {name : String} {before after : List (List (String × Json))}
  {ms ms' : List (String × Json)}

theorem entryOf?_cons (name : String) (ms : List (String × Json))
    (es : List (List (String × Json))) : entryOf? name (ms :: es) =
      if name? ms = some name then some ms else entryOf? name es := by
  unfold entryOf?
  split
  · rename_i mine
    exact List.find?_cons_of_pos (by simpa using mine)
  · rename_i other
    exact List.find?_cons_of_neg (by simpa using other)

/-- An entry in the first document goes before one in the second. -/
theorem entryOf?_append (name : String) (es es' : List (List (String × Json))) :
    entryOf? name (es ++ es') = (entryOf? name es).or (entryOf? name es') :=
  List.find?_append

/-- An entry that has no name, is for another layer or stands behind another entry for the layer
does not count. -/
theorem entryOf?_drop (h : name? ms ≠ some name ∨ ∃ first ∈ before, name? first = some name) :
    entryOf? name (before ++ ms :: after) = entryOf? name (before ++ after) := by
  rw [entryOf?_append, entryOf?_append, entryOf?_cons]
  rcases h with other | ⟨first, mem, named⟩
  · rw [if_neg other]
  · obtain ⟨found, hfound⟩ : ∃ found, entryOf? name before = some found :=
      Option.isSome_iff_exists.1 (List.find?_isSome.2 ⟨first, mem, by simpa using named⟩)
    rw [hfound, Option.some_or, Option.some_or]

/-- Entries for different layers can change places. -/
theorem entryOf?_swap (h : name? ms ≠ name? ms') :
    entryOf? name (before ++ ms :: ms' :: after) =
      entryOf? name (before ++ ms' :: ms :: after) := by
  rw [entryOf?_append, entryOf?_append]
  simp only [entryOf?_cons]
  by_cases mine : name? ms = some name
  · have other : name? ms' ≠ some name := fun same => h (mine.trans same.symm)
    rw [if_pos mine, if_neg other, if_pos mine]
  · rw [if_neg mine, if_neg mine]

end FirstEntry

section Rearranged

variable (used : String → Prop)

/-- One document is the other with more or fewer entries that do not count for the names, and with
entries for different layers in another order. -/
inductive Rearranged : List (List (String × Json)) → List (List (String × Json)) → Prop
  | same (es : List (List (String × Json))) : Rearranged es es
  | drop {before after : List (List (String × Json))} {ms : List (String × Json)}
    (idle : ∀ name, used name →
      name? ms ≠ some name ∨ ∃ first ∈ before, name? first = some name) :
    Rearranged (before ++ ms :: after) (before ++ after)
  | swap {before after : List (List (String × Json))} {ms ms' : List (String × Json)}
    (other : name? ms ≠ name? ms') :
    Rearranged (before ++ ms :: ms' :: after) (before ++ ms' :: ms :: after)
  | back {es es' : List (List (String × Json))} (h : Rearranged es es') : Rearranged es' es
  | andThen {es es' es'' : List (List (String × Json))} (h : Rearranged es es')
    (h' : Rearranged es' es'') : Rearranged es es''

variable {used}

/-- The first entry for a layer stays the first, by induction on the rearrangement. -/
theorem Rearranged.entryOf?_eq {name : String} {es es' : List (List (String × Json))}
    (h : Rearranged used es es') (mine : used name) : entryOf? name es = entryOf? name es' := by
  induction h with
  | same => rfl
  | drop idle => exact entryOf?_drop (idle name mine)
  | swap other => exact entryOf?_swap other
  | back _ ih => exact ih.symm
  | andThen _ _ ih ih' => exact ih.trans ih'

end Rearranged

/-- One more entry is taken if it has a name that none before it has. -/
theorem outcome_addEntry (table : Overrides) (index : Nat) (ms : List (String × Json)) :
    (table.addEntry index ms).outcome =
      .ok ((name? ms).elim table fun name => table.insertNew name (attributes ms)) := by
  unfold addEntry name? NameMap.insertNew
  cases (Json.member? nameKey ms).bind Json.string? with
  | none => rfl
  | some name =>
    dsimp only [Option.elim]
    split <;> rfl

/-- Entries always make a table, and what is in it under a name is what it began with, else what the
first entry for the name sets. -/
theorem get?_addEntries (table : Overrides) (index : Nat) (es : List (List (String × Json))) :
    ∃ o, (addEntries table index es).outcome = .ok o ∧ ∀ name,
      o.get? name = (table.get? name).or ((entryOf? name es).map attributes) := by
  induction es generalizing table index with
  | nil => exact ⟨table, rfl, fun name => by simp [entryOf?]⟩
  | cons ms es ih =>
    obtain ⟨o, made, entry⟩ := ih
      ((name? ms).elim table fun name => table.insertNew name (attributes ms)) (index + 1)
    refine ⟨o, ?_, ?_⟩
    · rw [addEntries, Logged.outcome_bind, outcome_addEntry]
      exact made
    · intro name
      rw [entry, entryOf?_cons]
      cases hn : name? ms with
      | none => rfl
      | some own =>
        simp only [Option.elim_some, NameMap.get?_insertNew, Option.some.injEq]
        by_cases same : own = name
        · subst same
          simp only [if_true]
          cases table.get? own <;> rfl
        · rw [if_neg (Ne.symm same), if_neg same]

/-- A document makes a table in which a layer has what the first entry for it sets. -/
theorem get?_of_document {t : RawText} {es : List (List (String × Json))} (path : String)
    (h : document t = .ok es) : ∃ o, (read path t).outcome = .ok o ∧
      ∀ name, o.get? name = (entryOf? name es).map fun ms => NameMap.ofList (scalars ms) := by
  obtain ⟨d, hd, rfl⟩ := Json.map_eq_ok.1 h
  obtain ⟨o, made, entry⟩ := get?_addEntries .empty 0 (entries d)
  refine ⟨o, ?_, entry⟩
  unfold read ofDocument
  rw [hd]
  exact made

end Overrides

namespace Draft

variable {d : Draft} {ancestor : Bag} {overrides overrides' : Overrides}

theorem prepare_congr (h : overrides.get? d.id = overrides'.get? d.id) :
    d.prepare ancestor overrides = d.prepare ancestor overrides' := by
  rw [prepare_eq, prepare_eq]
  unfold ownFill resolve
  rw [h]

end Draft

namespace Drawing

open Xml (Node Tag)

/-- Two tables have the same entries under the names of some elements of a drawing. -/
def AgreeOn (overrides overrides' : Overrides) (vs : List (Tag × List Node)) : Prop :=
  ∀ v ∈ vs, ∀ id, v.1.attribute? "id" = some id → overrides.get? id = overrides'.get? id

variable {overrides overrides' : Overrides} {ancestor : Bag} {tag : Tag} {content : List Node}

/-- An element is drafted with the entry for its own name only. -/
theorem draft_congr (h : ∀ id, tag.attribute? "id" = some id →
      overrides.get? id = overrides'.get? id) :
    draft overrides tag content = draft overrides' tag content := by
  unfold draft
  cases hid : tag.attribute? "id" with
  | none => rfl
  | some id =>
    dsimp only
    rw [h id hid]

theorem attribute?_of_draft {d : Draft} (h : draft overrides tag content = .ok d) :
    tag.attribute? "id" = some d.id := by
  unfold draft at h
  split at h
  · cases h
  · rename_i id named
    obtain ⟨f, -, h⟩ := Outcome.bind_eq_ok.1 h
    cases h
    exact named

/-- One element is made the same if the elements below it are. -/
theorem layer_congr (own : AgreeOn overrides overrides' [(tag, content)])
    (inside : ∀ ancestor, layersIn overrides ancestor (below tag content) =
      layersIn overrides' ancestor (below tag content)) :
    layer overrides ancestor tag content = layer overrides' ancestor tag content := by
  have entry := own (tag, content) (List.mem_singleton_self _)
  unfold layer
  rw [draft_congr entry]
  apply Logged.bind_congr
  intro d drafted
  rw [Draft.prepare_congr (entry d.id (attribute?_of_draft drafted))]
  simp only [inside]

mutual

/-- A layer is built alike with two tables that agree on what is visited below it, by induction on
the drawing. -/
theorem layer?_congr : ∀ (n : Node) (ancestor : Bag), AgreeOn overrides overrides' (visited n) →
    layer? overrides ancestor n = layer? overrides' ancestor n
  | .element tag content, ancestor, h => by
    by_cases metadata : tag.name ∈ metadataTags
    · rw [layer?, layer?, if_pos metadata, if_pos metadata]
    · rw [visited_element metadata, AgreeOn, List.forall_mem_cons] at h
      obtain ⟨own, inside⟩ := h
      rw [layer?_element metadata, layer?_element metadata]
      congr 1
      apply layer_congr (List.forall_mem_singleton.2 own)
      intro ancestor
      by_cases text : tag.name = "text"
      · rw [below, if_pos text, layersIn, layersIn]
      · rw [below, if_neg text] at inside ⊢
        exact layersIn_congr content ancestor inside
  | .text s, ancestor, _ => by simp [layer?]
  | .remark, ancestor, _ => by simp [layer?]

/-- A walk makes the same of two tables that have the same entries under the names of the elements
that it comes to. -/
theorem layersIn_congr : ∀ (ns : List Node) (ancestor : Bag),
    AgreeOn overrides overrides' (visitedIn ns) →
      layersIn overrides ancestor ns = layersIn overrides' ancestor ns
  | [], ancestor, _ => by rw [layersIn, layersIn]
  | n :: ns, ancestor, h => by
    rw [visitedIn, AgreeOn, List.forall_mem_append] at h
    rw [layersIn, layersIn, layer?_congr n ancestor h.1, layersIn_congr ns ancestor h.2]

end

/-- A drawing is read the same beside two tables that have the same entries under the names of the
elements below the artboard. -/
theorem screen_congr {path : String} {name : Option String} {drawing : String}
    (same : ∀ content, artboardParts path name drawing = .ok content →
      AgreeOn overrides overrides' (visitedIn content)) :
    screen path overrides name drawing = screen path overrides' name drawing := by
  unfold screen
  apply Logged.bind_congr
  intro root hroot
  apply Logged.bind_congr
  intro page hpage
  apply Logged.bind_congr
  intro board hboard
  rw [Logged.outcome_lift] at hroot hpage hboard
  have parts := artboardParts_of_found hroot hpage hboard
  dsimp only
  simp only [layersIn_congr board.2 _ (same board.2 parts)]

/-- An element that the walk comes to has the name. -/
def IsNamed (content : List Node) (id : String) : Prop :=
  ∃ v ∈ visitedIn content, v.1.attribute? "id" = some id

/-- What a drawing gives, a screen or a failure, depends on the override document beside it only
through the first entries for the elements below the artboard, and on these only through their
members that are scalars. So entries without a name, for other names or behind an entry of the same
name do not count, nor does the order of entries for different names. -/
theorem screen_congr_entries {path beside beside' : String} {name : Option String}
    {drawing : String} {t t' : RawText} {es es' : List (List (String × Json))}
    (h : Overrides.document t = .ok es) (h' : Overrides.document t' = .ok es')
    (same : ∀ content, artboardParts path name drawing = .ok content →
      Overrides.Rearranged (IsNamed content) es es' ∨ ∀ id, IsNamed content id →
        (Overrides.entryOf? id es).map Overrides.scalars =
          (Overrides.entryOf? id es').map Overrides.scalars) :
    ∃ o o', (Overrides.read beside t).outcome = .ok o ∧
      (Overrides.read beside' t').outcome = .ok o' ∧
      screen path o name drawing = screen path o' name drawing := by
  obtain ⟨o, made, entry⟩ := Overrides.get?_of_document beside h
  obtain ⟨o', made', entry'⟩ := Overrides.get?_of_document beside' h'
  refine ⟨o, o', made, made', screen_congr ?_⟩
  intro content parts v hv id named
  have mine : IsNamed content id := ⟨v, hv, named⟩
  rw [entry, entry']
  rcases same content parts with rearranged | agree
  · rw [rearranged.entryOf?_eq mine]
  · have sets := congrArg (Option.map NameMap.ofList) (agree id mine)
    rwa [Option.map_map, Option.map_map] at sets

/-- A badge without a size on a card. -/
def badge : String :=
  "<svg width=\"90\" height=\"60\"><g id=\"page\"><g id=\"board\">" ++
    "<rect id=\"card\" x=\"0\" y=\"0\" width=\"90\" height=\"60\"/><rect id=\"badge\" x=\"4\" y=\"4.5\"/></g></g></svg>"

/-- The size of the badge and the radius of the card. -/
def badgeEntries : RawText := .ofString <|
  "\x7b\"layers\":[\x7b\"name\":\"badge\",\"width\":8,\"height\":6\x7d," ++
    "\x7b\"name\":\"card\",\"rx\":2.5\x7d]\x7d"

/-- The same in another order, between an entry without a name, one for another layer and one that
comes too late, and with a member that sets nothing. -/
def badgeEntries' : RawText := .ofString <|
  "\x7b\"layers\":[\x7b\"width\":1\x7d,\x7b\"rx\":2.5,\"name\":\"card\"\x7d," ++
    "\x7b\"name\":\"ghost\",\"x\":null\x7d," ++
    "\x7b\"name\":\"badge\",\"tags\":[1],\"height\":6,\"width\":8\x7d," ++
    "\x7b\"name\":\"badge\",\"width\":7\x7d]\x7d"

/-- The entries for badge and card change places, and entries that count for nothing stand among
them. -/
theorem screen_congr_entries_badge :
    ∃ es es', Overrides.document badgeEntries = .ok es ∧
      Overrides.document badgeEntries' = .ok es' ∧
      es.map Overrides.name? = [some "badge", some "card"] ∧
      es'.map Overrides.name? =
        [none, some "card", some "ghost", some "badge", some "badge"] ∧
      ∃ o o', (Overrides.read "a.json" badgeEntries).outcome = .ok o ∧
        (Overrides.read "b.json" badgeEntries').outcome = .ok o' ∧
        screen "badge.svg" o none badge = screen "badge.svg" o' none badge := by
  have ids : (artboardParts "badge.svg" none badge).toOption.map
      (fun content => (visitedIn content).map (·.1.attribute? "id")) =
        some [some "card", some "badge"] := by
    decide +kernel
  have first : (Overrides.document badgeEntries).toOption.map (fun es =>
      (es.map Overrides.name?, ["card", "badge"].map fun id =>
        (Overrides.entryOf? id es).map Overrides.scalars)) =
      some ([some "badge", some "card"],
        [some [("rx", .raw "2.5")], some [("height", .raw "6"), ("width", .raw "8")]]) := by
    decide +kernel
  have second : (Overrides.document badgeEntries').toOption.map (fun es =>
      (es.map Overrides.name?, ["card", "badge"].map fun id =>
        (Overrides.entryOf? id es).map Overrides.scalars)) =
      some ([none, some "card", some "ghost", some "badge", some "badge"],
        [some [("rx", .raw "2.5")], some [("height", .raw "6"), ("width", .raw "8")]]) := by
    decide +kernel
  obtain ⟨content, parts, ids⟩ := Outcome.exists_of_toOption ids
  obtain ⟨es, hes, first⟩ := Outcome.exists_of_toOption first
  obtain ⟨es', hes', second⟩ := Outcome.exists_of_toOption second
  obtain ⟨names, sets⟩ := Prod.mk.inj first
  obtain ⟨names', sets'⟩ := Prod.mk.inj second
  have both := sets.trans sets'.symm
  rw [List.map_inj_left] at both
  refine ⟨es, es', hes, hes', names, names', screen_congr_entries hes hes' ?_⟩
  intro content' parts'
  refine .inr fun id hid => ?_
  obtain ⟨v, hv, named⟩ := hid
  obtain rfl : content = content' := Except.ok.inj (parts.symm.trans parts')
  have known : some id ∈ ["card", "badge"].map some := by
    rw [List.map_cons, List.map_singleton, ← ids, ← named]
    exact List.mem_map_of_mem hv
  obtain ⟨id, mem, same⟩ := List.mem_map.1 known
  exact Option.some.inj same ▸ both id mem

end Drawing

end CanvasLayout
