import Mathlib
import CanvasLayout.Proofs.Metadata
import CanvasLayout.Proofs.ShuffledTags

/-!
# Drawings with attributes in another order

A drawing is read by the local names of attributes: a name is looked up among the attributes of a tag
and the first of its values counts, and of the attributes that are poured into a bag the last one of a
name counts. So of the order of attributes nothing matters but the order of those that share a local
name (`valuesOf`), and drawings that differ in nothing else have one screen
(`Drawing.screen_shuffled`).
-/

namespace CanvasLayout

/-- Outcomes that are related results, or one failure. -/
inductive Outcome.Related {α β : Type} (S : α → β → Prop) : Outcome α → Outcome β → Prop
  | ok {a : α} {b : β} (related : S a b) : Related S (.ok a) (.ok b)
  | error (f : Failure) : Related S (.error f) (.error f)

/-- Finding related results, or neither, with one failure for both. -/
theorem Outcome.related_elim {α β : Type} {S : α → β → Prop} {a : Option α} {b : Option β}
    (h : Option.Rel S a b) (f : Failure) :
    Related S (a.elim (.error f) .ok) (b.elim (.error f) .ok) := by
  cases h with
  | none => exact .error f
  | some related => exact .ok related

/-- Operations that go on in the same way from related results are the same, their lines included. -/
theorem Logged.lift_bind_congr {α β γ : Type} {S : α → β → Prop} {x : Outcome α} {y : Outcome β}
    {f : α → Logged γ} {g : β → Logged γ} (h : Outcome.Related S x y)
    (same : ∀ a b, S a b → g b = f a) : (Logged.lift y >>= g) = (Logged.lift x >>= f) := by
  cases h with
  | @ok a b related =>
    show (⟨_, _⟩ : Logged γ) = ⟨_, _⟩
    rw [same a b related]
    rfl
  | error f => rfl

namespace Xml

/-- The values of the attributes with a local name, in order. -/
def valuesOf (name : String) (as : List (String × String)) : List String :=
  as.filterMap fun a => if a.1 = name then some a.2 else none

/-- Attributes by local names that differ in the order of different names only. -/
def SameValues (as as' : List (String × String)) : Prop :=
  ∀ name, valuesOf name as' = valuesOf name as

theorem valuesOf_cons (name : String) (a : String × String) (as : List (String × String)) :
    valuesOf name (a :: as) = if a.1 = name then a.2 :: valuesOf name as else valuesOf name as := by
  unfold valuesOf
  rw [List.filterMap_cons]
  by_cases h : a.1 = name <;> simp [h]

/-- A name that is looked up has the first of its values. -/
theorem lookup_eq_head? (name : String) (as : List (String × String)) :
    as.lookup name = (valuesOf name as).head? := by
  induction as with
  | nil => rfl
  | cons a as ih =>
    rw [List.lookup_cons, valuesOf_cons, ih]
    by_cases h : a.1 = name
    · simp [h]
    · simp [h, beq_eq_false_iff_ne.2 (Ne.symm h)]

/-- Poured into a bag a name has the last of its values. -/
theorem get?_ofRaw (name : String) (as : List (String × String)) :
    (Bag.ofRaw as).get? name = (valuesOf name as).getLast?.map .raw := by
  induction as using List.reverseRecOn with
  | nil => rfl
  | append_singleton as a ih =>
    have last : (Bag.ofRaw (as ++ [a])).get? name =
        ((Bag.ofRaw as).insert a.1 (.raw a.2)).get? name := by
      simp only [Bag.ofRaw, NameMap.ofList, List.map_append, List.foldl_append, List.map_cons,
        List.map_nil, List.foldl_cons, List.foldl_nil]
    rw [last, NameMap.get?_insert, ih, valuesOf, valuesOf, List.filterMap_append]
    by_cases h : name = a.1
    · simp [h]
    · simp [h, Ne.symm h]

variable {as as' : List (String × String)}

theorem valuesOf_eq_toList (distinct : (as.map Prod.fst).Nodup) (name : String) :
    valuesOf name as = (as.lookup name).toList := by
  induction as with
  | nil => rfl
  | cons a as ih =>
    rw [List.map_cons, List.nodup_cons] at distinct
    rw [valuesOf_cons, List.lookup_cons, ih distinct.2]
    by_cases h : a.1 = name
    · subst h
      have absent : as.lookup a.1 = none := by
        rw [← Option.not_isSome_iff_eq_none, Json.isSome_lookup_iff]
        exact distinct.1
      simp [absent]
    · simp [h, beq_eq_false_iff_ne.2 (Ne.symm h)]

/-- Attributes with different local names can stand in any order. -/
theorem SameValues.of_perm (perm : as'.Perm as) (distinct : (as.map Prod.fst).Nodup) :
    SameValues as as' := by
  intro name
  have distinct' : (as'.map Prod.fst).Nodup := (perm.map Prod.fst).nodup_iff.2 distinct
  rw [valuesOf_eq_toList distinct, valuesOf_eq_toList distinct',
    Json.lookup_of_perm perm distinct']

/-- The attributes of a start tag, and none of other pieces. -/
def Token.written : Token → List (String × String)
  | .start t => t.written
  | _ => []

/-- Shuffled pieces have the same attributes in another order. -/
theorem Token.Alike.written {k k' : Token} (h : Alike StartTag.Shuffled k k') :
    k'.written.Perm k.written := by
  cases h with
  | start shuffled => exact shuffled.written
  | finish name => exact .rfl
  | text cs => exact .rfl
  | literal cs => exact .rfl
  | remark => exact .rfl

/-- What is known of the attributes of two alike pieces can be kept with them. -/
theorem Token.Alike.with {R : StartTag → StartTag → Prop}
    {P : List (String × String) → List (String × String) → Prop} {k k' : Token} (h : Alike R k k')
    (same : P k.written k'.written) : Alike (fun t t' => R t t' ∧ P t.written t'.written) k k' := by
  cases h with
  | start related => exact .start ⟨related, same⟩
  | finish name => exact .finish name
  | text cs => exact .text cs
  | literal cs => exact .literal cs
  | remark => exact .remark

variable {tag tag' : Tag}

/-- The first value of a name does not depend on where other names stand. -/
theorem Tag.Related.attribute?_eq (h : Tag.Related SameValues tag tag') (name : String) :
    tag'.attribute? name = tag.attribute? name := by
  unfold Tag.attribute?
  rw [lookup_eq_head?, lookup_eq_head?, h.attributes]

theorem Tag.Related.ofRaw_eq (h : Tag.Related SameValues tag tag') :
    Bag.ofRaw tag'.attributes = Bag.ofRaw tag.attributes := by
  apply NameMap.ext_get?
  intro name
  rw [get?_ofRaw, get?_ofRaw, h.attributes]

/-- Tags do not matter for the texts. -/
theorem Matched.textsOf_eq {T : Tag → Tag → Prop} {ns ns' : List Node} (h : Matched T ns ns') :
    Node.textsOf ns' = Node.textsOf ns := by
  induction h with
  | nil => rfl
  | text s _ ih => rw [Node.textsOf, Node.textsOf, ih]
  | remark _ ih => rw [Node.textsOf, Node.textsOf, ih]
  | element _ _ _ inside ih => rw [Node.textsOf, Node.textsOf, Node.texts, Node.texts, inside, ih]

end Xml

namespace Drawing

open Xml (Node Tag Matched SameValues Token StartTag)

variable {overrides : Overrides} {ancestor : Bag} {tag tag' : Tag}
  {content content' ns ns' : List Node}

/-- An element is drafted alike, whatever the order of its attributes. -/
theorem draft_reordered (h : Tag.Related SameValues tag tag')
    (inside : Matched (Tag.Related SameValues) content content') :
    draft overrides tag' content' = draft overrides tag content := by
  unfold draft
  rw [h.attribute?_eq, h.ofRaw_eq, h.name, h.offset, inside.textsOf_eq]

/-- Contents that differ in the order of attributes only make the same elements and leave the same
lines. -/
theorem layersIn_reordered (h : Matched (Tag.Related SameValues) ns ns') (overrides : Overrides)
    (ancestor : Bag) : layersIn overrides ancestor ns' = layersIn overrides ancestor ns := by
  induction h generalizing ancestor with
  | nil => rfl
  | text s _ ih => rw [layersIn_text, layersIn_text, ih]
  | remark _ ih => rw [layersIn_remark, layersIn_remark, ih]
  | @element tag tag' content content' _ _ related inside _ ih ih' =>
    have first : layer? overrides ancestor (.element tag' content') =
        layer? overrides ancestor (.element tag content) := by
      simp only [layer?, related.name, draft_reordered related inside, ih]
    rw [layersIn, layersIn, first, ih']

/-- An element and the same element with attributes in another order. -/
structure Reordered (g g' : Tag × List Node) : Prop where
  tag : Tag.Related SameValues g.1 g'.1
  inside : Matched (Tag.Related SameValues) g.2 g'.2

theorem groups_reordered (h : Matched (Tag.Related SameValues) ns ns') :
    List.Forall₂ Reordered (groups ns) (groups ns') := by
  induction h with
  | nil => exact .nil
  | text _ _ ih => exact ih
  | remark _ ih => exact ih
  | @element tag tag' content content' _ _ related inside _ _ ih =>
    rw [groups_cons (.element tag content), groups_cons (.element tag' content'), groups_element,
      groups_element, related.name]
    by_cases group : tag.name = "g"
    · rw [if_pos group, if_pos group]
      exact .cons ⟨related, inside⟩ ih
    · rw [if_neg group, if_neg group]
      exact ih

theorem page_reordered (path : String) (h : Matched (Tag.Related SameValues) ns ns') :
    Outcome.Related Reordered (page path ns) (page path ns') := by
  rw [page_eq, page_eq]
  exact Outcome.related_elim (rel_head? (groups_reordered h)) _

theorem artboard_reordered (path : String) (name : Option String)
    (h : Matched (Tag.Related SameValues) ns ns') :
    Outcome.Related Reordered (artboard path name ns) (artboard path name ns') := by
  rw [artboard_eq, artboard_eq]
  apply Outcome.related_elim
  cases name with
  | none => exact rel_head? (groups_reordered h)
  | some name =>
    refine rel_find? (groups_reordered h) ?_
    intro g g' same
    rw [same.tag.attribute?_eq]

theorem root_reordered (path : String) {drawing drawing' : String}
    (h : Option.Rel (fun n n' => Matched (Tag.Related SameValues) [n] [n'])
      (Node.parse? drawing) (Node.parse? drawing')) :
    Outcome.Related Reordered (root path drawing) (root path drawing') := by
  unfold root
  generalize Node.parse? drawing = n at h ⊢
  generalize Node.parse? drawing' = n' at h ⊢
  cases h with
  | none => exact .error _
  | some same =>
    cases same with
    | text s _ => exact .error _
    | remark _ => exact .error _
    | @element tag tag' content content' _ _ related inside _ =>
      dsimp only
      rw [related.name]
      by_cases svg : tag.name = "svg"
      · rw [if_pos svg, if_pos svg]
        exact .ok ⟨related, inside⟩
      · rw [if_neg svg, if_neg svg]
        exact .error _

/-- The screen does not depend on the order in which differently named attributes are written. -/
theorem screen_reordered {drawing drawing' : String}
    (h : Option.Rel (fun n n' => Matched (Tag.Related SameValues) [n] [n'])
      (Node.parse? drawing) (Node.parse? drawing')) (path : String) (overrides : Overrides)
    (name : Option String) :
    screen path overrides name drawing' = screen path overrides name drawing := by
  unfold screen
  apply Logged.lift_bind_congr (root_reordered path h)
  rintro ⟨root, content⟩ ⟨root', content'⟩ ⟨roots, inside⟩
  apply Logged.lift_bind_congr (page_reordered path inside)
  rintro ⟨page, content⟩ ⟨page', content'⟩ ⟨pages, inside⟩
  apply Logged.lift_bind_congr (artboard_reordered path name inside)
  rintro ⟨board, content⟩ ⟨board', content'⟩ ⟨boards, inside⟩
  dsimp only
  rw [canvas_congr roots.attribute?_eq pages.attribute?_eq boards.attribute?_eq,
    inherited_congr pages.ofRaw_eq boards.ofRaw_eq, layersIn_reordered inside]

/-- What is known of the attributes of two documents, piece by piece, can be kept with them. -/
theorem shuffled_with {P : List (String × String) → List (String × String) → Prop}
    {ts ts' : List Token} (shuffled : List.Forall₂ (Token.Alike StartTag.Shuffled) ts ts')
    (same : List.Forall₂ (fun k k' => P k.written k'.written) ts ts') :
    List.Forall₂ (Token.Alike fun t t' => t.Shuffled t' ∧ P t.written t'.written) ts ts' := by
  rw [List.forall₂_iff_zip] at shuffled same ⊢
  exact ⟨shuffled.1, fun mem => (shuffled.2 mem).with (same.2 mem)⟩

/-- In which order the attributes of tags are written does not matter for whether a document is well
formed, declarations of namespaces included. For the screen and the log it does not matter either if
attributes with one local name keep their order, and so not at all if no tag has two of them. -/
theorem screen_shuffled {drawing drawing' : String} {ts ts' : List Token}
    (cut : Xml.tokens? drawing = some ts) (cut' : Xml.tokens? drawing' = some ts')
    (shuffled : List.Forall₂ (Token.Alike StartTag.Shuffled) ts ts') :
    (Node.parse? drawing').isSome = (Node.parse? drawing).isSome ∧
      ∀ path overrides name,
        (List.Forall₂ (fun k k' => SameValues k.written k'.written) ts ts' →
          screen path overrides name drawing' = screen path overrides name drawing) ∧
        ((∀ k ∈ ts, (k.written.map Prod.fst).Nodup) →
          screen path overrides name drawing' = screen path overrides name drawing) := by
  have kept (same : List.Forall₂ (fun k k' => SameValues k.written k'.written) ts ts')
      (path : String) (overrides : Overrides) (name : Option String) :
      screen path overrides name drawing' = screen path overrides name drawing := by
    refine screen_reordered (Node.rel_parse? (Xml.simulates_shuffled _) ?_ cut cut'
      (shuffled_with shuffled same)) path overrides name
    exact fun h => ⟨h.1.symm, fun name => (h.2 name).symm⟩
  refine ⟨?_, fun path overrides name => ⟨fun same => kept same path overrides name, ?_⟩⟩
  · exact isSome_of_rel (Node.rel_parse? Xml.simulates_any (fun h => h.symm) cut cut' shuffled)
  · intro distinct
    refine kept (List.forall₂_iff_zip.2 ⟨shuffled.length_eq, fun mem => ?_⟩) path overrides name
    have tags := (List.forall₂_iff_zip.1 shuffled).2 mem
    exact .of_perm tags.written (distinct _ (List.of_mem_zip mem).1)

/-- A drawing of one rectangle with the given attributes and a frame. -/
def drawnRect (attributes : String) : String :=
  "<svg width=\"9\" height=\"9\"><g><g><rect " ++ attributes ++
    " x=\"0\" y=\"0\" width=\"1\" height=\"1\"/></g></g></svg>"

/-- An attribute without a qualifier. -/
def unqualified (name value : String) : Xml.Attribute := ⟨⟨"", name⟩, value⟩

/-- The pieces of the drawing of a rectangle. -/
def rectPieces (attributes : List Xml.Attribute) : List Token :=
  [.start ⟨⟨"", "svg"⟩, [unqualified "width" "9", unqualified "height" "9"], 0, false⟩,
    .start ⟨⟨"", "g"⟩, [], 26, false⟩, .start ⟨⟨"", "g"⟩, [], 29, false⟩,
    .start ⟨⟨"", "rect"⟩, attributes ++ [unqualified "x" "0", unqualified "y" "0",
      unqualified "width" "1", unqualified "height" "1"], 32, true⟩,
    .finish ⟨"", "g"⟩, .finish ⟨"", "g"⟩, .finish ⟨"", "svg"⟩]

/-- The attributes of the rectangle can stand in any order. -/
theorem rectPieces_shuffled {as as' : List Xml.Attribute} (perm : as'.Perm as) :
    List.Forall₂ (Token.Alike StartTag.Shuffled) (rectPieces as) (rectPieces as') :=
  have same (t : StartTag) : t.Shuffled t := ⟨rfl, .rfl, rfl, rfl⟩
  .cons (.start (same _)) <| .cons (.start (same _)) <| .cons (.start (same _)) <|
    .cons (.start ⟨rfl, perm.append_right _, rfl, rfl⟩) <|
    .cons (.finish _) <| .cons (.finish _) <| .cons (.finish _) .nil

/-- The declaration of the qualifier moves before its use, and the fills keep their order. -/
theorem screen_shuffled_fills :
    let drawing := drawnRect "id=\"a\" fill=\"#112233\" s:fill=\"#445566\" xmlns:s=\"u\""
    let drawing' := drawnRect "xmlns:s=\"u\" fill=\"#112233\" s:fill=\"#445566\" id=\"a\""
    screen "rect.svg" .empty none drawing' = screen "rect.svg" .empty none drawing ∧
      (screen "rect.svg" .empty none drawing).outcome.toOption.map
        (·.layers.map (·.content.style.fill)) = some [some ⟨0x44, 0x55, 0x66⟩] := by
  intro drawing drawing'
  have cut : Xml.tokens? drawing = some (rectPieces [unqualified "id" "a",
      unqualified "fill" "#112233", ⟨⟨"s", "fill"⟩, "#445566"⟩, ⟨⟨"xmlns", "s"⟩, "u"⟩]) := by
    decide +kernel
  have cut' : Xml.tokens? drawing' = some (rectPieces [⟨⟨"xmlns", "s"⟩, "u"⟩,
      unqualified "fill" "#112233", ⟨⟨"s", "fill"⟩, "#445566"⟩, unqualified "id" "a"]) := by
    decide +kernel
  refine ⟨((screen_shuffled cut cut' (rectPieces_shuffled (by decide))).2 _ _ _).1 ?_,
    by decide +kernel⟩
  have same (k : Token) : SameValues k.written k.written := fun _ => rfl
  refine .cons (same _) <| .cons (same _) <| .cons (same _) <| .cons (fun name => ?_) <|
    .cons (same _) <| .cons (same _) <| .cons (same _) .nil
  show Xml.valuesOf name [("fill", "#112233"), ("fill", "#445566"), ("id", "a"), ("x", "0"),
      ("y", "0"), ("width", "1"), ("height", "1")] =
    Xml.valuesOf name [("id", "a"), ("fill", "#112233"), ("fill", "#445566"), ("x", "0"),
      ("y", "0"), ("width", "1"), ("height", "1")]
  by_cases fill : "fill" = name
  · subst fill
    rfl
  · simp only [Xml.valuesOf_cons, if_neg fill]

/-- Of two attributes with the local name of the identity the first one names the layer. -/
theorem screen_shuffled_ids :
    let drawing := drawnRect "id=\"a\" s:id=\"b\" xmlns:s=\"u\""
    let drawing' := drawnRect "s:id=\"b\" id=\"a\" xmlns:s=\"u\""
    (∃ ts ts', Xml.tokens? drawing = some ts ∧ Xml.tokens? drawing' = some ts' ∧
      List.Forall₂ (Token.Alike StartTag.Shuffled) ts ts') ∧
    (screen "rect.svg" .empty none drawing).outcome.toOption.map
        (·.layers.map (·.id)) = some ["a"] ∧
      (screen "rect.svg" .empty none drawing').outcome.toOption.map
        (·.layers.map (·.id)) = some ["b"] := by
  intro drawing drawing'
  have cut : Xml.tokens? drawing = some (rectPieces [unqualified "id" "a",
      ⟨⟨"s", "id"⟩, "b"⟩, ⟨⟨"xmlns", "s"⟩, "u"⟩]) := by
    decide +kernel
  have cut' : Xml.tokens? drawing' = some (rectPieces [⟨⟨"s", "id"⟩, "b"⟩, unqualified "id" "a",
      ⟨⟨"xmlns", "s"⟩, "u"⟩]) := by
    decide +kernel
  exact ⟨⟨_, _, cut, cut', rectPieces_shuffled (.swap _ _ _)⟩, by decide +kernel, by decide +kernel⟩

end Drawing

end CanvasLayout
