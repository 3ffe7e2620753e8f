import Mathlib
import CanvasLayout.Proofs.DrawnLayers
import CanvasLayout.Proofs.FirstFault
import CanvasLayout.Proofs.Muting
import CanvasLayout.Proofs.SearchAndSort

/-!
# Metadata in drawings

An element that describes another one is never a layer. So a drawing with metadata put into it,
anywhere and with any content (`Annotated`), is read like the drawing without: it has the same page
and artboard, and the walk over the parts of the artboard passes over what was put in. Labels are the
exception. What stands below a label is not walked but searched for character data, and there
metadata is not passed over. It can change the text of the label, and with that the title of a
button, but nothing else: `Drawing.screen_annotated`.
-/

namespace CanvasLayout

/-- Lists that are related entry by entry are so in front of a place and behind it. -/
theorem forall₂_of_append {α β : Type} {R : α → β → Prop} {as as' : List α} {bs bs' : List β}
    (length : as.length = bs.length) (h : List.Forall₂ R (as ++ as') (bs ++ bs')) :
    List.Forall₂ R as bs ∧ List.Forall₂ R as' bs' := by
  induction as generalizing bs with
  | nil =>
    obtain rfl := List.eq_nil_of_length_eq_zero length.symm
    exact ⟨.nil, h⟩
  | cons a as ih =>
    cases bs with
    | nil => cases length
    | cons b bs =>
      obtain ⟨first, rest⟩ := List.forall₂_cons.1 h
      obtain ⟨front, back⟩ := ih (by simpa using length) rest
      exact ⟨.cons first front, back⟩

/-- Of the character data of a draft nothing is looked at when it is prepared. -/
theorem Draft.prepare_runs (d : Draft) (runs : List String) (ancestor : Bag) (overrides : Overrides) :
    ({ d with runs } : Draft).prepare ancestor overrides =
      (d.prepare ancestor overrides).map (·.withRuns runs) := by
  have own : ({ d with runs } : Draft).ownFill overrides = d.ownFill overrides := by
    unfold ownFill resolve
    cases d.attributes.resolve d.id .empty (overrides.get? d.id) <;> rfl
  rw [prepare_eq, prepare_eq]
  cases d.attributes.resolve d.id ancestor (overrides.get? d.id) with
  | error f => rfl
  | ok b =>
    show Except.bind d.declaredKind _ = Except.map _ (Except.bind d.declaredKind _)
    cases d.declaredKind with
    | error f => rfl
    | ok declared =>
      simp only [Except.bind]
      by_cases text : declared = .text
      · rw [if_pos text, if_pos text, own]
        cases d.ownFill overrides <;> rfl
      · rw [if_neg text, if_neg text]
        rfl

namespace Drawing

open Xml (Node Tag)
open Logged (bind_eq_ok)

/-- The text of a label with the given content. -/
def labelText (content : List Node) : String :=
  String.join ((Node.textsOf content).filter fun run => !Text.isBlankText run)

/-- The texts of the labels that a walk over parts of a drawing comes to, in order. -/
def labelTexts (ns : List Node) : List String :=
  ((visitedIn ns).filter (·.1.name = "text")).map fun v => labelText v.2

/-- The texts of the labels that a drawing is read for, if it has an artboard. -/
def drawnTexts (path : String) (name : Option String) (drawing : String) : Option (List String) :=
  (artboardParts path name drawing).toOption.map labelTexts

/-- The second list of parts is the first with metadata put into it at any depth. Where metadata is
put into a text, the text falls apart, and tags behind it move. -/
inductive Annotated : List Node → List Node → Prop
  | nil : Annotated [] []
  | metadata {tag : Tag} {content ns ns' : List Node} (metadata : tag.name ∈ metadataTags)
    (rest : Annotated ns ns') : Annotated ns (.element tag content :: ns')
  | split {s t : String} {ns ns' : List Node} (rest : Annotated (.text t :: ns) ns') :
    Annotated (.text (s ++ t) :: ns) (.text s :: ns')
  | text {s : String} {ns ns' : List Node} (rest : Annotated ns ns') :
    Annotated (.text s :: ns) (.text s :: ns')
  | remark {ns ns' : List Node} (rest : Annotated ns ns') :
    Annotated (.remark :: ns) (.remark :: ns')
  | element {tag tag' : Tag} {content content' ns ns' : List Node} (named : tag'.name = tag.name)
    (attributed : tag'.attributes = tag.attributes) (inside : Annotated content content')
    (rest : Annotated ns ns') : Annotated (.element tag content :: ns) (.element tag' content' :: ns')

/-- The same parts, with their tags at other places of a document. -/
inductive Relocated : List Node → List Node → Prop
  | nil : Relocated [] []
  | text {s : String} {ns ns' : List Node} (rest : Relocated ns ns') :
    Relocated (.text s :: ns) (.text s :: ns')
  | remark {ns ns' : List Node} (rest : Relocated ns ns') :
    Relocated (.remark :: ns) (.remark :: ns')
  | element {tag tag' : Tag} {content content' ns ns' : List Node} (named : tag'.name = tag.name)
    (attributed : tag'.attributes = tag.attributes) (inside : Relocated content content')
    (rest : Relocated ns ns') : Relocated (.element tag content :: ns) (.element tag' content' :: ns')

/-- The second list of parts is the first with metadata put into it, none of it into a label. -/
inductive AnnotatedOutside : List Node → List Node → Prop
  | nil : AnnotatedOutside [] []
  | metadata {tag : Tag} {content ns ns' : List Node} (metadata : tag.name ∈ metadataTags)
    (rest : AnnotatedOutside ns ns') : AnnotatedOutside ns (.element tag content :: ns')
  | split {s t : String} {ns ns' : List Node} (rest : AnnotatedOutside (.text t :: ns) ns') :
    AnnotatedOutside (.text (s ++ t) :: ns) (.text s :: ns')
  | text {s : String} {ns ns' : List Node} (rest : AnnotatedOutside ns ns') :
    AnnotatedOutside (.text s :: ns) (.text s :: ns')
  | remark {ns ns' : List Node} (rest : AnnotatedOutside ns ns') :
    AnnotatedOutside (.remark :: ns) (.remark :: ns')
  | label {tag tag' : Tag} {content content' ns ns' : List Node} (label : tag.name = "text")
    (named : tag'.name = tag.name) (attributed : tag'.attributes = tag.attributes)
    (inside : Relocated content content') (rest : AnnotatedOutside ns ns') :
    AnnotatedOutside (.element tag content :: ns) (.element tag' content' :: ns')
  | element {tag tag' : Tag} {content content' ns ns' : List Node} (other : tag.name ≠ "text")
    (named : tag'.name = tag.name) (attributed : tag'.attributes = tag.attributes)
    (inside : AnnotatedOutside content content') (rest : AnnotatedOutside ns ns') :
    AnnotatedOutside (.element tag content :: ns) (.element tag' content' :: ns')

variable {overrides : Overrides} {ancestor : Bag} {tag tag' : Tag}
  {content content' ns ns' : List Node}

theorem Relocated.textsOf_eq (h : Relocated ns ns') : Node.textsOf ns' = Node.textsOf ns := by
  induction h with
  | nil => rfl
  | text rest ih => rw [Node.textsOf, Node.textsOf, ih, Node.texts]
  | remark rest ih => rw [Node.textsOf, Node.textsOf, ih, Node.texts]
  | element named attributed inside rest ih ih' =>
    rw [Node.textsOf, Node.textsOf, Node.texts, Node.texts, ih, ih']

/-! ## The labels of a drawing -/

theorem labelTexts_text (s : String) (ns : List Node) : labelTexts (.text s :: ns) = labelTexts ns := by
  simp [labelTexts, visitedIn, visited]

theorem labelTexts_remark (ns : List Node) : labelTexts (.remark :: ns) = labelTexts ns := by
  simp [labelTexts, visitedIn, visited]

theorem labelTexts_metadata (h : tag.name ∈ metadataTags) :
    labelTexts (.element tag content :: ns) = labelTexts ns := by
  simp [labelTexts, visitedIn, visited, h]

/-- A label gives its own text, and no walk goes on below it. -/
theorem labelTexts_label (h : tag.name = "text") :
    labelTexts (.element tag content :: ns) = labelText content :: labelTexts ns := by
  have layer : "text" ∉ metadataTags := by decide
  simp [labelTexts, visitedIn, visited, h, layer]

/-- Any other element gives the texts of the labels below it. -/
theorem labelTexts_layer (layer : tag.name ∉ metadataTags) (text : tag.name ≠ "text") :
    labelTexts (.element tag content :: ns) = labelTexts content ++ labelTexts ns := by
  simp [labelTexts, visitedIn, visited, layer, text]

/-- Metadata holds no labels and is none. -/
theorem Annotated.length_labelTexts (h : Annotated ns ns') :
    (labelTexts ns).length = (labelTexts ns').length := by
  induction h with
  | nil => rfl
  | metadata metadata rest ih => rw [labelTexts_metadata metadata, ih]
  | split rest ih => rw [labelTexts_text, labelTexts_text, ← ih, labelTexts_text]
  | text rest ih => rw [labelTexts_text, labelTexts_text, ih]
  | remark rest ih => rw [labelTexts_remark, labelTexts_remark, ih]
  | @element tag tag' content content' ns ns' named _ inside rest ih ih' =>
    by_cases metadata : tag.name ∈ metadataTags
    · rw [labelTexts_metadata metadata, labelTexts_metadata (named ▸ metadata), ih']
    · by_cases text : tag.name = "text"
      · rw [labelTexts_label text, labelTexts_label (named.trans text), List.length_cons,
          List.length_cons, ih']
      · rw [labelTexts_layer metadata text, labelTexts_layer (named ▸ metadata) (named ▸ text),
          List.length_append, List.length_append, ih, ih']

/-- Labels keep their texts when nothing is put into them. -/
theorem AnnotatedOutside.labelTexts_eq (h : AnnotatedOutside ns ns') :
    labelTexts ns = labelTexts ns' := by
  induction h with
  | nil => rfl
  | metadata metadata rest ih => rw [labelTexts_metadata metadata, ih]
  | split rest ih => rw [labelTexts_text, labelTexts_text, ← ih, labelTexts_text]
  | text rest ih => rw [labelTexts_text, labelTexts_text, ih]
  | remark rest ih => rw [labelTexts_remark, labelTexts_remark, ih]
  | label text named attributed inside rest ih =>
    rw [labelTexts_label text, labelTexts_label (named.trans text), labelText, labelText,
      inside.textsOf_eq, ih]
  | @element tag tag' content content' ns ns' text named _ inside rest ih ih' =>
    by_cases metadata : tag.name ∈ metadataTags
    · rw [labelTexts_metadata metadata, labelTexts_metadata (named ▸ metadata), ih']
    · rw [labelTexts_layer metadata text, labelTexts_layer (named ▸ metadata) (named ▸ text), ih, ih']

/-- Label by label, the texts are equal unless something is put into labels. -/
theorem Annotated.labels_outside (h : Annotated ns ns') :
    List.Forall₂ (fun s s' => AnnotatedOutside ns ns' → s = s') (labelTexts ns) (labelTexts ns') := by
  by_cases outside : AnnotatedOutside ns ns'
  · rw [outside.labelTexts_eq]
    exact List.forall₂_same.2 fun _ _ _ => rfl
  · exact List.forall₂_iff_get.2 ⟨h.length_labelTexts, fun _ _ _ h => absurd h outside⟩

/-- Below an element that is no label, and behind it, labels are related as they are overall. -/
theorem labelTexts_inside {R : String → String → Prop} (named : tag'.name = tag.name)
    (layer : tag.name ∉ metadataTags) (text : tag.name ≠ "text")
    (inside : (labelTexts content).length = (labelTexts content').length)
    (labels : List.Forall₂ R (labelTexts (.element tag content :: ns))
      (labelTexts (.element tag' content' :: ns'))) :
    List.Forall₂ R (labelTexts content) (labelTexts content') ∧
      List.Forall₂ R (labelTexts ns) (labelTexts ns') := by
  rw [labelTexts_layer layer text, labelTexts_layer (named ▸ layer) (named ▸ text)] at labels
  exact forall₂_of_append inside labels

/-- Labels behind an element are related as they are overall. -/
theorem labelTexts_behind {R : String → String → Prop} (named : tag'.name = tag.name)
    (inside : (labelTexts content).length = (labelTexts content').length)
    (labels : List.Forall₂ R (labelTexts (.element tag content :: ns))
      (labelTexts (.element tag' content' :: ns'))) :
    List.Forall₂ R (labelTexts ns) (labelTexts ns') := by
  by_cases metadata : tag.name ∈ metadataTags
  · rwa [labelTexts_metadata metadata, labelTexts_metadata (named ▸ metadata)] at labels
  · by_cases text : tag.name = "text"
    · rw [labelTexts_label text, labelTexts_label (named.trans text), List.forall₂_cons] at labels
      exact labels.2
    · exact (labelTexts_inside named metadata text inside labels).2

/-! ## One element -/

/-- An element that is drafted and prepared, and waits for what stands below it. -/
def prepared (overrides : Overrides) (ancestor : Bag) (tag : Tag) (content : List Node) :
    Outcome Prepared :=
  (draft overrides tag content).bind (·.prepare ancestor overrides)

/-- The character data that an element is drafted with. -/
def runs (tag : Tag) (content : List Node) : List String :=
  if tag.name = "text" then Node.textsOf content else []

theorem runs_of_draft {d : Draft} (h : draft overrides tag content = .ok d) :
    d.runs = runs tag content := by
  unfold draft at h
  split at h
  · cases h
  · obtain ⟨f, -, h⟩ := Outcome.bind_eq_ok.1 h
    cases h
    rfl

theorem runs_of_prepared {p : Prepared} (h : prepared overrides ancestor tag content = .ok p) :
    p.draft.runs = runs tag content := by
  obtain ⟨d, drafted, h⟩ := Outcome.bind_eq_ok.1 h
  obtain ⟨-, b, hb⟩ := Draft.prepare_eq_ok h
  have runs := runs_of_draft drafted
  rwa [hb]

/-- Where an element stands in its document is only told when it has no name, and what it holds is
only looked at for its character data. -/
theorem draft_annotated (named : tag'.name = tag.name)
    (attributed : tag'.attributes = tag.attributes) :
    (draft overrides tag' content').toOption =
      (draft overrides tag content).toOption.map fun d => { d with runs := runs tag content' } := by
  obtain ⟨name, attributes, offset⟩ := tag
  obtain ⟨name', attributes', offset'⟩ := tag'
  obtain rfl : name' = name := named
  obtain rfl : attributes' = attributes := attributed
  cases lookup : attributes'.lookup "id" with
  | none =>
    have absent (offset : Nat) (content : List Node) :
        draft overrides ⟨name', attributes', offset⟩ content =
          .error (.format (.missingId name' offset)) := by
      unfold draft Tag.attribute?
      rw [lookup]
    rw [absent, absent]
    rfl
  | some id =>
    have known : Tag.attribute? ⟨name', attributes', offset⟩ "id" = some id := lookup
    have known' : Tag.attribute? ⟨name', attributes', offset'⟩ "id" = some id := lookup
    rw [draft_eq known, draft_eq known']
    cases frame id (.ofRaw attributes') (overrides.get? id) <;> rfl

/-- Elements with the same name and attributes are prepared alike, up to their character data. -/
theorem prepared_annotated (named : tag'.name = tag.name)
    (attributed : tag'.attributes = tag.attributes) :
    (prepared overrides ancestor tag' content').toOption =
      (prepared overrides ancestor tag content).toOption.map (·.withRuns (runs tag content')) := by
  unfold prepared
  rw [Outcome.toOption_bind, Outcome.toOption_bind, draft_annotated named attributed,
    Option.bind_map, Option.map_bind]
  congr 1
  funext d
  have same := Draft.prepare_runs d (runs tag content') ancestor overrides
  show (({ d with runs := runs tag content' } : Draft).prepare ancestor overrides).toOption = _
  rw [same, Outcome.toOption_map]
  rfl

/-- What an operation on elements leaves of an element that is built does not depend on more than
what it leaves of the children, and on more of a label's text than a relation says. -/
structure Overlooks (τ : Element → Element) (R : String → String → Prop) : Prop where
  refl : ∀ s, R s s
  build : ∀ {p : Prepared} {runs : List String} {children children' : List Element},
    R p.draft.text (p.withRuns runs).draft.text → children.map τ = children'.map τ →
      (p.build children).outcome.map τ = ((p.withRuns runs).build children').outcome.map τ

/-- Every element is decided by its children and its texts. -/
theorem overlooks_id : Overlooks id Eq where
  refl _ := rfl
  build := by
    intro p runs children children' text same
    rw [List.map_id, List.map_id] at same
    rw [p.build_withRuns text.symm, same]

/-- Up to texts, an element is decided by its children alone. -/
theorem overlooks_muted : Overlooks Element.muted fun _ _ => True where
  refl _ := trivial
  build := by
    intro p runs children children' _ same
    exact Prepared.build_muted same

variable {τ : Element → Element} {R : String → String → Prop}

/-- One element, with metadata put into it: where the walk below it comes to the same elements up to
`τ`, the element itself is the same up to `τ`. -/
theorem layer_annotated (h : Overlooks τ R) (named : tag'.name = tag.name)
    (attributed : tag'.attributes = tag.attributes)
    (text : tag.name = "text" → R (labelText content) (labelText content'))
    (inside : ∀ own, (layersIn overrides own (below tag content)).outcome.toOption.map (·.map τ) =
      (layersIn overrides own (below tag' content')).outcome.toOption.map (·.map τ)) :
    (layer overrides ancestor tag content).outcome.toOption.map τ =
      (layer overrides ancestor tag' content').outcome.toOption.map τ := by
  have inside := inside (.ofRaw tag.attributes)
  rw [outcome_layer, outcome_layer, attributed]
  show Option.map τ ((prepared overrides ancestor tag content).bind _).toOption =
    Option.map τ ((prepared overrides ancestor tag' content').bind _).toOption
  rw [Outcome.toOption_bind, Outcome.toOption_bind, prepared_annotated named attributed]
  cases made : prepared overrides ancestor tag content with
  | error f => rfl
  | ok p =>
    have texts : R p.draft.text (p.withRuns (runs tag content')).draft.text := by
      unfold Draft.text
      rw [runs_of_prepared made]
      show R _ (String.join ((runs tag content').filter _))
      unfold runs
      by_cases label : tag.name = "text"
      · rw [if_pos label, if_pos label]
        exact text label
      · rw [if_neg label, if_neg label]
        exact h.refl _
    show Option.map τ (Except.toOption (Except.bind _ _)) = Option.map τ (Except.toOption (Except.bind _ _))
    rw [Outcome.toOption_bind, Outcome.toOption_bind]
    cases built : (layersIn overrides (.ofRaw tag.attributes) (below tag content)).outcome with
    | error f =>
      cases built' : (layersIn overrides (.ofRaw tag.attributes) (below tag' content')).outcome with
      | error f' => rfl
      | ok es' =>
        rw [built, built'] at inside
        cases inside
    | ok es =>
      cases built' : (layersIn overrides (.ofRaw tag.attributes) (below tag' content')).outcome with
      | error f' =>
        rw [built, built'] at inside
        cases inside
      | ok es' =>
        rw [built, built'] at inside
        have same : es.map τ = es'.map τ := Option.some.inj inside
        have made := congrArg Except.toOption (h.build texts same)
        rwa [Outcome.toOption_map, Outcome.toOption_map] at made

/-! ## The walk -/

theorem layersIn_text (s : String) (ns : List Node) :
    layersIn overrides ancestor (.text s :: ns) = layersIn overrides ancestor ns := by
  simp [layersIn, layer?]

theorem layersIn_remark (ns : List Node) :
    layersIn overrides ancestor (.remark :: ns) = layersIn overrides ancestor ns := by
  simp [layersIn, layer?]

theorem layersIn_metadata (h : tag.name ∈ metadataTags) :
    layersIn overrides ancestor (.element tag content :: ns) = layersIn overrides ancestor ns := by
  simp [layersIn, layer?, h]

/-- A walk that succeeds comes to the first element and then to those behind it. -/
theorem toOption_layersIn_layer (h : tag.name ∉ metadataTags) :
    (layersIn overrides ancestor (.element tag content :: ns)).outcome.toOption =
      (layer overrides ancestor tag content).outcome.toOption.bind fun e =>
        (layersIn overrides ancestor ns).outcome.toOption.map (e :: ·) := by
  rw [layersIn, layer?_element h, map_eq_pure_bind]
  simp only [Logged.outcome_bind, Logged.outcome_pure]
  cases (layer overrides ancestor tag content).outcome with
  | error f => rfl
  | ok e => cases (layersIn overrides ancestor ns).outcome <;> rfl

theorem map_cons_congr {α β : Type} {f : α → β} {x x' : Option α} {y y' : Option (List α)}
    (first : x.map f = x'.map f) (rest : y.map (·.map f) = y'.map (·.map f)) :
    (x.bind fun a => y.map (a :: ·)).map (·.map f) = (x'.bind fun a => y'.map (a :: ·)).map (·.map f) := by
  have split (x : Option α) (y : Option (List α)) : (x.bind fun a => y.map (a :: ·)).map (·.map f) =
      (x.map f).bind fun b => (y.map (·.map f)).map (b :: ·) := by
    cases x <;> cases y <;> rfl
  rw [split, split, first, rest]

/-- A walk over parts with metadata in them makes the same of them as far as it is looked at, if
the texts of labels are the same as far as they are looked at. -/
theorem layersIn_annotated (h : Overlooks τ R) (annotated : Annotated ns ns')
    (labels : List.Forall₂ R (labelTexts ns) (labelTexts ns')) (overrides : Overrides)
    (ancestor : Bag) :
    (layersIn overrides ancestor ns).outcome.toOption.map (·.map τ) =
      (layersIn overrides ancestor ns').outcome.toOption.map (·.map τ) := by
  induction annotated generalizing ancestor with
  | nil => rfl
  | metadata metadata rest ih =>
    rw [labelTexts_metadata metadata] at labels
    rw [layersIn_metadata metadata, ih labels]
  | split rest ih =>
    rw [labelTexts_text] at labels ih
    rw [labelTexts_text] at labels
    rw [layersIn_text, layersIn_text, ← ih labels, layersIn_text]
  | text rest ih =>
    rw [labelTexts_text, labelTexts_text] at labels
    rw [layersIn_text, layersIn_text, ih labels]
  | remark rest ih =>
    rw [labelTexts_remark, labelTexts_remark] at labels
    rw [layersIn_remark, layersIn_remark, ih labels]
  | @element tag tag' content content' ns ns' named attributed inside rest ih ih' =>
    have others := labelTexts_behind named inside.length_labelTexts labels
    by_cases metadata : tag.name ∈ metadataTags
    · rw [layersIn_metadata metadata, layersIn_metadata (named ▸ metadata), ih' others]
    · rw [toOption_layersIn_layer metadata, toOption_layersIn_layer (named ▸ metadata)]
      by_cases text : tag.name = "text"
      · rw [labelTexts_label text, labelTexts_label (named.trans text), List.forall₂_cons] at labels
        refine map_cons_congr (layer_annotated h named attributed (fun _ => labels.1) ?_) (ih' others _)
        intro own
        rw [below, below, if_pos text, if_pos (named.trans text)]
      · have own := (labelTexts_inside named metadata text inside.length_labelTexts labels).1
        refine map_cons_congr (layer_annotated h named attributed (fun label => absurd label text) ?_)
          (ih' others _)
        intro ancestor
        rw [below, below, if_neg text, if_neg (named ▸ text)]
        exact ih own ancestor

/-- A walk over parts with metadata in them comes to the same elements up to texts, and to the very
same if the labels keep their texts. -/
theorem layersIn_of_annotated {es : List Element} (annotated : Annotated ns ns')
    (h : (layersIn overrides ancestor ns).outcome = .ok es) :
    ∃ es', (layersIn overrides ancestor ns').outcome = .ok es' ∧
      es.map Element.muted = es'.map Element.muted ∧ (labelTexts ns = labelTexts ns' → es' = es) := by
  have muted := layersIn_annotated overlooks_muted annotated
    (List.forall₂_iff_get.2 ⟨annotated.length_labelTexts, fun _ _ _ => trivial⟩) overrides ancestor
  rw [h] at muted
  obtain ⟨es', made, same⟩ := Option.map_eq_some_iff.1 muted.symm
  have made := Outcome.toOption_eq_some.1 made
  refine ⟨es', made, same.symm, fun labels => ?_⟩
  have walk := layersIn_annotated overlooks_id annotated (by rw [List.forall₂_eq_eq_eq, labels])
    overrides ancestor
  rw [h, made] at walk
  have same : es.map id = es'.map id := Option.some.inj walk
  rw [List.map_id, List.map_id] at same
  exact same.symm

/-! ## The document -/

/-- The second element is the first with metadata in it, the texts of the labels being related. -/
structure Noted (R : String → String → Prop) (g g' : Tag × List Node) : Prop where
  named : g'.1.name = g.1.name
  attributed : g'.1.attributes = g.1.attributes
  inside : Annotated g.2 g'.2
  labels : List.Forall₂ R (labelTexts g.2) (labelTexts g'.2)

/-- Metadata inside of an element changes none of its attributes. -/
theorem Noted.attribute?_eq {g g' : Tag × List Node} (h : Noted R g g') (name : String) :
    g'.1.attribute? name = g.1.attribute? name := by
  unfold Tag.attribute?
  rw [h.attributed]

theorem groups_cons (n : Node) (ns : List Node) : groups (n :: ns) = groups [n] ++ groups ns := by
  unfold groups
  rw [← List.filterMap_append]
  rfl

theorem groups_element : groups [.element tag content] =
    if tag.name = "g" then [(tag, content)] else [] := by
  unfold groups
  by_cases group : tag.name = "g" <;> simp [group]

/-- Metadata is no group. -/
theorem groups_annotated (h : Annotated ns ns')
    (labels : List.Forall₂ R (labelTexts ns) (labelTexts ns')) :
    List.Forall₂ (Noted R) (groups ns) (groups ns') := by
  induction h with
  | nil => exact .nil
  | @metadata tag content ns ns' metadata rest ih =>
    have other : tag.name ≠ "g" := by
      rintro group
      rw [group] at metadata
      exact absurd metadata (by decide)
    rw [groups_cons (.element tag content), groups_element, if_neg other]
    exact ih (by rwa [labelTexts_metadata metadata] at labels)
  | split rest ih =>
    rw [labelTexts_text] at labels ih
    rw [labelTexts_text] at labels
    exact ih labels
  | text rest ih =>
    rw [labelTexts_text, labelTexts_text] at labels
    exact ih labels
  | remark rest ih =>
    rw [labelTexts_remark, labelTexts_remark] at labels
    exact ih labels
  | @element tag tag' content content' ns ns' named attributed inside rest _ ih =>
    have others := labelTexts_behind named inside.length_labelTexts labels
    rw [groups_cons (.element tag content), groups_cons (.element tag' content'), groups_element,
      groups_element, named]
    by_cases group : tag.name = "g"
    · have own := labelTexts_inside named (by rw [group]; decide) (by rw [group]; decide)
        inside.length_labelTexts labels
      rw [if_pos group, if_pos group]
      exact .cons ⟨named, attributed, inside, own.1⟩ (ih others)
    · rw [if_neg group, if_neg group]
      exact ih others

/-- The root of an annotated drawing is the root of the drawing, annotated. -/
theorem root_annotated {path drawing drawing' : String} {n n' : Node} {g : Tag × List Node}
    (parsed : Node.parse? drawing = some n) (parsed' : Node.parse? drawing' = some n')
    (annotated : Annotated [n] [n']) (labels : List.Forall₂ R (labelTexts [n]) (labelTexts [n']))
    (h : root path drawing = .ok g) : ∃ g', root path drawing' = .ok g' ∧ Noted R g g' := by
  unfold root at h ⊢
  rw [parsed] at h
  rw [parsed']
  cases annotated with
  | metadata _ rest => cases rest
  | split rest => cases h
  | text rest => cases h
  | remark rest => cases h
  | @element tag tag' content content' _ _ named attributed inside rest =>
    dsimp only at h ⊢
    rw [named]
    by_cases svg : tag.name = "svg"
    · have own := labelTexts_inside named (by rw [svg]; decide) (by rw [svg]; decide)
        inside.length_labelTexts labels
      rw [if_pos svg] at h ⊢
      cases h
      exact ⟨_, rfl, named, attributed, inside, own.1⟩
    · rw [if_neg svg] at h
      cases h

/-- The artboard with the given name is found at the same place, annotated. -/
theorem artboardOf?_annotated {name : Option String} {g : Tag × List Node}
    (annotated : Annotated content content')
    (labels : List.Forall₂ R (labelTexts content) (labelTexts content'))
    (h : artboardOf? name content = some g) :
    ∃ g', artboardOf? name content' = some g' ∧ Noted R g g' := by
  have related := groups_annotated annotated labels
  unfold artboardOf? at h ⊢
  cases name with
  | none => exact exists_of_rel (h ▸ rel_head? related)
  | some name =>
    refine exists_of_rel (h ▸ rel_find? related ?_)
    intro a a' noted
    rw [noted.attribute?_eq]

/-- The page of an annotated drawing is the page of the drawing, annotated. -/
theorem page_annotated {path : String} {g : Tag × List Node} (annotated : Annotated content content')
    (labels : List.Forall₂ R (labelTexts content) (labelTexts content'))
    (h : page path content = .ok g) : ∃ g', page path content' = .ok g' ∧ Noted R g g' := by
  rw [page_eq] at h
  cases found : (groups content).head? with
  | none =>
    rw [found] at h
    cases h
  | some g =>
    rw [found] at h
    cases h
    have first : artboardOf? none content = some g := found
    obtain ⟨g', found', noted⟩ := artboardOf?_annotated annotated labels first
    refine ⟨g', ?_, noted⟩
    have first : (groups content').head? = some g' := found'
    rw [page_eq, first]
    rfl

/-- The artboard of an annotated page is the artboard of the page, annotated. -/
theorem artboard_annotated {path : String} {name : Option String} {g : Tag × List Node}
    (annotated : Annotated content content')
    (labels : List.Forall₂ R (labelTexts content) (labelTexts content'))
    (h : artboard path name content = .ok g) :
    ∃ g', artboard path name content' = .ok g' ∧ Noted R g g' := by
  rw [artboard_eq] at h
  cases found : artboardOf? name content with
  | none =>
    rw [found] at h
    cases h
  | some g =>
    rw [found] at h
    cases h
    obtain ⟨g', found', noted⟩ := artboardOf?_annotated annotated labels found
    refine ⟨g', ?_, noted⟩
    rw [artboard_eq, found']
    rfl

/-- The canvas depends on no more of the three tags than their attributes. -/
theorem canvas_congr {root root' page page' artboard artboard' : Tag}
    (roots : ∀ name, root'.attribute? name = root.attribute? name)
    (pages : ∀ name, page'.attribute? name = page.attribute? name)
    (artboards : ∀ name, artboard'.attribute? name = artboard.attribute? name) :
    canvas root' page' artboard' = canvas root page artboard := by
  unfold canvas dimension background
  simp only [roots, pages, artboards]

/-- What layers inherit depends on no more of page and artboard than the bags of their attributes.
-/
theorem inherited_congr {page page' artboard artboard' : Tag}
    (pages : Bag.ofRaw page'.attributes = Bag.ofRaw page.attributes)
    (artboards : Bag.ofRaw artboard'.attributes = Bag.ofRaw artboard.attributes) :
    inherited artboard' page' = inherited artboard page := by
  unfold inherited
  rw [pages, artboards]

/-- Metadata that is put into a drawing does not keep it from being read, and changes nothing of its
screen but texts of labels and titles of buttons. The screen is the same if the labels keep their
texts, as they do when no metadata is put into a label. Character data of metadata inside of a label
is part of the text of the label. -/
theorem screen_annotated {path : String} {overrides : Overrides} {name : Option String}
    {drawing drawing' : String} {n n' : Node} {s : Screen}
    (parsed : Node.parse? drawing = some n) (parsed' : Node.parse? drawing' = some n')
    (annotated : Annotated [n] [n']) (drawn : (screen path overrides name drawing).outcome = .ok s) :
    ∃ s', (screen path overrides name drawing').outcome = .ok s' ∧ s'.muted = s.muted ∧
      (drawnTexts path name drawing' = drawnTexts path name drawing → s' = s) ∧
      (AnnotatedOutside [n] [n'] → s' = s) := by
  obtain ⟨root, hroot, drawn⟩ := bind_eq_ok.1 drawn
  obtain ⟨page, hpage, drawn⟩ := bind_eq_ok.1 drawn
  obtain ⟨board, hboard, drawn⟩ := bind_eq_ok.1 drawn
  obtain ⟨c, hc, drawn⟩ := bind_eq_ok.1 drawn
  obtain ⟨es, hes, drawn⟩ := bind_eq_ok.1 drawn
  obtain ⟨-, -, drawn⟩ := bind_eq_ok.1 drawn
  cases drawn
  rw [Logged.outcome_lift] at hroot hpage hboard
  -- nothing put into labels gives equal texts, and this is carried down to the artboard
  obtain ⟨root', hroot', roots⟩ :=
    root_annotated parsed parsed' annotated annotated.labels_outside hroot
  obtain ⟨page', hpage', pages⟩ := page_annotated roots.inside roots.labels hpage
  obtain ⟨board', hboard', boards⟩ := artboard_annotated pages.inside pages.labels hboard
  have hc' : (canvas root'.1 page'.1 board'.1).outcome = .ok c := by
    rw [canvas_congr roots.attribute?_eq pages.attribute?_eq boards.attribute?_eq, hc]
  obtain ⟨es', hes', same, kept⟩ := layersIn_of_annotated boards.inside hes
  refine ⟨.ofElements c es', ?_, ?_, fun texts => congrArg _ (kept ?_),
    fun outside => congrArg _ (kept ?_)⟩
  · refine bind_eq_ok.2 ⟨root', hroot', bind_eq_ok.2 ⟨page', hpage', bind_eq_ok.2 ⟨board', hboard',
      bind_eq_ok.2 ⟨c, hc', bind_eq_ok.2 ⟨es', ?_, rfl⟩⟩⟩⟩⟩
    rw [inherited_congr (congrArg _ pages.attributed) (congrArg _ boards.attributed)]
    exact hes'
  · rw [Screen.muted_ofElements, Screen.muted_ofElements, same]
  · unfold drawnTexts at texts
    rw [artboardParts_of_found hroot hpage hboard, artboardParts_of_found hroot' hpage' hboard'] at texts
    exact (Option.some.inj texts).symm
  · rw [← List.forall₂_eq_eq_eq]
    exact boards.labels.imp fun _ _ same => same outside

/-- A drawing of a label. -/
def notice : String :=
  "<svg width=\"9\" height=\"9\"><g><g>" ++
    "<text id=\"a\" x=\"0\" y=\"0\" width=\"9\" height=\"9\">Hi</text></g></g></svg>"

/-- The drawing with a description of the artboard and an empty title of the label. -/
def describedNotice : String :=
  "<svg width=\"9\" height=\"9\"><g><g><desc>A <b/></desc>" ++
    "<text id=\"a\" x=\"0\" y=\"0\" width=\"9\" height=\"9\">Hi<title/></text></g></g></svg>"

/-- The drawing with a title of the label. -/
def titledNotice : String :=
  "<svg width=\"9\" height=\"9\"><g><g>" ++
    "<text id=\"a\" x=\"0\" y=\"0\" width=\"9\" height=\"9\">Hi<title>Tip</title></text></g></g></svg>"

/-- The tags of the label in these drawings. -/
def noticeTag (offset : Nat) : Tag :=
  ⟨"text", [("id", "a"), ("x", "0"), ("y", "0"), ("width", "9"), ("height", "9")], offset⟩

/-- A drawing with the given parts in its artboard. -/
def onBoard (parts : List Node) : Node :=
  .element ⟨"svg", [("width", "9"), ("height", "9")], 0⟩
    [.element ⟨"g", [], 26⟩ [.element ⟨"g", [], 29⟩ parts]]

theorem annotated_onBoard (h : Annotated ns ns') : Annotated [onBoard ns] [onBoard ns'] :=
  .element rfl rfl (.element rfl rfl (.element rfl rfl h .nil) .nil) .nil

set_option maxRecDepth 4000 in
theorem parse?_notice :
    Node.parse? notice = some (onBoard [.element (noticeTag 32) [.text "Hi"]]) := by
  cbv

set_option maxRecDepth 4000 in
/-- A description of the artboard and an empty title of the label leave the notice as it is. -/
theorem screen_annotated_notice : ∃ s,
    (screen "notice.svg" .empty none notice).outcome = .ok s ∧
      (screen "notice.svg" .empty none describedNotice).outcome = .ok s := by
  have parsed' : Node.parse? describedNotice = some (onBoard
      [.element ⟨"desc", [], 32⟩ [.text "A ", .element ⟨"b", [], 40⟩ []],
        .element (noticeTag 51) [.text "Hi", .element ⟨"title", [], 99⟩ []]]) := by
    cbv
  have annotated : Annotated [.element (noticeTag 32) [.text "Hi"]]
      [.element ⟨"desc", [], 32⟩ [.text "A ", .element ⟨"b", [], 40⟩ []],
        .element (noticeTag 51) [.text "Hi", .element ⟨"title", [], 99⟩ []]] :=
    .metadata (by decide) (.element rfl rfl (.text (.metadata (by decide) .nil)) .nil)
  have made : (screen "notice.svg" .empty none notice).outcome.toOption.map (·.layers.length) =
      some 1 := by
    decide +kernel
  obtain ⟨s, drawn, -⟩ := Outcome.exists_of_toOption made
  obtain ⟨s', drawn', -, kept, -⟩ :=
    screen_annotated parse?_notice parsed' (annotated_onBoard annotated) drawn
  have same : drawnTexts "notice.svg" none describedNotice = drawnTexts "notice.svg" none notice := by
    decide +kernel
  exact ⟨s, drawn, kept same ▸ drawn'⟩

set_option maxRecDepth 4000 in
/-- A title inside of a label is read as part of the label. -/
theorem screen_titledNotice :
    (∃ n n', Node.parse? notice = some n ∧ Node.parse? titledNotice = some n' ∧
      Annotated [n] [n']) ∧
    (screen "notice.svg" .empty none notice).outcome.toOption.map
        (·.layers.map (·.content.layer.label?.map TextLabel.text)) = some [some "Hi"] ∧
      (screen "notice.svg" .empty none titledNotice).outcome.toOption.map
        (·.layers.map (·.content.layer.label?.map TextLabel.text)) = some [some "HiTip"] := by
  have parsed' : Node.parse? titledNotice = some (onBoard
      [.element (noticeTag 32) [.text "Hi", .element ⟨"title", [], 80⟩ [.text "Tip"]]]) := by
    cbv
  have annotated : Annotated [.element (noticeTag 32) [.text "Hi"]]
      [.element (noticeTag 32) [.text "Hi", .element ⟨"title", [], 80⟩ [.text "Tip"]]] :=
    .element rfl rfl (.text (.metadata (by decide) .nil)) .nil
  refine ⟨⟨_, _, parse?_notice, parsed', annotated_onBoard annotated⟩, ?_, ?_⟩
  · decide +kernel
  · decide +kernel

end Drawing

end CanvasLayout
