import CanvasLayout.Proofs.WellFormed

/-!
# Where elements come from

Classification moves finished elements into slots, out of containers, into sorted lists and into
the pages of a slider, and drops those it has no use for. `Element.StemsFrom` ties an element to the
node that has its frame, its name and its kind, and ties the elements that it keeps to subtrees
below that node that lie side by side. A slider also leaves out the node of its content, whose place
four synthesised elements take (`Element.wrappers`). Each kind of element comes from its node when
its children come from theirs (`Prepared.build_stemsFrom`), and then all elements of a tree together
use each node at most once: `Draft.build_origins`.
-/

namespace CanvasLayout

open scoped List

section Lists

variable {α β γ δ : Type}

/-- A part of the results of a function comes from a part of its arguments. -/
theorem exists_of_subperm_map {f : α → β} {as : List α} {bs : List β} (h : bs <+~ as.map f) :
    ∃ as', as' <+~ as ∧ as'.map f = bs := by
  obtain ⟨l, same, part⟩ := h
  obtain ⟨chosen, hchosen, rfl⟩ := List.sublist_map_iff.1 part
  have ordered : Relation.Comp (· = List.map f ·) (· ~ ·) bs chosen := by
    rw [List.eq_map_comp_perm]
    exact same.symm
  obtain ⟨as', rfl, perm⟩ := ordered
  exact ⟨as', perm.subperm.trans hchosen.subperm, rfl⟩

/-- Fewer entries in any order give fewer entries in any order. -/
theorem subperm_flatMap {as bs : List α} (h : as <+~ bs) (f : α → List β) :
    as.flatMap f <+~ bs.flatMap f := by
  obtain ⟨l, same, part⟩ := h
  exact (same.symm.flatMap_right f).subperm.trans (part.flatMap f).subperm

/-- What holds of no lists and of lists put together holds of lists of lists put together. -/
theorem flatMap_closed {P : List γ → List δ → Prop} {f : α → List γ} {g : β → List δ}
    (nil : P [] []) (append : ∀ {cs cs' ds ds'}, P cs ds → P cs' ds' → P (cs ++ cs') (ds ++ ds'))
    {as : List α} {bs : List β} (each : List.Forall₂ (fun a b => P (f a) (g b)) as bs) :
    P (as.flatMap f) (bs.flatMap g) := by
  induction each with
  | nil => exact nil
  | cons first _ ih =>
    rw [List.flatMap_cons, List.flatMap_cons]
    exact append first ih

/-- No entry is taken for two slots. -/
theorem subperm_of_slots {π : Type} [DecidableEq π] (part : α → π) {slots : List π}
    (distinct : slots.Nodup) (as : List α) :
    slots.flatMap (fun s => as.filter (part · = s)) <+~ as := by
  induction slots generalizing as with
  | nil => exact List.nil_subperm
  | cons s slots ih =>
    obtain ⟨fresh, distinct⟩ := List.nodup_cons.1 distinct
    have others : slots.flatMap (fun t => as.filter (part · = t)) =
        slots.flatMap fun t => (as.filter fun a => !decide (part a = s)).filter (part · = t) := by
      apply List.flatMap_congr
      intro t ht
      rw [List.filter_filter]
      apply List.filter_congr
      intro a _
      have : t ≠ s := fun same => fresh (same ▸ ht)
      by_cases mine : part a = t
      · simp [mine, this]
      · simp [mine]
    rw [List.flatMap_cons, others]
    exact ((List.subperm_append_left _).2 (ih distinct _)).trans
      (List.filter_append_perm _ as).subperm

theorem sublist_of_find? (p : α → Bool) (as : List α) : (as.find? p).toList <+ as.filter p := by
  rw [← List.head?_filter]
  cases as.filter p with
  | nil => exact List.nil_sublist _
  | cons a rest => exact List.singleton_sublist.2 (List.mem_cons_self ..)

end Lists

/-- What a layer declares itself to be. -/
def Layer.declared {ε : Type} : Layer ε → DeclaredKind
  | .shape _ => .shape
  | .text _ => .text
  | .button _ => .button
  | .group _ => .group
  | .list l => .list l.kind
  | .slider _ => .slider
  | .container c => .container c.role

namespace Draft

mutual

/-- The nodes of a tree, from the outside in. -/
def nodes : Draft → List Draft
  | ⟨id, kind, tag, frame, attributes, runs, children⟩ =>
    ⟨id, kind, tag, frame, attributes, runs, children⟩ :: nodesIn children

/-- The nodes of several trees. -/
def nodesIn : List Draft → List Draft
  | [] => []
  | d :: ds => d.nodes ++ nodesIn ds

end

/-- The nodes of a tree are its root and the nodes below it. -/
theorem nodes_eq (d : Draft) : d.nodes = d :: d.children.flatMap nodes := by
  have all : ∀ ds, nodesIn ds = ds.flatMap nodes := by
    intro ds
    induction ds with
    | nil => rw [nodesIn, List.flatMap_nil]
    | cons d ds ih => rw [nodesIn, ih, List.flatMap_cons]
  obtain ⟨id, kind, tag, frame, attributes, runs, children⟩ := d
  rw [nodes, all]

/-- The name of the layer that a node becomes: a collection gives up what follows the first colon,
other layers keep their name. -/
def layerName (d : Draft) : String :=
  if DeclaredKind.parse? d.kind = some (.list .collection) then
    String.ofList (d.id.toList.takeWhile (· ≠ ':'))
  else d.id

theorem layerName_of_ne {d : Draft} (h : DeclaredKind.parse? d.kind ≠ some (.list .collection)) :
    d.layerName = d.id := if_neg h

end Draft

namespace Element

/-- The elements that a slider has in place of its content, down to what a page holds: the list, its
sections, and what is in them. Other elements have none. -/
def wrappers (e : Element) : List Element :=
  match e.layer with
  | .slider s => s.content :: (s.content.children ++ s.content.children.flatMap children)
  | _ => []

/-- The elements next below an element and its wrappers. -/
def kept (e : Element) : List Element :=
  match e.layer with
  | .slider s =>
    s.options :: ((s.content.children.flatMap children).flatMap children ++ s.bound.toList)
  | _ => e.children

theorem kept_of_ne_slider {e : Element} (h : e.kind ≠ .slider) : e.kept = e.children := by
  unfold kept
  split
  · rename_i s hs
    exact absurd (congrArg Layer.kind hs) h
  · rfl

theorem wrappers_of_ne_slider {e : Element} (h : e.kind ≠ .slider) : e.wrappers = [] := by
  unfold wrappers
  split
  · rename_i s hs
    exact absurd (congrArg Layer.kind hs) h
  · rfl

/-- The descendants of elements are these elements and the descendants of their children. -/
theorem perm_flatMap_descendants (es : List Element) :
    es.flatMap descendants ~ es ++ (es.flatMap children).flatMap descendants := by
  induction es with
  | nil => exact .refl _
  | cons e es ih =>
    simp only [List.flatMap_cons, List.flatMap_append, List.cons_append]
    rw [descendants_eq, List.cons_append]
    apply List.Perm.cons
    calc e.children.flatMap descendants ++ es.flatMap descendants
      _ ~ e.children.flatMap descendants ++
          (es ++ (es.flatMap children).flatMap descendants) := ih.append_left _
      _ ~ es ++ (e.children.flatMap descendants ++
          (es.flatMap children).flatMap descendants) := by
        rw [← List.append_assoc, ← List.append_assoc]
        exact List.perm_append_comm.append_right _

/-- Below an element are its wrappers and what stands below the elements it keeps. -/
theorem perm_descendants (e : Element) :
    e.descendants ~ e :: (e.wrappers ++ e.kept.flatMap descendants) := by
  rw [descendants_eq]
  apply List.Perm.cons
  by_cases slider : e.kind = .slider
  · obtain ⟨s, hs⟩ : ∃ s, e.layer = .slider s := by
      cases hl : e.layer <;> simp_all [kind, Layer.kind]
    have sections := perm_flatMap_descendants s.content.children
    have inside := perm_flatMap_descendants (s.content.children.flatMap children)
    have wrapped : s.content.descendants ~ e.wrappers ++
        ((s.content.children.flatMap children).flatMap children).flatMap descendants := by
      rw [descendants_eq, wrappers, hs, List.cons_append, List.append_assoc]
      exact (sections.trans (inside.append_left _)).cons _
    rw [children, hs, kept, hs]
    simp only [Layer.children, List.cons_append, List.nil_append, List.flatMap_cons,
      List.flatMap_append, ← List.append_assoc]
    apply List.Perm.append_right
    calc s.options.descendants ++ s.content.descendants
      _ ~ s.options.descendants ++ (e.wrappers ++
          ((s.content.children.flatMap children).flatMap children).flatMap descendants) :=
        wrapped.append_left _
      _ ~ e.wrappers ++ s.options.descendants ++
          ((s.content.children.flatMap children).flatMap children).flatMap descendants := by
        rw [← List.append_assoc]
        exact List.perm_append_comm.append_right _
  · rw [kept_of_ne_slider slider, wrappers_of_ne_slider slider, List.nil_append]

/-- Four elements with the frame of a block stand for it: a collection, its one section, the one
cell of the section and the rectangle that marks its extent. -/
def Paged (frame : PixelFrame Float) (es : List Element) : Prop :=
  ∃ list section_ cell bound, es = [list, section_, cell, bound] ∧
    (∃ l, list.layer = .list l ∧ l.kind = .collection ∧ l.sections = [section_]) ∧
    (∃ g, section_.layer = .group g ∧ g.cells = [cell] ∧ g.bound = bound) ∧
    cell.layer.role? = some .cell ∧ bound.layer = .shape .rect ∧ ∀ x ∈ es, x.frame = frame

end Element

/-- An element, the node it comes from and, for a slider, the node of its content. -/
structure Origin where
  element : Element
  node : Draft
  content : Option Draft

namespace Origin

/-- The element and the elements synthesised for it. -/
def elements (o : Origin) : List Element := o.element :: o.element.wrappers

/-- The nodes that the element and the elements synthesised for it use up. -/
def nodes (o : Origin) : List Draft := o.node :: o.content.toList

/-- The element has the frame, the name and the kind of its node, and the content of a slider is a
child of the slider's node, declared to be its content, with four elements in its place. -/
structure Sound (o : Origin) : Prop where
  frame : o.element.frame = o.node.frame
  name : o.element.id = o.node.layerName
  declared : DeclaredKind.parse? o.node.kind = some o.element.layer.declared
  slider : o.element.kind = .slider → ∃ m ∈ o.node.children, o.content = some m ∧
    DeclaredKind.parse? m.kind = some (.container .sliderContent) ∧
    Element.Paged m.frame o.element.wrappers
  other : o.element.kind ≠ .slider → o.content = none

end Origin

/-- An element comes from a node, and the elements that it keeps come from nodes below it whose
subtrees lie side by side and, below a slider, leave out the node of its content. -/
inductive Element.StemsFrom : Element → Draft → Prop where
  | intro {e : Element} {d : Draft} (content : Option Draft) (roots : List (Element × Draft))
      (sound : Origin.Sound ⟨e, d, content⟩) (kept : e.kept = roots.map Prod.fst)
      (apart : content.toList ++ roots.flatMap (fun r => r.2.nodes) <+~
        d.children.flatMap Draft.nodes)
      (below : ∀ r ∈ roots, r.1.StemsFrom r.2) : StemsFrom e d

/-- The elements come from nodes that have their subtrees side by side among the given nodes. -/
def Covered (es : List Element) (ns : List Draft) : Prop :=
  ∃ roots : List (Element × Draft), roots.map Prod.fst = es ∧
    roots.flatMap (fun r => r.2.nodes) <+~ ns ∧ ∀ r ∈ roots, r.1.StemsFrom r.2

namespace Covered

variable {es es' : List Element} {ns ns' : List Draft}

theorem nil : Covered [] [] := ⟨[], rfl, List.nil_subperm, nofun⟩

theorem append (h : Covered es ns) (h' : Covered es' ns') : Covered (es ++ es') (ns ++ ns') := by
  obtain ⟨roots, rfl, apart, stems⟩ := h
  obtain ⟨roots', rfl, apart', stems'⟩ := h'
  refine ⟨roots ++ roots', List.map_append, ?_, List.forall_mem_append.2 ⟨stems, stems'⟩⟩
  rw [List.flatMap_append]
  exact apart.append apart'

theorem mono (h : Covered es ns) (more : ns <+~ ns') : Covered es ns' := by
  obtain ⟨roots, hroots, apart, stems⟩ := h
  exact ⟨roots, hroots, apart.trans more, stems⟩

/-- Elements can be dropped and moved. -/
theorem of_subperm (h : Covered es ns) (fewer : es' <+~ es) : Covered es' ns := by
  obtain ⟨roots, rfl, apart, stems⟩ := h
  obtain ⟨roots', part, rfl⟩ := exists_of_subperm_map fewer
  exact ⟨roots', rfl, (subperm_flatMap part _).trans apart, fun r hr => stems r (part.subset hr)⟩

/-- Elements can be rewritten as long as they still come from their nodes. -/
theorem map (h : Covered es ns) {f : Element → Element}
    (keeps : ∀ e d, e.StemsFrom d → (f e).StemsFrom d) : Covered (es.map f) ns := by
  obtain ⟨roots, rfl, apart, stems⟩ := h
  refine ⟨roots.map (Prod.map f id), ?_, ?_, ?_⟩
  · rw [List.map_map, List.map_map]
    rfl
  · rw [List.flatMap_map]
    exact apart
  · intro r hr
    obtain ⟨s, hs, rfl⟩ := List.mem_map.1 hr
    exact keeps s.1 s.2 (stems s hs)

end Covered

namespace Element.StemsFrom

variable {e : Element} {d : Draft}

/-- An element other than a slider comes from its node when what it holds comes from below. -/
theorem of_children (hframe : e.frame = d.frame) (hname : e.id = d.layerName)
    (declared : DeclaredKind.parse? d.kind = some e.layer.declared) (other : e.kind ≠ .slider)
    (covered : Covered e.children (d.children.flatMap Draft.nodes)) : e.StemsFrom d := by
  obtain ⟨roots, hroots, apart, stems⟩ := covered
  have sound : Origin.Sound ⟨e, d, none⟩ :=
    { frame := hframe
      name := hname
      declared := declared
      slider := fun slider => absurd slider other
      other := fun _ => rfl }
  exact intro none roots sound ((kept_of_ne_slider other).trans hroots.symm) apart stems

/-- The name is also that of the node unless the node is a collection. -/
theorem of_named (hframe : e.frame = d.frame) (hname : e.id = d.id)
    (declared : DeclaredKind.parse? d.kind = some e.layer.declared)
    (named : e.layer.declared ≠ .list .collection) (other : e.kind ≠ .slider)
    (covered : Covered e.children (d.children.flatMap Draft.nodes)) : e.StemsFrom d := by
  have name : d.layerName = d.id := by
    apply Draft.layerName_of_ne
    rw [declared, ne_eq, Option.some.injEq]
    exact named
  exact of_children hframe (hname.trans name.symm) declared other covered

/-- The tie of the element itself to its node. -/
theorem root (h : e.StemsFrom d) : ∃ content, Origin.Sound ⟨e, d, content⟩ := by
  cases h with
  | intro content roots sound kept apart stems => exact ⟨content, sound⟩

/-- What an element holds comes from below its node, unless it is a slider. -/
theorem covered_children (h : e.StemsFrom d) (other : e.kind ≠ .slider) :
    Covered e.children (d.children.flatMap Draft.nodes) := by
  cases h with
  | intro content roots sound kept apart stems =>
    rw [kept_of_ne_slider other] at kept
    obtain rfl : content = none := sound.other other
    exact ⟨roots, kept.symm, apart, stems⟩

/-- The parts that an element gives to a button come from the subtree of its node. -/
theorem covered_parts (h : e.StemsFrom d) : Covered e.parts d.nodes := by
  induction e using Element.induct generalizing d with
  | step e ih =>
    cases role : e.layer.role? with
    | none =>
      rw [parts_of_not_container role]
      refine ⟨[(e, d)], rfl, ?_, List.forall_mem_singleton.2 h⟩
      rw [List.flatMap_singleton]
    | some r =>
      obtain ⟨c, hc, -⟩ := Layer.role?_eq_some.1 role
      have other : e.kind ≠ .slider := by
        simp [kind, hc, Layer.kind]
      obtain ⟨roots, held, apart, stems⟩ := h.covered_children other
      rw [children, hc] at held
      have parts : Covered (roots.flatMap fun r => r.1.parts)
          (roots.flatMap fun r => r.2.nodes) := by
        apply flatMap_closed Covered.nil Covered.append
        apply List.forall₂_same.2
        intro r hr
        have child : r.1 ∈ e.children := by
          rw [children, hc, ← held]
          exact List.mem_map_of_mem hr
        exact ih r.1 child (stems r hr)
      have below : d.children.flatMap Draft.nodes <+~ d.nodes := by
        rw [Draft.nodes_eq d]
        exact (List.sublist_cons_self ..).subperm
      rw [parts_of_container hc, show c.children = roots.map Prod.fst from held.symm,
        List.flatMap_map]
      exact parts.mono (apart.trans below)

/-- Elements that come from given nodes one by one come from the subtrees of these nodes. -/
theorem covered {es : List Element} {ds : List Draft} (h : List.Forall₂ Element.StemsFrom es ds) :
    Covered es (ds.flatMap Draft.nodes) := by
  have each : List.Forall₂ (fun e d => Covered [e] (Draft.nodes d)) es ds := by
    refine h.imp fun e d stems => ⟨[(e, d)], rfl, ?_, List.forall_mem_singleton.2 stems⟩
    rw [List.flatMap_singleton]
  have all := flatMap_closed Covered.nil Covered.append each
  rwa [List.flatMap_singleton'] at all

/-- One of several elements with its node, and the others with what is left of the nodes. -/
theorem exists_of_subperm {es children : List Element} {ds : List Draft}
    (below : List.Forall₂ Element.StemsFrom children ds) (part : e :: es <+~ children) :
    ∃ m ∈ ds, e.StemsFrom m ∧
      ∃ ns, Covered es ns ∧ m.nodes ++ ns <+~ ds.flatMap Draft.nodes := by
  obtain ⟨same, each⟩ := List.forall₂_iff_zip.1 below
  rw [← List.map_fst_zip same.le] at part
  obtain ⟨roots, fewer, hroots⟩ := exists_of_subperm_map part
  obtain ⟨root, rest, rfl, rfl, rfl⟩ := List.map_eq_cons_iff.1 hroots
  have mem : ∀ r ∈ root :: rest, r ∈ children.zip ds := fun r hr => fewer.subset hr
  obtain ⟨hroot, hrest⟩ := List.forall_mem_cons.1 mem
  refine ⟨root.2, (List.of_mem_zip hroot).2, each hroot, rest.flatMap fun r => r.2.nodes,
    ⟨rest, rfl, List.Subperm.refl _, fun r hr => each (hrest r hr)⟩, ?_⟩
  have whole : (children.zip ds).flatMap (fun r => r.2.nodes) = ds.flatMap Draft.nodes := by
    rw [← List.flatMap_map Prod.snd, List.map_snd_zip same.ge]
  have apart := subperm_flatMap fewer fun r => Draft.nodes r.2
  rwa [List.flatMap_cons, whole] at apart

end Element.StemsFrom

namespace ListView

/-- A collection is named by what stands before the first colon. -/
theorem eq_layerName_of_identity {d : Draft} {kind : ListKind} {id : String} {scroll : Option ScrollDirection}
    (declared : DeclaredKind.parse? d.kind = some (.list kind))
    (h : identity kind d.id = .ok (id, scroll)) : id = d.layerName := by
  unfold Draft.layerName
  cases kind with
  | table =>
    cases h
    rw [if_neg (by rw [declared]; simp)]
  | collection =>
    rw [if_pos declared]
    unfold identity scrollSuffix at h
    dsimp only at h
    cases cut : Text.cutAt ':' d.id.toList with
    | none =>
      rw [cut] at h
      cases h
      have plain : ∀ c ∈ d.id.toList, decide (c ≠ ':') = true := by
        intro c hc
        simpa using fun same : c = ':' => Text.cutAt_eq_none.1 cut (same ▸ hc)
      rw [List.takeWhile_eq_self_iff.2 plain, String.ofList_toList]
    | some c =>
      obtain ⟨base, suffix⟩ := c
      obtain ⟨whole, before⟩ := Text.cutAt_eq_some cut
      have named : id = String.ofList base := by
        rw [cut] at h
        dsimp only at h
        split at h
        · cases h
          rfl
        · split at h
          · cases h
            rfl
          · cases h
      have plain : ∀ c ∈ base, decide (c ≠ ':') = true := by
        intro c hc
        simpa using fun same : c = ':' => before (same ▸ hc)
      rw [named, whole, List.takeWhile_append_of_pos plain, List.takeWhile_cons_of_neg (by simp),
        List.append_nil]

theorem space_of_not_group {kind : ListKind} {e : Element} (h : e.layer.group? = none) :
    space kind e = e := by
  unfold space
  split
  · rename_i g hg
    rw [hg] at h
    cases h
  · rfl

/-- The spacing that a list writes into a section leaves where the section comes from. -/
theorem stemsFrom_space (kind : ListKind) {e : Element} {d : Draft} (h : e.StemsFrom d) :
    (space kind e).StemsFrom d := by
  cases hl : e.layer with
  | group g =>
    have other : e.kind ≠ .slider := by
      simp [Element.kind, hl, Layer.kind]
    have held := h.covered_children other
    obtain ⟨content, sound⟩ := h.root
    have declared := sound.declared
    dsimp only at declared
    rw [hl] at declared
    rw [Element.children, hl] at held
    rw [space_of_group hl]
    refine .of_children sound.frame sound.name declared ?_ held
    simp [Element.kind, Layer.kind]
  | _ =>
    rw [space_of_not_group (by rw [hl]; rfl)]
    exact h

end ListView

namespace Slider

/-- A slider keeps its options, what its content held and its bound. -/
theorem kept_slider (d : Draft) (options content : Element) (bound : Option Element) :
    (d.element (.slider ⟨options, paged d.id content, bound⟩)).kept =
      options :: (held content ++ bound.toList) := by
  simp [Element.kept, Draft.element, paged, Element.children, Layer.children]

/-- The four elements that a slider has in place of its content. -/
theorem paged_wrappers (d : Draft) (options content : Element) (bound : Option Element) :
    Element.Paged content.frame
      (d.element (.slider ⟨options, paged d.id content, bound⟩)).wrappers := by
  refine ⟨paged d.id content, _, _, _, rfl, ⟨_, rfl, rfl, rfl⟩, ⟨_, rfl, rfl, rfl⟩, rfl, rfl, ?_⟩
  intro x hx
  rcases List.mem_cons.1 hx with rfl | hx
  · rfl
  · rcases List.mem_cons.1 hx with rfl | hx
    · rfl
    · rcases List.mem_cons.1 hx with rfl | hx
      · rfl
      · rw [List.mem_singleton.1 hx]

variable {children : List Element} {options content : Element} {d m : Draft}

/-- The children that fill the slots of a slider. -/
theorem subperm_filled (hoptions : children.find? (part · = .options) = some options)
    (hcontent : children.find? (part · = .content) = some content) :
    content :: options :: (children.find? (part · = .bound)).toList <+~ children := by
  have distinct : [Part.content, .options, .bound].Nodup := by decide
  have slots := subperm_of_slots part distinct children
  simp only [List.flatMap_cons, List.flatMap_nil, List.append_nil] at slots
  have first := sublist_of_find? (part · = .content) children
  have second := sublist_of_find? (part · = .options) children
  have third := sublist_of_find? (part · = .bound) children
  rw [hcontent] at first
  rw [hoptions] at second
  exact (first.append (second.append third)).subperm.trans slots

/-- The content of a slider comes from a node that is declared to be it, and its pages come from
below that node. -/
theorem of_content (stems : content.StemsFrom m)
    (role : content.layer.role? = some .sliderContent) :
    content.frame = m.frame ∧
      DeclaredKind.parse? m.kind = some (.container .sliderContent) ∧
      Covered (held content) (m.children.flatMap Draft.nodes) := by
  obtain ⟨c, hc, hrole⟩ := Layer.role?_eq_some.1 role
  obtain ⟨node, sound⟩ := stems.root
  refine ⟨sound.frame, ?_, ?_⟩
  · have declared := sound.declared
    dsimp only at declared
    rw [declared, hc, Layer.declared, hrole]
  · have other : content.kind ≠ .slider := by
      simp [Element.kind, hc, Layer.kind]
    have inside := stems.covered_children other
    rw [Element.children, hc] at inside
    rw [held, hc]
    exact inside

end Slider

/-- The children that fill the slots of an element come from below its node. -/
theorem Covered.of_slots {π : Type} [DecidableEq π] {es children : List Element} {ns : List Draft}
    (covered : Covered children ns) (part : Element → π) (slots : List π) (distinct : slots.Nodup)
    (filled : es <+~ slots.flatMap fun s => children.filter (part · = s)) : Covered es ns :=
  covered.of_subperm (filled.trans (subperm_of_slots part distinct children))

section Build

-- `d` is the node as it is drawn and `r` the same node with its attributes resolved
variable {d r : Draft} {children : List Element} {e : Element}

/-- A button comes from its node, its label and its background from what was drawn in it. -/
theorem Button.build_stemsFrom (hid : r.id = d.id) (hframe : r.frame = d.frame)
    (declared : DeclaredKind.parse? d.kind = some .button)
    (below : List.Forall₂ Element.StemsFrom children d.children)
    (h : (build r children).outcome = .ok e) : e.StemsFrom d := by
  obtain ⟨label, hlabel, -, rfl⟩ := build_eq_ok h
  have parts : Covered (children.flatMap Element.parts) (d.children.flatMap Draft.nodes) :=
    flatMap_closed Covered.nil Covered.append (below.imp fun _ _ => Element.StemsFrom.covered_parts)
  refine Element.StemsFrom.of_named hframe hid declared nofun nofun ?_
  apply parts.of_slots Element.kind [.shape, .text] (by decide)
  simp only [List.flatMap_cons, List.flatMap_nil, List.append_nil]
  rw [hlabel, List.head?_filter]
  exact ((sublist_of_find? _ _).append_right _).subperm

/-- A section comes from its node, and its header, cells and bound from children. -/
theorem Group.build_stemsFrom (hid : r.id = d.id) (hframe : r.frame = d.frame)
    (declared : DeclaredKind.parse? d.kind = some .group)
    (below : List.Forall₂ Element.StemsFrom children d.children)
    (h : (build r children).outcome = .ok e) : e.StemsFrom d := by
  obtain ⟨bound, hbound, -, rfl⟩ := build_eq_ok h
  refine Element.StemsFrom.of_named hframe hid declared nofun nofun ?_
  apply (Element.StemsFrom.covered below).of_slots part [.header, .cell, .bound] (by decide)
  have marked : [bound] <+ children.filter (part · = .bound) := by
    have found := sublist_of_find? (part · = .bound) children
    rw [hbound] at found
    exact found
  simp only [List.flatMap_cons, List.flatMap_nil, List.append_nil, ← List.append_assoc]
  exact ((sublist_of_find? _ _).subperm.append (List.mergeSort_perm _ _).subperm).append
    marked.subperm

/-- A list comes from its node, and its sections, which are spaced on the way, from children. -/
theorem ListView.build_stemsFrom {kind : ListKind} (hid : r.id = d.id) (hframe : r.frame = d.frame)
    (declared : DeclaredKind.parse? d.kind = some (.list kind))
    (below : List.Forall₂ Element.StemsFrom children d.children)
    (h : (build r kind children).outcome = .ok e) : e.StemsFrom d := by
  obtain ⟨id, scroll, named, -, rfl⟩ := build_eq_ok h
  rw [hid] at named
  refine Element.StemsFrom.of_children hframe (eq_layerName_of_identity declared named) declared nofun ?_
  -- the bound is no section, so the spacing that is written into sections leaves it as it is
  have bare : (children.find? (part · = .bound)).toList.map (space kind) =
      (children.find? (part · = .bound)).toList := by
    cases found : children.find? (part · = .bound) with
    | none => rfl
    | some b =>
      have marked := part_eq_bound.1 (of_find?_part found).2
      rw [Option.toList_some, List.map_singleton, space_of_not_group marked.1]
  have spaced : Covered
      ((Element.topDown (children.filter (part · = .group)) ++
        (children.find? (part · = .bound)).toList).map (space kind))
      (d.children.flatMap Draft.nodes) := by
    apply Covered.map _ fun e d => stemsFrom_space kind
    apply (Element.StemsFrom.covered below).of_slots part [.group, .bound] (by decide)
    simp only [List.flatMap_cons, List.flatMap_nil, List.append_nil]
    exact (List.mergeSort_perm _ _).subperm.append (sublist_of_find? _ _).subperm
  rw [List.map_append, bare] at spaced
  exact spaced

/-- A slider comes from its node, its options from a child, and what its pages hold from the child
that is its content. -/
theorem Slider.build_stemsFrom (hid : r.id = d.id) (hframe : r.frame = d.frame)
    (declared : DeclaredKind.parse? d.kind = some .slider)
    (below : List.Forall₂ Element.StemsFrom children d.children)
    (h : (build r children).outcome = .ok e) : e.StemsFrom d := by
  obtain ⟨options, content, hoptions, hcontent, rfl⟩ := build_eq_ok h
  obtain ⟨m, hm, stems, ns, others, apart⟩ :=
    Element.StemsFrom.exists_of_subperm below (subperm_filled hoptions hcontent)
  obtain ⟨frame, kind, pages⟩ := of_content stems (part_eq_content.1 (of_find?_part hcontent).2)
  have kept := (pages.append others).of_subperm List.perm_middle.symm.subperm
  rw [← kept_slider r] at kept
  obtain ⟨roots, hroots, fewer, stems'⟩ := kept
  have paged := paged_wrappers r options content (children.find? (part · = .bound))
  rw [frame] at paged
  have name : r.id = d.layerName := by
    rw [Draft.layerName_of_ne (by rw [declared]; simp), hid]
  refine .intro (some m) roots ?_ hroots.symm ?_ stems'
  · exact
      { frame := hframe
        name := name
        declared := declared
        slider := fun _ => ⟨m, hm, rfl, kind, paged⟩
        other := fun other => absurd rfl other }
  · rw [Draft.nodes_eq, List.cons_append] at apart
    exact ((List.subperm_cons m).2 fewer).trans apart

/-- An element made of children that come from the nodes below comes from its node, whatever its
kind. -/
theorem Prepared.build_stemsFrom {p : Prepared} {ancestor : Bag} {overrides : Overrides}
    (prepared : d.prepare ancestor overrides = .ok p)
    (below : List.Forall₂ Element.StemsFrom children d.children)
    (h : (p.build children).outcome = .ok e) : e.StemsFrom d := by
  obtain ⟨known, b, hb⟩ := Draft.prepare_eq_ok prepared
  obtain ⟨resolved, declared, fill⟩ := p
  dsimp only at hb
  have hid : resolved.id = d.id := by rw [hb]
  have hframe : resolved.frame = d.frame := by rw [hb]
  have held := Element.StemsFrom.covered below
  cases declared with
  | shape =>
    obtain rfl := Except.ok.inj (Draft.outcome_childless_bind.symm.trans h)
    exact .of_named hframe hid known nofun nofun (held.of_subperm List.nil_subperm)
  | text =>
    obtain rfl := Except.ok.inj (Draft.outcome_childless_bind.symm.trans h)
    exact .of_named hframe hid known nofun nofun (held.of_subperm List.nil_subperm)
  | button => exact Button.build_stemsFrom hid hframe known below h
  | group => exact Group.build_stemsFrom hid hframe known below h
  | list kind => exact ListView.build_stemsFrom hid hframe known below h
  | slider => exact Slider.build_stemsFrom hid hframe known below h
  | container role =>
    obtain rfl := Except.ok.inj h
    exact .of_named hframe hid known nofun nofun held

end Build

/-- The elements are those of some origins, synthesised ones included, and the nodes of the origins
are among the given ones. -/
def Accounted (es : List Element) (ns : List Draft) : Prop :=
  ∃ os : List Origin, es ~ os.flatMap Origin.elements ∧ os.flatMap Origin.nodes <+~ ns ∧
    ∀ o ∈ os, o.Sound

namespace Accounted

variable {es es' : List Element} {ns ns' : List Draft}

theorem nil : Accounted [] [] := ⟨[], .refl _, List.nil_subperm, nofun⟩

theorem append (h : Accounted es ns) (h' : Accounted es' ns') :
    Accounted (es ++ es') (ns ++ ns') := by
  obtain ⟨os, all, apart, sound⟩ := h
  obtain ⟨os', all', apart', sound'⟩ := h'
  refine ⟨os ++ os', ?_, ?_, List.forall_mem_append.2 ⟨sound, sound'⟩⟩
  · rw [List.flatMap_append]
    exact all.append all'
  · rw [List.flatMap_append]
    exact apart.append apart'

end Accounted

/-- From the top of an element down, each element has a node of its own. -/
theorem Element.StemsFrom.accounted {e : Element} {d : Draft} (h : e.StemsFrom d) :
    Accounted e.descendants d.nodes := by
  induction h with
  | @intro e d content roots sound kept apart below ih =>
    have inside : Accounted (roots.flatMap fun r => r.1.descendants)
        (roots.flatMap fun r => r.2.nodes) :=
      flatMap_closed Accounted.nil Accounted.append (List.forall₂_same.2 ih)
    obtain ⟨os, all, fewer, sounds⟩ := inside
    refine ⟨⟨e, d, content⟩ :: os, ?_, ?_, List.forall_mem_cons.2 ⟨sound, sounds⟩⟩
    · have down := e.perm_descendants
      rw [kept, List.flatMap_map] at down
      exact down.trans ((all.append_left _).cons e)
    · rw [Draft.nodes_eq]
      exact (List.subperm_cons d).2 (((List.subperm_append_left _).2 fewer).trans apart)

namespace Draft

variable {d : Draft} {ancestor : Bag} {overrides : Overrides} {e : Element}

/-- Classification neither duplicates a node nor invents one outside sliders. The elements of a
built tree are, each as often as it occurs, the elements of some origins and what is synthesised for
the sliders among them. The nodes of these origins and of the contents of their sliders are, each as
often as it occurs, among the nodes of the tree. Every element has the frame and the name of its
node. -/
theorem build_origins (h : (d.build ancestor overrides).outcome = .ok e) :
    ∃ os : List Origin, e.descendants ~ os.flatMap Origin.elements ∧
      os.flatMap Origin.nodes <+~ d.nodes ∧ ∀ o ∈ os, o.Sound := by
  have stems : e.StemsFrom d := by
    apply build_relates (R := fun d e => e.StemsFrom d) _ d ancestor e h
    intro d ancestor p children e prepared below built
    exact Prepared.build_stemsFrom prepared below.flip built
  exact stems.accounted

/-- The shop with a collection next to it that scrolls and has a line in it that is ignored. -/
def gallery : Draft :=
  row "Container" "gallery" 0 [
    shop,
    row "UICollectionView" "photos:horizontal" 200 [
      row "Section" "all" 200 [row "Cell" "photoCell" 200, row "rect" "allBound" 200],
      row "line" "divider" 240]]

/-- In the gallery the ignored line is left out and four elements stand in place of the content. -/
theorem build_origins_gallery :
    ∃ e, (gallery.build .empty .empty).outcome = .ok e ∧
      e.children.map (fun c => (c.id, c.children.map (·.id))) =
        [("shop", ["goods", "tour"]), ("photos", ["all"])] ∧
      ∃ os : List Origin, e.descendants ~ os.flatMap Origin.elements ∧
        os.flatMap Origin.nodes <+~ gallery.nodes ∧ ∀ o ∈ os, o.Sound := by
  have ids : (gallery.build .empty .empty).outcome.toOption.map
      (fun e => e.children.map fun c => (c.id, c.children.map (·.id))) =
        some [("shop", ["goods", "tour"]), ("photos", ["all"])] := by
    decide +kernel
  obtain ⟨e, built, ids⟩ := Outcome.exists_of_toOption ids
  exact ⟨e, built, ids, build_origins built⟩

end Draft

end CanvasLayout
