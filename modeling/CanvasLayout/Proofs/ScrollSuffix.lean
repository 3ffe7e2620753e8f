import Mathlib
import CanvasLayout.Proofs.Assembly

/-!
# Directions in the names of collections

A collection that scrolls says so behind the first colon of its name. The text there is searched for
the words of the directions and may hold anything else beside them: `Prepared.build_suffixed` tells
what each name is read as and which names are refused. That a name is refused is found out only when
the children of the collection have been built, so that a child at fault goes before it:
`Draft.build_unknownSuffix`.
-/

namespace CanvasLayout

namespace ScrollDirection

variable {direction : ScrollDirection} {s : String}

/-- The text has the direction's word in it, in letters of either case. -/
def OccursIn (direction : ScrollDirection) (s : String) : Prop :=
  direction.name.toList <:+: s.toList.map Char.toLower

/-- The direction that a text is read as: of two that occur, horizontal. -/
def Wins (direction : ScrollDirection) (s : String) : Prop :=
  direction.OccursIn s ∧ (horizontal.OccursIn s → direction = .horizontal)

theorem occursIn_iff : direction.OccursIn s ↔ Text.mentions direction.name s = true :=
  Text.occursIn_iff.symm

/-- Some direction wins as soon as one occurs. -/
theorem exists_wins (h : direction.OccursIn s) : ∃ winner : ScrollDirection, winner.Wins s := by
  by_cases across : horizontal.OccursIn s
  · exact ⟨.horizontal, across, fun _ => rfl⟩
  · exact ⟨direction, h, fun occurs => absurd occurs across⟩

/-- A text that is the word of a direction is read as that direction. -/
theorem wins_of_lowercase (h : Text.lowercase s = direction.name) : direction.Wins s := by
  have lowered : s.toList.map Char.toLower = direction.name.toList := by
    rw [← h, Text.toList_lowercase]
  unfold Wins OccursIn
  rw [lowered]
  refine ⟨List.infix_rfl, fun across => ?_⟩
  cases direction with
  | horizontal => rfl
  | vertical => exact absurd across (by decide +kernel)

end ScrollDirection

namespace ListView

/-- The name is `base`, the first colon in it, and `suffix`. -/
structure Splits (id base suffix : String) : Prop where
  whole : id = base ++ ":" ++ suffix
  first : ':' ∉ base.toList

variable {id base suffix : String} {direction : ScrollDirection}

/-- A suffix is searched for the word of each direction, horizontal first. -/
theorem scrollSuffix_of_splits (h : Splits id base suffix) : scrollSuffix id =
    if Text.mentions ScrollDirection.horizontal.name suffix then .ok (base, some .horizontal)
    else if Text.mentions ScrollDirection.vertical.name suffix then .ok (base, some .vertical)
    else .error (.format (.unknownScrollSuffix id suffix)) := by
  have cut : Text.cutAt ':' id.toList = some (base.toList, suffix.toList) := by
    rw [h.whole, String.toList_append, String.toList_append, List.append_assoc]
    exact Text.cutAt_append h.first _
  unfold scrollSuffix
  rw [cut]
  simp only [String.ofList_toList]
  rfl

/-- A table keeps its name, and so does a collection without a colon in it. -/
theorem identity_of_whole {kind : ListKind} (h : kind = .table ∨ ':' ∉ id.toList) :
    identity kind id = .ok (id, none) := by
  cases kind with
  | table => rfl
  | collection =>
    have plain := h.resolve_left (by decide)
    unfold identity scrollSuffix
    dsimp only
    rw [Text.cutAt_eq_none.2 plain]

/-- The word that wins is the direction, and the suffix goes. -/
theorem identity_of_wins (h : Splits id base suffix) (wins : direction.Wins suffix) :
    identity .collection id = .ok (base, some direction) := by
  show scrollSuffix id = _
  rw [scrollSuffix_of_splits h]
  obtain ⟨occurs, first⟩ := wins
  rw [ScrollDirection.occursIn_iff] at occurs first
  cases direction with
  | horizontal => rw [if_pos occurs]
  | vertical =>
    have across : ¬ Text.mentions ScrollDirection.horizontal.name suffix = true :=
      fun across => nomatch first across
    rw [if_neg across, if_pos occurs]

theorem identity_of_unknown (h : Splits id base suffix)
    (unknown : ∀ direction : ScrollDirection, ¬ direction.OccursIn suffix) :
    identity .collection id = .error (.format (.unknownScrollSuffix id suffix)) := by
  simp only [ScrollDirection.occursIn_iff] at unknown
  show scrollSuffix id = _
  rw [scrollSuffix_of_splits h, if_neg (unknown .horizontal), if_neg (unknown .vertical)]

end ListView

/-! ## The name of a list -/

/-- The children decide whether a list is made of them, and a list that is made has the given name
and scrolls in the given direction. -/
structure Prepared.MakesList (p : Prepared) (children : List Element) (name : String)
    (scroll : Option ScrollDirection) : Prop where
  made_iff : (∃ e, (p.build children).outcome = .ok e) ↔
    (children.filter (ListView.part · = .bound)).length ≤ 1 ∧
      children.filter (ListView.part · = .group) ≠ []
  named : ∀ e, (p.build children).outcome = .ok e →
    e.id = name ∧ ∃ l, e.layer = .list l ∧ l.scroll = scroll
  ruled : ∀ f, (p.build children).outcome = .error f → ∃ r, f = .structural p.draft.id r

namespace Prepared

variable {p : Prepared} {kind : ListKind} {name : String} {scroll : Option ScrollDirection}

theorem build_of_declared_list (declared : p.declared = .list kind) (children : List Element) :
    p.build children = ListView.build p.draft kind children := by
  rw [Prepared.build, declared]

/-- A list whose name is read gets that name and that direction, whatever its children are. -/
theorem makesList_of_identity (declared : p.declared = .list kind)
    (read : ListView.identity kind p.draft.id = .ok (name, scroll)) (children : List Element) :
    p.MakesList children name scroll := by
  have build_eq := build_of_declared_list declared children
  refine ⟨?_, fun e made => ?_, fun f failed => ?_⟩
  · rw [build_eq]
    exact ListView.build_ok_iff read
  · rw [build_eq] at made
    obtain ⟨name', scroll', read', -, rfl⟩ := ListView.build_eq_ok made
    obtain ⟨rfl, rfl⟩ := Prod.mk.inj (Except.ok.inj (read.symm.trans read'))
    exact ⟨rfl, _, rfl, rfl⟩
  · rw [build_eq] at failed
    obtain ⟨r, rfl, -⟩ := (ListView.build_error_iff read).1 failed
    exact ⟨r, rfl⟩

/-- A name that cannot be read ends the building of a list whatever its children are. -/
theorem outcome_build_of_identity (declared : p.declared = .list kind) {f : Failure}
    (unread : ListView.identity kind p.draft.id = .error f) (children : List Element) :
    (p.build children).outcome = .error f := by
  rw [build_of_declared_list declared, ← Outcome.fault?_eq_some, ListView.fault?_build,
    ListView.checks, unread]
  rfl

/-- A table, and a collection without a colon in its name, keeps its name and does not scroll. A
collection with a colon in its name has what stands before the first colon for a name and scrolls in
the direction whose word is found in what stands behind it, horizontal going before vertical, be it
the whole of that text or a part of it. When neither word is found there, and only then, the name is
refused. -/
theorem build_suffixed (declared : p.declared = .list kind) (children : List Element) :
    (kind = .table ∨ ':' ∉ p.draft.id.toList → p.MakesList children p.draft.id none) ∧
      ∀ base suffix, kind = .collection → ListView.Splits p.draft.id base suffix →
        (∀ direction : ScrollDirection, Text.lowercase suffix = direction.name →
          p.MakesList children base (some direction)) ∧
        (∀ direction : ScrollDirection, direction.Wins suffix →
          p.MakesList children base (some direction)) ∧
        ((p.build children).outcome = .error (.format (.unknownScrollSuffix p.draft.id suffix)) ↔
          ∀ direction : ScrollDirection, ¬ direction.OccursIn suffix) := by
  refine ⟨fun whole => makesList_of_identity declared (ListView.identity_of_whole whole) children, ?_⟩
  rintro base suffix rfl splits
  have read (direction : ScrollDirection) (wins : direction.Wins suffix) :
      p.MakesList children base (some direction) :=
    makesList_of_identity declared (ListView.identity_of_wins splits wins) children
  refine ⟨fun direction word => read direction (ScrollDirection.wins_of_lowercase word), read, ?_⟩
  constructor
  · intro refused direction occurs
    obtain ⟨winner, wins⟩ := ScrollDirection.exists_wins occurs
    obtain ⟨r, other⟩ := (read winner wins).ruled _ refused
    cases other
  · intro unknown
    exact outcome_build_of_identity declared (ListView.identity_of_unknown splits unknown) children

end Prepared

namespace ListView

/-- A collection without attributes. -/
def collection (id : String) : Prepared where
  draft := ⟨id, "UICollectionView", "g", ⟨0, 0, 60, 80⟩, .empty, [], []⟩
  declared := .list .collection
  ownFill := none

end ListView

open ListView

/-- The word of the direction is written in another case and followed by a second colon. -/
theorem Prepared.build_suffixed_rows :
    Splits "rows:Vertical:2" "rows" "Vertical:2" ∧ ScrollDirection.vertical.Wins "Vertical:2" ∧
      ∃ e l, ((collection "rows:Vertical:2").build [lower]).outcome = .ok e ∧ e.id = "rows" ∧
        e.layer = .list l ∧ l.scroll = some .vertical := by
  have splits : Splits "rows:Vertical:2" "rows" "Vertical:2" := ⟨by decide +kernel, by decide +kernel⟩
  have wins : ScrollDirection.vertical.Wins "Vertical:2" := by
    unfold ScrollDirection.Wins
    simp only [ScrollDirection.occursIn_iff]
    decide +kernel
  have law := @Prepared.build_suffixed (collection "rows:Vertical:2") .collection rfl [lower]
  have made := (law.2 "rows" "Vertical:2" rfl splits).2.1 .vertical wins
  have sections : [lower].filter (part · = .group) = [lower] := rfl
  obtain ⟨e, he⟩ := made.made_iff.2 ⟨by decide +kernel, by rw [sections]; nofun⟩
  obtain ⟨named, l, hl, scroll⟩ := made.named e he
  exact ⟨splits, wins, e, l, he, named, hl, scroll⟩

/-- A suffix that is not the word of a direction but has one in it is not refused. -/
theorem Prepared.build_nonhorizontal :
    Splits "grid:nonhorizontal" "grid" "nonhorizontal" ∧
      (∀ direction : ScrollDirection, Text.lowercase "nonhorizontal" ≠ direction.name) ∧
      ∃ e l, ((collection "grid:nonhorizontal").build [lower]).outcome = .ok e ∧ e.id = "grid" ∧
        e.layer = .list l ∧ l.scroll = some .horizontal := by
  have read : identity .collection "grid:nonhorizontal" = .ok ("grid", some .horizontal) := by
    decide +kernel
  have made : (collection "grid:nonhorizontal").MakesList [lower] "grid" (some .horizontal) :=
    Prepared.makesList_of_identity rfl read [lower]
  have sections : [lower].filter (part · = .group) = [lower] := rfl
  obtain ⟨e, he⟩ := made.made_iff.2 ⟨by decide +kernel, by rw [sections]; nofun⟩
  obtain ⟨named, l, hl, scroll⟩ := made.named e he
  refine ⟨⟨by decide +kernel, by decide +kernel⟩, ?_, e, l, he, named, hl, scroll⟩
  intro direction
  cases direction <;> decide +kernel

/-! ## Refused collections in their tree -/

/-- An operation over a list succeeds when it does on every entry. -/
theorem Outcome.exists_mapM_eq_ok_iff {α β : Type} {f : α → Outcome β} {as : List α} :
    (∃ bs, as.mapM f = .ok bs) ↔ ∀ a ∈ as, ∃ b, f a = .ok b := by
  constructor
  · rintro ⟨bs, h⟩ a ha
    have mem : f a ∈ bs.map Except.ok := by
      rw [← mapM_eq_ok.1 h]
      exact List.mem_map_of_mem ha
    obtain ⟨b, -, hb⟩ := List.mem_map.1 mem
    exact ⟨b, hb.symm⟩
  · intro each
    cases h : as.mapM f with
    | ok bs => exact ⟨bs, rfl⟩
    | error e =>
      obtain ⟨before, a, after, rfl, -, fails⟩ := mapM_eq_error.1 h
      obtain ⟨b, hb⟩ := each a (by simp)
      cases hb.symm.trans fails

namespace Draft

variable {d : Draft} {ancestor : Bag} {overrides : Overrides} {p : Prepared} {f : Failure}

theorem outcome_buildAll (ds : List Draft) (ancestor : Bag) (overrides : Overrides) :
    (buildAll ds ancestor overrides).outcome =
      ds.mapM fun d => (d.build ancestor overrides).outcome := by
  induction ds with
  | nil =>
    rw [buildAll]
    rfl
  | cons d ds ih =>
    rw [buildAll, List.mapM_cons, Logged.outcome_bind, ← ih]
    apply Outcome.bind_congr
    intro e _
    rw [Logged.outcome_bind]
    rfl

/-- The trees under one parent are built when each of them is. -/
theorem exists_buildAll_iff {ds : List Draft} :
    (∃ es, (buildAll ds ancestor overrides).outcome = .ok es) ↔
      ∀ c ∈ ds, ∃ e, (c.build ancestor overrides).outcome = .ok e := by
  rw [outcome_buildAll]
  exact Outcome.exists_mapM_eq_ok_iff

/-- A tree fails at the checks on its root alone, else at the first child that is not built, else at
the checks on the built children. -/
theorem build_eq_error : (d.build ancestor overrides).outcome = .error f ↔
    d.prepare ancestor overrides = .error f ∨ ∃ p, d.prepare ancestor overrides = .ok p ∧
      ((∃ before c after, d.children = before ++ c :: after ∧
          (∀ x ∈ before, ∃ e, (x.build d.attributes overrides).outcome = .ok e) ∧
          (c.build d.attributes overrides).outcome = .error f) ∨
        ∃ es, (buildAll d.children d.attributes overrides).outcome = .ok es ∧
          (p.build es).outcome = .error f) := by
  rw [build_eq, Logged.outcome_bind, Outcome.bind_eq_error]
  simp only [Logged.outcome_lift, Logged.outcome_bind, Outcome.bind_eq_error]
  rw [outcome_buildAll, Outcome.mapM_eq_error]

/-- A collection whose suffix has no word of a direction in it is never built. It fails with the first
of its children that does, and its own name is refused only when all of them are built. -/
theorem build_unknownSuffix {base suffix : String} (prepared : d.prepare ancestor overrides = .ok p)
    (declared : p.declared = .list .collection) (splits : ListView.Splits d.id base suffix)
    (unknown : ∀ direction : ScrollDirection, ¬ direction.OccursIn suffix) :
    (∃ f, (d.build ancestor overrides).outcome = .error f) ∧
      ∀ f, (d.build ancestor overrides).outcome = .error f ↔
        (∃ before c after, d.children = before ++ c :: after ∧
          (∀ x ∈ before, ∃ e, (x.build d.attributes overrides).outcome = .ok e) ∧
          (c.build d.attributes overrides).outcome = .error f) ∨
        (∀ c ∈ d.children, ∃ e, (c.build d.attributes overrides).outcome = .ok e) ∧
          f = .format (.unknownScrollSuffix d.id suffix) := by
  obtain ⟨-, b, same⟩ := prepare_eq_ok prepared
  have refused (es : List Element) :
      (p.build es).outcome = .error (.format (.unknownScrollSuffix d.id suffix)) := by
    apply Prepared.outcome_build_of_identity declared
    rw [same]
    exact ListView.identity_of_unknown splits unknown
  have fails_iff (f : Failure) : (d.build ancestor overrides).outcome = .error f ↔
      (∃ before c after, d.children = before ++ c :: after ∧
        (∀ x ∈ before, ∃ e, (x.build d.attributes overrides).outcome = .ok e) ∧
        (c.build d.attributes overrides).outcome = .error f) ∨
      (∀ c ∈ d.children, ∃ e, (c.build d.attributes overrides).outcome = .ok e) ∧
        f = .format (.unknownScrollSuffix d.id suffix) := by
    rw [build_eq_error, prepared, ← exists_buildAll_iff]
    simp only [reduceCtorEq, false_or, Except.ok.injEq, exists_eq_left', refused, Except.error.injEq,
      exists_and_right, eq_comm (b := f)]
  refine ⟨?_, fails_iff⟩
  cases built : (d.build ancestor overrides).outcome with
  | error f => exact ⟨f, rfl⟩
  | ok e =>
    rw [build_eq] at built
    obtain ⟨q, again, built⟩ := Logged.bind_eq_ok.1 built
    obtain ⟨es, -, built⟩ := Logged.bind_eq_ok.1 built
    obtain rfl : p = q := Except.ok.inj (prepared.symm.trans again)
    cases (refused es).symm.trans built

/-- A collection that holds one child. -/
def shelf (id : String) (child : Draft) : Draft :=
  ⟨id, "UICollectionView", "g", ⟨0, 0, 60, 80⟩, .empty, [], [child]⟩

/-- A container of one dot with the given fill. -/
def framedDot (fill : String) : Draft where
  id := "frame"
  kind := "g"
  tag := "g"
  frame := ⟨0, 0, 9, 9⟩
  attributes := .empty
  runs := []
  children := [⟨"dot", "rect", "rect", ⟨0, 0, 9, 9⟩, .ofRaw [("fill", fill)], [], []⟩]

theorem not_occursIn_sideways (direction : ScrollDirection) : ¬ direction.OccursIn "sideways" := by
  rw [ScrollDirection.occursIn_iff]
  cases direction <;> decide +kernel

/-- The dot can be built, and so can the container: the name of the collection is refused. -/
theorem build_unknownSuffix_shelf :
    ((shelf "shelf:sideways" (framedDot "#FF0000")).build .empty .empty).outcome =
      .error (.format (.unknownScrollSuffix "shelf:sideways" "sideways")) := by
  obtain ⟨p, prepared⟩ :
    ∃ p, (shelf "shelf:sideways" (framedDot "#FF0000")).prepare .empty .empty = .ok p := ⟨_, rfl⟩
  have declared : p.declared = .list .collection :=
    (Option.some.inj (prepare_eq_ok prepared).1).symm
  have splits : ListView.Splits "shelf:sideways" "shelf" "sideways" :=
    ⟨by decide +kernel, by decide +kernel⟩
  obtain ⟨-, fails_iff⟩ := build_unknownSuffix prepared declared splits not_occursIn_sideways
  refine (fails_iff _).2 (.inr ⟨?_, rfl⟩)
  have made : ((framedDot "#FF0000").build .empty .empty).outcome.toOption.map (·.id) =
      some "frame" := by
    decide +kernel
  obtain ⟨e, built, -⟩ := Outcome.exists_of_toOption made
  exact List.forall_mem_singleton.2 ⟨e, built⟩

/-- A fill two levels below that is no color goes before the name of the collection, although the
collection is prepared without fault. -/
theorem build_shelf_dot :
    let d := shelf "shelf:sideways" (framedDot "red")
    (∃ p, d.prepare .empty .empty = .ok p ∧ p.declared = .list .collection) ∧
      ListView.Splits d.id "shelf" "sideways" ∧
      (∀ direction : ScrollDirection, ¬ direction.OccursIn "sideways") ∧
      (d.build .empty .empty).outcome = .error (.conversion "dot" .fill (.raw "red") .notColor) := by
  intro d
  refine ⟨⟨_, rfl, rfl⟩, ⟨by decide +kernel, by decide +kernel⟩, not_occursIn_sideways, ?_⟩
  exact Outcome.fault?_eq_some.1 (by decide +kernel)

end Draft

end CanvasLayout
