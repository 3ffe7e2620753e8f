import Mathlib
import CanvasLayout.Proofs.FormRead
import CanvasLayout.Proofs.FormWritten

/-!
# The order of members in finished values

Which datum of a form a value stands for does not depend on the order of the members of its objects
(`Form.keepsShape`). What each member is found to be moves with it (`Moved.forall₂`), the fields of
a record are looked up among what is found, the tag of a tagged record is the only member of its
name, and the entries of a map stand by their names anyway. Only a name that comes twice in a map
would count by its last place.
-/

namespace CanvasLayout.Json

open scoped List

section Lists

variable {α α' β β' : Type} {R : α → β → Prop} {R' : α' → β' → Prop}

/-- The second list is the first one in another order, with each entry replaced by one in a
relation to it. -/
def Moved (S : α → α' → Prop) (as : List α) (as' : List α') : Prop :=
  ∃ mid, as ~ mid ∧ List.Forall₂ S mid as'

theorem forall₂_pairs {S : α → α' → Prop} {pairs : List (α × α')}
    (each : ∀ p ∈ pairs, S p.1 p.2) :
    List.Forall₂ S (pairs.map Prod.fst) (pairs.map Prod.snd) := by
  rw [List.forall₂_map_left_iff, List.forall₂_map_right_iff, List.forall₂_same]
  exact each

/-- A reordering, from the list of pairs that it is made of. -/
theorem moved_of_pairs {S : α → α' → Prop} {pairs moved : List (α × α')} (perm : pairs ~ moved)
    (each : ∀ p ∈ pairs, S p.1 p.2) : Moved S (pairs.map Prod.fst) (moved.map Prod.snd) :=
  ⟨moved.map Prod.fst, perm.map Prod.fst,
    forall₂_pairs fun p hp => each p (perm.mem_iff.2 hp)⟩

/-- Two lists in a relation are the two sides of a list of pairs. -/
theorem exists_pairs {S : α → α' → Prop} {as : List α} {as' : List α'}
    (h : List.Forall₂ S as as') : ∃ pairs : List (α × α'),
      pairs.map Prod.fst = as ∧ pairs.map Prod.snd = as' ∧ ∀ p ∈ pairs, S p.1 p.2 := by
  obtain ⟨same, each⟩ := List.forall₂_iff_zip.1 h
  exact ⟨as.zip as', List.map_fst_zip same.le, List.map_snd_zip same.ge, fun p hp => each hp⟩

theorem Moved.exists_pairs {S : α → α' → Prop} {as : List α} {as' : List α'}
    (h : Moved S as as') : ∃ pairs moved : List (α × α'), pairs.map Prod.fst = as ∧
      moved.map Prod.snd = as' ∧ pairs ~ moved ∧ ∀ p ∈ pairs, S p.1 p.2 := by
  obtain ⟨mid, perm, same⟩ := h
  obtain ⟨moved, rfl, rfl, each⟩ := CanvasLayout.Json.exists_pairs same
  have ordered : Relation.Comp (· = List.map Prod.fst ·) (· ~ ·) as moved := by
    rw [List.eq_map_comp_perm]
    exact perm
  obtain ⟨pairs, rfl, same⟩ := ordered
  exact ⟨pairs, moved, rfl, rfl, same, fun p hp => each p (same.mem_iff.1 hp)⟩

theorem Moved.perm {as as' : List α} (h : Moved Eq as as') : as ~ as' := by
  obtain ⟨mid, perm, same⟩ := h
  rw [List.forall₂_eq_eq_eq] at same
  exact same ▸ perm

/-- What is made of entries one by one is made of entries in a relation to them. -/
theorem exists_forall₂ {S : α → α' → Prop} {T : β → β' → Prop} {as : List α} {as' : List α'}
    {bs : List β} (same : List.Forall₂ S as as') (all : List.Forall₂ R as bs)
    (each : ∀ a a' b, S a a' → R a b → ∃ b', T b b' ∧ R' a' b') :
    ∃ bs', List.Forall₂ T bs bs' ∧ List.Forall₂ R' as' bs' := by
  induction same generalizing bs with
  | nil =>
    cases all
    exact ⟨[], .nil, .nil⟩
  | @cons a a' as as' head _ ih =>
    cases all with
    | @cons _ b _ bs first rest =>
      obtain ⟨b', hb, made⟩ := each a a' b head first
      obtain ⟨bs', tied, made'⟩ := ih rest
      exact ⟨b' :: bs', .cons hb tied, .cons made made'⟩

/-- Entries that replace others take over what those have to do with a third list. -/
theorem forall₂_of_each {S : α → α' → Prop} {T : α' → β → Prop} {as : List α} {as' : List α'}
    {bs : List β} (same : List.Forall₂ S as as') (all : List.Forall₂ R as bs)
    (each : ∀ a a' b, S a a' → R a b → T a' b) : List.Forall₂ T as' bs := by
  obtain ⟨bs', eq, made⟩ : ∃ bs', List.Forall₂ Eq bs bs' ∧ List.Forall₂ T as' bs' :=
    exists_forall₂ same all fun a a' b s r => ⟨b, rfl, each a a' b s r⟩
  rw [List.forall₂_eq_eq_eq] at eq
  exact eq ▸ made

/-- What is made of entries one by one moves with them. -/
theorem Moved.forall₂ {S : α → α' → Prop} {T : β → β' → Prop} {as : List α} {as' : List α'}
    {bs : List β} (h : Moved S as as') (all : List.Forall₂ R as bs)
    (each : ∀ a a' b, S a a' → R a b → ∃ b', T b b' ∧ R' a' b') :
    ∃ bs', Moved T bs bs' ∧ List.Forall₂ R' as' bs' := by
  obtain ⟨mid, perm, same⟩ := h
  obtain ⟨bs₁, all₁, perm₁⟩ := List.perm_comp_forall₂ perm.symm all
  obtain ⟨bs', tied, made⟩ := exists_forall₂ same all₁ each
  exact ⟨bs', ⟨bs₁, perm₁.symm, tied⟩, made⟩

/-- A filter that treats related entries alike keeps a reordering. -/
theorem Moved.filter {S : α → α' → Prop} {as : List α} {as' : List α'} {p : α → Bool}
    {q : α' → Bool} (h : Moved S as as') (same : ∀ a a', S a a' → p a = q a') :
    Moved S (as.filter p) (as'.filter q) := by
  obtain ⟨mid, perm, each⟩ := h
  refine ⟨mid.filter p, perm.filter p, List.rel_filter (fun a a' s => ?_) each⟩
  show p a = true ↔ q a' = true
  rw [same a a' s]

theorem Moved.filterMap {S : α → α' → Prop} {T : β → β' → Prop} {as : List α} {as' : List α'}
    {f : α → Option β} {g : α' → Option β'} (h : Moved S as as')
    (each : ∀ a a', S a a' → Option.Rel T (f a) (g a')) :
    Moved T (as.filterMap f) (as'.filterMap g) := by
  obtain ⟨mid, perm, same⟩ := h
  exact ⟨mid.filterMap f, perm.filterMap f, List.rel_filterMap (fun a a' s => each a a' s) same⟩

theorem Moved.singleton {S : α → α' → Prop} {a : α} {as' : List α'} (h : Moved S [a] as') :
    ∃ a', as' = [a'] ∧ S a a' := by
  obtain ⟨mid, perm, each⟩ := h
  rw [List.singleton_perm] at perm
  subst perm
  obtain ⟨a', rest, head, tail, rfl⟩ := List.forall₂_cons_left_iff.1 each
  rw [List.forall₂_nil_left_iff.1 tail]
  exact ⟨a', rfl, head⟩

variable {γ : Type} {es es' : List (String × γ)}

theorem isSome_lookup_iff {name : String} :
    (es.lookup name).isSome = true ↔ name ∈ es.map Prod.fst := by
  rw [List.lookup_isSome_iff, List.mem_map]
  simp only [beq_iff_eq, eq_comm (a := name)]

/-- Of entries with distinct names each is found. -/
theorem lookup_eq_some_iff_mem (distinct : (es.map Prod.fst).Nodup) {name : String} {c : γ} :
    es.lookup name = some c ↔ (name, c) ∈ es := by
  rw [List.lookup_eq_some_iff]
  constructor
  · rintro ⟨before, after, rfl, -⟩
    exact List.mem_append_right _ List.mem_cons_self
  · intro mem
    obtain ⟨before, after, rfl⟩ := List.append_of_mem mem
    refine ⟨before, after, rfl, ?_⟩
    intro e he
    rw [List.map_append, List.map_cons, List.nodup_append] at distinct
    have other := distinct.2.2 e.1 (List.mem_map_of_mem he) name List.mem_cons_self
    simpa using Ne.symm other

/-- Among distinct names the order has no influence on a lookup. -/
theorem lookup_of_perm (perm : es ~ es') (distinct : (es.map Prod.fst).Nodup) (name : String) :
    es.lookup name = es'.lookup name := by
  have distinct' : (es'.map Prod.fst).Nodup := (perm.map Prod.fst).nodup_iff.1 distinct
  ext c
  rw [lookup_eq_some_iff_mem distinct, lookup_eq_some_iff_mem distinct', perm.mem_iff]

/-- A map does not depend on the order of entries with distinct names. -/
theorem ofList_of_perm (perm : es ~ es') (distinct : (es.map Prod.fst).Nodup) :
    NameMap.ofList es = NameMap.ofList es' := by
  apply perm.foldl_eq'
  intro a ha b hb m
  by_cases same : a.1 = b.1
  · rw [List.inj_on_of_nodup_map distinct ha hb same]
  · apply NameMap.ext_get?
    intro name
    simp only [NameMap.get?_insert]
    by_cases first : name = a.1
    · have other : name ≠ b.1 := first ▸ same
      rw [if_neg other, if_pos first, if_pos first]
    · rw [if_neg first, if_neg first]

end Lists

namespace Form

variable {ρ : Type} {fields : ρ → List (Field ρ)}

/-- The fields of a record do not depend on the order in which they are found. -/
theorem collect_of_perm {found found' : List (String × Datum)} (perm : found ~ found')
    (distinct : (found.map Prod.fst).Nodup) (fs : List (Field ρ)) :
    collect found fs = collect found' fs := by
  unfold collect
  congr 1
  funext f
  rw [lookup_of_perm perm distinct]

/-- Entries found in a list of members, one after the other and none of them under a name that was
found before. -/
def Finds (os : List (Option (String × Datum))) (found found' : List (String × Datum)) : Prop :=
  found' = os.reduceOption.reverse ++ found ∧ (found'.map Prod.fst).Nodup

section Finds

variable {os os' : List (Option (String × Datum))} {e : String × Datum}
  {found found' : List (String × Datum)}

theorem finds_nil (distinct : (found.map Prod.fst).Nodup) :
    Finds [] found found' ↔ found = found' := by
  constructor
  · exact fun h => h.1.symm
  · rintro rfl
    exact ⟨rfl, distinct⟩

theorem finds_none : Finds (none :: os) found found' ↔ Finds os found found' := Iff.rfl

/-- A member under a known name is added to what was found. -/
theorem finds_some : Finds (some e :: os) found found' ↔ Finds os (e :: found) found' := by
  unfold Finds
  rw [List.reduceOption_cons_of_some, List.reverse_cons, List.append_assoc, List.singleton_append]

theorem Finds.fresh (h : Finds os (e :: found) found') : e.1 ∉ found.map Prod.fst := by
  obtain ⟨rfl, distinct⟩ := h
  rw [List.map_append, List.nodup_append, List.map_cons, List.nodup_cons] at distinct
  exact distinct.2.1.1

/-- The first member is found to be nothing, or an entry under a name that is new. -/
theorem exists_finds_cons {μ : Type} {Makes : μ → Option (String × Datum) → Prop} {m : μ}
    {ms : List μ} :
    (∃ os, List.Forall₂ Makes (m :: ms) os ∧ Finds os found found') ↔
      (Makes m none ∧ ∃ os, List.Forall₂ Makes ms os ∧ Finds os found found') ∨
        ∃ e, Makes m (some e) ∧ e.1 ∉ found.map Prod.fst ∧
          ∃ os, List.Forall₂ Makes ms os ∧ Finds os (e :: found) found' := by
  constructor
  · rintro ⟨_, _ | ⟨head, tail⟩, finds⟩
    rename_i o os
    cases o with
    | none => exact .inl ⟨head, os, tail, finds_none.1 finds⟩
    | some e =>
      rw [finds_some] at finds
      exact .inr ⟨e, head, finds.fresh, os, tail, finds⟩
  · rintro (⟨head, os, tail, finds⟩ | ⟨e, head, -, os, tail, finds⟩)
    · exact ⟨none :: os, .cons head tail, finds_none.2 finds⟩
    · exact ⟨some e :: os, .cons head tail, finds_some.2 finds⟩

/-- Members in another order give the same entries in another order. -/
theorem Finds.perm (h : Finds os [] found) (perm : os ~ os') :
    ∃ found', Finds os' [] found' ∧ found ~ found' := by
  obtain ⟨rfl, distinct⟩ := h
  have same : os.reduceOption.reverse ++ [] ~ os'.reduceOption.reverse ++ [] := by
    rw [List.append_nil, List.append_nil]
    exact (List.reverse_perm _).trans
      ((perm.filterMap id).trans (List.reverse_perm _).symm)
  exact ⟨_, ⟨rfl, (same.map Prod.fst).nodup_iff.1 distinct⟩, same⟩

end Finds

variable (fields) in
/-- What a finished member is found to be: an entry, or nothing when its name is unknown. -/
def shapeMember? (all : List (Field ρ)) (m : String × Json) :
    Option (Option (String × Datum)) :=
  match all.find? fun f => f.name = m.1 with
  | none => some none
  | some f => (shapeField? fields f m.2).map fun d => some (m.1, d)

section ShapeMember

variable {all : List (Field ρ)} {name : String} {f : Field ρ}

/-- A member under an unknown name counts for nothing, whatever its value. -/
theorem shapeMember?_of_unknown (h : all.find? (fun f => f.name = name) = none) (j : Json) :
    shapeMember? fields all (name, j) = some none := by
  rw [shapeMember?, h]

/-- A member under a known name is shaped by the field of that name. -/
theorem shapeMember?_of_known (h : all.find? (fun f => f.name = name) = some f) (j : Json) :
    shapeMember? fields all (name, j) = (shapeField? fields f j).map fun d => some (name, d) := by
  rw [shapeMember?, h]

/-- Members have the shape of a record if each has the shape of its field and no field comes
twice. -/
theorem shapeMembers?_eq_some {found found' : List (String × Datum)} {ms : List (String × Json)}
    (distinct : (found.map Prod.fst).Nodup) :
    shapeMembers? fields all found ms = some found' ↔
      ∃ os, List.Forall₂ (fun m o => shapeMember? fields all m = some o) ms os ∧
        Finds os found found' := by
  induction ms generalizing found with
  | nil => simp [shapeMembers?, finds_nil distinct]
  | cons m ms ih =>
    obtain ⟨name, j⟩ := m
    rw [shapeMembers?_cons, exists_finds_cons]
    cases known : all.find? fun f => f.name = name with
    | none =>
      rw [shapeMember?_of_unknown known]
      simpa using ih distinct
    | some f =>
      rw [shapeMember?_of_known known]
      dsimp only
      have more : ∀ d, name ∉ found.map Prod.fst → (((name, d) :: found).map Prod.fst).Nodup :=
        fun d fresh => List.nodup_cons.2 ⟨fresh, distinct⟩
      constructor
      · intro h
        split at h
        · contradiction
        · rename_i fresh
          rw [isSome_lookup_iff] at fresh
          obtain ⟨d, hd, h⟩ := Option.bind_eq_some_iff.1 h
          refine .inr ⟨(name, d), ?_, fresh, (ih (more d fresh)).1 h⟩
          rw [hd, Option.map_some]
      · rintro (⟨nothing, -⟩ | ⟨e, entry, fresh, rest⟩)
        · obtain ⟨d, -, h⟩ := Option.map_eq_some_iff.1 nothing
          cases h
        · obtain ⟨d, hd, h⟩ := Option.map_eq_some_iff.1 entry
          cases h
          rw [if_neg (mt isSome_lookup_iff.1 fresh), hd]
          exact (ih (more d fresh)).2 rest

end ShapeMember

end Form

/-- The second value is the first with the members of objects in another order, at any depth. -/
inductive Reordered : Json → Json → Prop
  | same (j : Json) : Reordered j j
  | array {items : List (Json × Json)} (each : ∀ p ∈ items, Reordered p.1 p.2) :
    Reordered (.array (items.map Prod.fst)) (.array (items.map Prod.snd))
  | object {pairs moved : List ((String × Json) × (String × Json))}
    (names : ∀ p ∈ pairs, p.1.1 = p.2.1) (values : ∀ p ∈ pairs, Reordered p.1.2 p.2.2)
    (perm : pairs ~ moved) :
    Reordered (.object (pairs.map Prod.fst)) (.object (moved.map Prod.snd))

mutual

/-- No object in the value has two members of one name. -/
def distinct : Json → Bool
  | array js => distinctItems js
  | object ms => (ms.map Prod.fst).Nodup && distinctMembers ms
  | _ => true

/-- No object in the items has two members of one name. -/
def distinctItems : List Json → Bool
  | [] => true
  | j :: js => j.distinct && distinctItems js

/-- No object in the values of members has two members of one name. -/
def distinctMembers : List (String × Json) → Bool
  | [] => true
  | (_, j) :: ms => j.distinct && distinctMembers ms

end

theorem distinct_array {js : List Json} :
    (array js).distinct = true ↔ ∀ j ∈ js, j.distinct = true := by
  have items : distinctItems js = true ↔ ∀ j ∈ js, j.distinct = true := by
    induction js with
    | nil => simp [distinctItems]
    | cons j js ih => simp [distinctItems, ih]
  rw [distinct, items]

/-- An object repeats no name when its own names differ and no value repeats one. -/
theorem distinct_object {ms : List (String × Json)} : (object ms).distinct = true ↔
    (ms.map Prod.fst).Nodup ∧ ∀ m ∈ ms, m.2.distinct = true := by
  have members : distinctMembers ms = true ↔ ∀ m ∈ ms, m.2.distinct = true := by
    induction ms with
    | nil => simp [distinctMembers]
    | cons m ms ih => simp [distinctMembers, ih]
  rw [distinct, Bool.and_eq_true, decide_eq_true_eq, members]

namespace Reordered

variable {j j' : Json}

/-- The name of a case is told by the same value. -/
theorem caseName? {names : List String} {name : String} (h : j.Reordered j')
    (named : Json.caseName? names j = some name) : Json.caseName? names j' = some name := by
  cases h with
  | same => exact named
  | array | object => cases named

theorem eq_of_leaf (h : j.Reordered j') (leaf : j = .null ∨ j = .object []) : j' = j := by
  cases h with
  | same => rfl
  | array => simp at leaf
  | object _ _ perm =>
    simp only [reduceCtorEq, object.injEq, List.map_eq_nil_iff, false_or] at leaf
    subst leaf
    rw [List.nil_perm.1 perm]
    rfl

end Reordered

namespace Form

variable {ρ : Type} {fields : ρ → List (Field ρ)} {j j' : Json}

theorem shapeField?_of_reordered {f : Field ρ} {d : Datum} (h : j.Reordered j')
    (also : ∀ d, shape? fields f.form j = some d → shape? fields f.form j' = some d)
    (shape : shapeField? fields f j = some d) : shapeField? fields f j' = some d := by
  cases h with
  | same => exact shape
  | array | object =>
    simp only [shapeField?, Bool.and_false, Bool.false_eq_true, if_false] at shape ⊢
    exact also d shape

variable (fields) in
/-- Whatever datum of a lawful form the first value stands for, the second stands for too. -/
def KeepsShape (j j' : Json) : Prop :=
  ∀ form d, form.Lawful fields → shape? fields form j = some d → shape? fields form j' = some d

variable (fields) in
/-- Members of one name whose values are alike. -/
structure AlikeMembers (m m' : String × Json) : Prop where
  name : m.1 = m'.1
  reordered : m.2.Reordered m'.2
  keeps : KeepsShape fields m.2 m'.2

theorem AlikeMembers.shapeMember? {all : List (Field ρ)} (forms : ∀ f ∈ all, f.form.Lawful fields)
    {m m' : String × Json} (h : AlikeMembers fields m m') {o : Option (String × Datum)}
    (shape : Form.shapeMember? fields all m = some o) :
    Form.shapeMember? fields all m' = some o := by
  obtain ⟨name, j⟩ := m
  obtain ⟨name', j'⟩ := m'
  obtain ⟨rfl, reordered, keeps⟩ := h
  cases known : all.find? fun f => f.name = name with
  | none =>
    rw [shapeMember?_of_unknown known] at shape ⊢
    exact shape
  | some f =>
    rw [shapeMember?_of_known known] at shape ⊢
    obtain ⟨d, hd, rfl⟩ := Option.map_eq_some_iff.1 shape
    have lawful := forms f (List.mem_of_find?_eq_some known)
    rw [shapeField?_of_reordered reordered (fun d => keeps f.form d lawful) hd, Option.map_some]

/-- The members of a record can stand in any order. -/
theorem record_of_moved {all : List (Field ρ)} (forms : ∀ f ∈ all, f.form.Lawful fields)
    {ms ms' : List (String × Json)} (h : Moved (AlikeMembers fields) ms ms') {ds : List Datum}
    (shape : (shapeMembers? fields all [] ms).bind (collect · all) = some ds) :
    (shapeMembers? fields all [] ms').bind (collect · all) = some ds := by
  obtain ⟨found, hfound, collected⟩ := Option.bind_eq_some_iff.1 shape
  have start : (([] : List (String × Datum)).map Prod.fst).Nodup := List.nodup_nil
  obtain ⟨os, each, finds⟩ := (shapeMembers?_eq_some start).1 hfound
  obtain ⟨os', moved, each'⟩ := h.forall₂ (T := Eq) each fun m m' o alike shape =>
    ⟨o, rfl, alike.shapeMember? forms shape⟩
  obtain ⟨found', finds', perm⟩ := finds.perm moved.perm
  rw [(shapeMembers?_eq_some start).2 ⟨os', each', finds'⟩, Option.bind_some,
    ← collect_of_perm perm finds.2]
  exact collected

theorem only?_eq_some {name : String} {ms : List (String × Json)} {j : Json} :
    only? name ms = some j ↔ ∃ m, ms.filter (fun m => m.1 = name) = [m] ∧ m.2 = j := by
  unfold only?
  split
  · rename_i j' h
    simp [h]
  · rename_i others
    constructor
    · intro h
      contradiction
    · rintro ⟨m, h, -⟩
      exact absurd h (others m.1 m.2)

/-- The one member that an object is looked up for is found in any order of its members. -/
theorem only?_of_moved {tag : String} {ms ms' : List (String × Json)} {j : Json}
    (h : Moved (AlikeMembers fields) ms ms') (only : only? tag ms = some j) :
    ∃ j', only? tag ms' = some j' ∧ j.Reordered j' := by
  obtain ⟨m, one, rfl⟩ := only?_eq_some.1 only
  have kept := h.filter (p := fun m => m.1 = tag) (q := fun m => m.1 = tag) fun m m' alike => by
    rw [alike.name]
  rw [one] at kept
  obtain ⟨m', one', alike⟩ := kept.singleton
  exact ⟨m'.2, only?_eq_some.2 ⟨m', one', rfl⟩, alike.reordered⟩

/-- The entries of a map are the same, whatever the order of its members. -/
theorem entries_of_moved {f : Form ρ} (lawful : f.Lawful fields) {ms ms' : List (String × Json)}
    (distinct : (ms.map Prod.fst).Nodup) (h : Moved (AlikeMembers fields) ms ms')
    {es : List (String × Datum)} (shape : shapeEntries? fields f ms = some es) :
    ∃ es', shapeEntries? fields f ms' = some es' ∧ NameMap.ofList es = NameMap.ofList es' := by
  rw [shapeEntries?_eq_some] at shape
  have names : ms.map Prod.fst = es.map Prod.fst := by
    rw [← List.forall₂_eq_eq_eq, List.forall₂_map_left_iff, List.forall₂_map_right_iff]
    exact shape.imp fun _ _ => And.left
  obtain ⟨es', moved, shape'⟩ : ∃ es', Moved Eq es es' ∧
      List.Forall₂ (fun m e => m.1 = e.1 ∧ shape? fields f m.2 = some e.2) ms' es' :=
    h.forall₂ shape fun m m' e alike entry =>
      ⟨e, rfl, alike.name.symm.trans entry.1, alike.keeps f e.2 lawful entry.2⟩
  exact ⟨es', shapeEntries?_eq_some.2 shape', ofList_of_perm moved.perm (names ▸ distinct)⟩

theorem choice?_of_moved {names : List String} {ms ms' : List (String × Json)} {name : String}
    (h : Moved (AlikeMembers fields) ms ms') (choice : choice? names (.object ms) = some name) :
    choice? names (.object ms') = some name := by
  have one : ∃ j, ms = [(name, j)] ∧ (j = .null ∨ j = .object []) := by
    unfold Json.choice? at choice
    split at choice
    all_goals simp_all
  obtain ⟨j, rfl, leaf⟩ := one
  obtain ⟨⟨name', j'⟩, rfl, alike⟩ := h.singleton
  obtain ⟨rfl, reordered, -⟩ := alike
  rw [show j' = j from reordered.eq_of_leaf leaf]
  exact choice

theorem shapeFields?_of_each {fs : List (Field ρ)} {items : List (Json × Json)}
    (each : ∀ p ∈ items, ∀ f ∈ fs, ∀ d, shapeField? fields f p.1 = some d →
      shapeField? fields f p.2 = some d) {ds : List Datum}
    (shape : shapeFields? fields fs (items.map Prod.fst) = some ds) :
    shapeFields? fields fs (items.map Prod.snd) = some ds := by
  induction items generalizing fs ds with
  | nil => exact shape
  | cons p items ih =>
    cases fs with
    | nil => contradiction
    | cons f fs =>
      rw [List.map_cons, shapeFields?_cons] at shape ⊢
      obtain ⟨d, hd, shape⟩ := Option.bind_eq_some_iff.1 shape
      obtain ⟨ds', hds, rfl⟩ := Option.map_eq_some_iff.1 shape
      rw [List.forall_mem_cons] at each
      rw [each.1 f List.mem_cons_self d hd, Option.bind_some,
        ih (fun q hq f hf => each.2 q hq f (List.mem_cons_of_mem _ hf)) hds, Option.map_some]

/-- The fields of a case are lawful, also of one that there is not. -/
theorem lawful_of_case (law : LawfulFields fields) (n : Option ρ) :
    ∀ f ∈ (n.map fields).getD [], f.form.Lawful fields := by
  cases n with
  | none => simp
  | some n => exact law.forms n

/-- A value stands for the same datum in whatever order the members of its objects are, as long as
no name comes twice. -/
theorem keepsShape (law : LawfulFields fields) (h : j.Reordered j') :
    j.distinct = true → KeepsShape fields j j' := by
  induction h with
  | same j => exact fun _ _ _ _ => id
  | @array items each ih =>
    intro distinct form d lawful shape
    rw [distinct_array, List.forall_mem_map] at distinct
    have keeps : ∀ p ∈ items, KeepsShape fields p.1 p.2 := fun p hp => ih p hp (distinct p hp)
    have field : ∀ fs : List (Field ρ), (∀ f ∈ fs, f.form.Lawful fields) →
        ∀ p ∈ items, ∀ f ∈ fs, ∀ d, shapeField? fields f p.1 = some d →
          shapeField? fields f p.2 = some d := fun fs forms p hp f hf d =>
      shapeField?_of_reordered (each p hp) fun d => keeps p hp f.form d (forms f hf)
    cases form with
    | any => cases lawful
    | list f =>
      simp only [shape?] at shape ⊢
      obtain ⟨ds, hds, rfl⟩ := Option.map_eq_some_iff.1 shape
      rw [shapeItems?_eq_some] at hds
      have lawful : f.Lawful fields := lawful
      rw [shapeItems?_eq_some.2 (forall₂_of_each (forall₂_pairs keeps) hds fun j j' d keeps =>
        keeps f d lawful), Option.map_some]
    | record n =>
      simp only [shape?] at shape ⊢
      obtain ⟨ds, hds, rfl⟩ := Option.map_eq_some_iff.1 shape
      rw [shapeFields?_of_each (field (fields n) (law.forms n)) hds, Option.map_some]
    | tagged tag cases =>
      cases items with
      | nil => exact shape
      | cons p items =>
        rw [List.map_cons, shape?] at shape ⊢
        split at shape
        · contradiction
        · rename_i name hname
          obtain ⟨ds, hds, rfl⟩ := Option.map_eq_some_iff.1 shape
          rw [(each p List.mem_cons_self).caseName? hname]
          dsimp only
          rw [shapeFields?_of_each (fun q hq => field _ (lawful_of_case law _) q
            (List.mem_cons_of_mem p hq)) hds, Option.map_some]
    | _ => simp [shape?, real?, whole?, choice?] at shape
  | @object pairs moved names values perm ih =>
    intro distinct form d lawful shape
    rw [distinct_object, List.forall_mem_map] at distinct
    obtain ⟨nodup, inside⟩ := distinct
    have alike : Moved (AlikeMembers fields) (pairs.map Prod.fst) (moved.map Prod.snd) :=
      moved_of_pairs perm fun p hp => ⟨names p hp, values p hp, ih p hp (inside p hp)⟩
    cases form with
    | any => cases lawful
    | dict f =>
      simp only [shape?] at shape ⊢
      obtain ⟨es, hes, rfl⟩ := Option.map_eq_some_iff.1 shape
      have lawful : f.Lawful fields := lawful
      obtain ⟨es', hes', same⟩ := entries_of_moved lawful nodup alike hes
      rw [hes', Option.map_some, same]
    | record n =>
      simp only [shape?] at shape ⊢
      obtain ⟨ds, hds, rfl⟩ := Option.map_eq_some_iff.1 shape
      rw [record_of_moved (law.forms n) alike hds, Option.map_some]
    | tagged tag cases =>
      rw [shape?] at shape ⊢
      split at shape
      · contradiction
      · rename_i name hname
        obtain ⟨j, only, named⟩ := Option.bind_eq_some_iff.1 hname
        obtain ⟨j', only', reordered⟩ := only?_of_moved alike only
        rw [only', Option.bind_some, reordered.caseName? named]
        obtain ⟨ds, hds, rfl⟩ := Option.map_eq_some_iff.1 shape
        dsimp only
        rw [record_of_moved (lawful_of_case law _) alike hds, Option.map_some]
    | choice names =>
      simp only [shape?] at shape ⊢
      obtain ⟨name, hname, rfl⟩ := Option.map_eq_some_iff.1 shape
      rw [choice?_of_moved alike hname, Option.map_some]
    | _ => simp [shape?, real?, whole?] at shape

end Form

end CanvasLayout.Json
