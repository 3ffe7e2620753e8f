import Mathlib
import CanvasLayout.Proofs.OverrideEntries

/-!
# Overrides against the document as written

A document lists entries, whose members may repeat a name (`Overrides.Lists`). The table that it makes
is told by them alone: an entry counts if it is the first with its name, and then what it sets is told
by the last value under each of its other names (`Overrides.get?_of_accepted`).
-/

namespace CanvasLayout

/-! ## Lists with repeated names -/

namespace NameMap

variable {α β : Type}

theorem put_map (f : α → β) (name : String) (a : α) (es : List (String × α)) :
    put name (f a) (es.map fun e => (e.1, f e.2)) =
      (put name a es).map fun e => (e.1, f e.2) := by
  induction es with
  | nil => rfl
  | cons e es ih =>
    simp only [List.map_cons, put, ih]
    split
    · rfl
    · split <;> rfl

/-- A map can be made before or after its values are replaced. -/
theorem entries_ofList_map (f : α → β) (es : List (String × α)) :
    (ofList (es.map fun e => (e.1, f e.2))).entries =
      (ofList es).entries.map fun e => (e.1, f e.2) := by
  induction es using List.reverseRecOn with
  | nil => rfl
  | append_singleton es e ih =>
    simp only [ofList, List.map_append, List.foldl_append] at ih ⊢
    show put _ _ _ = _
    rw [ih]
    exact put_map f e.1 e.2 _

theorem lookup_eq_none {name : String} {es : List (String × α)} (h : ∀ e ∈ es, e.1 ≠ name) :
    lookup name es = none := by
  induction es with
  | nil => rfl
  | cons e es ih =>
    rw [List.forall_mem_cons] at h
    rw [lookup, if_neg h.1, ih h.2]

/-- Of a map some entries are kept, with other values. -/
theorem lookup_filterMap (f : String → α → Option β) {es : List (String × α)}
    (sorted : es.Pairwise fun a b => a.1 < b.1) (name : String) :
    lookup name (es.filterMap fun e => (f e.1 e.2).map (e.1, ·)) =
      (lookup name es).bind (f name) := by
  induction es with
  | nil => rfl
  | cons e es ih =>
    rw [List.pairwise_cons] at sorted
    have rest := ih sorted.2
    rw [lookup]
    by_cases mine : e.1 = name
    · subst mine
      rw [if_pos rfl, Option.bind_some]
      cases kept : f e.1 e.2 with
      | some b => rw [List.filterMap_cons_some (by rw [kept]; rfl), lookup, if_pos rfl]
      | none =>
        have later : lookup e.1 es = none :=
          lookup_eq_none fun x hx same => String.lt_irrefl _ (same ▸ sorted.1 x hx)
        rw [List.filterMap_cons_none (by rw [kept]; rfl), rest, later, Option.bind_none]
    · rw [if_neg mine, ← rest]
      cases kept : f e.1 e.2 with
      | some b => rw [List.filterMap_cons_some (by rw [kept]; rfl), lookup, if_neg mine]
      | none => rw [List.filterMap_cons_none (by rw [kept]; rfl)]

end NameMap

namespace Json

theorem member?_append (name : String) (ms ms' : List (String × Json)) :
    member? name (ms ++ ms') = (member? name ms').or (member? name ms) := by
  induction ms with
  | nil => simp [member?]
  | cons m ms ih => rw [List.cons_append, member?, member?, ih, Option.or_assoc]

/-- Poured into a map a name has the last of its values. -/
theorem get?_ofList (name : String) (ms : List (String × Json)) :
    (NameMap.ofList ms).get? name = member? name ms := by
  induction ms using List.reverseRecOn with
  | nil => rfl
  | append_singleton ms m ih =>
    rw [NameMap.ofList, List.foldl_append]
    show ((NameMap.ofList ms).insert m.1 m.2).get? name = _
    rw [NameMap.get?_insert, ih, member?_append]
    by_cases mine : m.1 = name
    · simp [member?, mine]
    · simp [member?, mine, Ne.symm mine]

theorem member?_entries (name : String) (m : NameMap Json) :
    member? name m.entries = m.get? name := by
  rw [← get?_ofList, NameMap.ofList_entries]

namespace Form

variable {ρ : Type} {fields : ρ → List (Field ρ)} {depth : Nat} {form : Form ρ}

/-- Data of the form hold other data. -/
def IsContainer (form : Form ρ) : Prop :=
  (∃ f, form = .list f) ∨ (∃ f, form = .dict f) ∨ ∃ n, form = .record n

/-- Nothing that holds other data is shaped from a value that holds none. -/
theorem shape?_of_flat {j : Json} (container : form.IsContainer) (flat : j.depth = 0) :
    form.shape? fields j = none := by
  rcases container with ⟨f, rfl⟩ | ⟨f, rfl⟩ | ⟨n, rfl⟩ <;>
    cases j <;> simp_all [Json.depth, shape?]

/-- A number, string or word is not read as what holds other data. -/
theorem readScalar_ne_ok {r : Raw} {d : Datum} (container : form.IsContainer) :
    readScalar fields depth form r ≠ .ok d := by
  intro h
  unfold readScalar at h
  split at h
  · contradiction
  · contradiction
  · rename_i items members
    obtain ⟨j, hj, h⟩ := bind_eq_ok.1 h
    have flat : j.depth = 0 := by
      cases r with
      | array rs e => exact absurd rfl (items rs e)
      | object ms e => exact absurd rfl (members ms e)
      | number n => exact (inRange_value hj).2.1
      | string s =>
        obtain ⟨text, -, rfl⟩ := map_eq_ok.1 hj
        rfl
      | null | bool b =>
        cases hj
        rfl
      | cut r | broken f => contradiction
    rw [shape?_of_flat container flat] at h
    contradiction

end Form

end Json

namespace Overrides

open Json (Datum Ending Fault Form Raw RawText bind_eq_ok map_eq_ok)

/-! ## Entries as they are written -/

/-- What a document holds in its only field. -/
def layers? : Raw → Option Raw
  | .object members _ => (members.find? (·.1.key.toOption = some "layers")).map Prod.snd
  | .array items _ => items.head?
  | _ => none

/-- The entries that a document lists, each with its members in the order of the text and with
repeated names as often as they are written. -/
inductive Lists (t : RawText) : List (List (String × Json)) → Prop
  | nothing (left : layers? t.value = none) : Lists t []
  | layers {r : Raw} {es : List (List (String × Json))} (field : layers? t.value = some r)
    (held : r.free 1 = .ok (.array (es.map .object))) : Lists t es

theorem Lists.unique {t : RawText} {es es' : List (List (String × Json))} (h : Lists t es)
    (h' : Lists t es') : es = es' := by
  cases h with
  | nothing left =>
    cases h' with
    | nothing => rfl
    | layers field => cases left.symm.trans field
  | layers field held =>
    cases h' with
    | nothing left => cases left.symm.trans field
    | layers field' held' =>
      obtain rfl := Option.some.inj (field.symm.trans field')
      have same := Json.array.inj (Except.ok.inj (held.symm.trans held'))
      exact (List.map_injective_iff.2 fun _ _ => Json.object.inj) same

/-- The datum of an entry. -/
def entryDatum (ms : List (String × Json)) : Datum :=
  .dict (NameMap.ofList (ms.map fun m => (m.1, .any m.2))).entries

/-- An entry is kept without repetitions, in the order of the names. -/
theorem members_entryDatum (ms : List (String × Json)) :
    members (entryDatum ms) = (NameMap.ofList ms).entries := by
  unfold entryDatum
  rw [NameMap.entries_ofList_map]
  show List.filterMap _ (List.map _ _) = _
  rw [List.filterMap_map]
  exact List.filterMap_some

variable {depth : Nat} {r : Raw} {d : Datum}

/-- Where any value may stand under any name, reading the entries is reading the values. -/
theorem readEntries_any (ms : List (Raw × Raw)) :
    Form.readEntries documentFields depth .any ms =
      (Raw.freeMembers depth ms).map fun ms => ms.map fun m => (m.1, Datum.any m.2) := by
  induction ms with
  | nil => rfl
  | cons m ms ih =>
    obtain ⟨k, r⟩ := m
    simp only [Form.readEntries, Form.read, Raw.freeMembers, ih]
    cases k.key with
    | error f => rfl
    | ok name =>
      cases r.free depth with
      | error f => rfl
      | ok j => cases Raw.freeMembers depth ms <;> rfl

/-- An entry is an object, whatever its members are. -/
theorem free_of_read_dict (h : Form.read documentFields depth (.dict .any) r = .ok d) :
    ∃ ms, r.free depth = .ok (.object ms) ∧ d = entryDatum ms := by
  cases r with
  | object members ending =>
    rw [Form.read] at h
    obtain ⟨inside, room, h⟩ := bind_eq_ok.1 h
    obtain ⟨es, hes, h⟩ := bind_eq_ok.1 h
    obtain ⟨_, closed, h⟩ := bind_eq_ok.1 h
    rw [readEntries_any] at hes
    obtain ⟨ms, free, rfl⟩ := map_eq_ok.1 hes
    cases h
    refine ⟨ms, ?_, rfl⟩
    rw [Raw.free]
    exact bind_eq_ok.2 ⟨inside, room, bind_eq_ok.2 ⟨ms, free, bind_eq_ok.2 ⟨_, closed, rfl⟩⟩⟩
  | _ =>
    simp only [Form.read] at h
    exact absurd h (Form.readScalar_ne_ok (.inr (.inl ⟨_, rfl⟩)))

theorem freeItems_of_readItems {rs : List Raw} {ds : List Datum}
    (h : List.Forall₂ (fun r d => Form.read documentFields depth (.dict .any) r = .ok d) rs ds) :
    ∃ es : List (List (String × Json)), Raw.freeItems depth rs = .ok (es.map .object) ∧
      ds = es.map entryDatum := by
  simp only [Json.freeItems_eq_ok]
  induction h with
  | nil => exact ⟨[], .nil, rfl⟩
  | cons head _ ih =>
    obtain ⟨ms, free, rfl⟩ := free_of_read_dict head
    obtain ⟨es, each, rfl⟩ := ih
    exact ⟨ms :: es, .cons free each, rfl⟩

/-- Entries are an array of objects. -/
theorem free_of_read_list (h : Form.read documentFields depth (.list (.dict .any)) r = .ok d) :
    ∃ es : List (List (String × Json)), r.free depth = .ok (.array (es.map .object)) ∧
      d = .list (es.map entryDatum) := by
  cases r with
  | array items ending =>
    rw [Form.read] at h
    obtain ⟨inside, room, h⟩ := bind_eq_ok.1 h
    obtain ⟨ds, hds, h⟩ := bind_eq_ok.1 h
    obtain ⟨_, closed, h⟩ := bind_eq_ok.1 h
    cases h
    obtain ⟨es, free, rfl⟩ := freeItems_of_readItems (Form.readItems_eq_ok.1 hds)
    refine ⟨es, ?_, rfl⟩
    rw [Raw.free]
    exact bind_eq_ok.2 ⟨inside, room, bind_eq_ok.2 ⟨_, free, bind_eq_ok.2 ⟨_, closed, rfl⟩⟩⟩
  | _ =>
    simp only [Form.read] at h
    exact absurd h (Form.readScalar_ne_ok (.inl ⟨_, rfl⟩))

/-- The only field of a document. -/
theorem find?_documentFields (name : String) :
    (documentFields ()).find? (fun f => f.name = name) =
      if name = "layers" then some ⟨"layers", .list (.dict .any), .orEmpty⟩ else none := by
  by_cases mine : name = "layers"
  · subst mine
    rfl
  · rw [if_neg mine]
    exact List.find?_cons_of_neg (by simpa using Ne.symm mine)

/-- What was found stays. -/
theorem lookup_readMembers_of_found {found found' : List (String × Datum)}
    {ms : List (Raw × Raw)} (known : found.lookup "layers" = some d)
    (h : Form.readMembers documentFields depth (documentFields ()) found ms = .ok found') :
    found'.lookup "layers" = some d := by
  induction ms generalizing found with
  | nil =>
    cases h
    exact known
  | cons m ms ih =>
    rw [Form.readMembers] at h
    obtain ⟨name, key, h⟩ := bind_eq_ok.1 h
    rw [find?_documentFields] at h
    by_cases mine : name = "layers"
    · subst mine
      rw [if_pos rfl] at h
      dsimp only at h
      rw [if_pos (by rw [known]; rfl)] at h
      contradiction
    · rw [if_neg mine] at h
      obtain ⟨_, -, h⟩ := bind_eq_ok.1 h
      exact ih known h

/-- The members of a document hold its field or leave it out. -/
theorem lookup_readMembers {found : List (String × Datum)} {ms : List (Raw × Raw)} (ending : Ending)
    (h : Form.readMembers documentFields depth (documentFields ()) [] ms = .ok found) :
    layers? (.object ms ending) = none ∧ found = [] ∨
      ∃ r d, layers? (.object ms ending) = some r ∧
        Form.read documentFields depth (.list (.dict .any)) r = .ok d ∧
          found.lookup "layers" = some d := by
  induction ms with
  | nil =>
    cases h
    exact .inl ⟨rfl, rfl⟩
  | cons m ms ih =>
    rw [Form.readMembers] at h
    obtain ⟨name, key, h⟩ := bind_eq_ok.1 h
    rw [find?_documentFields] at h
    by_cases mine : name = "layers"
    · subst mine
      rw [if_pos rfl] at h
      obtain ⟨d, hd, h⟩ := bind_eq_ok.1 h
      refine .inr ⟨m.2, d, ?_, hd, lookup_readMembers_of_found rfl h⟩
      simp [layers?, key, Except.toOption]
    · rw [if_neg mine] at h
      obtain ⟨_, -, h⟩ := bind_eq_ok.1 h
      have other : layers? (.object (m :: ms) ending) = layers? (.object ms ending) := by
        simp [layers?, key, Except.toOption, mine]
      rw [other]
      exact ih h

/-- A document is its field, which may be left out. -/
theorem layers_of_read_record (h : Form.read documentFields 0 (.record ()) r = .ok d) :
    layers? r = none ∧ d = .record [.list []] ∨ ∃ r' d', layers? r = some r' ∧
      Form.read documentFields 1 (.list (.dict .any)) r' = .ok d' ∧ d = .record [d'] := by
  cases r with
  | object members ending =>
    rw [Form.read] at h
    obtain ⟨inside, room, h⟩ := bind_eq_ok.1 h
    obtain rfl : 1 = inside := Except.ok.inj room
    obtain ⟨found, hfound, h⟩ := bind_eq_ok.1 h
    obtain ⟨_, -, h⟩ := bind_eq_ok.1 h
    obtain ⟨ds, hds, h⟩ := bind_eq_ok.1 h
    cases h
    have collected := Json.orMismatch_eq_ok.1 hds
    obtain ⟨left, rfl⟩ | ⟨r', d', field, read, known⟩ := lookup_readMembers ending hfound
    · cases collected
      exact .inl ⟨left, rfl⟩
    · refine .inr ⟨r', d', field, read, ?_⟩
      have first : Form.collect found (documentFields ()) = some [d'] := by
        simp [Form.collect, documentFields, known]
      rw [Option.some.inj (collected.symm.trans first)]
  | array items ending =>
    rw [Form.read] at h
    obtain ⟨inside, room, h⟩ := bind_eq_ok.1 h
    obtain rfl : 1 = inside := Except.ok.inj room
    obtain ⟨ds, hds, h⟩ := bind_eq_ok.1 h
    cases h
    cases items with
    | nil =>
      rw [documentFields, Form.readFields] at hds
      obtain ⟨_, -, hds⟩ := bind_eq_ok.1 hds
      cases Json.orMismatch_eq_ok.1 hds
      exact .inl ⟨rfl, rfl⟩
    | cons r' rest =>
      rw [documentFields, Form.readFields] at hds
      obtain ⟨d', hd', hds⟩ := bind_eq_ok.1 hds
      obtain ⟨none, hnone, hds⟩ := bind_eq_ok.1 hds
      cases rest with
      | nil =>
        rw [Form.readFields] at hnone
        obtain ⟨_, -, hnone⟩ := bind_eq_ok.1 hnone
        cases hnone
        cases hds
        exact .inr ⟨r', d', rfl, hd', rfl⟩
      | cons => contradiction
  | _ =>
    simp only [Form.read] at h
    exact absurd h (Form.readScalar_ne_ok (.inr (.inr ⟨_, rfl⟩)))

/-- A document that can be read lists entries, and each is kept with the last value of each name. -/
theorem lists_of_document {t : RawText} {es : List (List (String × Json))}
    (h : document t = .ok es) :
    ∃ written, Lists t written ∧ es = written.map fun ms => (NameMap.ofList ms).entries := by
  obtain ⟨d, hd, rfl⟩ := map_eq_ok.1 h
  obtain ⟨d', hd', closed⟩ := bind_eq_ok.1 hd
  obtain rfl : d' = d := by
    split at closed
    · contradiction
    · exact Except.ok.inj closed
  obtain ⟨left, rfl⟩ | ⟨r, list, field, read, rfl⟩ := layers_of_read_record hd'
  · exact ⟨[], .nothing left, rfl⟩
  · obtain ⟨written, free, rfl⟩ := free_of_read_list read
    refine ⟨written, .layers field free, ?_⟩
    show (written.map entryDatum).map members = _
    rw [List.map_map]
    exact List.map_congr_left fun ms _ => members_entryDatum ms

/-! ## What entries set -/

/-- The value that a scalar gives to an attribute: a string is taken verbatim, numbers and truth values
are taken in their JSON form. -/
inductive Sets : Json → AttributeValue → Prop
  | null : Sets .null .null
  | string (s : String) : Sets (.string s) (.raw s)
  | int (n : Int) : Sets (.int n) (.raw (Json.int n).compact)
  | float (x : Float) : Sets (.float x) (.raw (Json.float x).compact)
  | bool (b : Bool) : Sets (.bool b) (.raw (Json.bool b).compact)

/-- What a scalar sets is what it is taken for as an attribute value. -/
theorem sets_iff {j : Json} {v : AttributeValue} : Sets j v ↔ AttributeValue.ofJson? j = some v := by
  have int (n : Int) : (Json.int n).compact = .ofList (Decimal.integer n) := by
    rw [Json.compact, Json.textThen, List.append_nil]
  have float (x : Float) : (Json.float x).compact = .ofList (Json.floatText x) := by
    rw [Json.compact, Json.textThen, List.append_nil]
  have bool (b : Bool) : (Json.bool b).compact = if b then "true" else "false" := by
    cases b <;> rfl
  constructor
  · intro h
    cases h with
    | null | string s => rfl
    | int n => rw [int, AttributeValue.ofJson?]
    | float x => rw [float, AttributeValue.ofJson?]
    | bool b => rw [bool, AttributeValue.ofJson?]
  · intro h
    cases j with
    | null =>
      cases h
      exact .null
    | string s =>
      cases h
      exact .string s
    | int n =>
      cases h
      exact int n ▸ .int n
    | float x =>
      cases h
      exact float x ▸ .float x
    | bool b =>
      cases h
      exact bool b ▸ .bool b
    | array js => cases h
    | object ms => cases h

theorem scalars_eq (ms : List (String × Json)) : scalars ms = ms.filterMap fun m =>
    (if m.1 = nameKey then none else AttributeValue.ofJson? m.2).map (m.1, ·) := by
  unfold scalars
  rw [List.filterMap_filter]
  congr 1
  funext m
  by_cases mine : m.1 = nameKey <;> simp [mine]

/-- Of an entry whose names are distinct each member but the name sets what it stands for. -/
theorem get?_ofList_scalars (m : NameMap Json) (key : String) :
    (NameMap.ofList (scalars m.entries)).get? key =
      if key = nameKey then none else (m.get? key).bind AttributeValue.ofJson? := by
  have sorted : (scalars m.entries).Pairwise fun a b => a.1 < b.1 := by
    rw [scalars_eq, List.pairwise_filterMap]
    apply m.sorted.imp
    intro a b before x hx y hy
    obtain ⟨_, -, rfl⟩ := Option.map_eq_some_iff.1 hx
    obtain ⟨_, -, rfl⟩ := Option.map_eq_some_iff.1 hy
    exact before
  rw [NameMap.get?, NameMap.entries_ofList sorted, scalars_eq,
    NameMap.lookup_filterMap (fun name j => if name = nameKey then none else AttributeValue.ofJson? j)
      m.sorted]
  split
  · exact Option.bind_fun_none _
  · rfl

/-- What an entry sets, told by its members as they are written. -/
theorem get?_attributes_eq_some (ms : List (String × Json)) {key : String} {v : AttributeValue} :
    (NameMap.ofList (scalars (NameMap.ofList ms).entries)).get? key = some v ↔
      key ≠ "name" ∧ ∃ j, Json.member? key ms = some j ∧ Sets j v := by
  rw [get?_ofList_scalars, Json.get?_ofList]
  simp only [sets_iff]
  by_cases mine : key = nameKey
  · simp [mine, nameKey]
  · rw [if_neg mine, Option.bind_eq_some_iff]
    exact (and_iff_right mine).symm

/-- The name of an entry is the last one that is written. -/
theorem name?_entries (ms : List (String × Json)) (name : String) :
    name? (NameMap.ofList ms).entries = some name ↔
      Json.member? "name" ms = some (.string name) := by
  unfold name?
  rw [Json.member?_entries, Json.get?_ofList]
  show (Json.member? "name" ms).bind Json.string? = _ ↔ _
  cases Json.member? "name" ms with
  | none => simp
  | some j => cases j <;> simp [Json.string?]

/-- A document that can be read lists entries, and a layer has an entry in the table that the document
makes if and only if one of them has its name. Only the first such entry counts: for each of its
names, the word for the name aside, it sets what the last value under that name stands for, if that
is a scalar, and it sets nothing else. -/
theorem get?_of_accepted {t : RawText} {made : Logged Overrides} (accepted : ofDocument t = .ok made) :
    ∃ es o, (∀ es', Lists t es' ↔ es' = es) ∧ made.outcome = .ok o ∧ ∀ name,
      ((o.get? name).isSome ↔ ∃ ms ∈ es, Json.member? "name" ms = some (.string name)) ∧
      ∀ bag, o.get? name = some bag → ∃ before ms after, es = before ++ ms :: after ∧
        (∀ other ∈ before, Json.member? "name" other ≠ some (.string name)) ∧
        Json.member? "name" ms = some (.string name) ∧
        ∀ key v, bag.get? key = some v ↔
          key ≠ "name" ∧ ∃ j, Json.member? key ms = some j ∧ Sets j v := by
  obtain ⟨d, hd, h⟩ := bind_eq_ok.1 accepted
  obtain ⟨es, lists, kept⟩ := lists_of_document (map_eq_ok.2 ⟨d, hd, rfl⟩)
  obtain ⟨o, outcome, entry⟩ := get?_addEntries .empty 0 (entries d)
  refine ⟨es, o, fun es' => ⟨fun h' => h'.unique lists, fun same => same ▸ lists⟩,
    Except.ok.inj h ▸ outcome, fun name => ?_⟩
  have first : o.get? name = (es.find? fun ms =>
      name? (NameMap.ofList ms).entries = some name).map fun ms =>
        NameMap.ofList (scalars (NameMap.ofList ms).entries) := by
    rw [entry, kept, NameMap.get?_empty, Option.none_or, entryOf?, List.find?_map, Option.map_map]
    rfl
  rw [first]
  constructor
  · rw [Option.isSome_map, List.find?_isSome]
    simp only [decide_eq_true_eq, name?_entries]
  · intro bag hbag
    obtain ⟨ms, found, rfl⟩ := Option.map_eq_some_iff.1 hbag
    obtain ⟨named, before, after, rfl, others⟩ := List.find?_eq_some_iff_append.1 found
    simp only [decide_eq_true_eq, Bool.not_eq_true', decide_eq_false_iff_not, name?_entries]
      at named others
    exact ⟨before, ms, after, rfl, others, named, fun key v => get?_attributes_eq_some ms⟩

/-- Entries with repeated names, a name that is no string, and a name that comes twice. -/
def titleEntries : RawText := .ofString <|
  "\x7b\"layers\":[\x7b\"name\":3\x7d,\x7b\"name\":\"old\",\"rx\":1,\"rx\":2.50,\"tag\":\"a\"," ++
    "\"fill\":null,\"name\":\"title\",\"tag\":[]\x7d,\x7b\"name\":\"title\",\"opacity\":1\x7d]\x7d"

/-- The second entry is the first for the title: its last name counts, its list takes the place of the
text before it, and the opacity of the third is not merged in. -/
theorem get?_of_accepted_title : ∃ made es o bag, ofDocument titleEntries = .ok made ∧
    Lists titleEntries es ∧ made.outcome = .ok o ∧
      (¬ ∃ ms ∈ es, Json.member? "name" ms = some (.string "old")) ∧
      o.get? "title" = some bag ∧ bag.get? "rx" = some (.raw "2.5") ∧
      bag.get? "fill" = some .null ∧ ["name", "tag", "opacity"].map bag.get? = [none, none, none] ∧
      ∃ before ms after, es = before ++ ms :: after ∧
        Json.member? "name" ms = some (.string "title") ∧
        ∀ j v, Json.member? "tag" ms = some j → ¬ Sets j v := by
  have known : (ofDocument titleEntries).toOption.map (fun made => made.outcome.toOption.map fun o =>
      ((o.get? "old").isSome, (o.get? "title").map fun bag =>
        ["rx", "fill", "name", "tag", "opacity"].map bag.get?)) =
      some (some (false, some [some (.raw "2.5"), some .null, none, none, none])) := by
    decide +kernel
  obtain ⟨made, accepted, known⟩ := Outcome.exists_of_toOption known
  obtain ⟨es, o, lists, outcome, table⟩ := get?_of_accepted accepted
  obtain ⟨o', outcome', known⟩ := Outcome.exists_of_toOption known
  obtain rfl : o = o' := Except.ok.inj (outcome.symm.trans outcome')
  obtain ⟨old, title⟩ := Prod.mk.inj known
  obtain ⟨bag, hbag, sets⟩ := Option.map_eq_some_iff.1 title
  simp only [List.map_cons, List.map_nil, List.cons.injEq, and_true] at sets
  obtain ⟨rx, fill, name, tag, opacity⟩ := sets
  obtain ⟨before, ms, after, split, -, named, entry⟩ := (table "title").2 bag hbag
  refine ⟨made, es, o, bag, accepted, (lists es).2 rfl, outcome, ?_, hbag, rx, fill, ?_,
    before, ms, after, split, named, ?_⟩
  · rw [← (table "old").1, old]
    exact Bool.false_ne_true
  · simp only [List.map_cons, List.map_nil, name, tag, opacity]
  · intro j v last set
    have given := (entry "tag" v).2 ⟨by simp, j, last, set⟩
    rw [tag] at given
    cases given

end Overrides

end CanvasLayout
