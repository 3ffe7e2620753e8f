import Mathlib
import CanvasLayout.Proofs.ShapeOrder

/-!
# The order of members in reading

A text stands for the same datum in whatever order the members of its objects are, at any depth
(`Form.keepsDatum`), as long as no object has two members of one name. Records take their members as
they come; a tagged object keeps those before its tag as values and reads them by shape once the tag
is known. What is read is therefore told member by member, without the order (`readMembers_eq_ok`,
`gather_iff`), and both orders have the same members.
-/

namespace CanvasLayout.Json

open scoped List

namespace Raw

/-- The second text taken apart is the first with the members of objects in another order, at any
depth. -/
inductive Reordered : Raw → Raw → Prop
  | same (r : Raw) : Reordered r r
  | array {items : List (Raw × Raw)} (ending : Ending) (each : ∀ p ∈ items, Reordered p.1 p.2) :
    Reordered (.array (items.map Prod.fst) ending) (.array (items.map Prod.snd) ending)
  | object {pairs moved : List ((Raw × Raw) × (Raw × Raw))} (ending : Ending)
    (keys : ∀ p ∈ pairs, Reordered p.1.1 p.2.1) (values : ∀ p ∈ pairs, Reordered p.1.2 p.2.2)
    (perm : pairs ~ moved) :
    Reordered (.object (pairs.map Prod.fst) ending) (.object (moved.map Prod.snd) ending)

/-- The names of members, as far as their keys are texts. -/
def names (members : List (Raw × Raw)) : List String := members.filterMap fun m => m.1.key.toOption

mutual

/-- No object in a text has two members of one name. -/
def distinct : Raw → Bool
  | array items _ => distinctItems items
  | object members _ => (names members).Nodup && distinctMembers members
  | _ => true

/-- No object in the items has two members of one name. -/
def distinctItems : List Raw → Bool
  | [] => true
  | r :: rs => r.distinct && distinctItems rs

/-- No object in the values of members has two members of one name. -/
def distinctMembers : List (Raw × Raw) → Bool
  | [] => true
  | (_, r) :: ms => r.distinct && distinctMembers ms

end

theorem distinct_array {items : List Raw} {ending : Ending} :
    (array items ending).distinct = true ↔ ∀ r ∈ items, r.distinct = true := by
  have each : distinctItems items = true ↔ ∀ r ∈ items, r.distinct = true := by
    induction items with
    | nil => simp [distinctItems]
    | cons r rs ih => simp [distinctItems, ih]
  rw [distinct, each]

/-- An object repeats no name when its own names differ and no value repeats one. -/
theorem distinct_object {members : List (Raw × Raw)} {ending : Ending} :
    (object members ending).distinct = true ↔
      (names members).Nodup ∧ ∀ m ∈ members, m.2.distinct = true := by
  have each : distinctMembers members = true ↔ ∀ m ∈ members, m.2.distinct = true := by
    induction members with
    | nil => simp [distinctMembers]
    | cons m ms ih => simp [distinctMembers, ih]
  rw [distinct, Bool.and_eq_true, decide_eq_true_eq, each]

/-- What passing over a key asks of it. -/
def skipKey : Raw → Except Fault Unit
  | string s => (s.stop.map .error).getD (.ok ())
  | _ => .error .malformed

theorem skipItems_eq_ok {rs : List Raw} :
    skipItems rs = .ok () ↔ ∀ r ∈ rs, r.skip = .ok () := by
  induction rs with
  | nil => simp [skipItems]
  | cons r rs ih => rw [skipItems, seq_eq_ok, ih, List.forall_mem_cons]

/-- Members are passed over when the keys and the values of all of them are. -/
theorem skipMembers_eq_ok {ms : List (Raw × Raw)} :
    skipMembers ms = .ok () ↔ ∀ m ∈ ms, m.1.skipKey = .ok () ∧ m.2.skip = .ok () := by
  induction ms with
  | nil => simp [skipMembers]
  | cons m ms ih =>
    obtain ⟨k, r⟩ := m
    have step : skipMembers ((k, r) :: ms) = (do k.skipKey; r.skip; skipMembers ms) := by
      cases k <;> rfl
    rw [step, seq_eq_ok, seq_eq_ok, ih, List.forall_mem_cons, and_assoc]

/-- An array is passed over when its items are and it is closed. -/
theorem skip_array {rs : List Raw} {ending : Ending} :
    (array rs ending).skip = .ok () ↔ (∀ r ∈ rs, r.skip = .ok ()) ∧ ending.more = .ok () := by
  rw [skip, seq_eq_ok, skipItems_eq_ok]

/-- An object is passed over when its members are and it is closed. -/
theorem skip_object {ms : List (Raw × Raw)} {ending : Ending} :
    (object ms ending).skip = .ok () ↔
      (∀ m ∈ ms, m.1.skipKey = .ok () ∧ m.2.skip = .ok ()) ∧ ending.more = .ok () := by
  rw [skip, seq_eq_ok, skipMembers_eq_ok]

namespace Reordered

variable {r r' : Raw}

theorem key (h : r.Reordered r') : r.key = r'.key := by
  cases h <;> rfl

theorem skipKey (h : r.Reordered r') : r.skipKey = r'.skipKey := by
  cases h <;> rfl

/-- What can be passed over can be passed over in any order. -/
theorem skip (h : r.Reordered r') (skipped : r.skip = .ok ()) : r'.skip = .ok () := by
  induction h with
  | same => exact skipped
  | array ending each ih =>
    rw [skip_array, List.forall_mem_map] at skipped ⊢
    exact ⟨fun p hp => ih p hp (skipped.1 p hp), skipped.2⟩
  | @object pairs moved ending keys values perm _ ih =>
    rw [skip_object, List.forall_mem_map] at skipped ⊢
    refine ⟨fun p hp => ?_, skipped.2⟩
    have hp := perm.mem_iff.2 hp
    obtain ⟨named, value⟩ := skipped.1 p hp
    exact ⟨(keys p hp).skipKey ▸ named, ih p hp value⟩

end Reordered

/-- Whatever value the first text has, the second has it with the members of objects in another
order. -/
def KeepsValue (r r' : Raw) : Prop :=
  ∀ depth j, r.free depth = .ok j → ∃ j', r'.free depth = .ok j' ∧ j.Reordered j'

/-- A reordered text is read as the same value with its members in another order, by induction on
the reordering. -/
theorem Reordered.keepsValue {r r' : Raw} (h : r.Reordered r') : KeepsValue r r' := by
  induction h with
  | same => exact fun depth j value => ⟨j, value, .same j⟩
  | @array items ending each ih =>
    intro depth j value
    simp only [Raw.free, bind_eq_ok, deeper_eq_ok, freeItems_eq_ok] at value ⊢
    obtain ⟨_, ⟨room, rfl⟩, js, values, _, closed, value⟩ := value
    cases value
    obtain ⟨js', same, values'⟩ : ∃ js', List.Forall₂ Json.Reordered js js' ∧
        List.Forall₂ (fun r j => r.free (depth + 1) = .ok j) (items.map Prod.snd) js' :=
      exists_forall₂ (forall₂_pairs ih) values fun r r' j keeps value =>
        (keeps _ j value).imp fun j' => And.symm
    obtain ⟨pairs, rfl, rfl, reordered⟩ := exists_pairs same
    exact ⟨_, ⟨_, ⟨room, rfl⟩, _, values', _, closed, rfl⟩, .array reordered⟩
  | @object pairs moved ending keys values perm _ ih =>
    intro depth j value
    simp only [Raw.free, bind_eq_ok, deeper_eq_ok, freeMembers_eq_ok] at value ⊢
    obtain ⟨_, ⟨room, rfl⟩, ms, members, _, closed, value⟩ := value
    cases value
    have both : Moved (fun m m' : Raw × Raw => m.1.key = m'.1.key ∧ KeepsValue m.2 m'.2)
        (pairs.map Prod.fst) (moved.map Prod.snd) :=
      moved_of_pairs perm fun p hp => ⟨(keys p hp).key, ih p hp⟩
    obtain ⟨ms', same, members'⟩ : ∃ ms' : List (String × Json),
        Moved (fun m m' => m.1 = m'.1 ∧ m.2.Reordered m'.2) ms ms' ∧
          List.Forall₂ (fun r m => r.1.key = .ok m.1 ∧ r.2.free (depth + 1) = .ok m.2)
            (moved.map Prod.snd) ms' :=
      both.forall₂ members fun r r' m keeps member => by
        obtain ⟨j', value', reordered⟩ := keeps.2 _ m.2 member.2
        exact ⟨(m.1, j'), ⟨rfl, reordered⟩, keeps.1.symm.trans member.1, value'⟩
    obtain ⟨pairs', moved', rfl, rfl, perm', alike⟩ := same.exists_pairs
    exact ⟨_, ⟨_, ⟨room, rfl⟩, _, members', _, closed, rfl⟩,
      .object (fun p hp => (alike p hp).1) (fun p hp => (alike p hp).2) perm'⟩

/-- The names of members are those of all of them when each key is a text. -/
theorem names_eq_map {rs : List (Raw × Raw)} {names : List String}
    (h : List.Forall₂ (fun r name => r.1.key = .ok name) rs names) : Raw.names rs = names := by
  induction h with
  | nil => rfl
  | @cons r name rs names key _ ih =>
    unfold Raw.names at ih ⊢
    rw [List.filterMap_cons_some (by rw [key]; rfl), ih]

theorem distinct_of_value {n : NumberToken} {j : Json} (h : n.value = .ok j) :
    j.distinct = true := by
  have fraction : ∀ {x : Float}, (finite x).map .float = .ok j → j.distinct = true := by
    intro x h
    obtain ⟨y, -, rfl⟩ := map_eq_ok.1 h
    rfl
  unfold NumberToken.value at h
  split at h
  · split at h
    · cases h
      rfl
    · exact fraction h
  · split at h
    · cases h
      rfl
    · exact fraction h
  · exact fraction h
  · contradiction

/-- The value of a text in which no name comes twice is one in which no name does. -/
theorem distinct_of_free (r : Raw) : ∀ {depth : Nat} {j : Json}, r.distinct = true →
    r.free depth = .ok j → j.distinct = true := by
  induction r using Raw.induct with
  | null | bool b =>
    intro depth j _ value
    cases value
    rfl
  | number n =>
    intro depth j _ value
    exact distinct_of_value value
  | string s =>
    intro depth j _ value
    obtain ⟨text, -, rfl⟩ := map_eq_ok.1 value
    rfl
  | cut r | broken f =>
    intro depth j _ value
    cases value
  | array rs e ih =>
    intro depth j distinct value
    rw [distinct_array] at distinct
    simp only [Raw.free, bind_eq_ok, deeper_eq_ok, freeItems_eq_ok] at value
    obtain ⟨_, -, js, values, _, -, value⟩ := value
    cases value
    rw [Json.distinct_array]
    exact forall_right values fun r hr j => ih r hr (distinct r hr)
  | object rs e ih =>
    intro depth j distinct value
    rw [distinct_object] at distinct
    simp only [Raw.free, bind_eq_ok, deeper_eq_ok, freeMembers_eq_ok] at value
    obtain ⟨_, -, ms, members, _, -, value⟩ := value
    cases value
    rw [Json.distinct_object]
    have keys : names rs = ms.map Prod.fst :=
      names_eq_map (List.forall₂_map_right_iff.2 (members.imp fun _ _ => And.left))
    exact ⟨keys ▸ distinct.1, forall_right members fun r hr m member =>
      ih r hr (distinct.2 r hr) member.2⟩

theorem Reordered.readCase {r r' : Raw} {names : List String} {name : String} (h : r.Reordered r')
    (named : Raw.readCase names r = .ok name) : Raw.readCase names r' = .ok name := by
  cases h with
  | same => exact named
  | array | object => cases named

/-- What a member of a tagged record is gathered as: the name of the case, or a member. -/
def gatherMember (tag : String) (names : List String) (depth : Nat) (m : Raw × Raw) :
    Except Fault (String ⊕ (String × Json)) := do
  let name ← m.1.key
  if name = tag then return .inl (← readCase names m.2) else return .inr (name, ← m.2.free depth)

section Gather

variable {tag : String} {names : List String} {depth : Nat}

/-- A member is gathered as the case when its key is the tag. -/
theorem gatherMember_eq_inl {m : Raw × Raw} {c : String} :
    gatherMember tag names depth m = .ok (.inl c) ↔
      m.1.key = .ok tag ∧ Raw.readCase names m.2 = .ok c := by
  unfold gatherMember
  rw [bind_eq_ok]
  constructor
  · rintro ⟨name, key, h⟩
    split at h
    · rename_i mine
      obtain ⟨c', hc, h⟩ := bind_eq_ok.1 h
      cases h
      exact ⟨mine ▸ key, hc⟩
    · obtain ⟨j, -, h⟩ := bind_eq_ok.1 h
      cases h
  · rintro ⟨key, hc⟩
    refine ⟨tag, key, ?_⟩
    rw [if_pos rfl, hc]
    rfl

theorem gatherMember_eq_inr {m : Raw × Raw} {n : String × Json} :
    gatherMember tag names depth m = .ok (.inr n) ↔
      m.1.key = .ok n.1 ∧ n.1 ≠ tag ∧ m.2.free depth = .ok n.2 := by
  unfold gatherMember
  rw [bind_eq_ok]
  constructor
  · rintro ⟨name, key, h⟩
    split at h
    · obtain ⟨c, -, h⟩ := bind_eq_ok.1 h
      cases h
    · rename_i other
      obtain ⟨j, hj, h⟩ := bind_eq_ok.1 h
      cases h
      exact ⟨key, other, hj⟩
  · rintro ⟨key, other, hj⟩
    refine ⟨n.1, key, ?_⟩
    rw [if_neg other, hj]
    rfl

/-- Members are gathered one by one, and at most one of them is the tag. -/
theorem gather_iff {found c : Option String} {ms : List (Raw × Raw)} {js : List (String × Json)} :
    gather tag names depth found ms = .ok (c, js) ↔
      ∃ os, List.Forall₂ (fun m o => gatherMember tag names depth m = .ok o) ms os ∧
        found.toList ++ os.filterMap Sum.getLeft? = c.toList ∧
        js = os.filterMap Sum.getRight? := by
  induction ms generalizing found js with
  | nil =>
    have same : found.toList = c.toList ↔ found = c := by cases found <;> cases c <;> simp
    simp only [gather, Except.ok.injEq, Prod.mk.injEq, List.forall₂_nil_left_iff, exists_eq_left,
      List.filterMap_nil, List.append_nil, same, eq_comm (a := js)]
  | cons m ms ih =>
    obtain ⟨k, r⟩ := m
    rw [gather, bind_eq_ok]
    constructor
    · rintro ⟨name, key, h⟩
      split at h
      · rename_i mine
        subst mine
        cases found with
        | some c' => cases h
        | none =>
          obtain ⟨c', hc, h⟩ := bind_eq_ok.1 h
          obtain ⟨os, each, one, rest⟩ := ih.1 h
          exact ⟨.inl c' :: os, .cons (gatherMember_eq_inl.2 ⟨key, hc⟩) each, one, rest⟩
      · rename_i other
        obtain ⟨j, hj, h⟩ := bind_eq_ok.1 h
        obtain ⟨⟨c', js'⟩, hrest, h⟩ := bind_eq_ok.1 h
        cases h
        obtain ⟨os, each, one, rfl⟩ := ih.1 hrest
        exact ⟨.inr (name, j) :: os, .cons (gatherMember_eq_inr.2 ⟨key, other, hj⟩) each, one, rfl⟩
    · rintro ⟨_, _ | ⟨head, each⟩, one, rfl⟩
      rename_i o os
      cases o with
      | inl c' =>
        obtain ⟨key, hc⟩ := gatherMember_eq_inl.1 head
        refine ⟨tag, key, ?_⟩
        rw [if_pos rfl]
        cases found with
        | some c'' => cases c <;> simp at one
        | none =>
          refine bind_eq_ok.2 ⟨c', hc, ih.2 ⟨os, each, one, rfl⟩⟩
      | inr n =>
        obtain ⟨key, other, hj⟩ := gatherMember_eq_inr.1 head
        refine ⟨n.1, key, ?_⟩
        rw [if_neg other]
        refine bind_eq_ok.2 ⟨n.2, hj, bind_eq_ok.2 ⟨(c, os.filterMap Sum.getRight?), ?_, rfl⟩⟩
        exact ih.2 ⟨os, each, one, rfl⟩

end Gather

end Raw

namespace Form

variable {ρ : Type} {fields : ρ → List (Field ρ)} {depth : Nat}

variable (fields) in
/-- Whatever datum of a lawful form the first text stands for, the second stands for too. -/
def KeepsDatum (r r' : Raw) : Prop :=
  ∀ form depth d, form.Lawful fields → read fields depth form r = .ok d →
    read fields depth form r' = .ok d

variable (fields) in
/-- Members of one name whose values are alike, no name coming twice in them. -/
structure AlikeParts (m m' : Raw × Raw) : Prop where
  key : m.1.key = m'.1.key
  distinct : m.2.distinct = true
  reordered : m.2.Reordered m'.2
  keeps : KeepsDatum fields m.2 m'.2

theorem readField_array (f : Field ρ) (rs : List Raw) (e : Ending) :
    readField fields depth f (.array rs e) = read fields depth f.form (.array rs e) := by
  unfold readField Field.whenNull
  split <;> rfl

theorem readField_object (f : Field ρ) (ms : List (Raw × Raw)) (e : Ending) :
    readField fields depth f (.object ms e) = read fields depth f.form (.object ms e) := by
  unfold readField Field.whenNull
  split <;> rfl

theorem readField_of_reordered {f : Field ρ} {r r' : Raw} {d : Datum} (h : r.Reordered r')
    (also : ∀ d, read fields depth f.form r = .ok d → read fields depth f.form r' = .ok d)
    (found : readField fields depth f r = .ok d) : readField fields depth f r' = .ok d := by
  cases h with
  | same => exact found
  | array =>
    rw [readField_array] at found ⊢
    exact also d found
  | object =>
    rw [readField_object] at found ⊢
    exact also d found

variable (fields) in
/-- What a member is found to be: an entry, or nothing when its name is unknown. -/
def readMember (depth : Nat) (all : List (Field ρ)) (m : Raw × Raw) :
    Except Fault (Option (String × Datum)) := do
  let name ← m.1.key
  match all.find? fun f => f.name = name with
  | none => do
    m.2.skip
    return none
  | some f => return some (name, ← readField fields depth f m.2)

section ReadMember

variable {all : List (Field ρ)} {m : Raw × Raw}

theorem readMember_eq_none : readMember fields depth all m = .ok none ↔
    ∃ name, m.1.key = .ok name ∧ all.find? (fun f => f.name = name) = none ∧
      m.2.skip = .ok () := by
  unfold readMember
  rw [bind_eq_ok]
  apply exists_congr
  intro name
  apply and_congr_right
  intro key
  cases all.find? fun f => f.name = name with
  | none =>
    dsimp only
    rw [seq_eq_ok]
    simp [pure, Except.pure]
  | some f =>
    simp [bind_eq_ok, pure, Except.pure]

/-- A member under a known name is read by the field of that name. -/
theorem readMember_eq_some {e : String × Datum} : readMember fields depth all m = .ok (some e) ↔
    m.1.key = .ok e.1 ∧ ∃ f, all.find? (fun f => f.name = e.1) = some f ∧
      readField fields depth f m.2 = .ok e.2 := by
  unfold readMember
  rw [bind_eq_ok]
  constructor
  · rintro ⟨name, key, h⟩
    split at h
    · obtain ⟨-, h⟩ := seq_eq_ok.1 h
      cases h
    · rename_i f known
      obtain ⟨d, hd, h⟩ := bind_eq_ok.1 h
      cases h
      exact ⟨key, f, known, hd⟩
  · rintro ⟨key, f, known, hd⟩
    refine ⟨e.1, key, ?_⟩
    rw [known]
    exact bind_eq_ok.2 ⟨e.2, hd, rfl⟩

/-- Members are read one by one, and no field comes twice. -/
theorem readMembers_eq_ok {found found' : List (String × Datum)} {ms : List (Raw × Raw)}
    (distinct : (found.map Prod.fst).Nodup) :
    readMembers fields depth all found ms = .ok found' ↔
      ∃ os, List.Forall₂ (fun m o => readMember fields depth all m = .ok o) ms os ∧
        Finds os found found' := by
  induction ms generalizing found with
  | nil => simp [readMembers, finds_nil distinct]
  | cons m ms ih =>
    rw [exists_finds_cons, readMember_eq_none]
    simp only [readMember_eq_some]
    rw [readMembers, bind_eq_ok]
    have more : ∀ e : String × Datum, e.1 ∉ found.map Prod.fst →
        ((e :: found).map Prod.fst).Nodup := fun e fresh => List.nodup_cons.2 ⟨fresh, distinct⟩
    constructor
    · rintro ⟨name, key, h⟩
      cases known : all.find? fun f => f.name = name with
      | none =>
        rw [known, seq_eq_ok] at h
        exact .inl ⟨⟨name, key, known, h.1⟩, (ih distinct).1 h.2⟩
      | some f =>
        rw [known] at h
        dsimp only at h
        split at h
        · contradiction
        · rename_i fresh
          rw [isSome_lookup_iff] at fresh
          obtain ⟨d, hd, h⟩ := bind_eq_ok.1 h
          exact .inr ⟨(name, d), ⟨key, f, known, hd⟩, fresh, (ih (more (name, d) fresh)).1 h⟩
    · rintro (⟨⟨name, key, known, skipped⟩, rest⟩ | ⟨e, ⟨key, f, known, hd⟩, fresh, rest⟩)
      · refine ⟨name, key, ?_⟩
        rw [known, seq_eq_ok]
        exact ⟨skipped, (ih distinct).2 rest⟩
      · refine ⟨e.1, key, ?_⟩
        rw [known]
        dsimp only
        rw [if_neg (mt isSome_lookup_iff.1 fresh)]
        exact bind_eq_ok.2 ⟨e.2, hd, (ih (more e fresh)).2 rest⟩

end ReadMember

theorem AlikeParts.readMember {all : List (Field ρ)} (forms : ∀ f ∈ all, f.form.Lawful fields)
    {m m' : Raw × Raw} (h : AlikeParts fields m m') {o : Option (String × Datum)}
    (found : Form.readMember fields depth all m = .ok o) :
    Form.readMember fields depth all m' = .ok o := by
  cases o with
  | none =>
    obtain ⟨name, key, known, skipped⟩ := readMember_eq_none.1 found
    exact readMember_eq_none.2 ⟨name, h.key ▸ key, known, h.reordered.skip skipped⟩
  | some e =>
    obtain ⟨key, f, known, hd⟩ := readMember_eq_some.1 found
    have lawful := forms f (List.mem_of_find?_eq_some known)
    exact readMember_eq_some.2 ⟨h.key ▸ key, f, known,
      readField_of_reordered h.reordered (fun d => h.keeps f.form depth d lawful) hd⟩

/-- The members of a record can be read in any order. -/
theorem found_of_moved {all : List (Field ρ)} (forms : ∀ f ∈ all, f.form.Lawful fields)
    {ms ms' : List (Raw × Raw)} (h : Moved (AlikeParts fields) ms ms')
    {found : List (String × Datum)} (read : readMembers fields depth all [] ms = .ok found) :
    ∃ found', readMembers fields depth all [] ms' = .ok found' ∧
      collect found all = collect found' all := by
  have start : (([] : List (String × Datum)).map Prod.fst).Nodup := List.nodup_nil
  obtain ⟨os, each, finds⟩ := (readMembers_eq_ok start).1 read
  obtain ⟨os', moved, each'⟩ := h.forall₂ (T := Eq) each fun m m' o alike found =>
    ⟨o, rfl, alike.readMember forms found⟩
  obtain ⟨found', finds', perm⟩ := finds.perm moved.perm
  exact ⟨found', (readMembers_eq_ok start).2 ⟨os', each', finds'⟩,
    collect_of_perm perm finds.2 all⟩

/-- So can the entries of a map with distinct names. -/
theorem readEntries_of_moved {f : Form ρ} (lawful : f.Lawful fields) {ms ms' : List (Raw × Raw)}
    (distinct : (Raw.names ms).Nodup) (h : Moved (AlikeParts fields) ms ms')
    {es : List (String × Datum)} (read : readEntries fields depth f ms = .ok es) :
    ∃ es', readEntries fields depth f ms' = .ok es' ∧ NameMap.ofList es = NameMap.ofList es' := by
  rw [readEntries_eq_ok] at read
  have names : Raw.names ms = es.map Prod.fst :=
    Raw.names_eq_map (List.forall₂_map_right_iff.2 (read.imp fun _ _ => And.left))
  obtain ⟨es', moved, read'⟩ : ∃ es', Moved Eq es es' ∧
      List.Forall₂ (fun m e => m.1.key = .ok e.1 ∧ Form.read fields depth f m.2 = .ok e.2)
        ms' es' :=
    h.forall₂ read fun m m' e alike entry =>
      ⟨e, rfl, alike.key ▸ entry.1, alike.keeps f depth e.2 lawful entry.2⟩
  exact ⟨es', readEntries_eq_ok.2 read', ofList_of_perm moved.perm (names ▸ distinct)⟩

/-- So can what a tagged record holds, which leaves a tag and members that are alike. -/
theorem gather_of_moved (law : LawfulFields fields) {tag : String} {names : List String}
    {ms ms' : List (Raw × Raw)} (h : Moved (AlikeParts fields) ms ms') {c : Option String}
    {js : List (String × Json)} (gathered : Raw.gather tag names depth none ms = .ok (c, js)) :
    ∃ js', Raw.gather tag names depth none ms' = .ok (c, js') ∧
      Moved (AlikeMembers fields) js js' := by
  obtain ⟨os, each, one, rfl⟩ := Raw.gather_iff.1 gathered
  obtain ⟨os', moved, each'⟩ : ∃ os', Moved (Sum.LiftRel Eq (AlikeMembers fields)) os os' ∧
      List.Forall₂ (fun m o => Raw.gatherMember tag names depth m = .ok o) ms' os' := by
    refine h.forall₂ each fun m m' o alike made => ?_
    cases o with
    | inl c =>
      obtain ⟨key, hc⟩ := Raw.gatherMember_eq_inl.1 made
      exact ⟨.inl c, .inl rfl, Raw.gatherMember_eq_inl.2
        ⟨alike.key ▸ key, alike.reordered.readCase hc⟩⟩
    | inr n =>
      obtain ⟨key, other, hj⟩ := Raw.gatherMember_eq_inr.1 made
      obtain ⟨j', hj', reordered⟩ := alike.reordered.keepsValue depth n.2 hj
      have distinct := Raw.distinct_of_free m.2 alike.distinct hj
      refine ⟨.inr (n.1, j'), .inr ⟨rfl, reordered, keepsShape law reordered distinct⟩, ?_⟩
      exact Raw.gatherMember_eq_inr.2 ⟨alike.key ▸ key, other, hj'⟩
  refine ⟨os'.filterMap Sum.getRight?, Raw.gather_iff.2 ⟨os', each', ?_, rfl⟩, ?_⟩
  · have names : Moved Eq (os.filterMap Sum.getLeft?) (os'.filterMap Sum.getLeft?) := by
      refine moved.filterMap ?_
      rintro _ _ (same | same)
      · exact .some same
      · exact .none
    rw [Option.toList_none, List.nil_append] at one ⊢
    rw [one] at names
    cases c with
    | none => exact List.perm_nil.1 names.perm.symm
    | some c => exact List.perm_singleton.1 names.perm.symm
  · refine moved.filterMap ?_
    rintro _ _ (same | same)
    · exact .none
    · exact .some same

/-- A tagged record is read from its members in any order, wherever the tag stands. -/
theorem readTaggedMembers_of_moved (law : LawfulFields fields) {tag : String}
    {cases : List (String × ρ)} {ms ms' : List (Raw × Raw)} {ending : Ending} {d : Datum}
    (h : Moved (AlikeParts fields) ms ms')
    (read : readTaggedMembers fields depth tag cases ms ending = .ok d) :
    readTaggedMembers fields depth tag cases ms' ending = .ok d := by
  unfold readTaggedMembers at read ⊢
  obtain ⟨⟨c, js⟩, gathered, read⟩ := bind_eq_ok.1 read
  obtain ⟨closed, read⟩ := seq_eq_ok.1 read
  obtain ⟨name, hname, read⟩ := bind_eq_ok.1 read
  obtain ⟨values, hvalues, read⟩ := bind_eq_ok.1 read
  rw [orMismatch_eq_ok] at hvalues
  obtain ⟨js', gathered', alike⟩ := gather_of_moved law h gathered
  have values' := record_of_moved (lawful_of_case law _) alike hvalues
  exact bind_eq_ok.2 ⟨(c, js'), gathered', seq_eq_ok.2 ⟨closed, bind_eq_ok.2 ⟨name, hname,
    bind_eq_ok.2 ⟨values, orMismatch_eq_ok.2 values', read⟩⟩⟩⟩

/-- A name that is written as an object stands in its one member. -/
theorem readChoiceMember_eq_ok {names : List String} {ending : Ending} {ms : List (Raw × Raw)}
    {name : String} : Raw.readChoiceMember names ending ms = .ok name ↔
      ∃ k, ms = [(k, .null)] ∧ k.key = .ok name ∧ name ∈ names ∧ ending.close = .ok () := by
  constructor
  · intro read
    unfold Raw.readChoiceMember at read
    split at read
    · split at read
      · contradiction
      · obtain ⟨_, -, read⟩ := bind_eq_ok.1 read
        contradiction
    · rename_i k v rest
      dsimp only at read
      split at read
      · rename_i s
        obtain ⟨text, htext, read⟩ := bind_eq_ok.1 read
        by_cases known : text ∈ names
        · rw [if_neg (not_not.2 known)] at read
          split at read
          · split at read
            · rename_i last
              obtain ⟨closed, read⟩ := seq_eq_ok.1 read
              cases read
              rw [List.isEmpty_iff.1 last]
              exact ⟨.string s, rfl, htext, known, closed⟩
            · contradiction
          · contradiction
        · rw [if_pos known] at read
          contradiction
      · contradiction
  · rintro ⟨k, rfl, key, known, closed⟩
    cases k with
    | string s =>
      have text : s.text = .ok name := key
      simp [Raw.readChoiceMember, text, known, closed]
    | _ => cases key

theorem readChoice_of_moved {names : List String} {ms ms' : List (Raw × Raw)} {ending : Ending}
    {name : String} (h : Moved (AlikeParts fields) ms ms')
    (read : Raw.readChoiceMember names ending ms = .ok name) :
    Raw.readChoiceMember names ending ms' = .ok name := by
  obtain ⟨k, rfl, key, known, closed⟩ := readChoiceMember_eq_ok.1 read
  obtain ⟨⟨k', r'⟩, rfl, alike⟩ := h.singleton
  obtain rfl : r' = .null := by
    have reordered := alike.reordered
    cases reordered
    rfl
  exact readChoiceMember_eq_ok.2 ⟨k', rfl, alike.key ▸ key, known, closed⟩

theorem readFields_of_each {ending : Ending} {fs : List (Field ρ)} {items : List (Raw × Raw)}
    (each : ∀ p ∈ items, ∀ f ∈ fs, ∀ d, readField fields depth f p.1 = .ok d →
      readField fields depth f p.2 = .ok d) {ds : List Datum}
    (read : readFields fields depth ending fs (items.map Prod.fst) = .ok ds) :
    readFields fields depth ending fs (items.map Prod.snd) = .ok ds := by
  induction items generalizing fs ds with
  | nil => exact read
  | cons p items ih =>
    cases fs with
    | nil => contradiction
    | cons f fs =>
      rw [List.map_cons, readFields, bind_eq_ok] at read ⊢
      obtain ⟨d, hd, read⟩ := read
      obtain ⟨ds', hds, read⟩ := bind_eq_ok.1 read
      rw [List.forall_mem_cons] at each
      exact ⟨d, each.1 f List.mem_cons_self d hd, bind_eq_ok.2 ⟨ds',
        ih (fun q hq f hf => each.2 q hq f (List.mem_cons_of_mem _ hf)) hds, read⟩⟩

/-- A tagged record written as an array keeps its order, and so its data. -/
theorem readTaggedItems_of_each (law : LawfulFields fields) {cases : List (String × ρ)}
    {items : List (Raw × Raw)} {ending : Ending} {d : Datum}
    (each : ∀ p ∈ items, p.1.Reordered p.2) (distinct : ∀ p ∈ items, p.1.distinct = true)
    (read : readTaggedItems fields depth cases (items.map Prod.fst) ending = .ok d) :
    readTaggedItems fields depth cases (items.map Prod.snd) ending = .ok d := by
  cases items with
  | nil => exact read
  | cons p items =>
    rw [List.forall_mem_cons] at each distinct
    rw [List.map_cons, readTaggedItems, bind_eq_ok] at read ⊢
    obtain ⟨name, hname, read⟩ := read
    obtain ⟨js, hjs, read⟩ := bind_eq_ok.1 read
    obtain ⟨closed, read⟩ := seq_eq_ok.1 read
    obtain ⟨values, hvalues, made⟩ := bind_eq_ok.1 read
    rw [freeItems_eq_ok] at hjs
    have both : List.Forall₂ (fun r r' : Raw => r.Reordered r' ∧ r.distinct = true)
        (items.map Prod.fst) (items.map Prod.snd) :=
      forall₂_pairs fun q hq => ⟨each.2 q hq, distinct.2 q hq⟩
    obtain ⟨js', alike, hjs'⟩ : ∃ js',
        List.Forall₂ (fun j j' => j.Reordered j' ∧ KeepsShape fields j j') js js' ∧
          List.Forall₂ (fun r j => r.free depth = .ok j) (items.map Prod.snd) js' :=
      exists_forall₂ both hjs fun r r' j both hj => by
        obtain ⟨j', hj', reordered⟩ := both.1.keepsValue depth j hj
        exact ⟨j', ⟨reordered, keepsShape law reordered (Raw.distinct_of_free r both.2 hj)⟩, hj'⟩
    obtain ⟨pairs, rfl, rfl, keeps⟩ := exists_pairs alike
    have values' := shapeFields?_of_each (fun q hq f hf d => shapeField?_of_reordered (keeps q hq).1
      fun d => (keeps q hq).2 f.form d (lawful_of_case law _ f hf)) (orMismatch_eq_ok.1 hvalues)
    exact ⟨name, each.1.readCase hname, bind_eq_ok.2 ⟨_, freeItems_eq_ok.2 hjs',
      seq_eq_ok.2 ⟨closed, bind_eq_ok.2 ⟨values, orMismatch_eq_ok.2 values', made⟩⟩⟩⟩

/-- A text stands for the same datum in whatever order the members of its objects are, as long as no
name comes twice. -/
theorem keepsDatum (law : LawfulFields fields) {r r' : Raw} (h : r.Reordered r') :
    r.distinct = true → KeepsDatum fields r r' := by
  induction h with
  | same r => exact fun _ _ _ _ _ => id
  | @array items ending each ih =>
    intro distinct form depth d lawful h
    rw [Raw.distinct_array, List.forall_mem_map] at distinct
    have keeps : ∀ p ∈ items, KeepsDatum fields p.1 p.2 := fun p hp => ih p hp (distinct p hp)
    cases form with
    | any => cases lawful
    | choice names => cases h
    | list f =>
      simp only [read, bind_eq_ok, readItems_eq_ok] at h ⊢
      obtain ⟨inner, room, ds, hds, h⟩ := h
      have lawful : f.Lawful fields := lawful
      exact ⟨inner, room, ds, forall₂_of_each (forall₂_pairs keeps) hds fun r r' d keeps =>
        keeps f inner d lawful, h⟩
    | record n =>
      simp only [read, bind_eq_ok] at h ⊢
      obtain ⟨inner, room, ds, hds, h⟩ := h
      refine ⟨inner, room, ds, readFields_of_each (fun p hp f hf d => ?_) hds, h⟩
      exact readField_of_reordered (each p hp) fun d => keeps p hp f.form inner d (law.forms n f hf)
    | tagged tag cases =>
      simp only [read, bind_eq_ok] at h ⊢
      obtain ⟨inner, room, h⟩ := h
      exact ⟨inner, room, readTaggedItems_of_each law each distinct h⟩
    | _ => cases h
  | @object pairs moved ending keys values perm _ ih =>
    intro distinct form depth d lawful h
    rw [Raw.distinct_object, List.forall_mem_map] at distinct
    obtain ⟨names, inside⟩ := distinct
    have alike : Moved (AlikeParts fields) (pairs.map Prod.fst) (moved.map Prod.snd) :=
      moved_of_pairs perm fun p hp =>
        ⟨(keys p hp).key, inside p hp, values p hp, ih p hp (inside p hp)⟩
    cases form with
    | any => cases lawful
    | choice names =>
      simp only [read, Raw.readChoice, map_eq_ok, bind_eq_ok] at h ⊢
      obtain ⟨name, ⟨inner, room, hname⟩, h⟩ := h
      exact ⟨name, ⟨inner, room, readChoice_of_moved alike hname⟩, h⟩
    | dict f =>
      simp only [read, bind_eq_ok] at h ⊢
      obtain ⟨inner, room, es, hes, closed, h⟩ := h
      have lawful : f.Lawful fields := lawful
      obtain ⟨es', hes', same⟩ := readEntries_of_moved lawful names alike hes
      exact ⟨inner, room, es', hes', closed, same ▸ h⟩
    | record n =>
      simp only [read, bind_eq_ok] at h ⊢
      obtain ⟨inner, room, found, hfound, closed, closed', ds, hds, h⟩ := h
      obtain ⟨found', hfound', same⟩ := found_of_moved (law.forms n) alike hfound
      exact ⟨inner, room, found', hfound', closed, closed', ds, same ▸ hds, h⟩
    | tagged tag cases =>
      simp only [read, bind_eq_ok] at h ⊢
      obtain ⟨inner, room, h⟩ := h
      exact ⟨inner, room, readTaggedMembers_of_moved law alike h⟩
    | _ => cases h

end Form

end CanvasLayout.Json
