import CanvasLayout.Proofs.FormWritten

/-!
# Forms read

The other way round: whatever the text, a datum that the reader finds fits its form, and its
value is printed readably at the place where it was found (`kept_of_read`). A reader passes over
what it does not know and takes values in more than one spelling, but none that it takes is
nested less deep than the one that is printed.
-/

namespace CanvasLayout.Json

theorem bind_eq_ok {α β : Type} {x : Except Fault α} {f : α → Except Fault β} {b : β} :
    (x >>= f) = .ok b ↔ ∃ a, x = .ok a ∧ f a = .ok b := by
  cases x <;> simp [bind, Except.bind]

theorem seq_eq_ok {α : Type} {x : Except Fault Unit} {y : Except Fault α} {a : α} :
    (do x; y) = .ok a ↔ x = .ok () ∧ y = .ok a := by
  rw [bind_eq_ok, Unique.exists_iff]

theorem map_eq_ok {α β : Type} {x : Except Fault α} {f : α → β} {b : β} :
    x.map f = .ok b ↔ ∃ a, x = .ok a ∧ f a = b := by
  cases x <;> simp [Except.map]

theorem orMismatch_eq_ok {α : Type} {x : Option α} {a : α} : orMismatch x = .ok a ↔ x = some a := by
  cases x <;> simp [orMismatch]

/-- Induction on token trees by the trees in them. -/
@[elab_as_elim] theorem Raw.induct {P : Raw → Prop} (null : P null) (bool : ∀ b, P (bool b))
    (number : ∀ n, P (number n)) (string : ∀ s, P (string s))
    (array : ∀ rs e, (∀ r ∈ rs, P r) → P (array rs e))
    (object : ∀ ms e, (∀ m ∈ ms, P m.2) → P (object ms e))
    (cut : ∀ r, P (cut r)) (broken : ∀ f, P (broken f)) : ∀ r, P r
  | .null => null
  | .bool b => bool b
  | .number n => number n
  | .string s => string s
  | .array rs e => array rs e fun r _ => induct null bool number string array object cut broken r
  | .object ms e => object ms e fun m _ =>
    induct null bool number string array object cut broken m.2
  | .cut r => cut r
  | .broken f => broken f
termination_by r => sizeOf r
decreasing_by
  · have := List.sizeOf_lt_of_mem ‹_›
    simp only [Raw.array.sizeOf_spec]
    omega
  · have := List.sizeOf_lt_of_mem ‹_›
    obtain ⟨key, r⟩ := m
    simp only [Raw.object.sizeOf_spec, Prod.mk.sizeOf_spec] at this ⊢
    omega

namespace Form

/-- An array is printed readably where there is room for it and, one level deeper, for its items. -/
theorem readable_array_of {depth : Nat} {js : List Json} (room : depth < depthLimit)
    (items : ∀ j ∈ js, Readable (depth + 1) j) : Readable depth (.array js) := by
  refine ⟨fun v hv => ?_, ?_⟩
  · rw [leaves, mem_leavesItems] at hv
    obtain ⟨j, hj, hv⟩ := hv
    exact (items j hj).1 v hv
  · have : depthItems js ≤ depthLimit - depth - 1 :=
      depthItems_le.2 fun j hj => by have := (items j hj).2; omega
    rw [Json.depth]
    omega

/-- So is an object, whatever the names of its members. -/
theorem readable_object_of {depth : Nat} {ms : List (String × Json)} (room : depth < depthLimit)
    (members : ∀ m ∈ ms, Readable (depth + 1) m.2) : Readable depth (.object ms) := by
  refine ⟨fun v hv => ?_, ?_⟩
  · rw [leaves, mem_leavesMembers] at hv
    obtain ⟨m, hm, hv⟩ := hv
    exact (members m hm).1 v hv
  · have : depthMembers ms ≤ depthLimit - depth - 1 :=
      depthMembers_le.2 fun m hm => by have := (members m hm).2; omega
    rw [Json.depth]
    omega

end Form

open Form (Readable)

/-- What a number on a page is read as is a single value, and one that is printed as a number again.
-/
theorem inRange_value {n : NumberToken} {j : Json} (h : n.value = .ok j) :
    j.leaves = [j] ∧ j.depth = 0 ∧ j.InRange := by
  have size : UInt64.size = 2 ^ 64 := rfl
  have fraction : ∀ {x : Float}, (finite x).map .float = .ok j →
      j.leaves = [j] ∧ j.depth = 0 ∧ j.InRange := by
    intro x h
    obtain ⟨y, hy, rfl⟩ := map_eq_ok.1 h
    refine ⟨rfl, rfl, ?_⟩
    unfold finite at hy
    split at hy
    · cases hy
      assumption
    · contradiction
  unfold NumberToken.value at h
  split at h
  · split at h
    · cases h
      exact ⟨rfl, rfl, by simp only [InRange]; omega⟩
    · exact fraction h
  · split at h
    · cases h
      exact ⟨rfl, rfl, by simp only [InRange]; omega⟩
    · exact fraction h
  · exact fraction h
  · contradiction

/-- A value that holds no others is readable anywhere. -/
theorem readable_leaf {depth : Nat} {j : Json} (room : depth ≤ depthLimit) (leaf : j.leaves = [j])
    (flat : j.depth = 0) (range : j.InRange) : Readable depth j :=
  ⟨by simpa [leaf] using range, by omega⟩

/-- Items are read one by one, each at the depth of the array. -/
theorem freeItems_eq_ok {depth : Nat} {rs : List Raw} {js : List Json} :
    Raw.freeItems depth rs = .ok js ↔ List.Forall₂ (fun r j => Raw.free depth r = .ok j) rs js := by
  induction rs generalizing js with
  | nil => cases js <;> simp [Raw.freeItems]
  | cons r rs ih =>
    simp only [Raw.freeItems, bind_eq_ok, ih, pure, Except.pure, Except.ok.injEq]
    cases js with
    | nil => simp
    | cons j js => simp

/-- Members are read one by one, the name of each as a string. -/
theorem freeMembers_eq_ok {depth : Nat} {rs : List (Raw × Raw)} {ms : List (String × Json)} :
    Raw.freeMembers depth rs = .ok ms ↔
      List.Forall₂ (fun r m => r.1.key = .ok m.1 ∧ Raw.free depth r.2 = .ok m.2) rs ms := by
  induction rs generalizing ms with
  | nil => cases ms <;> simp [Raw.freeMembers]
  | cons r rs ih =>
    simp only [Raw.freeMembers, bind_eq_ok, ih, pure, Except.pure, Except.ok.injEq]
    cases ms with
    | nil => simp
    | cons m ms =>
      obtain ⟨name, j⟩ := m
      simp [and_assoc]

/-- What each left entry of two related lists says of its right one holds all along the right list.
-/
theorem forall_right {α β : Type} {R : α → β → Prop} {Q : β → Prop} {as : List α} {bs : List β}
    (all : List.Forall₂ R as bs) (h : ∀ a ∈ as, ∀ b, R a b → Q b) : ∀ b ∈ bs, Q b := by
  induction all with
  | nil => simp
  | cons head tail ih =>
    rw [List.forall_mem_cons] at h ⊢
    exact ⟨h.1 _ head, ih h.2⟩

/-- A value that is read freely can be printed where it was read. -/
theorem readable_of_free (r : Raw) : ∀ {depth : Nat} {j : Json}, depth ≤ depthLimit →
    r.free depth = .ok j → Readable depth j := by
  induction r using Raw.induct with
  | null | bool b =>
    intro depth j room h
    rw [Raw.free] at h
    cases h
    exact readable_leaf room rfl rfl trivial
  | number n =>
    intro depth j room h
    rw [Raw.free] at h
    obtain ⟨leaf, flat, range⟩ := inRange_value h
    exact readable_leaf room leaf flat range
  | string s =>
    intro depth j room h
    rw [Raw.free, map_eq_ok] at h
    obtain ⟨t, -, rfl⟩ := h
    exact readable_leaf room rfl rfl trivial
  | array rs e ih =>
    intro depth j _ h
    simp only [Raw.free, bind_eq_ok, deeper_eq_ok, freeItems_eq_ok] at h
    obtain ⟨_, ⟨room, rfl⟩, js, items, _, -, h⟩ := h
    cases h
    exact Form.readable_array_of room (forall_right items fun r hr j hj => ih r hr room hj)
  | object ms e ih =>
    intro depth j _ h
    simp only [Raw.free, bind_eq_ok, deeper_eq_ok, freeMembers_eq_ok] at h
    obtain ⟨_, ⟨room, rfl⟩, js, members, _, -, h⟩ := h
    cases h
    exact Form.readable_object_of room (forall_right members fun r hr m hm => ih r hr room hm.2)
  | cut r | broken f =>
    intro depth j _ h
    rw [Raw.free] at h
    contradiction

namespace Form

variable {ρ : Type} (fields : ρ → List (Field ρ))

/-- A datum of the form that can be printed in a container that stands in `depth` others. -/
def Kept (depth : Nat) (form : Form ρ) (d : Datum) : Prop :=
  form.Fits fields d ∧ Readable depth (write fields form d)

/-- A value of the field that can be printed at a depth. -/
def KeptField (depth : Nat) (f : Field ρ) (d : Datum) : Prop :=
  FitsField fields f d ∧ Readable depth (write fields f.form d)

variable {fields} {depth : Nat}

/-- A field that may be null can be printed as null. -/
theorem keptField_absent {f : Field ρ} (nullable : f.allowsNull) (room : depth ≤ depthLimit) :
    KeptField fields depth f .absent :=
  ⟨.inl ⟨nullable, rfl⟩, by rw [write_absent]; exact readable_leaf room rfl rfl trivial⟩

theorem Kept.field {f : Field ρ} {d : Datum} (h : Kept fields depth f.form d) :
    KeptField fields depth f d :=
  ⟨.inr h.1, h.2⟩

/-- The members that are written for the values of fields are as readable as the values. -/
theorem readable_members {fs : List (Field ρ)} {ds : List Datum}
    (each : List.Forall₂ (KeptField fields depth) fs ds) :
    ∀ m ∈ writeFields fields fs ds, Readable depth m.2 :=
  forall_mem_writeFields (each.imp fun _ _ h => h.2)

/-- A record is kept if there is room for it and its fields are kept a level deeper. -/
theorem kept_record {n : ρ} {ds : List Datum} (room : depth < depthLimit)
    (each : List.Forall₂ (KeptField fields (depth + 1)) (fields n) ds) :
    Kept fields depth (.record n) (.record ds) := by
  constructor
  · rw [Fits, fitsFields_iff]
    exact each.imp fun _ _ h => h.1
  · rw [write]
    exact readable_object_of room (readable_members each)

/-- The same for a record that is told by its tag, which is a member like the others. -/
theorem kept_tagged {tag name : String} {cases : List (String × ρ)} {n : ρ} {ds : List Datum}
    (room : depth < depthLimit) (known : cases.lookup name = some n)
    (each : List.Forall₂ (KeptField fields (depth + 1)) (fields n) ds) :
    Kept fields depth (.tagged tag cases) (.tagged name ds) := by
  constructor
  · rw [Fits]
    exact ⟨n, known, (fitsFields_iff fields).2 (each.imp fun _ _ h => h.1)⟩
  · rw [write, known]
    refine readable_object_of room (List.forall_mem_cons.2 ⟨?_, readable_members each⟩)
    exact readable_leaf room rfl rfl trivial

theorem kept_list {f : Form ρ} {ds : List Datum} (room : depth < depthLimit)
    (each : ∀ d ∈ ds, Kept fields (depth + 1) f d) : Kept fields depth (.list f) (.list ds) := by
  constructor
  · rw [Fits, fitsItems_iff]
    exact fun d hd => (each d hd).1
  · rw [write]
    exact readable_array_of room (forall_mem_writeItems fun d hd => (each d hd).2)

/-- A table made of a list has no entries but those of the list. -/
theorem mem_entries_ofList {α : Type} {es : List (String × α)} {e : String × α}
    (h : e ∈ (NameMap.ofList es).entries) : e ∈ es := by
  induction es using List.reverseRecOn with
  | nil => exact h
  | append_singleton es x ih =>
    rw [NameMap.ofList, List.foldl_append] at h
    rw [List.mem_append, List.mem_singleton]
    exact (NameMap.mem_put h).symm.imp_left ih

/-- An object with free names is kept as its sorted table of entries. -/
theorem kept_dict {f : Form ρ} {es : List (String × Datum)} (room : depth < depthLimit)
    (each : ∀ e ∈ es, Kept fields (depth + 1) f e.2) :
    Kept fields depth (.dict f) (.dict (NameMap.ofList es).entries) := by
  constructor
  · rw [Fits, fitsEntries_iff]
    exact ⟨NameMap.sorted _, fun e he => (each e (mem_entries_ofList he)).1⟩
  · rw [write]
    exact readable_object_of room
      (forall_mem_writeEntries fun e he => (each e (mem_entries_ofList he)).2)

/-- Everything found is a value of the field that it was found for. -/
def KeptFound (fields : ρ → List (Field ρ)) (depth : Nat) (all : List (Field ρ))
    (found : List (String × Datum)) : Prop :=
  ∀ e ∈ found, ∃ f, all.find? (fun g => g.name = e.1) = some f ∧ KeptField fields depth f e.2

/-- What is collected from what was found, and from what may be absent, are values of the fields. -/
theorem kept_of_collect {found : List (String × Datum)} {all fs : List (Field ρ)} {ds : List Datum}
    (known : ∀ f ∈ fs, all.find? (fun g => g.name = f.name) = some f)
    (explicit : ∀ f ∈ fs, f.presence ≠ .orEmpty) (room : depth ≤ depthLimit)
    (kept : KeptFound fields depth all found) (h : collect found fs = some ds) :
    List.Forall₂ (KeptField fields depth) fs ds := by
  induction fs generalizing ds with
  | nil =>
    obtain rfl : [] = ds := by simpa [collect] using h
    exact .nil
  | cons f fs ih =>
    rw [List.forall_mem_cons] at known explicit
    rw [collect, List.mapM_cons] at h
    obtain ⟨d, hd, h⟩ := Option.bind_eq_some_iff.1 h
    obtain ⟨ds', hds, h⟩ := Option.bind_eq_some_iff.1 h
    cases h
    refine .cons ?_ (ih known.2 explicit.2 hds)
    rcases Option.or_eq_some_iff.1 hd with hit | ⟨-, missing⟩
    · obtain ⟨g, hg, kept⟩ := kept _ (mem_of_lookup hit)
      rw [known.1] at hg
      cases hg
      exact kept
    · unfold Field.missing at missing
      split at missing
      · contradiction
      · cases missing
        exact keptField_absent (by simp [Field.allowsNull, *]) room
      · cases missing
        exact keptField_absent (by simp [Field.allowsNull, *]) room
      · rename_i default
        exact absurd default explicit.1

/-- Fields behind the end of an array are absent, so they can be printed as null. -/
theorem kept_of_beyond {fs : List (Field ρ)} {ds : List Datum} (room : depth ≤ depthLimit)
    (explicit : ∀ f ∈ fs, f.presence ≠ .orEmpty) (h : fs.mapM Field.beyond = some ds) :
    List.Forall₂ (KeptField fields depth) fs ds := by
  induction fs generalizing ds with
  | nil =>
    obtain rfl : [] = ds := by simpa using h
    exact .nil
  | cons f fs ih =>
    rw [List.forall_mem_cons] at explicit
    rw [List.mapM_cons] at h
    obtain ⟨d, hd, h⟩ := Option.bind_eq_some_iff.1 h
    obtain ⟨ds', hds, h⟩ := Option.bind_eq_some_iff.1 h
    cases h
    refine .cons ?_ (ih explicit.2 hds)
    unfold Field.beyond at hd
    split at hd
    · contradiction
    · contradiction
    · cases hd
      exact keptField_absent (by simp [Field.allowsNull, *]) room
    · rename_i default
      exact absurd default explicit.1

/-- What was found stays kept with one more value, if that is kept for the field of its name. -/
theorem KeptFound.cons {all : List (Field ρ)} {found : List (String × Datum)} {name : String}
    {f : Field ρ} {d : Datum} (h : KeptFound fields depth all found)
    (known : all.find? (fun g => g.name = name) = some f) (kept : KeptField fields depth f d) :
    KeptFound fields depth all ((name, d) :: found) :=
  List.forall_mem_cons.2 ⟨⟨f, known, kept⟩, h⟩

theorem keptFound_nil (all : List (Field ρ)) : KeptFound fields depth all [] := by
  simp [KeptFound]

/-- Items of one form have a datum each. -/
theorem shapeItems?_eq_some {f : Form ρ} {js : List Json} {ds : List Datum} :
    shapeItems? fields f js = some ds ↔
      List.Forall₂ (fun j d => shape? fields f j = some d) js ds := by
  induction js generalizing ds with
  | nil => cases ds <;> simp [shapeItems?]
  | cons j js ih =>
    cases ds with
    | nil => cases h : shape? fields f j <;> cases h' : shapeItems? fields f js <;>
        simp [shapeItems?, h, h']
    | cons d ds =>
      rw [List.forall₂_cons, ← ih]
      cases h : shape? fields f j <;> cases h' : shapeItems? fields f js <;>
        simp [shapeItems?, h, h']

/-- Entries of one form keep their names and have a datum each. -/
theorem shapeEntries?_eq_some {f : Form ρ} {ms : List (String × Json)}
    {es : List (String × Datum)} :
    shapeEntries? fields f ms = some es ↔
      List.Forall₂ (fun m e => m.1 = e.1 ∧ shape? fields f m.2 = some e.2) ms es := by
  induction ms generalizing es with
  | nil => cases es <;> simp [shapeEntries?]
  | cons m ms ih =>
    cases es with
    | nil => cases h : shape? fields f m.2 <;> cases h' : shapeEntries? fields f ms <;>
        simp [shapeEntries?, h, h']
    | cons e es =>
      rw [List.forall₂_cons, ← ih]
      cases h : shape? fields f m.2 <;> cases h' : shapeEntries? fields f ms <;>
        simp [shapeEntries?, h, h', Prod.ext_iff]

/-- A value of a field is null where that is allowed, and a value of its form elsewhere. -/
theorem shapeField?_eq_some {f : Field ρ} {j : Json} {d : Datum}
    (h : shapeField? fields f j = some d) :
    (f.allowsNull ∧ d = .absent) ∨ shape? fields f.form j = some d := by
  cases nullable : f.allowsNull with
  | false => exact .inr (by simpa [shapeField?, nullable] using h)
  | true =>
    cases j with
    | null => exact .inl (by simpa [shapeField?, nullable, eq_comm] using h)
    | _ => exact .inr (by simpa [shapeField?] using h)

/-- A field keeps what its form keeps. -/
theorem keptField_of_shapeField {f : Field ρ} {j : Json} {d : Datum} (room : depth ≤ depthLimit)
    (shape : ∀ d, shape? fields f.form j = some d → Kept fields depth f.form d)
    (h : shapeField? fields f j = some d) : KeptField fields depth f d := by
  rcases shapeField?_eq_some h with ⟨nullable, rfl⟩ | h
  · exact keptField_absent nullable room
  · exact (shape d h).field

/-- Going through the members of an object, whatever is found is kept. -/
theorem kept_of_shapeMembers {all : List (Field ρ)} {found found' : List (String × Datum)}
    {ms : List (String × Json)}
    (each : ∀ m ∈ ms, ∀ f ∈ all, ∀ d,
      shapeField? fields f m.2 = some d → KeptField fields depth f d)
    (start : KeptFound fields depth all found)
    (h : shapeMembers? fields all found ms = some found') : KeptFound fields depth all found' := by
  induction ms generalizing found with
  | nil =>
    cases h
    exact start
  | cons m ms ih =>
    obtain ⟨name, j⟩ := m
    rw [List.forall_mem_cons] at each
    rw [shapeMembers?_cons] at h
    split at h
    · exact ih each.2 start h
    · rename_i f known
      split at h
      · contradiction
      · obtain ⟨d, hd, h⟩ := Option.bind_eq_some_iff.1 h
        exact ih each.2 (start.cons known (each.1 f (List.mem_of_find?_eq_some known) d hd)) h

/-- Going through the items of an array that stands for a record, whatever is found is kept, and so
are the absent fields behind the end. -/
theorem kept_of_shapeFields {fs : List (Field ρ)} {js : List Json} {ds : List Datum}
    (room : depth ≤ depthLimit) (explicit : ∀ f ∈ fs, f.presence ≠ .orEmpty)
    (each : ∀ j ∈ js, ∀ f ∈ fs, ∀ d, shapeField? fields f j = some d → KeptField fields depth f d)
    (h : shapeFields? fields fs js = some ds) : List.Forall₂ (KeptField fields depth) fs ds := by
  induction js generalizing fs ds with
  | nil =>
    cases fs with
    | nil =>
      cases h
      exact .nil
    | cons f fs => exact kept_of_beyond room explicit h
  | cons j js ih =>
    cases fs with
    | nil => contradiction
    | cons f fs =>
      rw [shapeFields?_cons] at h
      obtain ⟨d, hd, h⟩ := Option.bind_eq_some_iff.1 h
      obtain ⟨ds', hds, rfl⟩ := Option.map_eq_some_iff.1 h
      rw [List.forall_mem_cons] at each explicit
      exact .cons (each.1 f List.mem_cons_self d hd)
        (ih explicit.2 (fun j hj f hf => each.2 j hj f (List.mem_cons_of_mem _ hf)) hds)

/-- A known name has a case. -/
theorem lookup_of_mem_names {cases : List (String × ρ)} {name : String}
    (h : name ∈ cases.map Prod.fst) : ∃ n, cases.lookup name = some n := by
  induction cases with
  | nil => cases h
  | cons c cs ih =>
    rw [List.lookup_cons]
    split
    · exact ⟨_, rfl⟩
    · rename_i other
      rw [List.map_cons, List.mem_cons] at h
      exact ih (h.resolve_left fun same => by simp [same] at other)

/-- The name of a case, given as a string or by its number, is one of the names. -/
theorem mem_of_caseName {names : List String} {j : Json} {name : String}
    (h : caseName? names j = some name) : name ∈ names := by
  unfold caseName? at h
  split at h
  · split at h
    · cases h
      assumption
    · contradiction
  · split at h
    · exact List.mem_of_getElem? h
    · contradiction
  · contradiction

/-- A choice, spelled in any of its ways, is one of the names. -/
theorem mem_of_choice {names : List String} {j : Json} {name : String}
    (h : choice? names j = some name) : name ∈ names := by
  unfold choice? at h
  split at h
  all_goals first
    | contradiction
    | (split at h
       · cases h
         assumption
       · contradiction)

theorem kept_choice {names : List String} {name : String} (room : depth ≤ depthLimit)
    (h : name ∈ names) : Kept fields depth (.choice names) (.choice name) :=
  ⟨h, readable_leaf room rfl rfl trivial⟩

theorem kept_real {x : Float} (room : depth ≤ depthLimit) (finite : x.isFinite) :
    Kept fields depth .real (.real x) :=
  ⟨trivial, readable_leaf room rfl rfl finite⟩

theorem kept_text {s : String} (room : depth ≤ depthLimit) : Kept fields depth .text (.text s) :=
  ⟨trivial, readable_leaf room rfl rfl trivial⟩

theorem kept_flag {b : Bool} (room : depth ≤ depthLimit) : Kept fields depth .flag (.flag b) :=
  ⟨trivial, readable_leaf room rfl rfl trivial⟩

/-- A number is kept even where a whole number stands for it. -/
theorem kept_of_real {j : Json} {x : Float} (readable : Readable depth j) (h : real? j = some x) :
    Kept fields depth .real (.real x) := by
  have room : depth ≤ depthLimit := by have := readable.2; omega
  unfold real? at h
  split at h
  · rename_i n
    cases h
    have range : (Json.int n).InRange := readable.1 _ (by simp [leaves])
    have size : UInt64.size = 2 ^ 64 := rfl
    simp only [InRange] at range
    exact kept_real room (Decimal.isFinite_toFloat rfl (by simp only; omega))
  · cases h
    exact kept_real room (readable.1 (.float _) (by simp [leaves]))
  · contradiction

/-- A whole number below a bound is kept as it is. -/
theorem kept_of_whole {bound : Nat} {j : Json} {n : Nat} (room : depth ≤ depthLimit)
    (hb : bound ≤ UInt64.size) (h : whole? bound j = some n) :
    Kept fields depth (.whole bound) (.whole n) := by
  have size : UInt64.size = 2 ^ 64 := rfl
  unfold whole? at h
  split at h
  · split at h
    · cases h
      refine ⟨by simp only [Fits]; omega, readable_leaf room rfl rfl ?_⟩
      simp only [write, InRange]
      omega
    · contradiction
  · contradiction

/-- The form is written without a container. -/
def isFlat : Form ρ → Bool
  | list _ | dict _ | record _ | tagged _ _ => false
  | _ => true

/-- Values without containers are kept, whatever their form. -/
theorem kept_of_shape_flat {form : Form ρ} {j : Json} {d : Datum} (flat : form.isFlat)
    (hf : form.Lawful fields) (readable : Readable depth j) (h : shape? fields form j = some d) :
    Kept fields depth form d := by
  have room : depth ≤ depthLimit := by have := readable.2; omega
  cases form with
  | any => contradiction
  | text =>
    cases j <;> simp only [shape?, reduceCtorEq] at h
    cases h
    exact kept_text room
  | real =>
    rw [shape?] at h
    obtain ⟨x, hx, rfl⟩ := Option.map_eq_some_iff.1 h
    exact kept_of_real readable hx
  | whole bound =>
    rw [shape?] at h
    obtain ⟨n, hn, rfl⟩ := Option.map_eq_some_iff.1 h
    exact kept_of_whole room hf hn
  | flag =>
    cases j <;> simp only [shape?, reduceCtorEq] at h
    cases h
    exact kept_flag room
  | choice names =>
    rw [shape?] at h
    obtain ⟨name, hn, rfl⟩ := Option.map_eq_some_iff.1 h
    exact kept_choice room (mem_of_choice hn)
  | list _ | dict _ | record _ | tagged _ _ => contradiction

/-- A datum that a readable value stands for fits the form, and is printed where the value is. -/
theorem kept_of_shape (law : LawfulFields fields) (j : Json) :
    ∀ {form : Form ρ} {depth : Nat} {d : Datum}, form.Lawful fields → Readable depth j →
      shape? fields form j = some d → Kept fields depth form d := by
  induction j using Json.induct with
  | null | bool _ | int _ | float _ | string _ =>
    intro form depth d hf readable h
    refine kept_of_shape_flat ?_ hf readable h
    cases form <;> first | rfl | cases h
  | array js ih =>
    intro form depth d hf readable h
    obtain ⟨room, inside⟩ := readable_array readable
    have each : ∀ n, ∀ j ∈ js, ∀ f ∈ fields n, ∀ d, shapeField? fields f j = some d →
        KeptField fields (depth + 1) f d := fun n j hj f hf d hd =>
      keptField_of_shapeField room (fun d => ih j hj (law.forms n f hf) (inside j hj)) hd
    cases form with
    | list f =>
      rw [shape?] at h
      obtain ⟨ds, hds, rfl⟩ := Option.map_eq_some_iff.1 h
      exact kept_list room (forall_right (shapeItems?_eq_some.1 hds) fun i hi d hd =>
        ih i hi hf (inside i hi) hd)
    | record n =>
      rw [shape?] at h
      obtain ⟨ds, hds, rfl⟩ := Option.map_eq_some_iff.1 h
      exact kept_record room (kept_of_shapeFields room (law.explicit n) (each n) hds)
    | tagged tag cases =>
      cases js with
      | nil => contradiction
      | cons j js =>
        rw [shape?] at h
        split at h
        · contradiction
        · rename_i name hname
          obtain ⟨n, hn⟩ := lookup_of_mem_names (mem_of_caseName hname)
          rw [hn] at h
          obtain ⟨ds, hds, rfl⟩ := Option.map_eq_some_iff.1 h
          exact kept_tagged room hn (kept_of_shapeFields room (law.explicit n)
            (fun j hj => each n j (List.mem_cons_of_mem _ hj)) hds)
    | dict f => contradiction
    | _ => exact kept_of_shape_flat rfl hf readable h
  | object ms ih =>
    intro form depth d hf readable h
    obtain ⟨room, inside⟩ := readable_object readable
    have record : ∀ n ds,
        (shapeMembers? fields (fields n) [] ms).bind (collect · (fields n)) = some ds →
        List.Forall₂ (KeptField fields (depth + 1)) (fields n) ds := by
      intro n ds h
      obtain ⟨found, hfound, h⟩ := Option.bind_eq_some_iff.1 h
      refine kept_of_collect (find?_of_mem (law.distinct n)) (law.explicit n) room ?_ h
      exact kept_of_shapeMembers (fun m hm f hf d => keptField_of_shapeField room fun d =>
        ih m hm (law.forms n f hf) (inside m hm)) (keptFound_nil _) hfound
    cases form with
    | dict f =>
      rw [shape?] at h
      obtain ⟨es, hes, rfl⟩ := Option.map_eq_some_iff.1 h
      exact kept_dict room (forall_right (shapeEntries?_eq_some.1 hes) fun m hm e he =>
        ih m hm hf (inside m hm) he.2)
    | record n =>
      rw [shape?] at h
      obtain ⟨ds, hds, rfl⟩ := Option.map_eq_some_iff.1 h
      exact kept_record room (record n ds hds)
    | tagged tag cases =>
      rw [shape?] at h
      split at h
      · contradiction
      · rename_i name hname
        obtain ⟨j, -, hname⟩ := Option.bind_eq_some_iff.1 hname
        obtain ⟨n, hn⟩ := lookup_of_mem_names (mem_of_caseName hname)
        simp only [hn, Option.map_some, Option.getD_some] at h
        obtain ⟨ds, hds, rfl⟩ := Option.map_eq_some_iff.1 h
        exact kept_tagged room hn (record n ds hds)
    | list f => contradiction
    | _ => exact kept_of_shape_flat rfl hf readable h

/-- Items on a page are read one by one. -/
theorem readItems_eq_ok {f : Form ρ} {rs : List Raw} {ds : List Datum} :
    readItems fields depth f rs = .ok ds ↔
      List.Forall₂ (fun r d => read fields depth f r = .ok d) rs ds := by
  induction rs generalizing ds with
  | nil => cases ds <;> simp [readItems]
  | cons r rs ih =>
    simp only [readItems, bind_eq_ok, ih, pure, Except.pure, Except.ok.injEq]
    cases ds with
    | nil => simp
    | cons d ds => simp

/-- Entries on a page are read one by one, the name of each as a string. -/
theorem readEntries_eq_ok {f : Form ρ} {ms : List (Raw × Raw)} {es : List (String × Datum)} :
    readEntries fields depth f ms = .ok es ↔
      List.Forall₂ (fun m e => m.1.key = .ok e.1 ∧ read fields depth f m.2 = .ok e.2) ms es := by
  induction ms generalizing es with
  | nil => cases es <;> simp [readEntries]
  | cons m ms ih =>
    simp only [readEntries, bind_eq_ok, ih, pure, Except.pure, Except.ok.injEq]
    cases es with
    | nil => simp
    | cons e es =>
      obtain ⟨name, d⟩ := e
      simp [and_assoc]

/-- A field keeps what is read for its form. -/
theorem keptField_of_readField {f : Field ρ} {r : Raw} {d : Datum} (room : depth ≤ depthLimit)
    (read : ∀ d, read fields depth f.form r = .ok d → Kept fields depth f.form d)
    (h : readField fields depth f r = .ok d) : KeptField fields depth f d := by
  unfold readField Field.whenNull at h
  split at h
  · rename_i nullable
    split at h
    · cases h
      exact keptField_absent nullable room
    · contradiction
    · exact (read d h).field
  · exact (read d h).field

/-- Going through the members on a page, whatever is found is kept. -/
theorem kept_of_readMembers {all : List (Field ρ)} {found found' : List (String × Datum)}
    {ms : List (Raw × Raw)}
    (each : ∀ m ∈ ms, ∀ f ∈ all, ∀ d, readField fields depth f m.2 = .ok d →
      KeptField fields depth f d)
    (start : KeptFound fields depth all found)
    (h : readMembers fields depth all found ms = .ok found') :
    KeptFound fields depth all found' := by
  induction ms generalizing found with
  | nil =>
    cases h
    exact start
  | cons m ms ih =>
    rw [List.forall_mem_cons] at each
    rw [readMembers] at h
    obtain ⟨name, -, h⟩ := bind_eq_ok.1 h
    split at h
    · obtain ⟨_, -, h⟩ := bind_eq_ok.1 h
      exact ih each.2 start h
    · rename_i f known
      split at h
      · contradiction
      · obtain ⟨d, hd, h⟩ := bind_eq_ok.1 h
        exact ih each.2 (start.cons known (each.1 f (List.mem_of_find?_eq_some known) d hd)) h

/-- Going through the items on a page that stand for a record, whatever is found is kept. -/
theorem kept_of_readFields {ending : Ending} {fs : List (Field ρ)} {rs : List Raw}
    {ds : List Datum} (room : depth ≤ depthLimit) (explicit : ∀ f ∈ fs, f.presence ≠ .orEmpty)
    (each : ∀ r ∈ rs, ∀ f ∈ fs, ∀ d, readField fields depth f r = .ok d →
      KeptField fields depth f d)
    (h : readFields fields depth ending fs rs = .ok ds) :
    List.Forall₂ (KeptField fields depth) fs ds := by
  induction rs generalizing fs ds with
  | nil =>
    cases fs with
    | nil =>
      rw [readFields] at h
      obtain ⟨_, -, h⟩ := bind_eq_ok.1 h
      cases h
      exact .nil
    | cons f fs =>
      rw [readFields] at h
      obtain ⟨_, -, h⟩ := bind_eq_ok.1 h
      exact kept_of_beyond room explicit (orMismatch_eq_ok.1 h)
  | cons r rs ih =>
    cases fs with
    | nil => contradiction
    | cons f fs =>
      rw [readFields] at h
      obtain ⟨d, hd, h⟩ := bind_eq_ok.1 h
      obtain ⟨ds', hds, h⟩ := bind_eq_ok.1 h
      cases h
      rw [List.forall_mem_cons] at each explicit
      exact .cons (each.1 f List.mem_cons_self d hd)
        (ih explicit.2 (fun r hr f hf => each.2 r hr f (List.mem_cons_of_mem _ hf)) hds)

/-- The name of a case on a page is one of the names. -/
theorem mem_of_readCase {names : List String} {r : Raw} {name : String}
    (h : Raw.readCase names r = .ok name) : name ∈ names := by
  unfold Raw.readCase at h
  split at h
  · obtain ⟨s, -, h⟩ := bind_eq_ok.1 h
    split at h
    · cases h
      assumption
    · contradiction
  · contradiction

/-- So is a choice that is spelled as an object of one member. -/
theorem mem_of_readChoiceMember {names : List String} {ending : Ending} {ms : List (Raw × Raw)}
    {name : String} (h : Raw.readChoiceMember names ending ms = .ok name) : name ∈ names := by
  unfold Raw.readChoiceMember at h
  split at h
  · split at h
    · contradiction
    · obtain ⟨_, -, h⟩ := bind_eq_ok.1 h
      contradiction
  · dsimp only at h
    split at h
    · obtain ⟨s, -, h⟩ := bind_eq_ok.1 h
      by_cases known : s ∈ names
      · rw [if_neg (not_not.2 known)] at h
        split at h
        · split at h
          · obtain ⟨_, -, h⟩ := bind_eq_ok.1 h
            cases h
            exact known
          · contradiction
        · contradiction
      · rw [if_pos known] at h
        contradiction
    · contradiction

/-- A choice on a page, spelled in any of its ways, is one of the names. -/
theorem mem_of_readChoice {names : List String} {r : Raw} {name : String}
    (h : Raw.readChoice names depth r = .ok name) : name ∈ names := by
  unfold Raw.readChoice at h
  split at h
  · obtain ⟨s, -, h⟩ := bind_eq_ok.1 h
    split at h
    · cases h
      assumption
    · contradiction
  · obtain ⟨_, -, h⟩ := bind_eq_ok.1 h
    exact mem_of_readChoiceMember h
  · contradiction
  · contradiction

/-- Gathered members are readable, and the name gathered is one of the names. -/
theorem gather_eq_ok {tag : String} {names : List String} {found c : Option String}
    {ms : List (Raw × Raw)} {js : List (String × Json)} (room : depth ≤ depthLimit)
    (h : Raw.gather tag names depth found ms = .ok (c, js)) :
    (∀ m ∈ js, Readable depth m.2) ∧ ∀ name ∈ c, name ∈ names ∨ name ∈ found := by
  induction ms generalizing found js with
  | nil =>
    cases h
    exact ⟨by simp, fun _ => .inr⟩
  | cons m ms ih =>
    rw [Raw.gather] at h
    obtain ⟨name, -, h⟩ := bind_eq_ok.1 h
    split at h
    · split at h
      · contradiction
      · obtain ⟨n, hn, h⟩ := bind_eq_ok.1 h
        obtain ⟨readable, named⟩ := ih h
        refine ⟨readable, fun name hname => .inl ?_⟩
        rcases named name hname with mem | mem
        · exact mem
        · cases mem
          exact mem_of_readCase hn
    · obtain ⟨j, hj, h⟩ := bind_eq_ok.1 h
      obtain ⟨⟨c', js'⟩, hrest, h⟩ := bind_eq_ok.1 h
      cases h
      obtain ⟨readable, named⟩ := ih hrest
      exact ⟨List.forall_mem_cons.2 ⟨readable_of_free _ room hj, readable⟩, named⟩

/-- What is read from a word, number or string can be printed where it was read. -/
theorem kept_of_readScalar (law : LawfulFields fields) {form : Form ρ} {r : Raw} {d : Datum}
    (hf : form.Lawful fields) (room : depth ≤ depthLimit)
    (h : readScalar fields depth form r = .ok d) : Kept fields depth form d := by
  unfold readScalar at h
  split at h
  · contradiction
  · contradiction
  · obtain ⟨j, hj, h⟩ := bind_eq_ok.1 h
    exact kept_of_shape law j hf (readable_of_free _ room hj) (orMismatch_eq_ok.1 h)

theorem kept_of_readChoice {names : List String} {r : Raw} {d : Datum} (room : depth ≤ depthLimit)
    (h : (r.readChoice names depth).map .choice = .ok d) :
    Kept fields depth (.choice names) d := by
  obtain ⟨name, hname, rfl⟩ := map_eq_ok.1 h
  exact kept_choice room (mem_of_readChoice hname)

/-- A tagged record that is spelled as an object is kept. -/
theorem kept_of_readTaggedMembers (law : LawfulFields fields) {tag : String}
    {cases : List (String × ρ)} {ms : List (Raw × Raw)} {ending : Ending} {d : Datum}
    (room : depth < depthLimit)
    (h : readTaggedMembers fields (depth + 1) tag cases ms ending = .ok d) :
    Kept fields depth (.tagged tag cases) d := by
  unfold readTaggedMembers at h
  obtain ⟨⟨c, js⟩, gathered, h⟩ := bind_eq_ok.1 h
  obtain ⟨_, -, h⟩ := bind_eq_ok.1 h
  obtain ⟨name, hname, h⟩ := bind_eq_ok.1 h
  obtain ⟨ds, hds, h⟩ := bind_eq_ok.1 h
  cases h
  obtain ⟨readable, named⟩ := gather_eq_ok room gathered
  obtain ⟨n, hn⟩ := lookup_of_mem_names
    ((named name (orMismatch_eq_ok.1 hname)).resolve_right (by simp))
  rw [orMismatch_eq_ok, hn, Option.map_some, Option.getD_some] at hds
  obtain ⟨found, hfound, hds⟩ := Option.bind_eq_some_iff.1 hds
  refine kept_tagged room hn (kept_of_collect (find?_of_mem (law.distinct n)) (law.explicit n) room
    (kept_of_shapeMembers (fun m hm f hf d => keptField_of_shapeField room fun d =>
      kept_of_shape law m.2 (law.forms n f hf) (readable m hm)) (keptFound_nil _) hfound) hds)

/-- A tagged record that is spelled as an array is kept. -/
theorem kept_of_readTaggedItems (law : LawfulFields fields) {tag : String}
    {cases : List (String × ρ)} {rs : List Raw} {ending : Ending} {d : Datum}
    (room : depth < depthLimit)
    (h : readTaggedItems fields (depth + 1) cases rs ending = .ok d) :
    Kept fields depth (.tagged tag cases) d := by
  unfold readTaggedItems at h
  split at h
  · obtain ⟨_, -, h⟩ := bind_eq_ok.1 h
    contradiction
  · obtain ⟨name, hname, h⟩ := bind_eq_ok.1 h
    obtain ⟨js, hjs, h⟩ := bind_eq_ok.1 h
    obtain ⟨_, -, h⟩ := bind_eq_ok.1 h
    obtain ⟨ds, hds, h⟩ := bind_eq_ok.1 h
    cases h
    obtain ⟨n, hn⟩ := lookup_of_mem_names (mem_of_readCase hname)
    rw [orMismatch_eq_ok, hn, Option.map_some, Option.getD_some] at hds
    have readable := forall_right (freeItems_eq_ok.1 hjs) fun r _ j hj => readable_of_free r room hj
    exact kept_tagged room hn (kept_of_shapeFields room (law.explicit n)
      (fun j hj f hf d => keptField_of_shapeField room fun d =>
        kept_of_shape law j (law.forms n f hf) (readable j hj)) hds)

/-- A datum that is read fits the form, and is printed where it was read. -/
theorem kept_of_read (law : LawfulFields fields) (r : Raw) :
    ∀ {form : Form ρ} {depth : Nat} {d : Datum}, form.Lawful fields → depth ≤ depthLimit →
      read fields depth form r = .ok d → Kept fields depth form d := by
  induction r using Raw.induct with
  | null | bool _ | number _ | string _ | cut _ | broken _ =>
    intro form depth d hf room h
    cases form with
    | any => contradiction
    | choice names =>
      simp only [read] at h
      exact kept_of_readChoice room h
    | _ =>
      simp only [read] at h
      exact kept_of_readScalar law hf room h
  | array rs ending ih =>
    intro form depth d hf room h
    have each : depth < depthLimit → ∀ n, ∀ r ∈ rs, ∀ f ∈ fields n, ∀ d,
        readField fields (depth + 1) f r = .ok d → KeptField fields (depth + 1) f d :=
      fun room n r hr f hf d => keptField_of_readField room fun d =>
        ih r hr (law.forms n f hf) room
    cases form with
    | any => contradiction
    | choice names =>
      rw [read] at h
      exact kept_of_readChoice room h
    | list f =>
      simp only [read, bind_eq_ok, deeper_eq_ok, readItems_eq_ok] at h
      obtain ⟨_, ⟨room, rfl⟩, ds, hds, _, -, h⟩ := h
      cases h
      exact kept_list room (forall_right hds fun r hr d hd => ih r hr hf room hd)
    | record n =>
      simp only [read, bind_eq_ok, deeper_eq_ok] at h
      obtain ⟨_, ⟨room, rfl⟩, ds, hds, h⟩ := h
      cases h
      exact kept_record room (kept_of_readFields room (law.explicit n) (each room n) hds)
    | tagged tag cases =>
      simp only [read, bind_eq_ok, deeper_eq_ok] at h
      obtain ⟨_, ⟨room, rfl⟩, h⟩ := h
      exact kept_of_readTaggedItems law room h
    | _ => contradiction
  | object ms ending ih =>
    intro form depth d hf room h
    cases form with
    | any => contradiction
    | choice names =>
      rw [read] at h
      exact kept_of_readChoice room h
    | dict f =>
      simp only [read, bind_eq_ok, deeper_eq_ok, readEntries_eq_ok] at h
      obtain ⟨_, ⟨room, rfl⟩, es, hes, _, -, h⟩ := h
      cases h
      exact kept_dict room (forall_right hes fun m hm e he => ih m hm hf room he.2)
    | record n =>
      simp only [read, bind_eq_ok, deeper_eq_ok, orMismatch_eq_ok] at h
      obtain ⟨_, ⟨room, rfl⟩, found, hfound, _, -, ds, hds, h⟩ := h
      cases h
      refine kept_record room (kept_of_collect (find?_of_mem (law.distinct n)) (law.explicit n) room
        (kept_of_readMembers (fun m hm f hf d => keptField_of_readField room fun d =>
          ih m hm (law.forms n f hf) room) (keptFound_nil _) hfound) hds)
    | tagged tag cases =>
      simp only [read, bind_eq_ok, deeper_eq_ok] at h
      obtain ⟨_, ⟨room, rfl⟩, h⟩ := h
      exact kept_of_readTaggedMembers law room h
    | _ => contradiction

end Form

end CanvasLayout.Json
