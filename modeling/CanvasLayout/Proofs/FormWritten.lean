import CanvasLayout.Json.Reader
import CanvasLayout.Proofs.PrintedValue
import CanvasLayout.Proofs.SearchAndSort

/-!
# Forms written

A datum that fits a form is written to a value that stands for it (`shape?_write`), and the text
of that value is read to the datum again, provided that its numbers are in range and that it is
not nested too deep (`read_write`). Both go by one induction on the data that fit a form
(`fits_induct`).
-/

namespace CanvasLayout

namespace NameMap

variable {α : Type}

/-- An entry behind all others is put at the end. -/
theorem put_of_forall_lt {name : String} {a : α} {es : List (String × α)}
    (h : ∀ e ∈ es, e.1 < name) : put name a es = es ++ [(name, a)] := by
  induction es with
  | nil => rfl
  | cons e es ih =>
    rw [List.forall_mem_cons] at h
    have ahead : ¬ name < e.1 := fun lt => String.lt_irrefl _ (String.lt_trans lt h.1)
    have other : name ≠ e.1 := fun same => String.lt_irrefl _ (same ▸ h.1)
    rw [put, if_neg ahead, if_neg other, ih h.2]
    rfl

/-- Entries in order are the entries of their map. -/
theorem entries_ofList {es : List (String × α)} (h : es.Pairwise fun a b => a.1 < b.1) :
    (ofList es).entries = es := by
  induction es using List.reverseRecOn with
  | nil => rfl
  | append_singleton es e ih =>
    rw [List.pairwise_append] at h
    rw [ofList, List.foldl_append]
    change put e.1 e.2 (ofList es).entries = es ++ [e]
    rw [ih h.1]
    exact put_of_forall_lt fun x hx => h.2.2 x hx e (List.mem_singleton_self e)

/-- A map is made again from its entries. -/
theorem ofList_entries (m : NameMap α) : ofList m.entries = m := by
  have same : ∀ {m n : NameMap α}, m.entries = n.entries → m = n := by
    rintro ⟨_, _⟩ ⟨_, _⟩ rfl
    rfl
  exact same (entries_ofList m.sorted)

end NameMap

namespace Json

variable {ρ : Type}

namespace Form

variable (fields : ρ → List (Field ρ))

/-- What a form needs to be read as it is written. -/
def Lawful : Form ρ → Prop
  | any => False
  | whole bound => bound ≤ UInt64.size
  | list f => f.Lawful
  | dict f => f.Lawful
  | tagged tag cases => ∀ c ∈ cases, ∀ f ∈ fields c.2, f.name ≠ tag
  | _ => True

/-- Records are read as they are written: no two fields of one name, nothing that stands for
an absent field but null or its absence. -/
structure LawfulFields : Prop where
  distinct : ∀ n, ((fields n).map Field.name).Nodup
  explicit : ∀ n, ∀ f ∈ fields n, f.presence ≠ .orEmpty
  forms : ∀ n, ∀ f ∈ fields n, f.form.Lawful fields

mutual

/-- The datum is one of the form. -/
def Fits : Form ρ → Datum → Prop
  | text, .text _ => True
  | real, .real _ => True
  | whole bound, .whole n => n < bound
  | flag, .flag _ => True
  | choice names, .choice s => s ∈ names
  | list f, .list ds => FitsItems f ds
  | dict f, .dict es => (es.Pairwise fun a b => a.1 < b.1) ∧ FitsEntries f es
  | record n, .record vs => FitsFields (fields n) vs
  | tagged _ cases, .tagged name vs => ∃ n, cases.lookup name = some n ∧ FitsFields (fields n) vs
  | _, _ => False

/-- The data are items of the form. -/
def FitsItems (f : Form ρ) : List Datum → Prop
  | [] => True
  | d :: ds => Fits f d ∧ FitsItems f ds

/-- The data are entries of the form. -/
def FitsEntries (f : Form ρ) : List (String × Datum) → Prop
  | [] => True
  | (_, d) :: es => Fits f d ∧ FitsEntries f es

/-- The data are values of the fields. -/
def FitsFields : List (Field ρ) → List Datum → Prop
  | [], [] => True
  | f :: fs, d :: ds => ((f.allowsNull ∧ d = .absent) ∨ Fits f.form d) ∧ FitsFields fs ds
  | _, _ => False

end

/-- The items of a list fit one by one. -/
theorem fitsItems_iff {f : Form ρ} {ds : List Datum} :
    FitsItems fields f ds ↔ ∀ d ∈ ds, f.Fits fields d := by
  induction ds with
  | nil => simp [FitsItems]
  | cons d ds ih => simp [FitsItems, ih]

/-- The entries of a table fit one by one, whatever their names. -/
theorem fitsEntries_iff {f : Form ρ} {es : List (String × Datum)} :
    FitsEntries fields f es ↔ ∀ e ∈ es, f.Fits fields e.2 := by
  induction es with
  | nil => simp [FitsEntries]
  | cons e es ih => simp [FitsEntries, ih]

/-- The datum is a value of the field. -/
def FitsField (f : Field ρ) (d : Datum) : Prop :=
  (f.allowsNull ∧ d = .absent) ∨ f.form.Fits fields d

/-- The values of a record fit its fields one by one. -/
theorem fitsFields_iff {fs : List (Field ρ)} {ds : List Datum} :
    FitsFields fields fs ds ↔ List.Forall₂ (FitsField fields) fs ds := by
  induction fs generalizing ds with
  | nil => cases ds <;> simp [FitsFields]
  | cons f fs ih => cases ds <;> simp [FitsFields, FitsField, ih]

end Form

/-- Induction on data by the data in them. -/
@[elab_as_elim] theorem Datum.induct {P : Datum → Prop} (absent : P absent) (any : ∀ j, P (any j))
    (text : ∀ s, P (text s)) (real : ∀ x, P (real x)) (whole : ∀ n, P (whole n))
    (flag : ∀ b, P (flag b)) (choice : ∀ s, P (choice s))
    (list : ∀ ds, (∀ d ∈ ds, P d) → P (list ds))
    (dict : ∀ es : List (String × Datum), (∀ e ∈ es, P e.2) → P (dict es))
    (record : ∀ ds, (∀ d ∈ ds, P d) → P (record ds))
    (tagged : ∀ name ds, (∀ d ∈ ds, P d) → P (tagged name ds)) : ∀ d, P d
  | .absent => absent
  | .any j => any j
  | .text s => text s
  | .real x => real x
  | .whole n => whole n
  | .flag b => flag b
  | .choice s => choice s
  | .list ds => list ds fun d _ =>
    induct absent any text real whole flag choice list dict record tagged d
  | .dict es => dict es fun e _ =>
    induct absent any text real whole flag choice list dict record tagged e.2
  | .record ds => record ds fun d _ =>
    induct absent any text real whole flag choice list dict record tagged d
  | .tagged name ds => tagged name ds fun d _ =>
    induct absent any text real whole flag choice list dict record tagged d
termination_by d => sizeOf d
decreasing_by
  · have := List.sizeOf_lt_of_mem ‹_›
    simp only [Datum.list.sizeOf_spec]
    omega
  · have := List.sizeOf_lt_of_mem ‹_›
    obtain ⟨name, d⟩ := e
    simp only [Datum.dict.sizeOf_spec, Prod.mk.sizeOf_spec] at this ⊢
    omega
  · have := List.sizeOf_lt_of_mem ‹_›
    simp only [Datum.record.sizeOf_spec]
    omega
  · have := List.sizeOf_lt_of_mem ‹_›
    simp only [Datum.tagged.sizeOf_spec]
    omega

namespace Form

theorem mem_of_lookup {cases : List (String × ρ)} {name : String} {n : ρ}
    (h : cases.lookup name = some n) : (name, n) ∈ cases := by
  induction cases with
  | nil => simp at h
  | cons c cs ih =>
    rw [List.lookup_cons] at h
    split at h
    · rename_i same
      obtain rfl := Option.some.inj h
      rw [eq_of_beq same]
      exact List.mem_cons_self
    · exact List.mem_cons_of_mem _ (ih h)

/-- A relation of two lists is weakened by what is known of their entries. -/
theorem forall₂_imp_of_mem {α β : Type} {R S : α → β → Prop} {as : List α} {bs : List β}
    (h : ∀ a ∈ as, ∀ b ∈ bs, R a b → S a b) (all : List.Forall₂ R as bs) :
    List.Forall₂ S as bs := by
  induction all with
  | nil => exact .nil
  | cons head tail ih =>
    exact .cons (h _ List.mem_cons_self _ List.mem_cons_self head)
      (ih fun a ha b hb => h a (List.mem_cons_of_mem _ ha) b (List.mem_cons_of_mem _ hb))

variable (fields : ρ → List (Field ρ))

/-- The field's value is absent where it may be, or it is a datum of the field's form of which `P`
holds. -/
def Fills (P : Form ρ → Datum → Prop) (f : Field ρ) (d : Datum) : Prop :=
  (f.allowsNull ∧ d = .absent) ∨ (f.form.Fits fields d ∧ P f.form d)

variable {fields}

/-- Induction on the data of lawful forms. -/
theorem fits_induct (law : LawfulFields fields) {P : Form ρ → Datum → Prop}
    (text : ∀ s, P text (.text s)) (real : ∀ x, P real (.real x))
    (whole : ∀ bound n, bound ≤ UInt64.size → n < bound → P (whole bound) (.whole n))
    (flag : ∀ b, P flag (.flag b)) (choice : ∀ names, ∀ s ∈ names, P (choice names) (.choice s))
    (list : ∀ f ds, (∀ d ∈ ds, P f d) → P (list f) (.list ds))
    (dict : ∀ f (es : List (String × Datum)), es.Pairwise (fun a b => a.1 < b.1) →
      (∀ e ∈ es, P f e.2) → P (dict f) (.dict es))
    (record : ∀ n ds, List.Forall₂ (Fills fields P) (fields n) ds → P (record n) (.record ds))
    (tagged : ∀ tag cases name n ds, cases.lookup name = some n →
      (∀ f ∈ fields n, f.name ≠ tag) → List.Forall₂ (Fills fields P) (fields n) ds →
      P (tagged tag cases) (.tagged name ds))
    {form : Form ρ} {d : Datum} (hf : form.Lawful fields) (fits : form.Fits fields d) :
    P form d := by
  have filled : ∀ {n : ρ} {ds : List Datum}, FitsFields fields (fields n) ds →
      (∀ d ∈ ds, ∀ {form : Form ρ}, form.Lawful fields → form.Fits fields d → P form d) →
      List.Forall₂ (Fills fields P) (fields n) ds := by
    intro n ds fits ih
    rw [fitsFields_iff] at fits
    exact forall₂_imp_of_mem (fun f hf d hd fits =>
      fits.imp_right fun fits => ⟨fits, ih d hd (law.forms n f hf) fits⟩) fits
  induction d using Datum.induct generalizing form with
  | absent | any j => cases form <;> simp only [Fits] at fits
  | text s =>
    cases form <;> simp only [Fits] at fits
    exact text s
  | real x =>
    cases form <;> simp only [Fits] at fits
    exact real x
  | whole n =>
    cases form <;> simp only [Fits] at fits
    exact whole _ n hf fits
  | flag b =>
    cases form <;> simp only [Fits] at fits
    exact flag b
  | choice s =>
    cases form <;> simp only [Fits] at fits
    exact choice _ s fits
  | list ds ih =>
    cases form <;> simp only [Fits] at fits
    rw [fitsItems_iff] at fits
    exact list _ ds fun d hd => ih d hd hf (fits d hd)
  | dict es ih =>
    cases form <;> simp only [Fits] at fits
    rw [fitsEntries_iff] at fits
    exact dict _ es fits.1 fun e he => ih e he hf (fits.2 e he)
  | record ds ih =>
    cases form <;> simp only [Fits] at fits
    exact record _ ds (filled fits ih)
  | tagged name ds ih =>
    cases form <;> simp only [Fits] at fits
    obtain ⟨n, hn, fits⟩ := fits
    exact tagged _ _ name n ds hn (hf _ (mem_of_lookup hn)) (filled fits ih)

variable (fields)

/-- An absent value is written as null, in every form. -/
theorem write_absent (form : Form ρ) : form.write fields .absent = .null := by
  cases form <;> rfl

variable {fields}

/-- Null stands for no datum of a form. -/
theorem write_ne_null {form : Form ρ} {d : Datum} (fits : form.Fits fields d) :
    form.write fields d ≠ .null := by
  cases form <;> cases d <;> simp_all [Fits, write]

/-- The fields that are written, each with its value. -/
def written : List (Field ρ) → List Datum → List (String × Datum)
  | f :: fs, d :: ds =>
    match f.presence, d with
    | .optional, .absent => written fs ds
    | _, d => (f.name, d) :: written fs ds
  | _, _ => []

variable (fields) in
/-- A field is left out or written. -/
theorem written_cons (f : Field ρ) (d : Datum) :
    (f.presence = .optional ∧ d = .absent ∧
      (∀ fs ds, written (f :: fs) (d :: ds) = written fs ds) ∧
      ∀ fs ds, writeFields fields (f :: fs) (d :: ds) = writeFields fields fs ds) ∨
    ((∀ fs ds, written (f :: fs) (d :: ds) = (f.name, d) :: written fs ds) ∧
      ∀ fs ds, writeFields fields (f :: fs) (d :: ds) =
        (f.name, write fields f.form d) :: writeFields fields fs ds) := by
  obtain ⟨name, form, presence⟩ := f
  cases presence with
  | optional =>
    cases d with
    | absent => exact .inl ⟨rfl, rfl, fun _ _ => rfl, fun _ _ => rfl⟩
    | _ => exact .inr ⟨fun _ _ => rfl, fun _ _ => rfl⟩
  | _ => exact .inr ⟨fun _ _ => by cases d <;> rfl, fun _ _ => by cases d <;> rfl⟩

/-- The members found in front of the others are those written. -/
def Filled (found : List (String × Datum)) (fs : List (Field ρ)) (ds : List Datum)
    (found' : List (String × Datum)) : Prop :=
  ∀ name, found'.lookup name = (found.lookup name).or ((written fs ds).lookup name)

/-- A field that a record does not have is not written. -/
theorem lookup_written_of_not_mem {fs : List (Field ρ)} {name : String}
    (h : name ∉ fs.map Field.name) (ds : List Datum) : (written fs ds).lookup name = none := by
  induction fs generalizing ds with
  | nil => rfl
  | cons f fs ih =>
    cases ds with
    | nil => rfl
    | cons d ds =>
      rw [List.map_cons, List.mem_cons, not_or] at h
      rcases written_cons (fun _ => []) f d with ⟨-, -, skip, -⟩ | ⟨keep, -⟩
      · rw [skip, ih h.2]
      · rw [keep, List.lookup_cons, beq_false_of_ne h.1]
        exact ih h.2 ds

theorem filled_nil (found : List (String × Datum)) (ds : List Datum) :
    Filled found ([] : List (Field ρ)) ds found := by
  intro name
  simp [written]

/-- One more field is found in front of the others. -/
theorem Filled.cons {found found' : List (String × Datum)} {f : Field ρ} {d : Datum}
    {fs : List (Field ρ)} {ds : List Datum} (fresh : found.lookup f.name = none)
    (keep : written (f :: fs) (d :: ds) = (f.name, d) :: written fs ds)
    (h : Filled ((f.name, d) :: found) fs ds found') : Filled found (f :: fs) (d :: ds) found' := by
  intro name
  rw [h name, keep, List.lookup_cons, List.lookup_cons]
  by_cases same : name = f.name
  · rw [same, beq_self_eq_true, fresh]
    rfl
  · rw [beq_false_of_ne same]

/-- Other fields are still to be found after one is. -/
theorem fresh_cons {found : List (String × Datum)} {f : Field ρ} {fs : List (Field ρ)} (d : Datum)
    (other : f.name ∉ fs.map Field.name) (fresh : ∀ g ∈ fs, found.lookup g.name = none) :
    ∀ g ∈ fs, ((f.name, d) :: found).lookup g.name = none := by
  intro g hg
  have : g.name ≠ f.name := fun e => other (e ▸ List.mem_map_of_mem hg)
  rw [List.lookup_cons, beq_false_of_ne this]
  exact fresh g hg

/-- All fields are collected from the members that were written. -/
theorem collect_of_filled {found : List (String × Datum)} {fs : List (Field ρ)} {ds : List Datum}
    (distinct : (fs.map Field.name).Nodup) (length : fs.length = ds.length)
    (h : ∀ name ∈ fs.map Field.name, found.lookup name = (written fs ds).lookup name) :
    collect found fs = some ds := by
  induction fs generalizing ds with
  | nil =>
    obtain rfl := List.length_eq_zero_iff.1 length.symm
    rfl
  | cons f fs ih =>
    obtain ⟨d, ds, rfl⟩ := List.exists_cons_of_length_eq_add_one length.symm
    rw [List.map_cons, List.nodup_cons] at distinct
    have absent := lookup_written_of_not_mem distinct.1 ds
    have head : (found.lookup f.name).or f.missing = some d ∧
        ∀ name ∈ fs.map Field.name, found.lookup name = (written fs ds).lookup name := by
      rw [List.map_cons, List.forall_mem_cons] at h
      rcases written_cons (fun _ => []) f d with ⟨optional, rfl, skip, -⟩ | ⟨keep, -⟩
      · rw [skip, absent] at h
        exact ⟨by rw [h.1, Field.missing, optional]; rfl, h.2⟩
      · rw [keep, List.lookup_cons_self] at h
        refine ⟨by rw [h.1]; rfl, fun name hn => ?_⟩
        have other : name ≠ f.name := fun e => distinct.1 (e ▸ hn)
        rw [h.2 name hn, List.lookup_cons, beq_false_of_ne other]
    have tail := ih distinct.2 (by simpa using length) head.2
    simp only [collect] at tail ⊢
    rw [List.mapM_cons, head.1, tail]
    rfl

variable (fields)

/-- The datum that a field's value stands for. -/
def shapeField? (f : Field ρ) (j : Json) : Option Datum :=
  if f.allowsNull && j matches .null then some .absent else shape? fields f.form j

/-- One more member: it is passed over if no field has its name, and a second value for a field ends
the search. -/
theorem shapeMembers?_cons_eq_match (all : List (Field ρ)) (found : List (String × Datum))
    (name : String) (j : Json) (ms : List (String × Json)) :
    shapeMembers? fields all found ((name, j) :: ms) =
      match all.find? fun f => f.name = name with
      | none => shapeMembers? fields all found ms
      | some f =>
        if (found.lookup name).isSome then none
        else match shapeField? fields f j with
          | some d => shapeMembers? fields all ((name, d) :: found) ms
          | none => none := by
  cases j <;> rfl

/-- The same with the two outcomes of a value told by `Option.bind`. -/
theorem shapeMembers?_cons (all : List (Field ρ)) (found : List (String × Datum)) (name : String)
    (j : Json) (ms : List (String × Json)) :
    shapeMembers? fields all found ((name, j) :: ms) =
      match all.find? fun f => f.name = name with
      | none => shapeMembers? fields all found ms
      | some f =>
        if (found.lookup name).isSome then none
        else (shapeField? fields f j).bind fun d =>
          shapeMembers? fields all ((name, d) :: found) ms := by
  rw [shapeMembers?_cons_eq_match]
  cases all.find? fun f => f.name = name with
  | none => rfl
  | some f => cases h : shapeField? fields f j <;> simp [h]

theorem shapeFields?_cons_eq_match (f : Field ρ) (fs : List (Field ρ)) (j : Json) (js : List Json) :
    shapeFields? fields (f :: fs) (j :: js) =
      match shapeField? fields f j, shapeFields? fields fs js with
      | some d, some ds => some (d :: ds)
      | _, _ => none := by
  cases j <;> rfl

/-- One more item for one more field. -/
theorem shapeFields?_cons (f : Field ρ) (fs : List (Field ρ)) (j : Json) (js : List Json) :
    shapeFields? fields (f :: fs) (j :: js) =
      (shapeField? fields f j).bind fun d => (shapeFields? fields fs js).map (d :: ·) := by
  rw [shapeFields?_cons_eq_match]
  cases shapeField? fields f j <;> cases shapeFields? fields fs js <;> rfl

variable {fields}

/-- The fields that are written are found again. -/
theorem shapeMembers?_writeFields {all fs : List (Field ρ)} {ds : List Datum}
    (known : ∀ f ∈ fs, all.find? (fun g => g.name = f.name) = some f)
    (distinct : (fs.map Field.name).Nodup)
    (each : List.Forall₂ (fun f d => shapeField? fields f (write fields f.form d) = some d) fs ds) :
    ∀ found : List (String × Datum), (∀ f ∈ fs, found.lookup f.name = none) →
    ∃ found', shapeMembers? fields all found (writeFields fields fs ds) = some found' ∧
      Filled found fs ds found' := by
  induction each with
  | nil => exact fun found _ => ⟨found, by simp [writeFields, shapeMembers?], filled_nil found _⟩
  | @cons f d fs ds shape rest ih =>
    intro found fresh
    rw [List.forall_mem_cons] at known fresh
    rw [List.map_cons, List.nodup_cons] at distinct
    rcases written_cons fields f d with ⟨-, -, skip, skip'⟩ | ⟨keep, keep'⟩
    · obtain ⟨found', eq, filled⟩ := ih known.2 distinct.2 found fresh.2
      refine ⟨found', by rw [skip', eq], fun name => ?_⟩
      rw [filled name, skip]
    · obtain ⟨found', eq, filled⟩ := ih known.2 distinct.2 _ (fresh_cons d distinct.1 fresh.2)
      refine ⟨found', ?_, filled.cons fresh.1 (keep fs ds)⟩
      rw [keep', shapeMembers?_cons, known.1]
      simp only [fresh.1, Option.isSome_none, Bool.false_eq_true, if_false, shape]
      exact eq

/-- Every member that is written comes from a field and its value. -/
theorem name_of_mem_writeFields {fs : List (Field ρ)} {ds : List Datum} {m : String × Json}
    (h : m ∈ writeFields fields fs ds) :
    ∃ f ∈ fs, ∃ d ∈ ds, m = (f.name, write fields f.form d) := by
  induction fs generalizing ds with
  | nil => simp [writeFields] at h
  | cons f fs ih =>
    cases ds with
    | nil => simp [writeFields] at h
    | cons d ds =>
      rcases written_cons fields f d with ⟨-, -, -, skip⟩ | ⟨-, keep⟩
      · rw [skip] at h
        obtain ⟨g, hg, e, he, rfl⟩ := ih h
        exact ⟨g, List.mem_cons_of_mem _ hg, e, List.mem_cons_of_mem _ he, rfl⟩
      · rw [keep] at h
        rcases List.mem_cons.1 h with rfl | h
        · exact ⟨f, List.mem_cons_self, d, List.mem_cons_self, rfl⟩
        · obtain ⟨g, hg, e, he, rfl⟩ := ih h
          exact ⟨g, List.mem_cons_of_mem _ hg, e, List.mem_cons_of_mem _ he, rfl⟩

/-- Written items are found again if each of them is. -/
theorem shapeItems?_writeItems {f : Form ρ} {ds : List Datum}
    (each : ∀ d ∈ ds, shape? fields f (write fields f d) = some d) :
    shapeItems? fields f (writeItems fields f ds) = some ds := by
  induction ds with
  | nil => rfl
  | cons d ds ih =>
    rw [List.forall_mem_cons] at each
    simp only [writeItems, shapeItems?, each.1, ih each.2]

/-- So are written entries, under their names. -/
theorem shapeEntries?_writeEntries {f : Form ρ} {es : List (String × Datum)}
    (each : ∀ e ∈ es, shape? fields f (write fields f e.2) = some e.2) :
    shapeEntries? fields f (writeEntries fields f es) = some es := by
  induction es with
  | nil => rfl
  | cons e es ih =>
    rw [List.forall_mem_cons] at each
    simp only [writeEntries, shapeEntries?, each.1, ih each.2]

/-- A field that may be absent and one that has a value are both written as they are read. -/
theorem shapeField?_write {f : Field ρ} {d : Datum}
    (h : Fills fields (fun form d => shape? fields form (write fields form d) = some d) f d) :
    shapeField? fields f (write fields f.form d) = some d := by
  unfold shapeField?
  rcases h with ⟨nullable, rfl⟩ | ⟨fits, shape⟩
  · rw [write_absent, nullable]
    rfl
  · have : (write fields f.form d matches .null) = false := by
      have := write_ne_null fits
      split <;> simp_all
    rw [this, Bool.and_false, if_neg (by decide), shape]

/-- The fields of a written record are found again, those left out included, if no two fields have
one name. -/
theorem shapeRecord_write {fs : List (Field ρ)} {ds : List Datum}
    (distinct : (fs.map Field.name).Nodup)
    (each : List.Forall₂
      (Fills fields fun form d => shape? fields form (write fields form d) = some d) fs ds) :
    (shapeMembers? fields fs [] (writeFields fields fs ds)).bind (collect · fs) = some ds := by
  obtain ⟨found, eq, filled⟩ := shapeMembers?_writeFields (find?_of_mem distinct) distinct
    (each.imp fun _ _ => shapeField?_write) [] (by simp)
  rw [eq, Option.bind_some]
  exact collect_of_filled distinct each.length_eq fun name _ => by simpa using filled name

/-- The tag of a written record is its only member of that name. -/
theorem only?_tag {tag : String} {j : Json} {ms : List (String × Json)}
    (others : ∀ m ∈ ms, m.1 ≠ tag) : only? tag ((tag, j) :: ms) = some j := by
  have : ms.filter (fun m => m.1 = tag) = [] := by
    rw [List.filter_eq_nil_iff]
    intro m hm
    simpa using others m hm
  rw [only?, List.filter_cons_of_pos (by simp), this]

/-- The members of a record do not have the name of the tag. -/
theorem name_ne_tag {tag : String} {fs : List (Field ρ)} (tagless : ∀ f ∈ fs, f.name ≠ tag)
    (ds : List Datum) : ∀ m ∈ writeFields fields fs ds, m.1 ≠ tag := by
  intro m hm
  obtain ⟨f, hf, d, -, rfl⟩ := name_of_mem_writeFields hm
  exact tagless f hf

/-- A datum of a form is what its value stands for. -/
theorem shape?_write (law : LawfulFields fields) {form : Form ρ} {d : Datum}
    (hf : form.Lawful fields) (fits : form.Fits fields d) :
    shape? fields form (write fields form d) = some d := by
  refine fits_induct law (P := fun form d => shape? fields form (write fields form d) = some d)
    ?text ?real ?whole ?flag ?choice ?list ?dict ?record ?tagged hf fits
  case text | real | flag =>
    intro _
    rfl
  case whole =>
    intro bound n _ lt
    rw [write, shape?, whole?, if_pos ⟨Int.natCast_nonneg n, Int.ofNat_lt.2 lt⟩]
    rfl
  case choice =>
    intro names s known
    rw [write, shape?, choice?, if_pos known]
    rfl
  case list =>
    intro f ds each
    rw [write, shape?, shapeItems?_writeItems each]
    rfl
  case dict =>
    intro f es sorted each
    rw [write, shape?, shapeEntries?_writeEntries each, Option.map_some,
      NameMap.entries_ofList sorted]
  case record =>
    intro n ds filled
    rw [write, shape?, shapeRecord_write (law.distinct n) filled]
    rfl
  case tagged =>
    intro tag cases name n ds hn tagless filled
    have known : name ∈ cases.map Prod.fst := List.mem_map_of_mem (mem_of_lookup hn)
    have unknown : (fields n).find? (fun f => f.name = tag) = none := by
      rw [List.find?_eq_none]
      intro f mem
      simpa using tagless f mem
    simp only [write, hn, Option.map_some, Option.getD_some, shape?,
      only?_tag (name_ne_tag tagless ds), Option.bind_some, caseName?, if_pos known,
      shapeMembers?_cons, unknown, shapeRecord_write (law.distinct n) filled]

/-- What holds of the members of a record holds of the values of its fields that are not absent. -/
theorem forall₂_of_members {P : Form ρ → Datum → Prop} {Q : Json → Prop} {fs : List (Field ρ)}
    {ds : List Datum} (filled : List.Forall₂ (Fills fields P) fs ds)
    (all : ∀ m ∈ writeFields fields fs ds, Q m.2) :
    List.Forall₂ (Fills fields fun form d => P form d ∧ Q (write fields form d)) fs ds := by
  induction filled with
  | nil => exact .nil
  | @cons f d fs ds head tail ih =>
    rcases written_cons fields f d with ⟨optional, absent, -, skip⟩ | ⟨-, keep⟩
    · refine .cons (.inl ⟨?_, absent⟩) (ih (skip fs ds ▸ all))
      simp [Field.allowsNull, optional]
    · rw [keep, List.forall_mem_cons] at all
      exact .cons (head.imp_right fun h => ⟨h.1, h.2, all.1⟩) (ih all.2)

variable (fields)

/-- The outcome of reading a field's value. -/
def readField (depth : Nat) (f : Field ρ) (r : Raw) : Except Fault Datum :=
  (f.whenNull r).getD (read fields depth f.form r)

variable {fields}

/-- Only null is printed as the word for it, among values in range. -/
theorem raw_plain {j : Json} (h : j ≠ .null) (range : ∀ v ∈ j.leaves, v.InRange) :
    j.raw ≠ .null ∧ j.raw ≠ .cut .null := by
  cases j with
  | float x =>
    have : x.isFinite := range (.float x) (by simp [leaves])
    simp [raw, this]
  | _ => simp_all [raw]

/-- The written value of a field is read back if that is so of its form. -/
theorem readField_write {depth : Nat} {f : Field ρ} {d : Datum}
    (h : Fills fields (fun form d => (∀ v ∈ (write fields form d).leaves, v.InRange) ∧
      read fields depth form (write fields form d).raw = .ok d) f d) :
    readField fields depth f (write fields f.form d).raw = .ok d := by
  unfold readField Field.whenNull
  rcases h with ⟨nullable, rfl⟩ | ⟨fits, range, eq⟩
  · rw [write_absent, if_pos nullable]
    rfl
  · obtain ⟨word, cut⟩ := raw_plain (write_ne_null fits) range
    split
    · split
      · contradiction
      · contradiction
      · exact eq
    · exact eq

/-- The fields of a printed record are found again. -/
theorem readMembers_writeFields {depth : Nat} {all fs : List (Field ρ)} {ds : List Datum}
    (known : ∀ f ∈ fs, all.find? (fun g => g.name = f.name) = some f)
    (distinct : (fs.map Field.name).Nodup)
    (each : List.Forall₂ (fun f d =>
      readField fields depth f (write fields f.form d).raw = .ok d) fs ds) :
    ∀ found : List (String × Datum), (∀ f ∈ fs, found.lookup f.name = none) →
    ∃ found',
      readMembers fields depth all found (rawMembers (writeFields fields fs ds)) = .ok found' ∧
      Filled found fs ds found' := by
  induction each with
  | nil =>
    exact fun found _ =>
      ⟨found, by simp [writeFields, rawMembers, readMembers], filled_nil found _⟩
  | @cons f d fs ds head rest ih =>
    intro found fresh
    rw [List.forall_mem_cons] at known fresh
    rw [List.map_cons, List.nodup_cons] at distinct
    rcases written_cons fields f d with ⟨-, -, skip, skip'⟩ | ⟨keep, keep'⟩
    · obtain ⟨found', eq, filled⟩ := ih known.2 distinct.2 found fresh.2
      refine ⟨found', by rw [skip', eq], fun name => ?_⟩
      rw [filled name, skip]
    · obtain ⟨found', eq, filled⟩ := ih known.2 distinct.2 _ (fresh_cons d distinct.1 fresh.2)
      refine ⟨found', ?_, filled.cons fresh.1 (keep fs ds)⟩
      rw [readField] at head
      rw [keep', rawMembers, readMembers, key_stringToken, ok_bind, known.1]
      simp only [fresh.1, Option.isSome_none, Bool.false_eq_true, if_false, head, ok_bind]
      exact eq

/-- Written items are read back if each of them is. -/
theorem readItems_writeItems {depth : Nat} {f : Form ρ} {ds : List Datum}
    (each : ∀ d ∈ ds, read fields depth f (write fields f d).raw = .ok d) :
    readItems fields depth f (rawItems (writeItems fields f ds)) = .ok ds := by
  induction ds with
  | nil => rfl
  | cons d ds ih =>
    rw [List.forall_mem_cons] at each
    simp only [writeItems, rawItems, readItems, each.1, ih each.2, ok_bind]
    rfl

/-- So are written entries, under their names. -/
theorem readEntries_writeEntries {depth : Nat} {f : Form ρ} {es : List (String × Datum)}
    (each : ∀ e ∈ es, read fields depth f (write fields f e.2).raw = .ok e.2) :
    readEntries fields depth f (rawMembers (writeEntries fields f es)) = .ok es := by
  induction es with
  | nil => rfl
  | cons e es ih =>
    rw [List.forall_mem_cons] at each
    simp only [writeEntries, rawMembers, readEntries, key_stringToken, each.1, ih each.2, ok_bind]
    rfl

/-- The members after the tag are gathered as they are. -/
theorem gather_raw {tag : String} (names : List String) {depth : Nat} (c : Option String)
    {ms : List (String × Json)} (others : ∀ m ∈ ms, m.1 ≠ tag)
    (values : ∀ m ∈ ms, Raw.free depth m.2.raw = .ok m.2) :
    Raw.gather tag names depth c (rawMembers ms) = .ok (c, ms) := by
  induction ms with
  | nil => rfl
  | cons m ms ih =>
    rw [List.forall_mem_cons] at others values
    rw [rawMembers, Raw.gather, key_stringToken, ok_bind, if_neg others.1, values.1, ok_bind,
      ih others.2 values.2]
    rfl

theorem mem_writeItems {f : Form ρ} {ds : List Datum} {d : Datum} (h : d ∈ ds) :
    write fields f d ∈ writeItems fields f ds := by
  induction ds with
  | nil => cases h
  | cons e ds ih =>
    rcases List.mem_cons.1 h with rfl | h
    · exact List.mem_cons_self
    · exact List.mem_cons_of_mem _ (ih h)

theorem mem_writeEntries {f : Form ρ} {es : List (String × Datum)} {e : String × Datum}
    (h : e ∈ es) : (e.1, write fields f e.2) ∈ writeEntries fields f es := by
  induction es with
  | nil => cases h
  | cons e es ih =>
    rcases List.mem_cons.1 h with rfl | h
    · exact List.mem_cons_self
    · exact List.mem_cons_of_mem _ (ih h)

/-- A value can be printed in a container that stands in `depth` others, and read back. -/
def Readable (depth : Nat) (j : Json) : Prop :=
  (∀ v ∈ j.leaves, v.InRange) ∧ depth + j.depth ≤ depthLimit

/-- What is inside of a readable array is readable a level deeper. -/
theorem readable_array {depth : Nat} {js : List Json} (h : Readable depth (.array js)) :
    depth < depthLimit ∧ ∀ j ∈ js, Readable (depth + 1) j := by
  obtain ⟨range, bound⟩ := h
  rw [Json.depth] at bound
  have items := depthItems_le.1 (Nat.le_refl (depthItems js))
  refine ⟨by omega, fun j hj => ⟨fun v hv => range v (mem_leavesItems.2 ⟨j, hj, hv⟩), ?_⟩⟩
  have := items j hj
  omega

/-- What is inside of a readable object is readable a level deeper. -/
theorem readable_object {depth : Nat} {ms : List (String × Json)}
    (h : Readable depth (.object ms)) :
    depth < depthLimit ∧ ∀ m ∈ ms, Readable (depth + 1) m.2 := by
  obtain ⟨range, bound⟩ := h
  rw [Json.depth] at bound
  have members := depthMembers_le.1 (Nat.le_refl (depthMembers ms))
  refine ⟨by omega, fun m hm => ⟨fun v hv => range v (mem_leavesMembers.2 ⟨m, hm, hv⟩), ?_⟩⟩
  have := members m hm
  omega

/-- A datum of a form is read from its printed value. -/
theorem read_write (law : LawfulFields fields) {form : Form ρ} {d : Datum} {depth : Nat}
    (hf : form.Lawful fields) (fits : form.Fits fields d)
    (readable : Readable depth (write fields form d)) :
    read fields depth form (write fields form d).raw = .ok d := by
  revert depth
  refine fits_induct law (P := fun form d => ∀ {depth : Nat},
      Readable depth (write fields form d) →
      read fields depth form (write fields form d).raw = .ok d)
    ?text ?real ?whole ?flag ?choice ?list ?dict ?record ?tagged hf fits
  case text =>
    intro s depth readable
    simp only [write] at readable ⊢
    have free := free_raw _ readable.1 readable.2
    simp only [raw] at free ⊢
    simp only [read, readScalar, free, ok_bind, shape?]
    rfl
  case flag =>
    intro b depth _
    rfl
  case real =>
    intro x depth readable
    simp only [write] at readable ⊢
    have finite : x.isFinite := readable.1 (.float x) (by simp [leaves])
    have free := free_raw _ readable.1 readable.2
    simp only [raw, if_pos finite] at free ⊢
    simp only [read, readScalar, free, ok_bind, shape?]
    rfl
  case whole =>
    intro bound n _ lt depth readable
    simp only [write] at readable ⊢
    have free := free_raw _ readable.1 readable.2
    simp only [raw] at free ⊢
    simp only [read, readScalar, free, ok_bind, shape?, whole?,
      if_pos (And.intro (Int.natCast_nonneg n) (Int.ofNat_lt.2 lt))]
    rfl
  case choice =>
    intro names s known depth _
    simp only [write, raw, read, Raw.readChoice, text_stringToken, ok_bind, if_pos known]
    rfl
  case list =>
    intro f ds each depth readable
    rw [write] at readable ⊢
    obtain ⟨room, inside⟩ := readable_array readable
    rw [raw, read, deeper_eq_ok.2 ⟨room, rfl⟩, ok_bind,
      readItems_writeItems fun d hd => each d hd (inside _ (mem_writeItems hd))]
    rfl
  case dict =>
    intro f es sorted each depth readable
    rw [write] at readable ⊢
    obtain ⟨room, inside⟩ := readable_object readable
    rw [raw, read, deeper_eq_ok.2 ⟨room, rfl⟩, ok_bind,
      readEntries_writeEntries fun e he => each e he (inside _ (mem_writeEntries he)), ok_bind]
    simp only [Ending.more, ok_bind, NameMap.entries_ofList sorted]
    rfl
  case record =>
    intro n ds filled depth readable
    rw [write] at readable ⊢
    obtain ⟨room, inside⟩ := readable_object readable
    have each : List.Forall₂ (fun f d =>
        readField fields (depth + 1) f (write fields f.form d).raw = .ok d) (fields n) ds :=
      (forall₂_of_members filled inside).imp fun f d h =>
        readField_write (h.imp_right fun h => ⟨h.1, h.2.2.1, h.2.1 h.2.2⟩)
    obtain ⟨found, eq, filled⟩ := readMembers_writeFields (find?_of_mem (law.distinct n))
      (law.distinct n) each [] (by simp)
    have collected : collect found (fields n) = some ds :=
      collect_of_filled (law.distinct n) each.length_eq fun name _ => by simpa using filled name
    rw [raw, read, deeper_eq_ok.2 ⟨room, rfl⟩, ok_bind, eq, ok_bind, collected]
    rfl
  case tagged =>
    intro tag cases name n ds hn tagless filled depth readable
    have known : name ∈ cases.map Prod.fst := List.mem_map_of_mem (mem_of_lookup hn)
    simp only [write, hn, Option.map_some, Option.getD_some] at readable ⊢
    obtain ⟨room, inside⟩ := readable_object readable
    rw [List.forall_mem_cons] at inside
    have gathered := gather_raw (cases.map Prod.fst) (some name) (name_ne_tag tagless ds)
      fun m hm => free_raw m.2 (inside.2 m hm).1 (inside.2 m hm).2
    have record := shapeRecord_write (law.distinct n)
      (forall₂_imp_of_mem (fun f mem d _ h =>
        h.imp_right fun h => ⟨h.1, shape?_write law (law.forms n f mem) h.1⟩) filled)
    simp only [raw, rawMembers, read, deeper_eq_ok.2 ⟨room, rfl⟩, ok_bind, readTaggedMembers,
      Raw.gather, key_stringToken, if_pos, Option.isSome_none, Bool.false_eq_true, if_false,
      Raw.readCase, text_stringToken, known, pure_bind, gathered, Ending.more, orMismatch, hn,
      Option.map_some, Option.getD_some, record]
    rfl

/-- What holds of the values of the fields holds of the members of the record. -/
theorem forall_mem_writeFields {P : Json → Prop} {fs : List (Field ρ)} {ds : List Datum}
    (each : List.Forall₂ (fun f d => P (write fields f.form d)) fs ds) :
    ∀ m ∈ writeFields fields fs ds, P m.2 := by
  induction each with
  | nil => simp [writeFields]
  | @cons f d fs ds head tail ih =>
    rcases written_cons fields f d with ⟨-, -, -, skip⟩ | ⟨-, keep⟩
    · rwa [skip]
    · rw [keep, List.forall_mem_cons]
      exact ⟨head, ih⟩

/-- What holds of the values of items holds of the items that are written. -/
theorem forall_mem_writeItems {P : Json → Prop} {f : Form ρ} {ds : List Datum}
    (each : ∀ d ∈ ds, P (write fields f d)) : ∀ j ∈ writeItems fields f ds, P j := by
  induction ds with
  | nil => simp [writeItems]
  | cons d ds ih =>
    rw [List.forall_mem_cons] at each
    rw [writeItems, List.forall_mem_cons]
    exact ⟨each.1, ih each.2⟩

/-- What holds of the values of entries holds of the members that are written. -/
theorem forall_mem_writeEntries {P : Json → Prop} {f : Form ρ} {es : List (String × Datum)}
    (each : ∀ e ∈ es, P (write fields f e.2)) : ∀ m ∈ writeEntries fields f es, P m.2 := by
  induction es with
  | nil => simp [writeEntries]
  | cons e es ih =>
    rw [List.forall_mem_cons] at each
    rw [writeEntries, List.forall_mem_cons]
    exact ⟨each.1, ih each.2⟩

/-- Every whole number in a value fits in 64 bits. -/
def WholesFit (j : Json) : Prop := ∀ n : Int, .int n ∈ j.leaves → (Json.int n).InRange

/-- An array adds no whole numbers to those of its items. -/
theorem wholesFit_array {js : List Json} (each : ∀ j ∈ js, WholesFit j) :
    WholesFit (.array js) := by
  intro n hn
  rw [leaves, mem_leavesItems] at hn
  obtain ⟨j, hj, hn⟩ := hn
  exact each j hj n hn

theorem wholesFit_object {ms : List (String × Json)} (each : ∀ m ∈ ms, WholesFit m.2) :
    WholesFit (.object ms) := by
  intro n hn
  rw [leaves, mem_leavesMembers] at hn
  obtain ⟨m, hm, hn⟩ := hn
  exact each m hm n hn

/-- A record adds no whole numbers to those of its fields: null stands for an absent one. -/
theorem wholesFit_writeFields {fs : List (Field ρ)} {ds : List Datum}
    (filled : List.Forall₂ (Fills fields fun form d => WholesFit (write fields form d)) fs ds) :
    ∀ m ∈ writeFields fields fs ds, WholesFit m.2 := by
  apply forall_mem_writeFields
  refine filled.imp fun f d h => ?_
  rcases h with ⟨-, rfl⟩ | ⟨-, fit⟩
  · rw [write_absent]
    simp [WholesFit, leaves]
  · exact fit

/-- The bounds of a form keep its whole numbers within 64 bits. -/
theorem wholesFit_write (law : LawfulFields fields) {form : Form ρ} {d : Datum}
    (hf : form.Lawful fields) (fits : form.Fits fields d) : WholesFit (write fields form d) := by
  refine fits_induct law (P := fun form d => WholesFit (write fields form d))
    ?text ?real ?whole ?flag ?choice ?list ?dict ?record ?tagged hf fits
  case text | real | flag | choice => simp [write, WholesFit, leaves]
  case whole =>
    intro bound n small lt m hm
    simp only [write, leaves, List.mem_singleton, Json.int.injEq] at hm
    have size : UInt64.size = 2 ^ 64 := rfl
    simp only [InRange]
    omega
  case list =>
    intro f ds each
    rw [write]
    exact wholesFit_array (forall_mem_writeItems each)
  case dict =>
    intro f es _ each
    rw [write]
    exact wholesFit_object (forall_mem_writeEntries each)
  case record =>
    intro n ds filled
    rw [write]
    exact wholesFit_object (wholesFit_writeFields filled)
  case tagged =>
    intro tag cases name n ds hn _ filled
    simp only [write, hn, Option.map_some, Option.getD_some]
    apply wholesFit_object
    rw [List.forall_mem_cons]
    refine ⟨?_, wholesFit_writeFields filled⟩
    simp [WholesFit, leaves]

/-- A datum is printed readably if its numbers are finite and its value is not too deep. -/
theorem readable_write (law : LawfulFields fields) {d : Datum} {form : Form ρ} {depth : Nat}
    (hf : form.Lawful fields) (fits : form.Fits fields d)
    (finite : ∀ x, .float x ∈ (write fields form d).leaves → x.isFinite)
    (shallow : depth + (write fields form d).depth ≤ depthLimit) :
    Readable depth (write fields form d) := by
  refine ⟨fun v hv => ?_, shallow⟩
  cases v with
  | int n => exact wholesFit_write law hf fits n hv
  | float x => exact finite x hv
  | _ => trivial

end Form

end Json

end CanvasLayout
