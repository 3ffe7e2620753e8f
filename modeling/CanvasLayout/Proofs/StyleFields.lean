import Mathlib
import CanvasLayout.Proofs.FormRead
import CanvasLayout.Proofs.OverrideEntries
import CanvasLayout.Proofs.Resolution
import CanvasLayout.Proofs.WrittenEntries

/-!
# From resolved attributes to style

Resolution and the style know the kinds of values apart from each other: a value converted to one
kind and read as another would be lost without a failure. Nothing is lost: `Draft.field?_of_resolve`
says that a style has exactly the resolved values that are not null, if the attributes it comes from
are as documents write them (`Bag.Unconverted`). What documents write is always so
(`Bag.unconverted_ofRaw`, `Overrides.unconverted_of_document`).
-/

namespace CanvasLayout

/-- The value is as a document supplies it: text that is not converted, or null. -/
def AttributeValue.IsWritten (v : AttributeValue) : Prop := v = .null ∨ ∃ s, v = .raw s

/-! ## Values from documents -/

namespace Bag

/-- All values are as documents supply them. -/
def Unconverted (b : Bag) : Prop := ∀ name v, b.get? name = some v → v.IsWritten

theorem unconverted_ofList {es : List (String × AttributeValue)} (h : ∀ e ∈ es, e.2.IsWritten) :
    Unconverted (NameMap.ofList es) := by
  intro name v found
  exact h _ (Json.Form.mem_entries_ofList (NameMap.mem_of_lookup found))

theorem unconverted_ofRaw (attributes : List (String × String)) : (ofRaw attributes).Unconverted := by
  apply unconverted_ofList
  intro e he
  obtain ⟨a, -, rfl⟩ := List.mem_map.1 he
  exact .inr ⟨a.2, rfl⟩

end Bag

namespace Overrides

theorem isWritten_of_ofJson? {j : Json} {v : AttributeValue}
    (h : AttributeValue.ofJson? j = some v) : v.IsWritten := by
  cases sets_iff.2 h with
  | null => exact .inl rfl
  | string s => exact .inr ⟨s, rfl⟩
  | int n => exact .inr ⟨_, rfl⟩
  | float x => exact .inr ⟨_, rfl⟩
  | bool b => exact .inr ⟨_, rfl⟩

theorem unconverted_attributes (ms : List (String × Json)) : (attributes ms).Unconverted := by
  apply Bag.unconverted_ofList
  intro e he
  obtain ⟨m, -, hm⟩ := List.mem_filterMap.1 he
  obtain ⟨v, set, rfl⟩ := Option.map_eq_some_iff.1 hm
  exact isWritten_of_ofJson? set

/-- The table that a document makes has values as documents supply them. -/
theorem unconverted_of_document {t : Json.RawText} {made : Logged Overrides} {table : Overrides}
    (read : ofDocument t = .ok made) (h : made.outcome = .ok table) :
    ∀ name b, table.get? name = some b → b.Unconverted := by
  obtain ⟨d, -, hd⟩ := Json.bind_eq_ok.1 read
  obtain rfl := Except.ok.inj hd
  obtain ⟨o, outcome, entry⟩ := get?_addEntries .empty 0 (entries d)
  obtain rfl : table = o := Except.ok.inj (h.symm.trans outcome)
  intro name b found
  rw [entry, NameMap.get?_empty, Option.none_or] at found
  obtain ⟨ms, -, rfl⟩ := Option.map_eq_some_iff.1 found
  exact unconverted_attributes ms

end Overrides

/-! ## Values that win -/

namespace Bag

variable {b own ancestor : Bag} {entry : Option Bag} {v : AttributeValue}

/-- What is found in an unconverted bag is as a document supplies it. -/
theorem Unconverted.find? (h : b.Unconverted) {k : AttributeKey} (found : b.find? k = some v) :
    v.IsWritten := by
  obtain ⟨name, -, hname⟩ := List.exists_of_findSome?_eq_some found
  exact h name v hname

/-- What wins among such values is one of them, or null. -/
theorem isWritten_winner (own_unconverted : own.Unconverted) (parent : ancestor.Unconverted)
    (overriding : ∀ b ∈ entry, b.Unconverted) (k : AttributeKey) :
    (own.winner ancestor entry k).IsWritten := by
  unfold winner
  cases ho : own.find? k with
  | some v => exact own_unconverted.find? ho
  | none =>
    cases ha : ancestor.find? k with
    | some v => exact parent.find? ha
    | none =>
      cases he : entry.bind (·.find? k) with
      | some v =>
        obtain ⟨b, hb, found⟩ := Option.bind_eq_some_iff.1 he
        exact (overriding b hb).find? found
      | none => exact .inl rfl

end Bag

/-- The alignment that a written value is converted to is kept by its name. -/
theorem AttributeKey.exists_name_of_convert {v w : AttributeValue} (written : v.IsWritten)
    (h : textAlign.convert v = .ok w) : w = .null ∨ ∃ a : Alignment, w = .text a.name := by
  obtain rfl | ⟨s, rfl⟩ := written
  · exact .inl (Except.ok.inj h).symm
  · unfold convert convertRaw at h
    dsimp only [kind] at h
    split at h
    · rename_i a _
      exact .inr ⟨a, (Except.ok.inj h).symm⟩
    · cases h

/-! ## Fields of a style -/

namespace Style

/-- The field of a style for an attribute, as the value that it stands for. Fill opacity has none. -/
def field? (s : Style) : AttributeKey → Option AttributeValue
  | .fill => s.fill.map .color
  | .fillOpacity => none
  | .opacity => s.opacity.map .number
  | .strokeColor => s.strokeColor.map .color
  | .strokeWidth => s.strokeWidth.map .number
  | .fontFamily => s.fontFamily.map .text
  | .fontSize => s.fontSize.map .number
  | .textAlign => s.textAlign.map fun a => .text a.name
  | .borderRadius => s.borderRadius.map .number
  | .textColor => s.textColor.map .color
  | .titleColor => s.titleColor.map .color
  | .placeholder => s.placeholder.map .text

variable {b : Bag} {k : AttributeKey} {w : AttributeValue}

/-- The field of a color attribute is the color in the bag. -/
theorem field?_ofBag_color (h : k.kind = .color) (b : Bag) : (ofBag b).field? k =
    ((b.get? k.name).bind AttributeValue.color?).map .color := by
  cases k with
  | fill | strokeColor | textColor | titleColor => rfl
  | _ => cases h

/-- The field of a number attribute is the number in the bag; fill opacity has no field. -/
theorem field?_ofBag_number (h : k.kind = .number) (reaches : k ≠ .fillOpacity) (b : Bag) :
    (ofBag b).field? k = ((b.get? k.name).bind AttributeValue.number?).map .number := by
  cases k with
  | opacity | strokeWidth | fontSize | borderRadius => rfl
  | fillOpacity => exact absurd rfl reaches
  | _ => cases h

/-- The field of a text attribute is the text in the bag; the alignment is one of three texts. -/
theorem field?_ofBag_text (h : k.kind = .text) (plain : k ≠ .textAlign) (b : Bag) :
    (ofBag b).field? k = ((b.get? k.name).bind AttributeValue.text?).map .text := by
  cases k with
  | fontFamily | placeholder => rfl
  | textAlign => exact absurd rfl plain
  | _ => cases h

/-- A value of the attribute's kind is what the field stands for, if it is not null and, for an
alignment, is one of the names of alignments. -/
theorem field?_ofBag (found : b.get? k.name = some w) (admitted : k.Admits w)
    (reaches : k ≠ .fillOpacity)
    (aligned : k = .textAlign → w = .null ∨ ∃ a : Alignment, w = .text a.name) :
    (ofBag b).field? k = if w = .null then none else some w := by
  by_cases align : k = .textAlign
  · subst align
    show (((b.get? _).bind AttributeValue.text?).bind Alignment.parse?).map _ = _
    rw [found]
    obtain rfl | ⟨a, rfl⟩ := aligned rfl
    · rfl
    · rw [if_neg (by nofun), Option.bind_some, AttributeValue.text?, Option.bind_some,
        Alignment.parse?_name]
      rfl
  · cases kind : k.kind with
    | color =>
      rw [field?_ofBag_color kind, found]
      cases w <;> simp_all [AttributeKey.Admits, AttributeValue.color?]
    | number =>
      rw [field?_ofBag_number kind reaches, found]
      cases w <;> simp_all [AttributeKey.Admits, AttributeValue.number?]
    | text =>
      rw [field?_ofBag_text kind align, found]
      cases w <;> simp_all [AttributeKey.Admits, AttributeValue.text?]

end Style

/-- A resolved alignment that comes from written values is kept by its name. -/
theorem Bag.exists_name_of_resolve {own ancestor b : Bag} {entry : Option Bag} {element : String}
    (written : (own.winner ancestor entry .textAlign).IsWritten)
    (h : own.resolve element ancestor entry = .ok b) {w : AttributeValue}
    (found : b.get? AttributeKey.textAlign.name = some w) :
    w = .null ∨ ∃ a : Alignment, w = .text a.name := by
  obtain ⟨v, converted, rfl⟩ := resolve_eq_ok.1 h
  rw [get?_foldOpacity_of_ne (by decide) (by decide), get?_settle_name, Option.some.injEq] at found
  subst found
  exact AttributeKey.exists_name_of_convert written (converted .textAlign)

namespace Draft

variable {d r : Draft} {ancestor : Bag} {overrides : Overrides}

/-- What documents write is resolved to values of which the style loses none. Each recognized attribute
has a value, and but for the fill opacity the field of the style is absent if and only if the value is
null, and stands for exactly the value otherwise. -/
theorem field?_of_resolve (own : d.attributes.Unconverted) (parent : ancestor.Unconverted)
    (overriding : ∀ name b, overrides.get? name = some b → b.Unconverted)
    (h : d.resolve ancestor overrides = .ok r) {k : AttributeKey} (reaches : k ≠ .fillOpacity) :
    ∃ w, r.attributes.get? k.name = some w ∧
      ((Style.ofBag r.attributes).field? k = none ↔ w = .null) ∧
      (w ≠ .null → (Style.ofBag r.attributes).field? k = some w) := by
  obtain ⟨b, hb, rfl⟩ := resolve_eq_ok.1 h
  obtain ⟨w, found, admitted⟩ := (Bag.resolved_of_resolve hb).settled k
  have written := Bag.isWritten_winner own parent (overriding d.id) .textAlign
  have field := Style.field?_ofBag found admitted reaches fun align =>
    Bag.exists_name_of_resolve written hb (align ▸ found)
  refine ⟨w, found, ?_, fun value => field.trans (if_neg value)⟩
  show (Style.ofBag b).field? k = none ↔ _
  rw [field]
  by_cases null : w = .null
  · simp [null]
  · simp [null]

/-- A text without a size of its own, its alignment in another spelling. -/
def heading : Draft where
  id := "heading"
  kind := "UILabel"
  tag := "text"
  frame := ⟨0, 0, 90, 20⟩
  attributes := .ofRaw [("text-anchor", " Middle "), ("font-family", "'Avenir', serif")]
  runs := ["News"]
  children := []

/-- An entry for the heading with a size and a fill. -/
def headingEntries : Json.RawText := .ofString
  "\x7b\"layers\":[\x7b\"name\":\"heading\",\"font-size\":18,\"fill\":\"red\"\x7d]\x7d"

/-- The fill of the parent is no paint, which hides the malformed fill in the entry and is null. -/
theorem field?_of_resolve_heading : ∃ made table r,
    Overrides.ofDocument headingEntries = .ok made ∧ made.outcome = .ok table ∧
      heading.resolve (.ofRaw [("fill", "none")]) table = .ok r ∧
      (Style.ofBag r.attributes).field? .fill = none ∧
      (Style.ofBag r.attributes).field? .fontSize = some (.number 18) ∧
      (Style.ofBag r.attributes).field? .textAlign = some (.text "center") := by
  have known : (Overrides.ofDocument headingEntries).toOption.map (fun made =>
      made.outcome.toOption.map fun table =>
        (heading.resolve (.ofRaw [("fill", "none")]) table).toOption.map fun r =>
          (r.attributes.get? "fill", r.attributes.get? "font-size",
            r.attributes.get? "text-align")) =
      some (some (some (some .null, some (.number 18), some (.text "center")))) := by
    decide +kernel
  obtain ⟨made, read, known⟩ := Outcome.exists_of_toOption known
  obtain ⟨table, outcome, known⟩ := Outcome.exists_of_toOption known
  obtain ⟨r, resolved, known⟩ := Outcome.exists_of_toOption known
  obtain ⟨fill, size, align⟩ : _ ∧ _ ∧ _ := by simpa only [Prod.mk.injEq] using known
  have law {k : AttributeKey} (reaches : k ≠ .fillOpacity) :=
    field?_of_resolve (Bag.unconverted_ofRaw _) (Bag.unconverted_ofRaw _)
      (Overrides.unconverted_of_document read outcome) resolved reaches
  refine ⟨made, table, r, read, outcome, resolved, ?_, ?_, ?_⟩
  · obtain ⟨w, found, absent, -⟩ := @law .fill (by decide)
    exact absent.2 (Option.some.inj (found.symm.trans fill))
  · obtain ⟨w, found, -, kept⟩ := @law .fontSize (by decide)
    obtain rfl := Option.some.inj (found.symm.trans size)
    exact kept (by nofun)
  · obtain ⟨w, found, -, kept⟩ := @law .textAlign (by decide)
    obtain rfl := Option.some.inj (found.symm.trans align)
    exact kept (by nofun)

end Draft

end CanvasLayout
