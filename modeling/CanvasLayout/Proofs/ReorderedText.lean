import Mathlib
import CanvasLayout.Proofs.RoundTrip
import CanvasLayout.Proofs.ScannedPieces

/-!
# The order of members in a text

A text in which the members of objects change places is taken apart into the same parts in another
order (`Reorders.alikeValues`). Where no name comes twice in an object, the order of the parts is
nothing to the reader, so such a text holds the screen that the first one held
(`Screen.ofText_of_reorders`).
-/

namespace CanvasLayout.Json

open scoped List

/-- Characters that may stand between the parts of a text. -/
def Blank (cs : List Char) : Prop := ∀ c ∈ cs, isSpace (some c)

instance (cs : List Char) : Decidable (Blank cs) := List.decidableBAll _ cs

/-- The value at the start of a text. -/
def valueOf (cs : List Char) : Raw := (RawText.scan (cs.map some)).value

/-- A text is one value that can be passed over, perhaps with blanks around it. -/
def IsValue (cs : List Char) : Prop := (RawText.scan (cs.map some)).read Raw.skip = .ok ()

instance (cs : List Char) : Decidable (IsValue cs) := inferInstanceAs (Decidable (_ = _))

/-- The text of an array of the items. -/
def arrayText (items : List (List Char)) : List Char := '[' :: ([','].intercalate items ++ [']'])

/-- The text of a member. -/
def memberText (key value : List Char) : List Char := key ++ ':' :: value

/-- The text of an object of the members. -/
def objectText (members : List (List Char × List Char)) : List Char :=
  '\x7b' :: ([','].intercalate (members.map fun m => memberText m.1 m.2) ++ ['\x7d'])

/-- The second text is the first with the members of objects in another order, at any depth, and
perhaps with other blanks between the parts. -/
inductive Reorders : List Char → List Char → Prop
  | same {cs : List Char} (value : IsValue cs) : Reorders cs cs
  | spaced {cs cs' before after before' after' : List Char} (inner : Reorders cs cs')
    (blank : Blank before ∧ Blank after) (blank' : Blank before' ∧ Blank after') :
    Reorders (before ++ cs ++ after) (before' ++ cs' ++ after')
  | array {items : List (List Char × List Char)} (each : ∀ p ∈ items, Reorders p.1 p.2) :
    Reorders (arrayText (items.map Prod.fst)) (arrayText (items.map Prod.snd))
  | object {pairs moved : List ((List Char × List Char) × (List Char × List Char))}
    (keys : ∀ p ∈ pairs, Reorders p.1.1 p.2.1) (values : ∀ p ∈ pairs, Reorders p.1.2 p.2.2)
    (perm : pairs ~ moved) :
    Reorders (objectText (pairs.map Prod.fst)) (objectText (moved.map Prod.snd))

section Reorders

variable {cs cs' : List Char}

/-- Members put into another order, with nothing changed in them. -/
theorem reorders_of_perm {members moved : List (List Char × List Char)}
    (each : ∀ m ∈ members, IsValue m.1 ∧ IsValue m.2) (perm : members ~ moved) :
    Reorders (objectText members) (objectText moved) := by
  have reorders := @Reorders.object (members.map fun m => (m, m)) (moved.map fun m => (m, m))
    (List.forall_mem_map.2 fun m hm => .same (each m hm).1)
    (List.forall_mem_map.2 fun m hm => .same (each m hm).2) (perm.map _)
  rwa [List.map_map, List.map_map,
    show List.map (Prod.fst ∘ fun m => (m, m)) members = members from List.map_id members,
    show List.map (Prod.snd ∘ fun m => (m, m)) moved = moved from List.map_id moved] at reorders

theorem reorders_last {items : List (List Char)} (each : ∀ cs ∈ items, IsValue cs)
    (last : Reorders cs cs') :
    Reorders (arrayText (items ++ [cs])) (arrayText (items ++ [cs'])) := by
  have reorders := @Reorders.array (items.map (fun cs => (cs, cs)) ++ [(cs, cs')]) fun p hp => by
    rcases List.mem_append.1 hp with hp | hp
    · obtain ⟨cs, hcs, rfl⟩ := List.mem_map.1 hp
      exact .same (each cs hcs)
    · rw [List.mem_singleton.1 hp]
      exact last
  rw [List.map_append, List.map_append, List.map_map, List.map_map] at reorders
  exact (List.map_id items) ▸ reorders

end Reorders

/-- A text starts with a symbol that no list of parts ends with. -/
def Starts (cs : List Symbol) : Prop :=
  ∃ s tail, skipSpace cs = s :: tail ∧ s ≠ some ']' ∧ s ≠ some '\x7d'

/-- A text spells a value: it starts as values do, and where it stands in a text the scanner finds
the value there and goes on behind it. -/
structure Spells (cs : List Char) (r : Raw) : Prop where
  starts : Starts (cs.map some)
  scan : ∀ more fuel, EndsNumber more → 2 * cs.length + 2 ≤ fuel →
    ∃ rest, Raw.scanValue fuel (cs.map some ++ more) = (r, rest) ∧ skipSpace rest = skipSpace more

theorem Starts.append {cs : List Symbol} (h : Starts cs) (more : List Symbol) :
    Starts (cs ++ more) := by
  obtain ⟨s, tail, start, ends⟩ := h
  exact ⟨s, tail ++ more, skipSpace_more start more, ends⟩

/-- Texts between commas start as the first of them. -/
theorem starts_intercalate {texts : List (List Char)} (each : ∀ cs ∈ texts, Starts (cs.map some))
    (first : texts ≠ []) : Starts (([','].intercalate texts).map some) := by
  obtain ⟨cs, css, rfl⟩ := List.exists_cons_of_ne_nil first
  have starts := each cs List.mem_cons_self
  cases css with
  | nil => rwa [List.intercalate_singleton]
  | cons cs' css =>
    rw [List.intercalate_cons_cons, List.append_assoc, List.map_append]
    exact starts.append _

theorem skipSpace_append {cs : List Symbol} (h : skipSpace cs = []) (more : List Symbol) :
    skipSpace (cs ++ more) = skipSpace more := by
  have none : (cs.dropWhile isSpace).isEmpty = true := by
    rw [show cs.dropWhile isSpace = [] from h]
    rfl
  rw [skipSpace, List.dropWhile_append, if_pos none, skipSpace]

/-- A number ends before a blank and before whatever stands between the parts of a text. -/
theorem endsNumber_cons {c : Char} (h : c ∈ [',', ':', ']', '\x7d', ' ', '\n', '\t', '\r'])
    (more : List Symbol) : EndsNumber (some c :: more) := by
  have stops : [',', ':', ']', '\x7d', ' ', '\n', '\t', '\r'].all
      fun c => !c.isDigit && c != '.' && c != 'e' && c != 'E' := by decide
  have stop := List.all_eq_true.1 stops c h
  simp only [Bool.and_eq_true, Bool.not_eq_true', bne_iff_ne] at stop
  simp only [EndsNumber, EndsDigits, List.head?_cons, Option.some.injEq]
  exact ⟨fun _ same => same ▸ stop.1.1.1, fun _ same => same ▸ ⟨stop.1.1.2, stop.1.2, stop.2⟩⟩

/-- Blanks end a number, as long as what follows them does. -/
theorem endsNumber_blank {blanks : List Char} (h : Blank blanks) {more : List Symbol}
    (stop : EndsNumber more) : EndsNumber (blanks.map some ++ more) := by
  cases blanks with
  | nil => exact stop
  | cons b bs =>
    have space := h b List.mem_cons_self
    refine endsNumber_cons ?_ _
    simp only [isSpace, Bool.or_eq_true, beq_iff_eq, Option.some.injEq, or_assoc] at space
    rcases space with rfl | rfl | rfl | rfl <;> decide

namespace Raw

/-- A text in which the scanner finds a sound value starts with none of the closing brackets. -/
theorem starts_of_scanValue {fuel : Nat} {cs rest : List Symbol} {r : Raw}
    (h : scanValue fuel cs = (r, rest)) (sound : r.skip = .ok ()) : Starts cs := by
  cases fuel with
  | zero =>
    cases h
    cases sound
  | succ fuel =>
    cases hs : skipSpace cs with
    | nil =>
      rw [scanValue, hs] at h
      cases h
      cases sound
    | cons s tail =>
      refine ⟨s, tail, hs, ?_, ?_⟩
      · rintro rfl
        rw [scanValue, hs] at h
        cases h
        cases sound
      · rintro rfl
        rw [scanValue, hs] at h
        cases h
        cases sound

theorem scanItems_start {fuel : Nat} {cs tail : List Symbol} {s : Symbol}
    (h : skipSpace cs = s :: tail) :
    scanItems (fuel + 2) (s :: tail) = scanItems (fuel + 2) cs := by
  rw [scanItems, scanItems, scanValue_start h]

/-- Blanks in front of the first member make no difference. -/
theorem scanMembers_start {fuel : Nat} {cs tail : List Symbol} {s : Symbol}
    (h : skipSpace cs = s :: tail) :
    scanMembers (fuel + 2) (s :: tail) = scanMembers (fuel + 2) cs := by
  rw [scanMembers, scanMembers, scanValue_start h]

end Raw

/-- Scanning a whole text is scanning one value and looking whether anything is left. -/
theorem scan_eq {cs rest : List Symbol} {r : Raw}
    (h : Raw.scanValue (2 * cs.length + 2) cs = (r, rest)) :
    RawText.scan cs = ⟨r, !(skipSpace rest).isEmpty⟩ := by
  rw [RawText.scan, h]

/-- A text that is a value on its own is that value wherever it stands: more fuel and more symbols
behind it change nothing. -/
theorem spells_of_isValue {cs : List Char} (h : IsValue cs) : Spells cs (valueOf cs) := by
  cases found : Raw.scanValue (2 * (cs.map some).length + 2) (cs.map some) with
  | mk r rest =>
    rw [valueOf]
    rw [IsValue, RawText.read, bind_eq_ok] at h
    rw [scan_eq found] at h ⊢
    obtain ⟨_, sound, whole⟩ := h
    split at whole
    · contradiction
    · rename_i last
      have nothing : skipSpace rest = [] := by simpa using last
      refine ⟨Raw.starts_of_scanValue found sound, fun more fuel stop bound => ?_⟩
      rw [List.length_map] at found
      have found' := (Raw.finds _).1 _ _ _ found sound fuel more bound fun _ => stop
      exact ⟨rest ++ more, found', skipSpace_append nothing more⟩

namespace Spells

variable {cs : List Char} {r : Raw}

/-- A text that spells a value is scanned as that value, with nothing behind it. -/
theorem scan_text (h : Spells cs r) : RawText.scan (cs.map some) = ⟨r, false⟩ := by
  obtain ⟨rest, value, nothing⟩ := h.scan [] _ endsNumber_nil (Nat.le_refl _)
  rw [List.append_nil, ← List.length_map some] at value
  rw [scan_eq value, nothing]
  rfl

theorem valueOf_eq (h : Spells cs r) : valueOf cs = r := by
  rw [valueOf, h.scan_text]

theorem spaced (h : Spells cs r) {before after : List Char} (hb : Blank before)
    (ha : Blank after) : Spells (before ++ cs ++ after) r where
  starts := by
    rw [List.map_append, List.map_append, List.append_assoc, Starts, skipSpace_blank hb]
    exact h.starts.append _
  scan more fuel stop bound := by
    simp only [List.length_append] at bound
    obtain ⟨rest, value, next⟩ :=
      h.scan (after.map some ++ more) fuel (endsNumber_blank ha stop) (by omega)
    refine ⟨rest, ?_, next.trans (skipSpace_blank ha more)⟩
    obtain ⟨fuel, rfl⟩ : ∃ f, fuel = f + 1 := ⟨fuel - 1, by omega⟩
    rw [List.map_append, List.map_append, List.append_assoc, List.append_assoc,
      scanValue_blank hb, value]

/-- The value ends where a character comes that ends numbers too and is not a blank. -/
theorem scan_until (h : Spells cs r) (c : Char) (hc : c ∈ [',', ':', ']', '\x7d'])
    (more : List Symbol) {fuel : Nat} (bound : 2 * cs.length + 2 ≤ fuel) :
    ∃ rest, Raw.scanValue fuel (cs.map some ++ some c :: more) = (r, rest) ∧
      skipSpace rest = some c :: more := by
  obtain ⟨rest, value, next⟩ := h.scan (some c :: more) fuel
    (endsNumber_cons (List.mem_append_left [' ', '\n', '\t', '\r'] hc) more) bound
  have visible : isSpace (some c) = false := by
    have all : [',', ':', ']', '\x7d'].all fun c => !isSpace (some c) := by decide
    simpa using List.all_eq_true.1 all c hc
  exact ⟨rest, value, next.trans (skipSpace_cons visible more)⟩

end Spells

section Commas

variable (cs cs' : List Char) (css : List (List Char))

theorem map_intercalate (more : List Symbol) :
    ([','].intercalate (cs :: cs' :: css)).map some ++ more =
      cs.map some ++ some ',' :: (([','].intercalate (cs' :: css)).map some ++ more) := by
  rw [List.intercalate_cons_cons, List.append_assoc, List.map_append, List.append_assoc]
  rfl

theorem length_intercalate : ([','].intercalate (cs :: cs' :: css)).length =
    cs.length + ([','].intercalate (cs' :: css)).length + 1 := by
  rw [List.intercalate_cons_cons, List.length_append, List.length_append, List.length_singleton]
  omega

end Commas

section Items

variable {α : Type} {items : List α} {text : α → List Char} {value : α → Raw}
  (each : ∀ a ∈ items, Spells (text a) (value a))

include each

theorem starts_items (first : items ≠ []) :
    Starts (([','].intercalate (items.map text)).map some) :=
  starts_intercalate (List.forall_mem_map.2 fun a ha => (each a ha).starts) (by simpa using first)

theorem scanItems_intercalate (first : items ≠ []) (more : List Symbol) (fuel : Nat)
    (bound : 2 * ([','].intercalate (items.map text)).length + 3 ≤ fuel) :
    Raw.scanItems fuel (([','].intercalate (items.map text)).map some ++ some ']' :: more) =
      (items.map value, .closed, more) := by
  induction items generalizing fuel with
  | nil => exact absurd rfl first
  | cons a as ih =>
    obtain ⟨fuel, rfl⟩ : ∃ f, fuel = f + 1 := ⟨fuel - 1, by omega⟩
    rw [List.forall_mem_cons] at each
    cases as with
    | nil =>
      rw [List.map_singleton, List.intercalate_singleton] at bound ⊢
      obtain ⟨mid, here, close⟩ := each.1.scan_until ']' (by decide) more (by omega : _ ≤ fuel)
      exact Raw.scanItems_last here close
    | cons b as =>
      obtain ⟨s, tail, start, -⟩ :=
        (starts_items each.2 (List.cons_ne_nil b as)).append (some ']' :: more)
      simp only [List.map_cons, length_intercalate, map_intercalate] at bound start ih ⊢
      obtain ⟨mid, here, comma⟩ := each.1.scan_until ',' (by decide) _ (by omega : _ ≤ fuel)
      obtain ⟨fuel, rfl⟩ : ∃ f, fuel = f + 2 := ⟨fuel - 2, by omega⟩
      refine Raw.scanItems_next here comma start ?_
      rw [Raw.scanItems_start start]
      exact ih each.2 (List.cons_ne_nil b as) _ (by omega)

theorem spells_arrayText :
    Spells (arrayText (items.map text)) (.array (items.map value) .closed) where
  starts := ⟨_, _, skipSpace_cons (by decide) _, by decide, by decide⟩
  scan more fuel _ bound := by
    refine ⟨more, ?_, rfl⟩
    rw [arrayText, List.length_cons, List.length_append, List.length_singleton] at bound
    rw [arrayText, List.map_cons, List.map_append, List.cons_append, List.append_assoc]
    obtain ⟨fuel, rfl⟩ : ∃ f, fuel = f + 3 := ⟨fuel - 3, by omega⟩
    by_cases first : items = []
    · subst first
      rfl
    · obtain ⟨s, tail, start, bracket, -⟩ := (starts_items each first).append (some ']' :: more)
      refine Raw.scanValue_array start bracket ?_
      rw [Raw.scanItems_start start]
      exact scanItems_intercalate each first more _ (by omega)

end Items

section Member

variable (key value : List Char)

theorem map_memberText (more : List Symbol) :
    (memberText key value).map some ++ more =
      key.map some ++ some ':' :: (value.map some ++ more) := by
  rw [memberText, List.map_append, List.append_assoc]
  rfl

theorem length_memberText : (memberText key value).length = key.length + value.length + 1 := by
  rw [memberText, List.length_append, List.length_cons, Nat.add_assoc]

end Member

section Members

variable {α : Type} {members : List α} {key text : α → List Char} {name value : α → Raw}
  (each : ∀ a ∈ members, Spells (key a) (name a) ∧ Spells (text a) (value a))

include each

theorem starts_members (first : members ≠ []) :
    Starts (([','].intercalate (members.map fun a => memberText (key a) (text a))).map some) := by
  refine starts_intercalate (List.forall_mem_map.2 fun a ha => ?_) (by simpa using first)
  rw [memberText, List.map_append]
  exact (each a ha).1.starts.append _

/-- Members with commas between them are scanned one by one. -/
theorem scanMembers_intercalate (first : members ≠ []) (more : List Symbol) (fuel : Nat)
    (bound : 2 * ([','].intercalate (members.map fun a => memberText (key a) (text a))).length + 3 ≤
      fuel) :
    Raw.scanMembers fuel (([','].intercalate
        (members.map fun a => memberText (key a) (text a))).map some ++ some '\x7d' :: more) =
      (members.map fun a => (name a, value a), .closed, more) := by
  induction members generalizing fuel with
  | nil => exact absurd rfl first
  | cons a as ih =>
    obtain ⟨fuel, rfl⟩ : ∃ f, fuel = f + 1 := ⟨fuel - 1, by omega⟩
    rw [List.forall_mem_cons] at each
    obtain ⟨⟨named, valued⟩, each⟩ := each
    cases as with
    | nil =>
      rw [List.map_singleton, List.intercalate_singleton, length_memberText] at bound
      rw [List.map_singleton, List.intercalate_singleton, map_memberText]
      obtain ⟨mid, hkey, colon⟩ := named.scan_until ':' (by decide) _ (by omega : _ ≤ fuel)
      obtain ⟨mid', here, close⟩ := valued.scan_until '\x7d' (by decide) more (by omega : _ ≤ fuel)
      exact Raw.scanMembers_last hkey colon here close
    | cons b as =>
      obtain ⟨s, tail, start, -⟩ :=
        (starts_members each (List.cons_ne_nil b as)).append (some '\x7d' :: more)
      simp only [List.map_cons, length_intercalate, map_intercalate, map_memberText,
        length_memberText] at bound start ih ⊢
      obtain ⟨mid, hkey, colon⟩ := named.scan_until ':' (by decide) _ (by omega : _ ≤ fuel)
      obtain ⟨mid', here, comma⟩ := valued.scan_until ',' (by decide) _ (by omega : _ ≤ fuel)
      obtain ⟨fuel, rfl⟩ : ∃ f, fuel = f + 2 := ⟨fuel - 2, by omega⟩
      refine Raw.scanMembers_next hkey colon here comma start ?_
      rw [Raw.scanMembers_start start]
      exact ih each (List.cons_ne_nil b as) _ (by omega)

/-- The text of an object spells the object of the members. -/
theorem spells_objectText :
    Spells (objectText (members.map fun a => (key a, text a)))
      (.object (members.map fun a => (name a, value a)) .closed) where
  starts := ⟨_, _, skipSpace_cons (by decide) _, by decide, by decide⟩
  scan more fuel _ bound := by
    refine ⟨more, ?_, rfl⟩
    have texts : (members.map fun a => (key a, text a)).map (fun m => memberText m.1 m.2) =
      members.map fun a => memberText (key a) (text a) := List.map_map
    rw [objectText, texts, List.length_cons, List.length_append, List.length_singleton] at bound
    rw [objectText, texts, List.map_cons, List.map_append, List.cons_append, List.append_assoc]
    obtain ⟨fuel, rfl⟩ : ∃ f, fuel = f + 3 := ⟨fuel - 3, by omega⟩
    by_cases first : members = []
    · subst first
      rfl
    · obtain ⟨s, tail, start, -, brace⟩ := (starts_members each first).append (some '\x7d' :: more)
      refine Raw.scanValue_object start brace ?_
      rw [Raw.scanMembers_start start]
      exact scanMembers_intercalate each first more _ (by omega)

end Members

/-- Two texts are whole values, with the same parts in another order. -/
structure AlikeValues (cs cs' : List Char) : Prop where
  spells : Spells cs (valueOf cs)
  spells' : Spells cs' (valueOf cs')
  reordered : (valueOf cs).Reordered (valueOf cs')

theorem alikeValues_of_spells {cs cs' : List Char} {r r' : Raw} (spells : Spells cs r)
    (spells' : Spells cs' r') (reordered : r.Reordered r') : AlikeValues cs cs' := by
  rw [← spells.valueOf_eq, ← spells'.valueOf_eq] at reordered
  exact ⟨spells.valueOf_eq ▸ spells, spells'.valueOf_eq ▸ spells', reordered⟩

theorem alikeValues_array {items : List (List Char × List Char)}
    (each : ∀ p ∈ items, AlikeValues p.1 p.2) :
    AlikeValues (arrayText (items.map Prod.fst)) (arrayText (items.map Prod.snd)) := by
  have reordered := @Raw.Reordered.array (items.map fun p => (valueOf p.1, valueOf p.2)) .closed
    (List.forall_mem_map.2 fun p hp => (each p hp).reordered)
  rw [List.map_map, List.map_map] at reordered
  exact alikeValues_of_spells (spells_arrayText fun p hp => (each p hp).spells)
    (spells_arrayText fun p hp => (each p hp).spells') reordered

/-- Objects are alike when one has the other's members in another order. -/
theorem alikeValues_object
    {pairs moved : List ((List Char × List Char) × (List Char × List Char))}
    (keys : ∀ p ∈ pairs, AlikeValues p.1.1 p.2.1) (values : ∀ p ∈ pairs, AlikeValues p.1.2 p.2.2)
    (perm : pairs ~ moved) :
    AlikeValues (objectText (pairs.map Prod.fst)) (objectText (moved.map Prod.snd)) := by
  have reordered := @Raw.Reordered.object
    (pairs.map fun p => ((valueOf p.1.1, valueOf p.1.2), (valueOf p.2.1, valueOf p.2.2)))
    (moved.map fun p => ((valueOf p.1.1, valueOf p.1.2), (valueOf p.2.1, valueOf p.2.2))) .closed
    (List.forall_mem_map.2 fun p hp => (keys p hp).reordered)
    (List.forall_mem_map.2 fun p hp => (values p hp).reordered) (perm.map _)
  rw [List.map_map, List.map_map] at reordered
  refine alikeValues_of_spells
    (spells_objectText fun p hp => ⟨(keys p hp).spells, (values p hp).spells⟩)
    (spells_objectText fun p hp => ?_) reordered
  have hp := perm.mem_iff.2 hp
  exact ⟨(keys p hp).spells', (values p hp).spells'⟩

/-- Texts with their members in another order are taken apart into the same parts in another
order. -/
theorem Reorders.alikeValues {cs cs' : List Char} (h : Reorders cs cs') : AlikeValues cs cs' := by
  induction h with
  | same value => exact ⟨spells_of_isValue value, spells_of_isValue value, .same _⟩
  | spaced _ blank blank' ih =>
    exact alikeValues_of_spells (ih.spells.spaced blank.1 blank.2)
      (ih.spells'.spaced blank'.1 blank'.2) ih.reordered
  | array _ ih => exact alikeValues_array ih
  | object _ _ perm keys values => exact alikeValues_object keys values perm

end CanvasLayout.Json

namespace CanvasLayout.Screen

open Json (Form RawText)

/-- The order of the members of objects in a text, the tag of a layer among them, is nothing to the
screen that it holds. -/
theorem ofText_of_reorders {t t' : String} {s : Screen} (h : ofText t = .ok s)
    (distinct : (RawText.ofString t).value.distinct = true)
    (reorders : Json.Reorders t.toList t'.toList) : ofText t' = .ok s := by
  obtain ⟨spells, spells', reordered⟩ := reorders.alikeValues
  rw [ofText_eq, RawText.ofString, spells.scan_text] at h
  rw [RawText.ofString, spells.scan_text] at distinct
  rw [ofText_eq, RawText.ofString, spells'.scan_text]
  obtain ⟨_, read, last⟩ := Json.bind_eq_ok.1 h
  obtain ⟨d, hd, made⟩ := Json.bind_eq_ok.1 read
  have hd' := Form.keepsDatum Interchange.lawful_fields reordered distinct _ _ _ lawful hd
  exact Json.bind_eq_ok.2 ⟨_, Json.bind_eq_ok.2 ⟨d, hd', made⟩, last⟩

/-- The members of a layer. -/
def tile : List (List Char × List Char) :=
  [("\"type\"".toList, "\"shape\"".toList), ("\"shape\"".toList, " \"rect\"".toList)]

/-- The parts of a placed layer but its content. -/
def tilePlace : List (List Char) :=
  ["\"a\"", "\x7b\x7d", "[0, 0, 1, 0.5]", "[0, 0, 9, 1]", "[\"up\", null, 0]",
    "[\"left\", null, 0]"].map String.toList

/-- A canvas. -/
def tileCanvas : List Char × List Char :=
  ("\"canvas\"".toList, "[9, 2, [0, 0, 0], \"p\", \"q\"]".toList)

/-- A list of one layer. -/
def tileLayers (members : List (List Char × List Char)) : List Char × List Char :=
  ("\"layers\"".toList, Json.arrayText [Json.arrayText (tilePlace ++ [Json.objectText members])])

/-- A screen of one layer. -/
def tiled : String := String.ofList (Json.objectText [tileCanvas, tileLayers tile])

/-- The screen with the members of its objects in another order. -/
def tiledBackwards : String :=
  String.ofList (Json.objectText [tileLayers tile.reverse, tileCanvas])

/-- The tag, the members of the layer and those of the screen change places. -/
theorem reorders_tiled : Json.Reorders tiled.toList tiledBackwards.toList := by
  have layer : Json.Reorders (Json.objectText tile) (Json.objectText tile.reverse) :=
    Json.reorders_of_perm (by decide +kernel) (List.reverse_perm tile).symm
  have layers : Json.Reorders (tileLayers tile).2 (tileLayers tile.reverse).2 :=
    @Json.reorders_last _ _ [] (by simp) (Json.reorders_last (by decide +kernel) layer)
  have canvas : Json.Reorders tileCanvas.1 tileCanvas.1 ∧ Json.Reorders tileCanvas.2 tileCanvas.2 :=
    ⟨.same (by decide +kernel), .same (by decide +kernel)⟩
  have name : Json.Reorders (tileLayers tile).1 (tileLayers tile.reverse).1 :=
    .same (by decide +kernel)
  rw [tiled, tiledBackwards, String.toList_ofList, String.toList_ofList]
  refine @Json.Reorders.object
    [(tileCanvas, tileCanvas), (tileLayers tile, tileLayers tile.reverse)] _ ?_ ?_
    (List.Perm.swap _ _ [])
  · simpa using ⟨canvas.1, name⟩
  · simpa using ⟨canvas.2, layers⟩

/-- The screen of one layer is read from both texts. -/
theorem ofText_tiledBackwards :
    ∃ s, ofText tiled = .ok s ∧ (RawText.ofString tiled).value.distinct = true ∧
      Json.Reorders tiled.toList tiledBackwards.toList ∧ s.layers.map (·.id) = ["a"] ∧
      ofText tiledBackwards = .ok s := by
  have ids : (ofText tiled).toOption.map (fun s => s.layers.map (·.id)) = some ["a"] := by
    decide +kernel
  have distinct : (RawText.ofString tiled).value.distinct = true := by decide +kernel
  cases read : ofText tiled with
  | error f =>
    rw [read] at ids
    cases ids
  | ok s =>
    rw [read] at ids
    exact ⟨s, rfl, distinct, reorders_tiled, Option.some.inj ids,
      ofText_of_reorders read distinct reorders_tiled⟩

end CanvasLayout.Screen
