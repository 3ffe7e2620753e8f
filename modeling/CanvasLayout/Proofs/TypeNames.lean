import Mathlib
import CanvasLayout.Layer.Name

/-!
# Type names cut out of layer names

A type name is the beginning of a layer name through a word, found without regard to case. It can be
had from the bytes alone: the word is looked for among the bytes of the lowered name, and the name
as it was given is cut at the offset found. No cut falls inside a character, and both ways give the
same name, `Layer.derivedName_sliced`. Two facts carry this: lowering keeps the size of every
character, and bytes that spell a text start and end between characters wherever they stand.
-/

namespace CanvasLayout.Text

variable {word s p a b : String} {i : Nat}

/-! ## The shortest beginning through a word -/

/-- `p` ends in `word` when case is ignored. -/
def EndsIn (word p : String) : Prop :=
  (lowercase word).toList <:+ (lowercase p).toList

/-- `word` stands somewhere in `s` when case is ignored. -/
def OccursIn (word s : String) : Prop :=
  (lowercase word).toList <:+: (lowercase s).toList

/-- `p` is the shortest beginning of `s` that ends in `word` when case is ignored. -/
structure IsThrough (word s p : String) : Prop where
  beginning : p.toList <+: s.toList
  ends : EndsIn word p
  shortest : ∀ q : String, q.toList <+: s.toList → EndsIn word q → p.length ≤ q.length

/-- The search stops at the shortest beginning that ends in the word. -/
theorem throughFirst_eq_some {word cs : List Char} :
    ∀ {p : List Char}, throughFirst word cs = some p → word <:+ p.map Char.toLower ∧
      ∀ q, q <+: cs → word <:+ q.map Char.toLower → p.length ≤ q.length := by
  induction cs with
  | nil =>
    intro p h
    simp only [throughFirst, List.isEmpty_iff] at h
    split at h
    · rename_i empty
      cases h
      subst empty
      exact ⟨List.nil_suffix, fun q _ _ => Nat.zero_le _⟩
    · cases h
  | cons c cs ih =>
    intro p h
    rw [throughFirst] at h
    split at h
    · rename_i here
      rw [List.isPrefixOf_iff_prefix] at here
      cases h
      constructor
      · rw [List.map_take, ← List.prefix_iff_eq_take.1 here]
      · intro q _ ends
        have long := ends.length_le
        rw [List.length_map] at long
        exact (List.length_take_le _ _).trans long
    · rename_i later
      rw [List.isPrefixOf_iff_prefix] at later
      obtain ⟨p, hp, rfl⟩ := Option.map_eq_some_iff.1 h
      obtain ⟨ends, shortest⟩ := ih hp
      refine ⟨ends.trans (List.suffix_cons _ _), fun q beginning endsToo => ?_⟩
      -- a beginning that ends in the word is longer than the word here, or the word would start here
      obtain rfl | ⟨q, rfl, rest⟩ := List.prefix_cons_iff.1 beginning
      · exact absurd (List.suffix_nil.1 endsToo ▸ List.nil_prefix) later
      · obtain whole | endsToo := List.suffix_cons_iff.1 endsToo
        · exact absurd (whole ▸ beginning.map Char.toLower) later
        · exact Nat.succ_le_succ (shortest q rest endsToo)

theorem throughFirst_eq_none {word cs : List Char} :
    throughFirst word cs = none ↔ ¬ word <:+: cs.map Char.toLower := by
  induction cs with
  | nil => simp [throughFirst]
  | cons c cs ih =>
    rw [throughFirst, List.map_cons, List.infix_cons_iff, not_or, ← ih]
    split
    · rename_i here
      simp [List.isPrefixOf_iff_prefix.1 here]
    · rename_i later
      rw [Option.map_eq_none_iff, ← List.isPrefixOf_iff_prefix]
      exact ⟨fun rest => ⟨later, rest⟩, And.right⟩

/-- What the search finds is the shortest beginning through the word. -/
theorem isThrough_of_throughFirst {cs : List Char}
    (h : throughFirst (lowercase word).toList s.toList = some cs) :
    IsThrough word s (.ofList cs) := by
  obtain ⟨ends, shortest⟩ := throughFirst_eq_some h
  constructor
  · rw [String.toList_ofList]
    exact throughFirst_isPrefix h
  · rw [EndsIn, toList_lowercase (.ofList cs), String.toList_ofList]
    exact ends
  · intro q beginning endsToo
    rw [EndsIn, toList_lowercase q] at endsToo
    rw [String.length_ofList, ← String.length_toList]
    exact shortest q.toList beginning endsToo

/-! ## Offsets of bytes -/

/-- The first offset at which the bytes of `word` stand among those of `s`. -/
def offset? (word s : String) : Option Nat :=
  (List.range (s.utf8ByteSize + 1)).find? fun i =>
    s.toByteArray.extract i (i + word.utf8ByteSize) = word.toByteArray

/-- A text that stands in another has its bytes there. -/
theorem extract_append (a word b : String) :
    (a ++ word ++ b).toByteArray.extract a.utf8ByteSize (a.utf8ByteSize + word.utf8ByteSize) =
      word.toByteArray := by
  rw [← String.utf8ByteSize_append, ← String.size_toByteArray (s := a ++ word),
    String.toByteArray_append, ByteArray.extract_append_size_left, String.toByteArray_append]
  exact ByteArray.extract_append_eq_right String.size_toByteArray.symm ByteArray.size_append

/-- Where the bytes of a text stand in another, the text itself stands: they start and end between
characters. -/
theorem exists_append_of_extract (spelt : word ≠ "") (within : i ≤ s.utf8ByteSize)
    (h : s.toByteArray.extract i (i + word.utf8ByteSize) = word.toByteArray) :
    ∃ a b : String, s = a ++ word ++ b ∧ a.utf8ByteSize = i := by
  have pos : 0 < word.utf8ByteSize := by
    rw [Nat.pos_iff_ne_zero, ne_eq, String.utf8ByteSize_eq_zero_iff]
    exact spelt
  have room : i + word.utf8ByteSize ≤ s.utf8ByteSize := by
    have size := congrArg ByteArray.size h
    rw [ByteArray.size_extract, String.size_toByteArray, String.size_toByteArray] at size
    omega
  have ordered : (⟨i⟩ : String.Pos.Raw) ≤ ⟨i + word.utf8ByteSize⟩ :=
    String.Pos.Raw.le_iff.2 (Nat.le_add_right _ _)
  have ends := (String.Pos.Raw.isValidUTF8_extract_iff _ _ ordered
    (String.Pos.Raw.le_iff.2 room)).1 (h ▸ word.isValidUTF8)
  obtain same | ⟨start, stop⟩ := ends
  · have := congrArg String.Pos.Raw.byteIdx same
    simp only at this
    omega
  · obtain ⟨a, rest, rfl, ha⟩ := String.Pos.Raw.isValid_iff_exists_append.1 start
    have ha : a.utf8ByteSize = i := (congrArg String.Pos.Raw.byteIdx ha).symm
    subst ha
    obtain stop | ⟨-, stop⟩ := String.Pos.Raw.isValid_append.1 stop
    · have := stop.le_utf8ByteSize
      simp only at this
      omega
    · obtain ⟨mid, b, rfl, hm⟩ := String.Pos.Raw.isValid_iff_exists_append.1 stop
      have hm : mid.utf8ByteSize = word.utf8ByteSize := by
        have size : a.utf8ByteSize + word.utf8ByteSize - a.utf8ByteSize = mid.utf8ByteSize :=
          congrArg String.Pos.Raw.byteIdx hm
        omega
      rw [← String.append_assoc, ← hm, extract_append, String.toByteArray_inj] at h
      exact ⟨a, b, by rw [h, String.append_assoc], rfl⟩

/-- An offset found is that of an occurrence, and of the first one. -/
theorem offset?_eq_some (h : offset? word s = some i) :
    (∃ a b, s = a ++ word ++ b ∧ a.utf8ByteSize = i) ∧
      ∀ a b, s = a ++ word ++ b → i ≤ a.utf8ByteSize := by
  obtain ⟨here, within, before⟩ := List.find?_range_eq_some.1 h
  rw [decide_eq_true_eq] at here
  simp only [Bool.not_eq_true', decide_eq_false_iff_not] at before
  have first : ∀ a b, s = a ++ word ++ b → i ≤ a.utf8ByteSize := by
    rintro a b rfl
    by_contra late
    exact before _ (Nat.lt_of_not_le late) (extract_append a word b)
  refine ⟨?_, first⟩
  by_cases spelt : word = ""
  · subst spelt
    have start := first "" s (by simp)
    exact ⟨"", s, by simp, (Nat.le_zero.1 start).symm⟩
  · exact exists_append_of_extract spelt (Nat.le_of_lt_succ (List.mem_range.1 within)) here

theorem offset?_eq_none (h : offset? word s = none) (a b : String) : s ≠ a ++ word ++ b := by
  rintro rfl
  have nowhere := List.find?_range_eq_none.1 h a.utf8ByteSize
    (by simp only [String.utf8ByteSize_append]; omega)
  rw [Bool.not_eq_true', decide_eq_false_iff_not] at nowhere
  exact nowhere (extract_append a word b)

/-! ## Lowering keeps offsets -/

/-- Lowering a letter keeps its size: only ASCII letters are lowered. -/
theorem utf8Size_toLower (c : Char) : c.toLower.utf8Size = c.utf8Size := by
  unfold Char.toLower
  split
  · rename_i capital
    have upper := capital.2
    have small : c.val ≤ 127 := by grind
    have shifted : c.val + ('a'.val - 'A'.val) ≤ 127 := by grind
    rw [Char.utf8Size_eq_one_iff.2 small, Char.utf8Size_eq_one_iff.2 shifted]
  · rfl

theorem utf8ByteSize_lowercase (s : String) : (lowercase s).utf8ByteSize = s.utf8ByteSize := by
  have sizes : ∀ cs : List Char, String.utf8Len (cs.map Char.toLower) = String.utf8Len cs := by
    intro cs
    induction cs with
    | nil => rfl
    | cons c cs ih =>
      rw [List.map_cons, String.utf8Len_cons, String.utf8Len_cons, ih, utf8Size_toLower]
  rw [lowercase, String.utf8ByteSize_ofList, sizes, ← String.utf8ByteSize_ofList,
    String.ofList_toList]

theorem lowercase_append (s t : String) : lowercase (s ++ t) = lowercase s ++ lowercase t := by
  simp only [lowercase, String.toList_append, List.map_append, String.ofList_append]

/-- A part of a lowered text is a part of the text, lowered. -/
theorem exists_of_lowercase_eq_append (h : lowercase s = a ++ b) :
    ∃ t u : String, s = t ++ u ∧ lowercase t = a ∧ lowercase u = b := by
  have lists := congrArg String.toList h
  rw [toList_lowercase, String.toList_append, List.map_eq_append_iff] at lists
  obtain ⟨ts, us, hs, ht, hu⟩ := lists
  refine ⟨.ofList ts, .ofList us, ?_, ?_, ?_⟩
  · rw [← String.ofList_append, ← hs, String.ofList_toList]
  · rw [lowercase, String.toList_ofList, ht, String.ofList_toList]
  · rw [lowercase, String.toList_ofList, hu, String.ofList_toList]

/-- The beginning of `s` that takes `n` bytes; absent where that would cut a character. -/
def beginning? (s : String) (n : Nat) : Option String :=
  if h : String.Pos.Raw.IsValid s ⟨n⟩ then some (s.sliceTo (s.pos ⟨n⟩ h)).copy else none

theorem beginning?_append (a b : String) : beginning? (a ++ b) a.utf8ByteSize = some a := by
  have between : String.Pos.Raw.IsValid (a ++ b) ⟨a.utf8ByteSize⟩ :=
    String.Pos.Raw.isValid_iff_exists_append.2 ⟨a, b, rfl, rfl⟩
  rw [beginning?, dif_pos between, String.Pos.Splits.copy_sliceTo_eq ⟨rfl, rfl⟩]

theorem exists_append_of_isPrefix {p s : String} (h : p.toList <+: s.toList) : ∃ b, s = p ++ b := by
  obtain ⟨bs, hb⟩ := h
  exact ⟨.ofList bs, by rw [← String.toList_inj, String.toList_append, String.toList_ofList, hb]⟩

/-- What ends in a word has something, perhaps nothing, in front of it. -/
theorem endsIn_iff : EndsIn word p ↔ ∃ a, lowercase p = a ++ lowercase word := by
  constructor
  · rintro ⟨as, ha⟩
    exact ⟨.ofList as, by rw [← String.toList_inj, String.toList_append, String.toList_ofList, ha]⟩
  · rintro ⟨a, ha⟩
    exact ⟨a.toList, by rw [ha, String.toList_append]⟩

/-- The shortest beginning takes the fewest bytes. -/
theorem IsThrough.eq_of_le {q : String} (h : IsThrough word s p) (beginning : q.toList <+: s.toList)
    (ends : EndsIn word q) (small : q.utf8ByteSize ≤ p.utf8ByteSize) : q = p := by
  have shorter := h.shortest q beginning ends
  rw [← String.length_toList, ← String.length_toList] at shorter
  obtain ⟨b, rfl⟩ :=
    exists_append_of_isPrefix (List.prefix_of_prefix_length_le h.beginning beginning shorter)
  rw [String.utf8ByteSize_append] at small
  have empty : b = "" := String.utf8ByteSize_eq_zero_iff.1 (by omega)
  rw [empty, String.append_empty]

/-- The offset found in the lowered text leads to the end of a beginning of the text itself, and none
that ends in the word is smaller. -/
theorem exists_beginning_of_offset? (h : offset? (lowercase word) (lowercase s) = some i) :
    ∃ p b, s = p ++ b ∧ p.utf8ByteSize = i + word.utf8ByteSize ∧ EndsIn word p ∧
      ∀ q : String, q.toList <+: s.toList → EndsIn word q → p.utf8ByteSize ≤ q.utf8ByteSize := by
  obtain ⟨⟨a, c, whole, size⟩, first⟩ := offset?_eq_some h
  obtain ⟨p, b, rfl, lowered, -⟩ := exists_of_lowercase_eq_append whole
  have sizes : p.utf8ByteSize = i + word.utf8ByteSize := by
    rw [← utf8ByteSize_lowercase p, lowered, String.utf8ByteSize_append, size,
      utf8ByteSize_lowercase word]
  refine ⟨p, b, rfl, sizes, endsIn_iff.2 ⟨a, lowered⟩, fun q beginning ends => ?_⟩
  obtain ⟨rest, split⟩ := exists_append_of_isPrefix beginning
  obtain ⟨before, ends⟩ := endsIn_iff.1 ends
  have early := first before (lowercase rest) (by rw [split, lowercase_append, ends])
  rw [sizes, ← utf8ByteSize_lowercase q, ends, String.utf8ByteSize_append,
    utf8ByteSize_lowercase word]
  omega

theorem EndsIn.occursIn (h : EndsIn word p) (beginning : p.toList <+: s.toList) :
    OccursIn word s := by
  have lowered := beginning.map Char.toLower
  rw [← toList_lowercase, ← toList_lowercase] at lowered
  exact h.isInfix.trans lowered.isInfix

theorem not_occursIn_of_offset? (h : offset? (lowercase word) (lowercase s) = none) :
    ¬ OccursIn word s := by
  rintro ⟨as, bs, whole⟩
  refine offset?_eq_none h (.ofList as) (.ofList bs) ?_
  rw [← String.toList_inj, String.toList_append, String.toList_append, String.toList_ofList,
    String.toList_ofList, whole]

end CanvasLayout.Text

namespace CanvasLayout.Layer

variable {id word : String}

/-- The type name as it is had from bytes: the word is looked for in the lowered name, and the name
is cut where the word ends there. Absent if that cuts a character. -/
def slicedName? (id word : String) : Option String :=
  match Text.offset? (Text.lowercase word) (Text.lowercase id) with
  | some i => (Text.beginning? id (i + word.utf8ByteSize)).map Text.upperFirst
  | none => some (Text.upperFirst id)

/-- A name without the word is kept, with a capital at its head. -/
theorem derivedName_of_not_occursIn (h : ¬ Text.OccursIn word id) :
    derivedName id word = Text.upperFirst id := by
  rw [Text.OccursIn, Text.toList_lowercase id, ← Text.throughFirst_eq_none] at h
  rw [derivedName, h]
  rfl

/-- A name with the word is cut behind it, with a capital at its head. -/
theorem exists_isThrough_of_occursIn (h : Text.OccursIn word id) :
    ∃ p, Text.IsThrough word id p ∧ derivedName id word = Text.upperFirst p := by
  rw [Text.OccursIn, Text.toList_lowercase id] at h
  obtain ⟨cs, found⟩ :=
    Option.ne_none_iff_exists'.1 fun none => Text.throughFirst_eq_none.1 none h
  refine ⟨.ofList cs, Text.isThrough_of_throughFirst found, ?_⟩
  rw [derivedName, found]
  rfl

/-- A type name is the layer name through the shortest beginning that ends in the word, or all of it
when the word does not occur, with a capital first letter; and cutting the name at the byte offset
that the lowered name gives never cuts a character and gives the same. -/
theorem derivedName_sliced (id word : String) :
    ((∃ p, Text.IsThrough word id p ∧ derivedName id word = Text.upperFirst p) ∨
      ¬ Text.OccursIn word id ∧ derivedName id word = Text.upperFirst id) ∧
    (∀ i, Text.offset? (Text.lowercase word) (Text.lowercase id) = some i →
      String.Pos.Raw.IsValid id ⟨i + word.utf8ByteSize⟩) ∧
    slicedName? id word = some (derivedName id word) := by
  refine ⟨?_, fun i found => ?_, ?_⟩
  · by_cases occurs : Text.OccursIn word id
    · exact .inl (exists_isThrough_of_occursIn occurs)
    · exact .inr ⟨occurs, derivedName_of_not_occursIn occurs⟩
  · obtain ⟨p, b, rfl, size, -⟩ := Text.exists_beginning_of_offset? found
    exact String.Pos.Raw.isValid_iff_exists_append.2 ⟨p, b, rfl, by rw [← size]; rfl⟩
  · unfold slicedName?
    split
    · rename_i i found
      obtain ⟨p, b, whole, size, ends, least⟩ := Text.exists_beginning_of_offset? found
      have beginning : p.toList <+: id.toList := by
        rw [whole, String.toList_append]
        exact List.prefix_append _ _
      obtain ⟨shortest, through, named⟩ := exists_isThrough_of_occursIn (ends.occursIn beginning)
      have same := through.eq_of_le beginning ends (least _ through.beginning through.ends)
      rw [← size, whole, Text.beginning?_append, ← whole, named, same]
      rfl
    · rename_i nowhere
      rw [derivedName_of_not_occursIn (Text.not_occursIn_of_offset? nowhere)]

example : derivedName "étéCELL2" "Cell" = "ÉtéCELL" := by decide +kernel

end CanvasLayout.Layer
