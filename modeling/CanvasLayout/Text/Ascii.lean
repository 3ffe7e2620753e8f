/-!
# Texts compared without case

Lowering the letters A to Z and leaving every other character alone, and the searches that
layer names need: does a word occur, what is the shortest beginning that ends in it, what
stands before and after a separator. All are on lists of characters, so no search can cut
a character in two.
-/

namespace CanvasLayout.Text

/-- `s` with the letters A to Z in lower case. -/
def lowercase (s : String) : String :=
  .ofList (s.toList.map Char.toLower)

/-- `word` occurs somewhere in `cs`. -/
def occursIn (word : List Char) : List Char → Bool
  | [] => word.isEmpty
  | c :: cs => word.isPrefixOf (c :: cs) || occursIn word cs

/-- `word` occurs in `s` when case is ignored; `word` is given in lower case. -/
def mentions (word s : String) : Bool :=
  occursIn word.toList (s.toList.map Char.toLower)

/-- The shortest beginning of `cs` that ends in `word` when case is ignored, if there is one;
`word` is given in lower case. -/
def throughFirst (word : List Char) : List Char → Option (List Char)
  | [] => if word.isEmpty then some [] else none
  | c :: cs =>
    if word.isPrefixOf ((c :: cs).map Char.toLower) then some ((c :: cs).take word.length)
    else (throughFirst word cs).map (c :: ·)

/-- What stands before and after the first `sep`. -/
def cutAt (sep : Char) : List Char → Option (List Char × List Char)
  | [] => none
  | c :: cs => if c = sep then some ([], cs) else (cutAt sep cs).map fun (a, b) => (c :: a, b)

/-- The pieces of a text between the characters satisfying `p`. -/
def pieces (p : Char → Bool) : List Char → List (List Char)
  | [] => [[]]
  | c :: cs =>
    if p c then [] :: pieces p cs
    else match pieces p cs with
      | [] => [[c]]
      | w :: ws => (c :: w) :: ws

/-- `cs` without `ending`, if it ends so. -/
def dropEnding (ending cs : List Char) : List Char :=
  if ending.isSuffixOf cs then cs.take (cs.length - ending.length) else cs

/-- The value of a hexadecimal digit. -/
def hexDigit? (c : Char) : Option Nat :=
  if '0' ≤ c ∧ c ≤ '9' then some (c.toNat - 48)
  else if 'a' ≤ c ∧ c ≤ 'f' then some (c.toNat - 87)
  else if 'A' ≤ c ∧ c ≤ 'F' then some (c.toNat - 55)
  else none

/-- `n` in hexadecimal with at least `width` digits. -/
def hexadecimal (upper : Bool) (width n : Nat) : List Char :=
  let ds := (Nat.toDigits 16 n).map fun c => if upper then c.toUpper else c
  List.replicate (width - ds.length) '0' ++ ds

/-- The value of a nonempty run of decimal digits. -/
def natural? (cs : List Char) : Option Nat :=
  if !cs.isEmpty && cs.all Char.isDigit then
    some (cs.foldl (fun n c => 10 * n + (c.toNat - 48)) 0)
  else none

theorem toList_lowercase (s : String) : (lowercase s).toList = s.toList.map Char.toLower :=
  String.toList_ofList

theorem occursIn_iff {word cs : List Char} : occursIn word cs = true ↔ word <:+: cs := by
  induction cs with
  | nil => simp [occursIn]
  | cons c cs ih =>
    rw [occursIn, Bool.or_eq_true, List.isPrefixOf_iff_prefix, ih, List.infix_cons_iff]

/-- What goes through the first occurrence of a word is a beginning. -/
theorem throughFirst_isPrefix {word : List Char} :
    ∀ {cs p : List Char}, throughFirst word cs = some p → p <+: cs := by
  intro cs
  induction cs with
  | nil => intro p h; simp [throughFirst] at h; simp [h.2]
  | cons c cs ih =>
    intro p h
    rw [throughFirst] at h
    split at h
    · rw [Option.some.injEq] at h; subst h; exact List.take_prefix _ _
    · obtain ⟨q, hq, rfl⟩ := Option.map_eq_some_iff.1 h
      exact (List.prefix_cons_inj c).2 (ih hq)

/-- There is nothing to cut where the separator is missing. -/
theorem cutAt_eq_none {sep : Char} {cs : List Char} : cutAt sep cs = none ↔ sep ∉ cs := by
  induction cs with
  | nil => simp [cutAt]
  | cons c cs ih =>
    rw [cutAt]
    split
    · rename_i hc
      simp [hc]
    · rename_i hc
      rw [Option.map_eq_none_iff, ih, List.mem_cons, not_or]
      exact ⟨fun rest => ⟨Ne.symm hc, rest⟩, And.right⟩

/-- A text is cut at the first separator. -/
theorem cutAt_append {sep : Char} {a : List Char} (h : sep ∉ a) (b : List Char) :
    cutAt sep (a ++ sep :: b) = some (a, b) := by
  induction a with
  | nil => simp [cutAt]
  | cons c a ih =>
    rw [List.mem_cons, not_or] at h
    rw [List.cons_append, cutAt, if_neg (Ne.symm h.1), ih h.2]
    rfl

theorem cutAt_eq_some {sep : Char} :
    ∀ {cs a b : List Char}, cutAt sep cs = some (a, b) → cs = a ++ sep :: b ∧ sep ∉ a := by
  intro cs
  induction cs with
  | nil => intro a b h; simp [cutAt] at h
  | cons c cs ih =>
    intro a b h
    rw [cutAt] at h
    split at h
    · rename_i hc
      simp only [Option.some.injEq, Prod.mk.injEq] at h
      simp [← h.1, ← h.2, hc]
    · rename_i hc
      obtain ⟨⟨a', b'⟩, hq, he⟩ := Option.map_eq_some_iff.1 h
      simp only [Prod.mk.injEq] at he
      obtain ⟨rfl, rfl⟩ := he
      obtain ⟨h1, h2⟩ := ih hq
      simp [h1, h2, Ne.symm hc]

end CanvasLayout.Text
