import Mathlib
import CanvasLayout.Files.Reader
import CanvasLayout.Files.Tree

/-!
# Override documents beside drawings

The document beside a drawing is found in two ways: from the name that the drawing was asked for by,
with the other extension appended, and from the path of the drawing, with its extension replaced.
Replacing undoes appending, `withExtension_append`, unless the last part of the name is a lone dot:
with the extension taken off, its path leads back up. So the two ways read the same files for all
other names, `artboard_eq_load`.
-/

namespace CanvasLayout.Files

variable {dir name path : String} {cs above base : List Char}

/-! ## The last part of a path -/

/-- `base` is the last part of a path and `above` what stands before it. -/
structure Divides (cs above base : List Char) : Prop where
  whole : cs = above ++ base
  closed : above = [] ∨ ['/'] <:+ above
  plain : '/' ∉ base

/-- The last part of a path is a lone dot. -/
def EndsInDot (path : String) : Prop :=
  path = "." ∨ ['/', '.'] <:+ path.toList

instance (path : String) : Decidable (EndsInDot path) :=
  inferInstanceAs (Decidable (_ ∨ _))

theorem exists_divides (cs : List Char) : ∃ above base, Divides cs above base := by
  induction cs with
  | nil => exact ⟨[], [], rfl, .inl rfl, List.not_mem_nil⟩
  | cons c cs ih =>
    obtain ⟨above, base, rfl, closed, plain⟩ := ih
    obtain rfl | closed := closed
    · by_cases slash : c = '/'
      · exact ⟨[c], base, rfl, .inr (slash ▸ List.suffix_rfl), plain⟩
      · refine ⟨[], c :: base, rfl, .inl rfl, fun mem => ?_⟩
        obtain rfl | mem := List.mem_cons.1 mem
        · exact slash rfl
        · exact plain mem
    · exact ⟨c :: above, base, rfl, .inr (closed.trans (List.suffix_cons _ _)), plain⟩

/-- A path that ends neither in a slash nor in a lone dot has nothing behind its last part. -/
theorem trimBackwards_eq_self {c : Char} (slash : c ≠ '/') (lone : c = '.' → cs.head? ≠ some '/') :
    trimBackwards (c :: cs) = c :: cs := by
  unfold trimBackwards
  split <;> simp_all

namespace Divides

/-- The last part names something unless the path is empty or ends in a slash. -/
theorem ne_nil (h : Divides cs above base) (named : cs ≠ []) (unclosed : ¬ ['/'] <:+ cs) :
    base ≠ [] := by
  rintro rfl
  have whole := h.whole
  rw [List.append_nil] at whole
  subst whole
  exact h.closed.elim named unclosed

/-- Read backwards, a path is its last part up to the first slash. -/
theorem reverse_split (h : Divides cs above base) :
    cs.reverse.takeWhile (· != '/') = base.reverse ∧
      cs.reverse.dropWhile (· != '/') = above.reverse := by
  have flat : ∀ c ∈ base.reverse, (c != '/') = true := by
    intro c mem
    rw [bne_iff_ne]
    rintro rfl
    exact h.plain (List.mem_reverse.1 mem)
  rw [h.whole, List.reverse_append, List.takeWhile_append_of_pos flat,
    List.dropWhile_append_of_pos flat]
  obtain rfl | ⟨lead, rfl⟩ := h.closed <;> simp

theorem unique {above' base' : List Char} (h : Divides cs above base)
    (h' : Divides cs above' base') : base = base' :=
  List.reverse_injective (h.reverse_split.1.symm.trans h'.reverse_split.1)

theorem endsInDot_iff (h : Divides path.toList above base) : EndsInDot path ↔ base = ['.'] := by
  have plain : '/' ∉ ['.'] := by decide
  constructor
  · rintro (rfl | ⟨lead, whole⟩)
    · exact h.unique ⟨rfl, .inl rfl, plain⟩
    · have dotted : Divides path.toList (lead ++ ['/']) ['.'] :=
        ⟨by rw [← whole, List.append_assoc]; rfl, .inr (List.suffix_append _ _), plain⟩
      exact h.unique dotted
  · rintro rfl
    have whole := h.whole
    obtain rfl | ⟨lead, rfl⟩ := h.closed
    · exact .inl (String.toList_inj.1 whole)
    · exact .inr ⟨lead, by rw [whole, List.append_assoc]; rfl⟩

/-- A path divided so is divided likewise behind any other path that ends in a slash or is empty. -/
theorem append {lead : List Char} (h : Divides cs above base) (closed : lead = [] ∨ ['/'] <:+ lead) :
    Divides (lead ++ cs) (lead ++ above) base := by
  refine ⟨by rw [h.whole, List.append_assoc], ?_, h.plain⟩
  obtain rfl | ends := h.closed
  · rw [List.append_nil]
    exact closed
  · exact .inr (ends.trans (List.suffix_append _ _))

/-- More text without a slash belongs to the last part. -/
theorem extend {more : List Char} (h : Divides cs above base) (flat : '/' ∉ more) :
    Divides (cs ++ more) above (base ++ more) :=
  ⟨by rw [h.whole, List.append_assoc], h.closed,
    fun mem => (List.mem_append.1 mem).elim h.plain flat⟩

/-- Nothing is left out behind a last part that names something. -/
theorem splitLast_eq (h : Divides cs above base) (named : base ≠ []) (lone : base ≠ ['.']) :
    splitLast cs = (above, base) := by
  have kept : trimBackwards cs.reverse = cs.reverse := by
    obtain ⟨init, c, rfl⟩ := (List.eq_nil_or_concat' base).resolve_left named
    rw [h.whole, ← List.append_assoc, List.reverse_concat]
    refine trimBackwards_eq_self (fun slash => h.plain (by simp [slash])) fun dot head => ?_
    -- a dot that ends the last part has another character of that part before it
    obtain rfl | ⟨front, d, rfl⟩ := List.eq_nil_or_concat' init
    · exact lone (by rw [dot]; rfl)
    · rw [← List.append_assoc, List.reverse_concat, List.head?_cons, Option.some.injEq] at head
      exact h.plain (by simp [head])
  rw [splitLast, kept, h.reverse_split.1, h.reverse_split.2, List.reverse_reverse,
    List.reverse_reverse]

end Divides

/-! ## Extensions -/

/-- The stem of a name is what stands in front of the last dot, if something does. -/
theorem stem?_append {old : List Char} (named : base ≠ []) (typed : old ≠ []) (plain : '.' ∉ old) :
    stem? (base ++ '.' :: old) = some base := by
  have long : 3 ≤ (base ++ '.' :: old).length := by
    have := List.length_pos_of_ne_nil named
    have := List.length_pos_of_ne_nil typed
    simp only [List.length_append, List.length_cons]
    omega
  have part : ¬ (base ++ '.' :: old = [] ∨ base ++ '.' :: old = ['.'] ∨
      base ++ '.' :: old = ['.', '.']) := by
    rintro (h | h | h) <;> simp [h] at long
  have cut : Text.cutAt '.' (base ++ '.' :: old).reverse = some (old.reverse, base.reverse) := by
    rw [List.reverse_append, List.reverse_cons, List.append_assoc, List.singleton_append]
    exact Text.cutAt_append (mt List.mem_reverse.1 plain) _
  rw [stem?, if_neg part, cut]
  obtain ⟨init, c, rfl⟩ := (List.eq_nil_or_concat' base).resolve_left named
  simp

/-- Replacing the extension of a path undoes appending it, unless taking it off leaves the way back
up. -/
theorem withExtension_append {path old : String} (new : String) (named : path ≠ "")
    (unclosed : ¬ ['/'] <:+ path.toList) (typed : old ≠ "") (flat : '/' ∉ old.toList)
    (plain : '.' ∉ old.toList) :
    withExtension new (path ++ "." ++ old) =
      if EndsInDot path then path ++ "." else path ++ "." ++ new := by
  obtain ⟨above, base, parts⟩ := exists_divides path.toList
  have base_ne := parts.ne_nil (mt String.toList_eq_nil_iff.1 named) unclosed
  have old_ne := mt String.toList_eq_nil_iff.1 typed
  have whole : (path ++ "." ++ old).toList = path.toList ++ '.' :: old.toList := by
    simp
  have level : '/' ∉ '.' :: old.toList := by simpa using flat
  have extended := parts.extend level
  have lone : base ++ '.' :: old.toList ≠ ['.'] := by
    intro h
    have := congrArg List.length h
    simp only [List.length_append, List.length_cons, List.length_nil] at this
    exact base_ne (List.eq_nil_of_length_eq_zero (by omega))
  rw [withExtension, whole, extended.splitLast_eq (by simp) lone]
  dsimp only
  rw [stem?_append base_ne old_ne plain]
  dsimp only
  rw [← extended.whole, parts.whole]
  simp only [parts.endsInDot_iff, and_true]
  split
  · rename_i dot
    rw [← String.toList_inj]
    simp [parts.whole, dot]
  · rw [← String.toList_inj]
    simp [parts.whole]

/-! ## Names in a directory -/

/-- What is appended to a name is appended to its path. -/
theorem join_append (dir : String) (named : name ≠ "") (more : String) :
    join dir (name ++ more) = join dir name ++ more := by
  have head : (name ++ more).toList.head? = name.toList.head? := by
    rw [String.toList_append, List.head?_append_of_ne_nil _ (mt String.toList_eq_nil_iff.1 named)]
  unfold join
  rw [head]
  split
  · rfl
  · split <;> simp only [String.append_assoc]

/-- A name stands at the end of its path, as parts of its own. -/
theorem exists_join_eq (dir name : String) : ∃ lead, (lead = [] ∨ ['/'] <:+ lead) ∧
    (join dir name).toList = lead ++ name.toList := by
  unfold join
  split
  · exact ⟨[], .inl rfl, rfl⟩
  · split
    · rename_i closed
      refine ⟨dir.toList, ?_, String.toList_append⟩
      rw [Option.all_eq_true] at closed
      obtain empty | ⟨front, c, whole⟩ := List.eq_nil_or_concat' dir.toList
      · exact .inl empty
      · have slash := closed c (by rw [whole, List.getLast?_concat])
        rw [decide_eq_true_eq] at slash
        exact .inr ⟨front, by rw [whole, slash]⟩
    · exact ⟨dir.toList ++ ['/'], .inr (List.suffix_append _ _), by simp⟩

theorem endsInDot_join (dir name : String) : EndsInDot (join dir name) ↔ EndsInDot name := by
  obtain ⟨above, base, parts⟩ := exists_divides name.toList
  obtain ⟨lead, closed, whole⟩ := exists_join_eq dir name
  have joined := parts.append closed
  rw [← whole] at joined
  rw [parts.endsInDot_iff, joined.endsInDot_iff]

/-- A path does not end in a slash when its last part does not. -/
theorem unclosed_join (dir : String) (named : name ≠ "") (unclosed : ¬ ['/'] <:+ name.toList) :
    ¬ ['/'] <:+ (join dir name).toList := by
  obtain ⟨lead, -, whole⟩ := exists_join_eq dir name
  have some_char := List.length_pos_of_ne_nil (mt String.toList_eq_nil_iff.1 named)
  rw [whole]
  exact fun ends =>
    unclosed (List.suffix_of_suffix_length_le ends (List.suffix_append _ _) some_char)

theorem join_ne_empty (dir : String) (named : name ≠ "") : join dir name ≠ "" := by
  obtain ⟨lead, -, whole⟩ := exists_join_eq dir name
  intro empty
  rw [empty] at whole
  exact named (String.toList_eq_nil_iff.1 (List.append_eq_nil_iff.1 whole.symm).2)

/-- The document that is looked for beside a drawing: the one of the drawing's name, unless that is a
lone dot. -/
theorem withExtension_join (dir : String) (named : name ≠ "") (unclosed : ¬ ['/'] <:+ name.toList) :
    withExtension "json" (join dir (name ++ ".svg")) =
      if EndsInDot name then join dir (name ++ ".") else join dir (name ++ ".json") := by
  simp only [join_append dir named]
  rw [show join dir name ++ ".svg" = join dir name ++ "." ++ "svg" by
      rw [String.append_assoc]; rfl,
    withExtension_append "json" (join_ne_empty dir named) (unclosed_join dir named unclosed)
      (by decide) (by decide) (by decide), String.append_assoc]
  simp only [endsInDot_join]
  rfl

/-! ## The two ways to read a drawing -/

/-- Only a document that holds nothing, beside no drawing. -/
def loneDocument (path : String) : Files :=
  fun p => if p = path then .file [] else .fault .notFound

theorem isFile_loneDocument {p : String} : (loneDocument path).isFile p = decide (p = path) := by
  unfold isFile loneDocument
  by_cases h : p = path <;> simp [h]

/-- Nothing is no document. -/
theorem overrides_loneDocument (path : String) :
    ((loneDocument path).overrides path).outcome = .error (.overrides path .ended) := by
  have empty : Overrides.ofDocument (.ofBytes []) = .error .ended := rfl
  have bytes : (loneDocument path).bytes path = .ok [] := by
    simp [Files.bytes, loneDocument]
  simp only [overrides, bytes, Logged.outcome_bind, Logged.outcome_lift, Except.bind]
  rw [Overrides.read, empty]
  rfl

/-- Reading by path takes the document that replacing the extension leads to. -/
theorem load_join (fs : Files) (dir : String) (named : name ≠ "")
    (unclosed : ¬ ['/'] <:+ name.toList) :
    fs.load (join dir (name ++ ".svg")) none none = fs.drawing (join dir (name ++ ".svg"))
      (fs.ifFile (if EndsInDot name then join dir (name ++ ".") else join dir (name ++ ".json")))
      none := by
  rw [load, Option.none_or, withExtension_join dir named unclosed]

theorem ifFile_eq_none {fs : Files} (h : fs.isFile path = false) : fs.ifFile path = none := by
  rw [ifFile, h]
  rfl

/-- Paths of one name with different endings differ. -/
theorem join_append_ne (dir : String) (named : name ≠ "") {more more' : String} (h : more ≠ more') :
    join dir (name ++ more) ≠ join dir (name ++ more') := by
  rw [join_append dir named, join_append dir named, ne_eq, String.append_right_inj]
  exact h

/-- A document that holds nothing is found by the name. -/
theorem artboard_loneDocument (dir name : String) :
    ((loneDocument (join dir (name ++ ".json"))).artboard dir name).outcome =
      .error (.overrides (join dir (name ++ ".json")) .ended) := by
  simp only [artboard, ifFile, isFile_loneDocument, decide_true, if_true, drawing,
    Logged.outcome_bind, overrides_loneDocument]
  rfl

/-- By the path of a lone dot it is missed, and the drawing is looked for. -/
theorem load_loneDocument (dir : String) (named : name ≠ "") (unclosed : ¬ ['/'] <:+ name.toList)
    (dot : EndsInDot name) :
    ((loneDocument (join dir (name ++ ".json"))).load (join dir (name ++ ".svg"))
      none none).outcome = .error (.file .notFound) := by
  have noDocument : (loneDocument (join dir (name ++ ".json"))).isFile (join dir (name ++ ".")) =
      false := by
    rw [isFile_loneDocument]
    exact decide_eq_false (join_append_ne dir named (by decide))
  have noDrawing : loneDocument (join dir (name ++ ".json")) (join dir (name ++ ".svg")) =
      .fault .notFound :=
    if_neg (join_append_ne dir named (by decide))
  rw [load_join _ dir named unclosed, if_pos dot, ifFile_eq_none noDocument]
  simp only [drawing, Logged.outcome_bind, Logged.outcome_lift, text, Files.bytes, noDrawing]
  rfl

/-- A drawing read by the name of its artboard and the same drawing read by its path come to the same
screen or failure for all files there may be, if and only if the last part of the name is no lone
dot. With no document to be found they do for every name. -/
theorem artboard_eq_load (dir : String) {name : String} (named : name ≠ "")
    (unclosed : ¬ ['/'] <:+ name.toList) :
    ((∀ fs : Files, (fs.artboard dir name).outcome =
        (fs.load (join dir (name ++ ".svg")) none none).outcome) ↔ ¬ EndsInDot name) ∧
      ∀ fs : Files, fs.isFile (join dir (name ++ ".json")) = false →
        fs.isFile (join dir (name ++ ".")) = false →
          (fs.artboard dir name).outcome =
            (fs.load (join dir (name ++ ".svg")) none none).outcome := by
  refine ⟨⟨fun same dot => ?_, fun dotless fs => ?_⟩, fun fs noDocument flat => ?_⟩
  · have both := same (loneDocument (join dir (name ++ ".json")))
    rw [artboard_loneDocument, load_loneDocument dir named unclosed dot] at both
    cases both
  · rw [load_join fs dir named unclosed, if_neg dotless, artboard]
  · rw [load_join fs dir named unclosed, artboard, ifFile_eq_none noDocument]
    split
    · rw [ifFile_eq_none flat]
    · rw [ifFile_eq_none noDocument]

/-- A name may start with a dot, or end in one, as long as it is not a lone dot. -/
theorem artboard_eq_load_dotted : "v1.2/.home." ≠ "" ∧ ¬ ['/'] <:+ "v1.2/.home.".toList ∧
    ∀ fs : Files, (fs.artboard "screens" "v1.2/.home.").outcome =
      (fs.load (join "screens" ("v1.2/.home." ++ ".svg")) none none).outcome :=
  ⟨by decide, by decide, (artboard_eq_load "screens" (by decide) (by decide)).1.2 (by decide)⟩

/-- The bytes of a text of plain characters. -/
def plainBytes (s : String) : List UInt8 :=
  s.toList.map fun c => c.toNat.toUInt8

/-- A drawing whose name is a lone dot, and beside it a document that colors its layer. -/
def dotFiles : Tree :=
  .directory
    [("..svg", .file (plainBytes ("<svg width=\"9\" height=\"9\"><g><g>" ++
        "<rect id=\"a\" x=\"0\" y=\"0\" width=\"1\" height=\"1\"/></g></g></svg>"))),
      ("..json", .file (plainBytes
        "\x7b\"layers\": [\x7b\"name\": \"a\", \"fill\": \"#FF8000\"\x7d]\x7d"))]

/-- The colors of the layers of a screen. -/
def fills (s : Logged Screen) : Option (List (Option Rgb)) :=
  s.outcome.toOption.map (·.layers.map (·.content.style.fill))

set_option maxRecDepth 4000 in
/-- The document of a lone dot colors its layer only where the drawing is read by name. -/
theorem load_dotFiles : fills (dotFiles.entry.artboard "." ".") = some [some ⟨255, 128, 0⟩] ∧
    fills (dotFiles.entry.load (join "." ("." ++ ".svg")) none none) = some [none] := by
  constructor <;> decide +kernel

end CanvasLayout.Files
