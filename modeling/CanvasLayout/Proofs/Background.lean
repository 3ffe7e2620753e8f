import Mathlib
import CanvasLayout.Drawing.Canvas
import CanvasLayout.Proofs.ColorTexts
import CanvasLayout.Proofs.Outcome

/-!
# The background in the style of a drawing

The style is cut into words at white space and colons, and the first word with a mark in front is the
background. A semicolon cuts nothing: semicolons are only dropped at the end of that word, so what is
written behind the semicolon without white space is taken for a part of the color, and the drawing is
refused (`Drawing.background_of_mark`).
-/

namespace CanvasLayout

namespace Text

/-! ## Words -/

variable {p : Char → Bool}

theorem pieces_ne_nil (cs : List Char) : pieces p cs ≠ [] := by
  cases cs with
  | nil => exact List.cons_ne_nil _ _
  | cons c cs =>
    rw [pieces]
    split
    · exact List.cons_ne_nil _ _
    · split <;> exact List.cons_ne_nil _ _

/-- A text is cut at each separator. -/
theorem pieces_append_cons (cs : List Char) {c : Char} (separates : p c) (ds : List Char) :
    pieces p (cs ++ c :: ds) = pieces p cs ++ pieces p ds := by
  induction cs with
  | nil => simp [pieces, separates]
  | cons a cs ih =>
    rw [List.cons_append, pieces, pieces, ih]
    split
    · rfl
    · cases known : pieces p cs with
      | nil => exact absurd known (pieces_ne_nil cs)
      | cons w ws => rfl

theorem head?_pieces (cs : List Char) : (pieces p cs).head? = some (cs.takeWhile (!p ·)) := by
  induction cs with
  | nil => rfl
  | cons c cs ih =>
    rw [pieces]
    by_cases separates : p c
    · simp [separates]
    · rw [if_neg separates, List.takeWhile_cons_of_pos (by simpa using separates)]
      cases known : pieces p cs with
      | nil => exact absurd known (pieces_ne_nil cs)
      | cons w ws =>
        rw [known, List.head?_cons, Option.some.injEq] at ih
        rw [List.head?_cons, ih]

theorem mem_of_mem_pieces {cs w : List Char} (hw : w ∈ pieces p cs) {c : Char} (hc : c ∈ w) :
    c ∈ cs := by
  induction cs generalizing w with
  | nil =>
    rw [pieces, List.mem_singleton] at hw
    exact hw ▸ hc
  | cons a cs ih =>
    rw [pieces] at hw
    split at hw
    · rcases List.mem_cons.1 hw with rfl | hw
      · cases hc
      · exact List.mem_cons_of_mem _ (ih hw hc)
    · cases known : pieces p cs with
      | nil => exact absurd known (pieces_ne_nil cs)
      | cons v vs =>
        rw [known] at hw ih
        rcases List.mem_cons.1 hw with rfl | hw
        · rcases List.mem_cons.1 hc with rfl | hc
          · exact List.mem_cons_self
          · exact List.mem_cons_of_mem _ (ih List.mem_cons_self hc)
        · exact List.mem_cons_of_mem _ (ih (List.mem_cons_of_mem _ hw) hc)

end Text

namespace Drawing

open Logged (bind_eq_ok)
open Text (dropEndWhile isBlank pieces)
open Rgb (Spells)
open Xml (Tag)

/-! ## The color of a style -/

/-- The words of a style end at white space and colons. -/
def separates (c : Char) : Bool := isBlank c || c == ':'

/-- The color is written from the first mark, if that starts a word, to the end of the word. -/
theorem colorWord?_eq {style : String} {front tail : List Char}
    (split : style.toList = front ++ '#' :: tail) (unmarked : '#' ∉ front)
    (apart : ∃ c ∈ front.getLast?, separates c) :
    colorWord? style =
      some (.ofList (dropEndWhile (· == ';') ('#' :: tail.takeWhile (!separates ·)))) := by
  obtain ⟨c, hc, hsep⟩ := apart
  obtain ⟨q, rfl⟩ := List.getLast?_eq_some_iff.1 hc
  obtain ⟨ws, known⟩ := List.head?_eq_some_iff.1 (@Text.head?_pieces separates ('#' :: tail))
  have words : pieces separates style.toList =
      pieces separates q ++ ('#' :: tail.takeWhile (!separates ·)) :: ws := by
    rw [split, List.append_assoc, List.singleton_append, Text.pieces_append_cons q hsep, known]
    rfl
  have others : ∀ w ∈ pieces separates q, ¬ (decide (w.head? = some '#')) = true := by
    intro w hw marked
    have mem := Text.mem_of_mem_pieces hw (List.mem_of_head? (of_decide_eq_true marked))
    exact unmarked (List.mem_append_left _ mem)
  unfold colorWord?
  show Option.map _ ((pieces separates style.toList).find? _) = _
  rw [words, List.find?_append, List.find?_eq_none.2 others, Option.none_or,
    List.find?_cons_of_pos (by rfl)]
  rfl

/-- The background is the color that the first word with a mark spells. -/
theorem outcome_background {root : Tag} {style word : String}
    (given : root.attribute? "style" = some style) (found : colorWord? style = some word) :
    (background root).outcome =
      (Rgb.ofHex? word).elim (.error (.format (.invalidBackground word))) .ok := by
  unfold background
  rw [given]
  dsimp only
  rw [found]
  dsimp only
  cases Rgb.ofHex? word <;> rfl

/-! ## A color and its semicolon -/

section Semicolon

variable {style : String} {front digits rest : List Char} {x : Rgb}

/-- What stands behind a semicolon up to the end of the word. -/
def glued (rest : List Char) : List Char := rest.takeWhile (!separates ·)

theorem not_separates (spells : Spells digits x) : ∀ c ∈ digits, (!separates c) = true := by
  intro c hc
  obtain ⟨d, digit⟩ := Rgb.isHexDigit_of_spells spells c hc
  have plain := digit.plain
  simp only [List.mem_cons, List.not_mem_nil, or_false, not_or] at plain
  simp [separates, plain.1, plain.2.2.2.2]

theorem not_semicolon (spells : Spells digits x) :
    ∀ c ∈ ('#' :: digits).getLast?, (c == ';') = false := by
  intro c hc
  rcases List.mem_cons.1 (List.mem_of_getLast? hc) with rfl | mem
  · rfl
  · obtain ⟨d, digit⟩ := Rgb.isHexDigit_of_spells spells c mem
    have plain := digit.plain.2
    simp only [List.mem_cons, List.not_mem_nil, or_false, not_or] at plain
    exact beq_false_of_ne plain.2.2.1

/-- A word with a semicolon in it goes on behind the semicolon. -/
theorem colorWord?_semicolon (split : style.toList = front ++ '#' :: (digits ++ ';' :: rest))
    (unmarked : '#' ∉ front) (apart : ∃ c ∈ front.getLast?, c = ':' ∨ isBlank c)
    (spells : Spells digits x) :
    colorWord? style =
      some (.ofList (dropEndWhile (· == ';') ('#' :: digits ++ ';' :: glued rest))) := by
  have apart' : ∃ c ∈ front.getLast?, separates c := by
    obtain ⟨c, hc, h⟩ := apart
    exact ⟨c, hc, by simpa [separates, or_comm] using h⟩
  have word : (digits ++ ';' :: rest).takeWhile (!separates ·) = digits ++ ';' :: glued rest := by
    rw [List.takeWhile_append_of_pos (not_separates spells),
      List.takeWhile_cons_of_pos (by decide)]
    rfl
  rw [colorWord?_eq split unmarked apart', word]
  rfl

theorem dropEndWhile_closed (spells : Spells digits x) (closed : ∀ c ∈ glued rest, c = ';') :
    dropEndWhile (· == ';') ('#' :: digits ++ ';' :: glued rest) = '#' :: digits := by
  have dropped : ∀ c ∈ ';' :: glued rest, (c == ';') = true := by simpa using closed
  rw [Text.dropEndWhile_append dropped, Text.dropEndWhile_eq_self (not_semicolon spells)]

/-- A semicolon with something else behind it stays in the word. -/
theorem dropEndWhile_continued (continued : ∃ c ∈ glued rest, c ≠ ';') :
    dropEndWhile (· == ';') ('#' :: digits ++ ';' :: glued rest) =
      '#' :: digits ++ ';' :: dropEndWhile (· == ';') (glued rest) := by
  have kept : ∃ c ∈ glued rest, ¬ (c == ';') = true := by simpa using continued
  rw [List.append_cons, Text.dropEndWhile_append_of_exists kept, ← List.append_cons]

/-- A canvas that is made has the background of its root. -/
theorem background_of_canvas {root page artboard : Tag} {made : Canvas}
    (h : (canvas root page artboard).outcome = .ok made) :
    (background root).outcome = .ok made.background := by
  obtain ⟨width, -, h⟩ := bind_eq_ok.1 h
  obtain ⟨height, -, h⟩ := bind_eq_ok.1 h
  obtain ⟨color, read, h⟩ := bind_eq_ok.1 h
  obtain ⟨-, -, h⟩ := bind_eq_ok.1 h
  cases h
  exact read

/-- The background is the color up to the semicolon if nothing but semicolons is glued to that; what
else is glued to it makes the background invalid. Either way no canvas has another background. -/
theorem background_of_mark {root : Tag} (given : root.attribute? "style" = some style)
    (split : style.toList = front ++ '#' :: (digits ++ ';' :: rest)) (unmarked : '#' ∉ front)
    (apart : ∃ c ∈ front.getLast?, c = ':' ∨ isBlank c) (spells : Spells digits x) :
    ((background root).outcome = .ok x ↔ ∀ c ∈ glued rest, c = ';') ∧
      ((∃ c ∈ glued rest, c ≠ ';') → (background root).outcome =
        .error (.format (.invalidBackground
          (.ofList ('#' :: digits ++ ';' :: dropEndWhile (· == ';') (glued rest)))))) ∧
      ∀ page artboard made, (canvas root page artboard).outcome = .ok made →
        made.background = x := by
  have outcome := outcome_background given (colorWord?_semicolon split unmarked apart spells)
  have accepted (closed : ∀ c ∈ glued rest, c = ';') : (background root).outcome = .ok x := by
    rw [outcome, dropEndWhile_closed spells closed, Rgb.ofHex?_of_spells spells]
    rfl
  have refused (continued : ∃ c ∈ glued rest, c ≠ ';') : (background root).outcome =
      .error (.format (.invalidBackground
        (.ofList ('#' :: digits ++ ';' :: dropEndWhile (· == ';') (glued rest))))) := by
    rw [outcome, dropEndWhile_continued continued, Rgb.ofHex?_eq_none (by simp)]
    rfl
  have exact_ok : (background root).outcome = .ok x ↔ ∀ c ∈ glued rest, c = ';' := by
    refine ⟨fun read => ?_, accepted⟩
    by_contra! continued
    cases read.symm.trans (refused continued)
  refine ⟨exact_ok, refused, fun page artboard made h => ?_⟩
  have read := background_of_canvas h
  by_cases closed : ∀ c ∈ glued rest, c = ';'
  · exact Except.ok.inj (read.symm.trans (accepted closed))
  · push Not at closed
    cases read.symm.trans (refused closed)

/-- A declaration that follows after a space leaves the color as it is. -/
theorem background_of_mark_spaced :
    let style := "background: #12ab34;; color: #ffffff"
    let root : Tag := ⟨"svg", [("style", style)], 0⟩
    let front := "background: ".toList
    let digits := "12ab34".toList
    let rest := "; color: #ffffff".toList
    root.attribute? "style" = some style ∧
      style.toList = front ++ '#' :: (digits ++ ';' :: rest) ∧ '#' ∉ front ∧
      (∃ c ∈ front.getLast?, c = ':' ∨ isBlank c) ∧ Spells digits ⟨0x12, 0xab, 0x34⟩ ∧
      (background root).outcome = .ok ⟨0x12, 0xab, 0x34⟩ := by
  intro style root front digits rest
  have given : root.attribute? "style" = some style := rfl
  have split : style.toList = front ++ '#' :: (digits ++ ';' :: rest) := by decide +kernel
  have unmarked : '#' ∉ front := by decide +kernel
  have apart : ∃ c ∈ front.getLast?, c = ':' ∨ isBlank c := ⟨' ', by decide +kernel, by decide⟩
  have spells : Spells digits ⟨0x12, 0xab, 0x34⟩ :=
    (Rgb.ofDigits?_eq_some_of_not_mem (by decide +kernel)).1 (by decide +kernel)
  have closed : ∀ c ∈ glued rest, c = ';' := by
    rw [show glued rest = [';'] by decide +kernel]
    exact List.forall_mem_singleton.2 rfl
  exact ⟨given, split, unmarked, apart, spells,
    (background_of_mark given split unmarked apart spells).1.2 closed⟩

/-- A declaration that follows without a space hides the color. -/
theorem background_gluedDeclaration :
    let style := "background:#FF8000;color:red"
    let root : Tag := ⟨"svg", [("style", style)], 0⟩
    let front := "background:".toList
    let digits := "FF8000".toList
    style.toList = front ++ '#' :: (digits ++ ';' :: "color:red".toList) ∧ '#' ∉ front ∧
      (∃ c ∈ front.getLast?, c = ':' ∨ isBlank c) ∧ Spells digits ⟨0xFF, 0x80, 0⟩ ∧
      (background root).outcome = .error (.format (.invalidBackground "#FF8000;color")) := by
  intro style root front digits
  have split : style.toList = front ++ '#' :: (digits ++ ';' :: "color:red".toList) := by
    decide +kernel
  have unmarked : '#' ∉ front := by decide +kernel
  have apart : ∃ c ∈ front.getLast?, c = ':' ∨ isBlank c := ⟨':', by decide +kernel, by decide⟩
  have spells : Spells digits ⟨0xFF, 0x80, 0⟩ :=
    (Rgb.ofDigits?_eq_some_of_not_mem (by decide +kernel)).1 (by decide +kernel)
  have word : colorWord? style = some "#FF8000;color" := by decide +kernel
  have unread : Rgb.ofHex? "#FF8000;color" = none := by decide +kernel
  refine ⟨split, unmarked, apart, spells, ?_⟩
  rw [outcome_background rfl word, unread]
  rfl

end Semicolon

end Drawing

end CanvasLayout
