import CanvasLayout.Proofs.ScreenData

/-!
# Screens written and read

A screen is read back from its text exactly when its numbers are finite and its text is not
nested too deep (`ofText_text`, `ofText_text_iff`), and every screen that was read from any text is
such a screen (`ofText_text_of_ofText`).
-/

namespace CanvasLayout

open Json (Form RawText)

namespace Screen

/-- A screen is read in two steps: the datum of its form, and the screen of the datum. -/
theorem ofText_eq (t : String) :
    ofText t = (RawText.ofString t).read (fun r =>
      Form.read Interchange.fields 0 (.record .screen) r >>= fun d =>
        Json.orMismatch (ofDatum? d)) := rfl

theorem lawful : (.record .screen : Form Interchange.Record).Lawful Interchange.fields := trivial

/-- A readable screen is read from its text. -/
theorem ofText_text_of_readable {s : Screen} (readable : Form.Readable 0 s.json) :
    ofText s.text = .ok s := by
  have read := Form.read_write Interchange.lawful_fields lawful
    (Interchange.renders_screen.fits s) readable
  rw [ofText_eq, text, Json.ofString_pretty, RawText.read, json, read]
  simp only [Json.ok_bind, Interchange.renders_screen.back]
  rfl

/-- A screen is written readably when its numbers are finite and it is nested no deeper than the
reader goes. -/
theorem readable_iff (s : Screen) : Form.Readable 0 s.json ↔
    (∀ x, .float x ∈ s.json.leaves → x.isFinite) ∧ s.json.depth ≤ 127 := by
  constructor
  · rintro ⟨range, shallow⟩
    exact ⟨fun x hx => range _ hx, by rwa [Nat.zero_add] at shallow⟩
  · rintro ⟨finite, shallow⟩
    exact Form.readable_write Interchange.lawful_fields lawful (Interchange.renders_screen.fits s)
      finite (by rwa [Nat.zero_add])

/-- A screen whose numbers are finite is read from its text, unless that is nested too deep. -/
theorem ofText_text (s : Screen) (finite : ∀ x, .float x ∈ s.json.leaves → x.isFinite)
    (shallow : s.json.depth ≤ 127) : ofText s.text = .ok s :=
  ofText_text_of_readable ((readable_iff s).2 ⟨finite, shallow⟩)

/-- An element of the gallery. -/
def exhibit (id : String) (layer : Layer Element) : Element where
  id := id
  style := { fill := some ⟨255, 0, 128⟩, opacity := some 0.3, fontFamily := some "Ä \"☃\"\n" }
  frame := ⟨0, -0.1, 320, 1e-7⟩
  layer := layer

/-- An element below an earlier one or the edge of the canvas. -/
def placed (e : Element) (above : Option String) : PlacedLayer where
  id := e.id
  content := ⟨e.style, e.layer⟩
  frame := ⟨0, 0.2, 1, 1 / 3⟩
  pixelFrame := e.frame
  vertical := ⟨.up, above, 0.2⟩
  horizontal := ⟨.left, none, -0⟩

/-- A canvas with a layer of each variant. -/
def gallery : Screen :=
  let plate := exhibit "plate" (.shape .rect)
  let label := exhibit "label" (.text ⟨"Buy", ⟨160, 5e-8⟩, none⟩)
  let button := exhibit "buy" (.button ⟨"Buy", none, some plate, label⟩)
  let cell := exhibit "cell" (.container ⟨.cell, [button]⟩)
  let fruit := exhibit "fruit" (.group ⟨none, [cell, cell], .empty, plate, [12.5], true⟩)
  let table := exhibit "goods" (.list ⟨.table, none, [fruit], [], .empty, some plate⟩)
  let tabs := exhibit "tabs" (.container ⟨.sliderOptions, []⟩)
  let pages := exhibit "pages" (.container ⟨.sliderContent, [label]⟩)
  let tour := exhibit "tour" (.slider ⟨tabs, pages, none⟩)
  ⟨⟨320, 568, ⟨255, 255, 255⟩, "Store", "Home"⟩, [placed table none, placed tour (some "goods")]⟩

/-- The gallery has elements of every kind, nested in each other. -/
theorem ofText_text_gallery :
    (∀ x, .float x ∈ gallery.json.leaves → x.isFinite) ∧ gallery.json.depth ≤ 127 ∧
      ofText gallery.text = .ok gallery := by
  have check : ∀ leaf ∈ gallery.json.leaves, leaf.InRange := by decide +kernel
  have finite : ∀ x, .float x ∈ gallery.json.leaves → x.isFinite := fun x hx => check (.float x) hx
  have shallow : gallery.json.depth ≤ 127 := by decide +kernel
  exact ⟨finite, shallow, ofText_text gallery finite shallow⟩

/-- A screen that a text holds is readable. -/
theorem readable_of_ofText {t : String} {s : Screen} (h : ofText t = .ok s) :
    Form.Readable 0 s.json := by
  rw [ofText_eq, RawText.read] at h
  obtain ⟨a, ha, h⟩ := Json.bind_eq_ok.1 h
  split at h
  · contradiction
  · cases h
    obtain ⟨d, hd, ha⟩ := Json.bind_eq_ok.1 ha
    have kept := Form.kept_of_read Interchange.lawful_fields _ lawful (Nat.zero_le _) hd
    rw [json, Interchange.renders_screen.only kept.1 (Json.orMismatch_eq_ok.1 ha)]
    exact kept.2

/-- Whatever a text looks like, the screen that it holds is read from the text written for it. -/
theorem ofText_text_of_ofText {t : String} {s : Screen} (h : ofText t = .ok s) :
    ofText s.text = .ok s :=
  ofText_text_of_readable (readable_of_ofText h)

/-- A screen spelled in other ways than it is written. -/
def sketch : String :=
  "\x7b\"note\": [1e2], \"layers\": [[\"a\", \x7b\x7d, [0, 0, 1, 0.5], [0, 0, 9, 1E0], " ++
    "[\x7b\"up\": null\x7d, null, 0], [\"left\", \"b\", -0], [\"shape\", \"rect\"]]], " ++
    "\"canvas\": [9, 2, [0, 0, 0], \"\\u0070\", \"q\"]\x7d"

/-- The sketch has members that are unknown, objects written as arrays and choices written as
objects. -/
theorem ofText_text_sketch :
    ∃ s, ofText sketch = .ok s ∧ s.layers.map (·.id) = ["a"] ∧ ofText s.text = .ok s := by
  have ids : (ofText sketch).toOption.map (fun s => s.layers.map (·.id)) = some ["a"] := by
    decide +kernel
  cases read : ofText sketch with
  | error f =>
    rw [read] at ids
    cases ids
  | ok s =>
    rw [read] at ids
    exact ⟨s, rfl, Option.some.inj ids, ofText_text_of_ofText read⟩

/-- A screen is read from its text if and only if its numbers are finite and it is shallow. -/
theorem ofText_text_iff (s : Screen) :
    ofText s.text = .ok s ↔ (∀ x, .float x ∈ s.json.leaves → x.isFinite) ∧ s.json.depth ≤ 127 := by
  rw [← readable_iff]
  exact ⟨readable_of_ofText, ofText_text_of_readable⟩

end Screen

end CanvasLayout
