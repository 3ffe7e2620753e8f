import CanvasLayout.Proofs.Anchoring
import CanvasLayout.Proofs.DrawnLayers
import CanvasLayout.Validation.Report

/-!
# Checks that anchored screens pass

Whatever the frames are, an anchor that placement made has the direction of its axis and refers to
an earlier layer or to none, so of the checks on anchors only that on the distance can fail
(`anchorIssues_placeAll`). On frames in whole pixels below `2 ^ 52` the distance is exact and the
check passes, so layers with names of their own make a screen without errors
(`Screen.isOk_validate_ofElements`).
-/

namespace CanvasLayout

open Binary64 (Has Holds)

namespace Validation

section Names

variable {α γ : Type} {layers : List (Placed α γ)} {i : Nat} {p : Placed α γ}

theorem position?_eq_some {id : String} {j : Nat} (h : position? layers id = some j) :
    ∃ q, layers[j]? = some q ∧ q.id = id := by
  obtain ⟨lt, same, -⟩ := List.findIdx?_eq_some_iff_getElem.1 h
  exact ⟨_, List.getElem?_eq_getElem lt, of_decide_eq_true same⟩

/-- The first layer with the name of a layer does not come after it. -/
theorem position?_le (h : layers[i]? = some p) : ∃ j ≤ i, position? layers p.id = some j := by
  obtain ⟨lt, rfl⟩ := List.getElem?_eq_some_iff.1 h
  have found : ∃ q ∈ layers, decide (q.id = layers[i].id) = true :=
    ⟨_, List.getElem_mem lt, decide_eq_true rfl⟩
  refine ⟨_, ?_, List.findIdx?_eq_some_of_exists found⟩
  by_contra later
  have other := List.not_of_lt_findIdx (Nat.lt_of_not_le later)
  rw [decide_eq_true rfl] at other
  contradiction

theorem nameIssues_of_nodup (distinct : (layers.map (·.id)).Nodup) (h : layers[i]? = some p) :
    nameIssues layers i p = [] := by
  obtain ⟨j, le, first⟩ := position?_le h
  obtain ⟨q, hq, same⟩ := position?_eq_some first
  have : j = i := by
    have lt := (List.getElem?_eq_some_iff.1 hq).1
    refine (List.getElem?_inj (by simpa using lt) distinct).1 ?_
    rw [List.getElem?_map, List.getElem?_map, h, hq, Option.map_some, Option.map_some, same]
  unfold nameIssues
  rw [first]
  exact if_neg (by omega)

end Names

section Anchors

variable {α γ : Type} [Scalar α] {canvas : Extent α} {bs : List (Block α γ)} {i : Nat}
  {p : Placed α γ}

/-- An anchor refers to an earlier layer or to none. -/
theorem referenceIssues_placeAll (h : (Block.placeAll canvas bs)[i]? = some p) (a : Axis) :
    referenceIssues (Block.placeAll canvas bs) i p.id a (p.anchor a).reference = [] := by
  rcases Block.anchor_cases h a with ⟨j, q, distance, before, hq, -, anchor⟩ | anchor
  · obtain ⟨first, le, position⟩ := position?_le hq
    rw [anchor]
    simp only [referenceIssues, position]
    exact if_neg (by omega)
  · rw [anchor]
    rfl

/-- All that can be wrong with an anchor that placement made is its distance. -/
theorem anchorIssues_placeAll (h : (Block.placeAll canvas bs)[i]? = some p) (a : Axis) :
    anchorIssues (Block.placeAll canvas bs) i p a =
      if Scalar.isFinite (p.anchor a).distance && !Scalar.negative (p.anchor a).distance then []
      else [.invalidDistance p.id a (p.anchor a).distance] := by
  have direction : (p.anchor a).direction = a.direction := by
    rcases Block.anchor_cases h a with ⟨j, q, distance, -, -, -, anchor⟩ | anchor <;> rw [anchor]
  unfold anchorIssues
  simp only [referenceIssues_placeAll h a, direction, if_true, List.nil_append, List.append_nil]

end Anchors

end Validation

/-- All numbers of a frame are below `2 ^ 52`, so that an edge is below `2 ^ 53`. -/
def Frame.IsSmall {s : Space} (f : Frame s Float) : Prop :=
  ∀ a, f.start a < Float.ofNat (2 ^ 52) ∧ f.extent a < Float.ofNat (2 ^ 52)

namespace Frame

instance {s : Space} (f : Frame s Float) : Decidable f.IsSmall :=
  let small (a : Axis) : Prop :=
    f.start a < Float.ofNat (2 ^ 52) ∧ f.extent a < Float.ofNat (2 ^ 52)
  decidable_of_iff (small .horizontal ∧ small .vertical)
    ⟨fun h a => match a with | .horizontal => h.1 | .vertical => h.2, fun h => ⟨h _, h _⟩⟩

theorem isFinite_iff {α : Type} [Scalar α] {s : Space} {f : Frame s α} : f.isFinite = true ↔
    ∀ a, Scalar.isFinite (f.start a) = true ∧ Scalar.isFinite (f.extent a) = true := by
  unfold isFinite
  simp only [Bool.and_eq_true]
  constructor
  · rintro ⟨⟨⟨x, y⟩, width⟩, height⟩ a
    cases a
    · exact ⟨x, width⟩
    · exact ⟨y, height⟩
  · intro h
    exact ⟨⟨⟨(h .horizontal).1, (h .vertical).1⟩, (h .horizontal).2⟩, (h .vertical).2⟩

theorem IsWhole.isFinite {s : Space} {f : Frame s Float} (whole : f.IsWhole) :
    f.isFinite = true := by
  rw [isFinite_iff]
  intro a
  obtain ⟨⟨m, hm⟩, ⟨n, hn⟩⟩ := whole a
  exact ⟨hm.isFinite, hn.isFinite⟩

theorem lt_of_small {x : Float} {n : ℕ} (h : Has x n) (small : x < Float.ofNat (2 ^ 52)) :
    n < 2 ^ 52 := by
  have := (h.lt_iff (Binary64.has_float_ofNat (n := 2 ^ 52) (by decide))).1 small
  exact_mod_cast this

/-- The gap between whole frames is computed exactly. -/
theorem has_gap {f g : PixelFrame Float} (wholeF : f.IsWhole) (wholeG : g.IsWhole)
    (smallF : f.IsSmall) (smallG : g.IsSmall) {d : Direction} {x : Float} (h : f.gap g d = some x) :
    ∃ n : ℕ, Has x n := by
  obtain ⟨⟨clear, -⟩, rfl⟩ := gap_eq_some_iff.1 h
  obtain ⟨⟨a, ha⟩, ⟨b, hb⟩⟩ := wholeF d.axis
  obtain ⟨⟨c, hc⟩, -⟩ := wholeG d.axis
  have smallA := lt_of_small ha (smallF d.axis).1
  have smallB := lt_of_small hb (smallF d.axis).2
  have smallC := lt_of_small hc (smallG d.axis).1
  have finish : Has (f.finish d.axis) (a + b : ℕ) := ha.add hb (by omega)
  have le : a + b ≤ c := by
    have := (finish.le_iff hc).1 (of_decide_eq_true clear)
    exact_mod_cast this
  exact ⟨c - a - b, (hc.sub ha (by omega) (by omega)).sub hb (by omega) (by omega)⟩

/-- From `2 ^ 53` on a frame may end where it starts, and the gap to the next is below zero. -/
example : (⟨9007199254740992, 0, 1, 10⟩ : PixelFrame Float).gap ⟨9007199254740992, 0, 10, 10⟩ .left =
    some (-1) := by
  decide +kernel

end Frame

section Fractions

variable {c : Canvas} (width : 0 < c.width.toNat) (height : 0 < c.height.toNat)

include width height

/-- A number of pixels on a canvas with an area is a fraction of the canvas. -/
theorem Canvas.has_div_extent {x : Float} {q : ℚ} (h : Has x q) (a : Axis) :
    ∃ r, Has (x / c.extent.along a) r := by
  have small := c.width.toNat_lt
  have small' := c.height.toNat_lt
  obtain ⟨k, one, hk⟩ : ∃ k : ℕ, 1 ≤ k ∧ Holds (c.extent.along a) k := by
    cases a with
    | horizontal => exact ⟨_, width, Binary64.holds_float_ofNat width (by omega)⟩
    | vertical => exact ⟨_, height, Binary64.holds_float_ofNat height (by omega)⟩
  exact h.div hk (by exact_mod_cast one)

/-- A frame in whole pixels is finite in units of a canvas too. -/
theorem Frame.isFinite_normalize {f : PixelFrame Float} (whole : f.IsWhole) :
    (f.normalize c.extent.width c.extent.height).isFinite = true := by
  rw [isFinite_iff]
  intro a
  obtain ⟨⟨m, hm⟩, ⟨n, hn⟩⟩ := whole a
  obtain ⟨q, hq⟩ := c.has_div_extent width height hm a
  obtain ⟨r, hr⟩ := c.has_div_extent width height hn a
  cases a <;> exact ⟨hq.isFinite, hr.isFinite⟩

end Fractions

namespace Validation

theorem distance_ok {x : Float} {q : ℚ} (h : Has x q) :
    (Scalar.isFinite x && !Scalar.negative x) = true := by
  have zero : Has (Float.ofNat 0) (0 : ℕ) := Binary64.has_float_ofNat (by decide)
  have : ¬x < Float.ofNat 0 := by
    rw [h.lt_iff zero, not_lt, Nat.cast_zero]
    exact h.nonneg
  rw [Bool.and_eq_true, Bool.not_eq_true']
  exact ⟨h.isFinite, decide_eq_false this⟩

section Report

variable {α γ : Type} [Scalar α] {c : Canvas} {layers : List (Placed α γ)} {i : Issue α}

theorem hasArea_of_pos (width : 0 < c.width.toNat) (height : 0 < c.height.toNat) :
    hasArea c = true := by
  unfold hasArea
  rw [Bool.and_eq_true, bne_iff_ne, bne_iff_ne]
  constructor <;> intro zero
  · exact width.ne' (by rw [zero]; rfl)
  · exact height.ne' (by rw [zero]; rfl)

/-- Of frames that are finite only warnings are given. -/
theorem severity_of_mem_frameIssues {p : Placed α γ} (finite : p.frame.isFinite = true)
    (finite' : p.pixelFrame.isFinite = true) (h : i ∈ frameIssues c p) : i.severity = .warning := by
  have warned {b : Bool} {w : Issue α} (hw : w.severity = .warning)
      (h : i ∈ if b then [] else [w]) : i.severity = .warning := by
    split at h
    · contradiction
    · rwa [List.mem_singleton.1 h]
  unfold frameIssues at h
  rw [finite, finite', Bool.and_self, Bool.not_true, if_neg Bool.false_ne_true] at h
  rcases List.mem_append.1 h with h | h
  · exact warned rfl h
  · split at h
    · rcases List.mem_append.1 h with h | h <;> exact warned rfl h
    · contradiction

/-- An issue is one of the canvas, of a name, of an anchor or of the frames of a layer. -/
theorem mem_issues (h : i ∈ issues c layers) :
    i ∈ canvasIssues c ∨ ∃ n p, layers[n]? = some p ∧
      (i ∈ nameIssues layers n p ∨ (∃ a, i ∈ anchorIssues layers n p a) ∨ i ∈ frameIssues c p) := by
  unfold issues at h
  rw [List.mem_append, List.mem_append, List.mem_flatMap, List.mem_flatMap] at h
  rcases h with (h | ⟨⟨p, n⟩, hp, h⟩) | ⟨⟨p, n⟩, hp, h⟩
  · exact .inl h
  · exact .inr ⟨n, p, List.mem_zipIdx_iff_getElem?.1 hp, .inl h⟩
  · refine .inr ⟨n, p, List.mem_zipIdx_iff_getElem?.1 hp, .inr ?_⟩
    rcases List.mem_append.1 h with h | h
    · rcases List.mem_append.1 h with h | h
      · exact .inl ⟨.vertical, h⟩
      · exact .inl ⟨.horizontal, h⟩
    · exact .inr h

end Report

end Validation

theorem Report.isOk_iff {r : Report} : r.isOk = true ↔ ∀ i ∈ r.issues, i.severity ≠ .error := by
  unfold Report.isOk Report.errors Report.count
  rw [beq_iff_eq, List.countP_eq_zero]
  simp only [decide_eq_true_eq, ne_eq]

namespace Screen

variable {c : Canvas} {es : List Element} {i : Nat} {p : PlacedLayer}

theorem isWhole_ofElements (whole : ∀ e ∈ es, e.frame.IsWhole)
    (h : (ofElements c es).layers[i]? = some p) : p.pixelFrame.IsWhole := by
  obtain ⟨⟨b, hb, same⟩, -⟩ := Block.frame_placeAll h
  obtain ⟨e, he, rfl⟩ := List.mem_map.1 hb
  rw [same]
  exact whole e he

section Area

variable (width : 0 < c.width.toNat) (height : 0 < c.height.toNat)
  (whole : ∀ e ∈ es, e.frame.IsWhole)
  (small : ∀ p ∈ (ofElements c es).layers, p.pixelFrame.IsSmall)

include width height whole small

/-- Layers with whole frames are anchored at distances that are not negative. -/
theorem has_distance (h : (ofElements c es).layers[i]? = some p) (a : Axis) :
    ∃ q, Has (p.anchor a).distance q := by
  have wholeP := isWhole_ofElements whole h
  rcases Block.anchor_cases h a with ⟨j, q, distance, -, hq, gap, anchor⟩ | anchor
  · obtain ⟨n, hn⟩ := Frame.has_gap (isWhole_ofElements whole hq) wholeP
      (small q (List.mem_of_getElem? hq)) (small p (List.mem_of_getElem? h)) gap
    rw [anchor]
    exact c.has_div_extent width height hn a
  · obtain ⟨n, hn⟩ := (wholeP a).1
    rw [anchor]
    exact c.has_div_extent width height hn a

/-- Layers with whole frames and names of their own make a screen without errors. -/
theorem isOk_validate_ofElements (distinct : ((ofElements c es).layers.map (·.id)).Nodup) :
    (ofElements c es).validate.isOk = true := by
  rw [Report.isOk_iff]
  intro x hx
  rcases Validation.mem_issues hx with hx | ⟨n, p, hp, hx | ⟨a, hx⟩ | hx⟩
  · have none : Validation.canvasIssues (ofElements c es).canvas = ([] : List (Issue Float)) :=
      if_pos (Validation.hasArea_of_pos width height)
    rw [none] at hx
    contradiction
  · rw [Validation.nameIssues_of_nodup distinct hp] at hx
    contradiction
  · obtain ⟨q, distance⟩ := has_distance width height whole small hp a
    have none : Validation.anchorIssues (ofElements c es).layers n p a = [] :=
      (Validation.anchorIssues_placeAll hp a).trans (if_pos (Validation.distance_ok distance))
    rw [none] at hx
    contradiction
  · have wholeP := isWhole_ofElements whole hp
    have finite : p.frame.isFinite = true := by
      rw [(Block.frame_placeAll hp).2]
      exact Frame.isFinite_normalize width height wholeP
    rw [Validation.severity_of_mem_frameIssues finite wholeP.isFinite hx]
    decide

end Area

end Screen

end CanvasLayout
