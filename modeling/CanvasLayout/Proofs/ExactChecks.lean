import CanvasLayout.Proofs.ExactLayout
import CanvasLayout.Proofs.IssueCounts
import Mathlib

/-!
# Checks over exact numbers

Over exact numbers the distance of an anchor is never negative: the gap to a layer is the difference
of the very edges that its test compares (`Frame.gap_nonneg`), and the offset from the edge of the
canvas is a component of the frame. A frame in fractions of the canvas is the frame in pixels again
(`Frame.toPixel_normalize`). So of a screen whose layers have names of their own only warnings are
given, and those only for layers that leave the canvas (`Block.issues_placeAll`).
-/

namespace CanvasLayout

-- stated before the operations of `Scalar ℚ` are in scope
theorem abs_sub_self_le (x : ℚ) :
    |x - x| ≤ 1 / 10 ^ 6 * max (max |x| |x|) ((1 : ℕ) : ℚ) := by
  rw [sub_self, abs_zero]
  positivity

open scoped Exact

theorem Scalar.close_self (x : ℚ) : Scalar.close x x = true := decide_eq_true (abs_sub_self_le x)

namespace Frame

/-- No component is negative. -/
def IsNonneg {s : Space} (f : Frame s ℚ) : Prop :=
  ∀ a, 0 ≤ f.start a ∧ 0 ≤ f.extent a

/-- A gap is not negative, since it is the difference of the two edges that are compared. -/
theorem gap_nonneg {f g : PixelFrame ℚ} {d : Direction} {x : ℚ} (h : f.gap g d = some x) :
    0 ≤ x := by
  obtain ⟨⟨clear, -⟩, rfl⟩ := gap_eq_some_iff.1 h
  have before : f.start d.axis + f.extent d.axis ≤ g.start d.axis := of_decide_eq_true clear
  show 0 ≤ g.start d.axis - f.start d.axis - f.extent d.axis
  linarith

theorem toPixel_normalize (f : PixelFrame ℚ) {width height : ℚ} (hw : width ≠ 0)
    (hh : height ≠ 0) : (f.normalize width height).toPixel width height = f := by
  ext
  · exact div_mul_cancel₀ f.x hw
  · exact div_mul_cancel₀ f.y hh
  · exact div_mul_cancel₀ f.width hw
  · exact div_mul_cancel₀ f.height hh

theorem close_self (f : PixelFrame ℚ) : f.close f = true := by
  unfold close
  rw [Scalar.close_self, Scalar.close_self, Scalar.close_self, Scalar.close_self]
  rfl

end Frame

section Area

variable {c : Canvas} (width : 0 < c.width.toNat) (height : 0 < c.height.toNat)

include width height

/-- A canvas with an area is positive along each axis. -/
theorem Canvas.extent_pos (a : Axis) : (0 : ℚ) < c.extent.along a := by
  cases a with
  | horizontal => exact Nat.cast_pos.2 width
  | vertical => exact Nat.cast_pos.2 height

variable {γ : Type} {bs : List (Block ℚ γ)} {n : Nat} {p : Placed ℚ γ}

/-- Layers whose frames have no negative component are anchored at distances that are not negative,
to the edge of the canvas as to another layer. -/
theorem Block.distance_nonneg (nonneg : ∀ b ∈ bs, b.frame.IsNonneg)
    (h : (placeAll c.extent bs)[n]? = some p) (a : Axis) : 0 ≤ (p.anchor a).distance := by
  have size := c.extent_pos width height a
  rcases anchor_cases h a with ⟨j, q, distance, -, -, gap, anchor⟩ | anchor
  · rw [anchor]
    exact div_nonneg (Frame.gap_nonneg gap) size.le
  · obtain ⟨⟨b, hb, same⟩, -⟩ := frame_placeAll h
    rw [anchor, same]
    exact div_nonneg (nonneg b hb a).1 size.le

/-- Over exact numbers only those frames are reported that leave the canvas. -/
theorem Validation.code_of_mem_frameIssues_exact {i : Issue ℚ}
    (normalized : p.frame = p.pixelFrame.normalize c.extent.width c.extent.height)
    (h : i ∈ frameIssues c p) : i.code ∈ [IssueCode.outsideUnit, .outsideCanvas] := by
  have agree : framesAgree c p = true := by
    have found := p.pixelFrame.toPixel_normalize (c.extent_pos width height .horizontal).ne'
      (c.extent_pos width height .vertical).ne'
    show ((p.frame.toPixel c.extent.width c.extent.height).close p.pixelFrame) = true
    rw [normalized]
    exact (congrArg (Frame.close · p.pixelFrame) found).trans p.pixelFrame.close_self
  unfold frameIssues at h
  rw [if_neg (by simp [Frame.isFinite, Scalar.isFinite])] at h
  rcases List.mem_append.1 h with h | h
  · rw [eq_of_mem_check h]
    exact List.mem_cons_self
  · rw [if_pos (hasArea_of_pos width height), agree, if_pos rfl, List.append_nil] at h
    rw [eq_of_mem_check h]
    exact List.mem_cons_of_mem _ List.mem_cons_self

/-- Nor is anything wrong with the anchors of layers whose frames have no negative component. -/
theorem Block.anchorIssues_exact (nonneg : ∀ b ∈ bs, b.frame.IsNonneg)
    (h : (placeAll c.extent bs)[n]? = some p) (a : Axis) :
    Validation.anchorIssues (placeAll c.extent bs) n p a = [] := by
  have right : ¬(p.anchor a).distance < ((0 : ℕ) : ℚ) := by
    rw [Nat.cast_zero, not_lt]
    exact distance_nonneg width height nonneg h a
  have passes : (Scalar.isFinite (p.anchor a).distance &&
      !Scalar.negative (p.anchor a).distance) = true := by
    rw [Bool.and_eq_true, Bool.not_eq_true']
    exact ⟨rfl, decide_eq_false right⟩
  exact (Validation.anchorIssues_placeAll h a).trans (if_pos passes)

omit width height in
theorem Block.nameIssues_placeAll (distinct : (bs.map (·.id)).Nodup)
    (h : (placeAll c.extent bs)[n]? = some p) :
    Validation.nameIssues (placeAll c.extent bs) n p = [] := by
  have perm := (perm_placeAll c.extent bs).map (·.id)
  rw [List.map_map] at perm
  exact Validation.nameIssues_of_nodup (perm.nodup_iff.2 distinct) h

/-- Over exact numbers, layers with names of their own and frames without a negative component are
anchored at distances that are not negative, and nothing is wrong with their screen but that layers
leave the canvas: there is no error, and the two frames of each layer agree. -/
theorem Block.issues_placeAll (distinct : (bs.map (·.id)).Nodup)
    (nonneg : ∀ b ∈ bs, b.frame.IsNonneg) :
    let out := placeAll c.extent bs
    (∀ p ∈ out, ∀ a, 0 ≤ (p.anchor a).distance) ∧
      ∀ i ∈ Validation.issues c out,
        i.severity = .warning ∧ i.code ∈ [IssueCode.outsideUnit, .outsideCanvas] := by
  intro out
  constructor
  · intro p hp
    obtain ⟨n, hn⟩ := List.mem_iff_getElem?.1 hp
    exact distance_nonneg width height nonneg hn
  intro i hi
  have code : i.code ∈ [IssueCode.outsideUnit, .outsideCanvas] := by
    rcases Validation.mem_issues hi with hi | ⟨n, p, hp, hi | ⟨a, hi⟩ | hi⟩
    · have none : Validation.canvasIssues c = ([] : List (Issue ℚ)) :=
        if_pos (Validation.hasArea_of_pos width height)
      rw [none] at hi
      contradiction
    · rw [nameIssues_placeAll distinct hp] at hi
      contradiction
    · rw [anchorIssues_exact width height nonneg hp] at hi
      contradiction
    · exact Validation.code_of_mem_frameIssues_exact width height (frame_placeAll hp).2 hi
  refine ⟨?_, code⟩
  unfold Issue.severity
  simp only [List.mem_cons, List.not_mem_nil, or_false] at code
  rcases code with code | code
  · rw [code]
    rfl
  · rw [code]
    rfl

end Area

/-- A canvas that ends in the middle of the last layer of the tower. -/
def yard : Canvas := ⟨30, 55, ⟨255, 255, 255⟩, "Yard", "Tower"⟩

/-- The cellar reaches below the yard, which is all that there is to report. -/
theorem Block.issues_placeAll_tower :
    let out := placeAll yard.extent tower
    (Validation.issues yard out).map Issue.code =
        [IssueCode.outsideUnit, .outsideCanvas] ∧
      (∀ p ∈ out, ∀ a, 0 ≤ (p.anchor a).distance) ∧
      ∀ i ∈ Validation.issues yard out,
        i.severity = .warning ∧ i.code ∈ [IssueCode.outsideUnit, .outsideCanvas] := by
  have sorted : tower.mergeSort reads = tower := List.mergeSort_of_pairwise (by decide +kernel)
  refine ⟨?_, issues_placeAll (by decide) (by decide) (by decide) ?_⟩
  · rw [placeAll, sorted]
    decide +kernel
  · intro b hb a
    simp only [tower, List.mem_cons, List.not_mem_nil, or_false] at hb
    rcases hb with rfl | rfl | rfl <;> cases a <;> exact ⟨by decide +kernel, by decide +kernel⟩

end CanvasLayout
