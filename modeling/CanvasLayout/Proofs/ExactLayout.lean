import CanvasLayout.Proofs.Anchoring
import Mathlib

/-!
# Layout from anchors

Layout code gets of each layer its size and its anchors, but no position. Over exact numbers that
is enough: from any layer the references along an axis lead to the edge of the canvas, since each
refers to an earlier layer, and the sizes and distances on the way add up to the position of the
layer (`Block.position?_placeAll`). So all frames can be computed again (`Block.layout_of_anchors`).
-/

namespace CanvasLayout

namespace Exact

/-- Exact numbers. All are defined and no operation rounds. -/
scoped instance : Scalar ℚ where
  ofNat n := n
  lt a b := a < b
  le a b := a ≤ b
  max := max
  min := min
  abs := abs
  isFinite _ := true
  opposed _ _ := false
  rankLE a b := a ≤ b
  tolerance := 1 / 10 ^ 6

end Exact

open scoped Exact

/-- What layout code gets of a layer. -/
structure Constraints (α : Type) where
  id : String
  size : Extent α
  vertical : Anchor α
  horizontal : Anchor α

namespace Constraints

variable {α : Type}

/-- The anchor along an axis. -/
def anchor (l : Constraints α) : Axis → Anchor α
  | .horizontal => l.horizontal
  | .vertical => l.vertical

variable [Scalar α]

/-- Where a layer starts along an axis, if the edge of the canvas is reached from it by so many
references at most. A layer anchored to the edge starts at its distance, another one at its distance
from the end of the layer that it refers to. -/
def position? (canvas : Extent α) (layers : List (Constraints α)) (a : Axis) :
    Nat → Constraints α → Option α
  | steps, l =>
    let offset := (l.anchor a).distance * canvas.along a
    match (l.anchor a).reference, steps with
    | none, _ => some offset
    | some _, 0 => none
    | some id, steps + 1 => do
      let support ← layers.find? (·.id = id)
      let start ← position? canvas layers a steps support
      return start + support.size.along a + offset

/-- The frame of a layer, if the edges of the canvas are reached from it. -/
def frame? (canvas : Extent α) (layers : List (Constraints α)) (l : Constraints α) :
    Option (PixelFrame α) := do
  let x ← position? canvas layers .horizontal layers.length l
  let y ← position? canvas layers .vertical layers.length l
  return ⟨x, y, l.size.width, l.size.height⟩

variable {canvas : Extent α} {layers : List (Constraints α)} {a : Axis} {l : Constraints α}

theorem position?_of_edge (edge : (l.anchor a).reference = none) (steps : ℕ) :
    position? canvas layers a steps l = some ((l.anchor a).distance * canvas.along a) := by
  unfold position?
  rw [edge]

/-- A layer on another one starts at its distance behind it, one step later. -/
theorem position?_of_support {id : String} {support : Constraints α} {start : α} {steps : ℕ}
    (named : (l.anchor a).reference = some id)
    (found : layers.find? (·.id = id) = some support)
    (located : position? canvas layers a steps support = some start) :
    position? canvas layers a (steps + 1) l =
      some (start + support.size.along a + (l.anchor a).distance * canvas.along a) := by
  unfold position?
  rw [named]
  simp only [found, located, Option.bind_eq_bind, Option.bind_some, pure]

end Constraints

namespace Placed

/-- The layer without its position. -/
def constraints {α γ : Type} (p : Placed α γ) : Constraints α :=
  ⟨p.id, ⟨p.pixelFrame.width, p.pixelFrame.height⟩, p.vertical, p.horizontal⟩

theorem anchor_constraints {α γ : Type} (p : Placed α γ) (a : Axis) :
    p.constraints.anchor a = p.anchor a := by
  cases a <;> rfl

theorem size_constraints {α γ : Type} (p : Placed α γ) (a : Axis) :
    p.constraints.size.along a = p.pixelFrame.extent a := by
  cases a <;> rfl

end Placed

namespace Block

open Constraints (position? frame?)

variable {γ : Type} {canvas : Extent ℚ} {bs : List (Block ℚ γ)}

theorem names_constraints (canvas : Extent ℚ) (bs : List (Block ℚ γ)) :
    (((placeAll canvas bs).map Placed.constraints).map Constraints.id).Perm (bs.map (·.id)) := by
  have perm := (perm_placeAll canvas bs).map (·.id)
  rw [List.map_map] at perm ⊢
  exact perm

/-- A layer lies where its references lead. The induction is on its place among the layers, and a
reference leads to an earlier one. -/
theorem position?_placeAll (area : ∀ a, canvas.along a ≠ 0) (distinct : (bs.map (·.id)).Nodup)
    (a : Axis) {i : ℕ} {p : Placed ℚ γ} (h : (placeAll canvas bs)[i]? = some p) {steps : ℕ}
    (enough : i ≤ steps) :
    position? canvas ((placeAll canvas bs).map Placed.constraints) a steps p.constraints =
      some (p.pixelFrame.start a) := by
  induction i using Nat.strong_induction_on generalizing p steps with
  | _ i ih =>
    rcases anchor_cases h a with ⟨j, q, distance, before, hq, gap, anchor⟩ | anchor
    · obtain ⟨steps, rfl⟩ : ∃ n, steps = n + 1 := ⟨steps - 1, by omega⟩
      have located := ih j before hq (show j ≤ steps by omega)
      have listed : q.constraints ∈ (placeAll canvas bs).map Placed.constraints :=
        List.mem_map_of_mem (List.mem_of_getElem? hq)
      have found := find?_of_mem ((names_constraints canvas bs).nodup_iff.2 distinct) _ listed
      have named : (p.constraints.anchor a).reference = some q.id := by
        rw [p.anchor_constraints, anchor]
      rw [Constraints.position?_of_support named found located, p.anchor_constraints, anchor,
        q.size_constraints]
      obtain ⟨-, rfl⟩ := Frame.gap_eq_some_iff.1 gap
      have spacing : q.pixelFrame.spacing p.pixelFrame a.direction.axis =
          p.pixelFrame.start a - q.pixelFrame.start a - q.pixelFrame.extent a := by
        cases a <;> rfl
      rw [div_mul_cancel₀ _ (area a), spacing, Option.some.injEq]
      ring
    · have edge : (p.constraints.anchor a).reference = none := by
        rw [p.anchor_constraints, anchor]
      rw [Constraints.position?_of_edge edge, p.anchor_constraints, anchor]
      exact congrArg some (div_mul_cancel₀ _ (area a))

/-- Over exact numbers the anchors determine the layout. From the layer at each place the edge of the
canvas is reached by as many references at most, along either axis, and the distances and sizes on
the way add up to its position, so that all frames are found without knowing any. -/
theorem layout_of_anchors {canvas : Extent ℚ} (width : 0 < canvas.width) (height : 0 < canvas.height)
    {bs : List (Block ℚ γ)} (distinct : (bs.map (·.id)).Nodup) :
    let out := placeAll canvas bs
    let layers := out.map Placed.constraints
    (∀ (i : Fin out.length) (a : Axis),
      position? canvas layers a i out[i].constraints = some (out[i].pixelFrame.start a)) ∧
      layers.map (frame? canvas layers) = out.map (some ·.pixelFrame) := by
  intro out layers
  have area (a : Axis) : canvas.along a ≠ 0 := by
    cases a with
    | horizontal => exact width.ne'
    | vertical => exact height.ne'
  have located {i : ℕ} (inside : i < out.length) (a : Axis) {steps : ℕ} (enough : i ≤ steps) :
      position? canvas layers a steps out[i].constraints = some (out[i].pixelFrame.start a) :=
    position?_placeAll area distinct a (List.getElem?_eq_getElem inside) enough
  constructor
  · intro i a
    exact located i.isLt a le_rfl
  · rw [List.map_map]
    apply List.map_congr_left
    intro p hp
    obtain ⟨i, inside, rfl⟩ := List.getElem_of_mem hp
    have enough : i ≤ layers.length := by
      rw [List.length_map]
      exact inside.le
    show frame? canvas layers out[i].constraints = some out[i].pixelFrame
    unfold frame?
    rw [located inside .horizontal enough, located inside .vertical enough]
    rfl

/-- Three layers below one another, the first of them at the top edge and the second of no height. -/
def tower : List (Block ℚ Unit) :=
  [⟨"attic", ⟨0, 0, 10, 10⟩, ()⟩, ⟨"hall", ⟨5, 20, 10, 0⟩, ()⟩, ⟨"cellar", ⟨0, 50, 10, 10⟩, ()⟩]

/-- The cellar refers to the hall and the hall to the attic, which is at the edge: two references.
-/
theorem layout_of_anchors_tower :
    ∃ p, (placeAll ⟨30, 70⟩ tower)[2]? = some p ∧ p.id = "cellar" ∧
      p.vertical.reference = some "hall" ∧
      position? ⟨30, 70⟩ ((placeAll ⟨30, 70⟩ tower).map Placed.constraints) .vertical 2
        p.constraints = some 50 := by
  have sorted : tower.mergeSort reads = tower := List.mergeSort_of_pairwise (by decide +kernel)
  have check : ((placeAll ⟨30, 70⟩ tower)[2]?).map (fun p =>
      (p.id, p.vertical.reference, p.pixelFrame.start .vertical)) =
        some ("cellar", some "hall", 50) := by
    rw [placeAll, sorted]
    decide +kernel
  obtain ⟨p, hp, values⟩ := Option.map_eq_some_iff.1 check
  rw [Prod.mk.injEq, Prod.mk.injEq] at values
  obtain ⟨name, reference, start⟩ := values
  refine ⟨p, hp, name, reference, ?_⟩
  obtain ⟨inside, rfl⟩ := List.getElem?_eq_some_iff.1 hp
  rw [← start]
  exact (layout_of_anchors (by norm_num) (by norm_num) (by decide)).1 ⟨2, inside⟩ .vertical

end Block

end CanvasLayout
