import CanvasLayout.Proofs.SearchAndSort
import CanvasLayout.Screen

/-!
# Which anchor a layer gets

One scan back over the placed layers fills the slots of both axes and ends as soon as both are
filled. `Supports.along_scan` splits it into a search for each axis that knows nothing of the
other, `Block.placeAfter_getElem?` says what was already placed when a layer's turn came, and
`isGreatest_of_findSome?` reads the search as a greatest index. Together they give the anchors
of a whole screen: `Screen.ofElements_anchor`. Where the choice does not matter, `Block.anchor_cases`
says what a layer can be anchored to.
-/

namespace CanvasLayout

namespace Supports

theorem isComplete_iff {α : Type} {s : Supports α} :
    s.isComplete = true ↔ ∀ a, (s.along a).isSome = true := by
  unfold isComplete
  rw [Bool.and_eq_true]
  constructor
  · rintro ⟨vertical, horizontal⟩ a
    cases a
    · exact horizontal
    · exact vertical
  · intro h
    exact ⟨h .vertical, h .horizontal⟩

variable {α γ : Type} [Scalar α]

/-- A layer is taken as a support unless one was found before. -/
theorem along_consider (f : PixelFrame α) (s : Supports α) (p : Placed α γ) (a : Axis) :
    (s.consider f p).along a = (s.along a).or (p.support? f a.direction) := by
  cases a <;> rfl

/-- The scan that serves both axes finds along each what a search for that axis alone finds.
The induction is over the candidates for any slots: a slot that is filled shields its axis from
all candidates that follow, so stopping once both are filled loses nothing. -/
theorem along_scan (f : PixelFrame α) (ps : List (Placed α γ)) (s : Supports α) (a : Axis) :
    (scan f s ps).along a = (s.along a).or (ps.findSome? (·.support? f a.direction)) := by
  induction ps generalizing s with
  | nil => simp [scan]
  | cons p ps ih =>
    have first : (p :: ps).findSome? (·.support? f a.direction) =
        (p.support? f a.direction).or (ps.findSome? (·.support? f a.direction)) := by
      rw [List.findSome?_cons]
      cases p.support? f a.direction <;> rfl
    rw [first, ← Option.or_assoc, ← along_consider, scan]
    split
    · rename_i complete
      rw [Option.or_of_isSome (isComplete_iff.1 complete a)]
    · exact ih (s.consider f p)

end Supports

namespace Block

variable {α γ : Type} [Scalar α] {canvas : Extent α}

/-- The anchor of a placed block along an axis is decided by the first of the earlier blocks that
it can hang off there, whatever the other axis finds. -/
theorem anchor_place (earlier : List (Placed α γ)) (b : Block α γ) (a : Axis) :
    (b.place canvas earlier).anchor a =
      b.anchor canvas a (earlier.findSome? (·.support? b.frame a.direction)) := by
  have found : (Supports.scan b.frame {} earlier).along a =
      earlier.findSome? (·.support? b.frame a.direction) := by
    rw [Supports.along_scan]
    cases a <;> exact Option.none_or
  rw [← found]
  cases a <;> rfl

/-- Placing leaves every block as it is. -/
theorem map_block_placeAfter (canvas : Extent α) (bs : List (Block α γ))
    (earlier : List (Placed α γ)) : (placeAfter canvas earlier bs).map Placed.block = bs := by
  induction bs generalizing earlier with
  | nil => rfl
  | cons b bs ih =>
    rw [placeAfter, List.map_cons, ih]
    rfl

theorem perm_placeAll (canvas : Extent α) (bs : List (Block α γ)) :
    ((placeAll canvas bs).map Placed.block).Perm bs := by
  rw [placeAll, map_block_placeAfter]
  exact List.mergeSort_perm bs reads

@[simp] theorem length_placeAll (canvas : Extent α) (bs : List (Block α γ)) :
    (placeAll canvas bs).length = bs.length := by
  rw [← (perm_placeAll canvas bs).length_eq, List.length_map]

/-- When a block is placed, the blocks before it are in their places, the latest first. -/
theorem placeAfter_getElem? {bs : List (Block α γ)} {earlier : List (Placed α γ)} {i : Nat}
    {p : Placed α γ} (h : (placeAfter canvas earlier bs)[i]? = some p) :
    ∃ b, bs[i]? = some b ∧
      p = b.place canvas (((placeAfter canvas earlier bs).take i).reverse ++ earlier) := by
  induction bs generalizing earlier i with
  | nil => simp [placeAfter] at h
  | cons b bs ih =>
    rw [placeAfter] at h ⊢
    cases i with
    | zero =>
      simp only [List.getElem?_cons_zero, Option.some.injEq] at h
      exact ⟨b, rfl, by simpa using h.symm⟩
    | succ i =>
      obtain ⟨c, hc, hp⟩ := ih h
      exact ⟨c, by simpa using hc, by simpa using hp⟩

/-- The anchor of a block in its place, in terms of the blocks placed before it. -/
theorem anchor_placeAll {bs : List (Block α γ)} {i : Nat} {p : Placed α γ}
    (h : (placeAll canvas bs)[i]? = some p) (a : Axis) :
    p.anchor a = p.block.anchor canvas a
      (((placeAll canvas bs).take i).reverse.findSome? (·.support? p.pixelFrame a.direction)) := by
  obtain ⟨b, -, rfl⟩ := placeAfter_getElem? h
  rw [List.append_nil, anchor_place]
  rfl

/-- A layer hangs off an earlier one at the gap between them, or off the edge at its offset. -/
theorem anchor_cases {bs : List (Block α γ)} {i : Nat} {p : Placed α γ}
    (h : (placeAll canvas bs)[i]? = some p) (a : Axis) :
    (∃ j q distance, j < i ∧ (placeAll canvas bs)[j]? = some q ∧
      q.pixelFrame.gap p.pixelFrame a.direction = some distance ∧
      p.anchor a = ⟨a.direction, some q.id, distance / canvas.along a⟩) ∨
    p.anchor a = ⟨a.direction, none, p.pixelFrame.start a / canvas.along a⟩ := by
  have anchored := anchor_placeAll h a
  cases search : ((placeAll canvas bs).take i).reverse.findSome?
      (·.support? p.pixelFrame a.direction) with
  | none =>
    rw [search] at anchored
    exact .inr anchored
  | some found =>
    rw [search] at anchored
    obtain ⟨j, hit, ⟨before, -⟩, -⟩ := isGreatest_of_findSome? search
    obtain ⟨q, hq, support⟩ := Option.bind_eq_some_iff.1 hit
    obtain ⟨distance, gap, rfl⟩ := Option.map_eq_some_iff.1 support
    exact .inl ⟨j, q, distance, before, hq, gap, anchored⟩

/-- A layer has the frame of one of the blocks, in pixels and in fractions of the canvas. -/
theorem frame_placeAll {bs : List (Block α γ)} {i : Nat} {p : Placed α γ}
    (h : (placeAll canvas bs)[i]? = some p) :
    (∃ b ∈ bs, p.pixelFrame = b.frame) ∧
      p.frame = p.pixelFrame.normalize canvas.width canvas.height := by
  obtain ⟨b, hb, rfl⟩ := placeAfter_getElem? h
  exact ⟨⟨b, List.mem_mergeSort.1 (List.mem_of_getElem? hb), rfl⟩, rfl⟩

end Block

namespace Screen

/-- Every element becomes a layer, and along each axis a layer is anchored to the last earlier
layer that it can hang off, at the gap to it, and if there is none to the edge of the canvas, at
its own offset; distances are fractions of the canvas. -/
theorem ofElements_anchor (canvas : Canvas) (es : List Element) (a : Axis) :
    let out := (ofElements canvas es).layers
    out.length = es.length ∧ ∀ i : Fin out.length,
      let gapFrom (j : Fin out.length) := out[j].pixelFrame.gap out[i].pixelFrame a.direction
      (out[i].anchor a).direction = a.direction ∧
        ((∃ j distance, IsGreatest {k | k < i ∧ gapFrom k ≠ none} j ∧
            gapFrom j = some distance ∧ (out[i].anchor a).reference = some out[j].id ∧
            (out[i].anchor a).distance = distance / canvas.extent.along a) ∨
          ((∀ j < i, gapFrom j = none) ∧ (out[i].anchor a).reference = none ∧
            (out[i].anchor a).distance =
              out[i].pixelFrame.start a / canvas.extent.along a)) := by
  intro out
  refine ⟨by simp [out, ofElements], ?_⟩
  intro i gapFrom
  have anchored : out[i].anchor a = out[i].block.anchor canvas.extent a
      ((out.take i).reverse.findSome? (·.support? out[i].pixelFrame a.direction)) :=
    Block.anchor_placeAll (List.getElem?_eq_getElem i.isLt) a
  have hit (j : Fin out.length) : out[j.val]?.bind (·.support? out[i].pixelFrame a.direction) =
      (gapFrom j).map (out[j].id, ·) := by
    rw [List.getElem?_eq_getElem j.isLt]
    rfl
  rw [anchored]
  cases search : (out.take i).reverse.findSome? (·.support? out[i].pixelFrame a.direction) with
  | some found =>
    obtain ⟨j, hj, ⟨before, -⟩, upper⟩ := isGreatest_of_findSome? search
    have inside : j < out.length := Nat.lt_trans before i.isLt
    rw [hit ⟨j, inside⟩, Option.map_eq_some_iff] at hj
    obtain ⟨distance, hgap, rfl⟩ := hj
    refine ⟨rfl, .inl ⟨⟨j, inside⟩, distance, ⟨⟨before, by simp [hgap]⟩, ?_⟩, hgap, rfl, rfl⟩⟩
    rintro k ⟨hk, hkgap⟩
    refine upper ⟨hk, ?_⟩
    rwa [hit k, ne_eq, Option.map_eq_none_iff]
  | none =>
    refine ⟨rfl, .inr ⟨fun j hj => ?_, rfl, rfl⟩⟩
    have := forall_of_findSome?_eq_none search j hj
    rwa [hit j, Option.map_eq_none_iff] at this

end Screen

end CanvasLayout
