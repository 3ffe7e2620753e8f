import CanvasLayout.Proofs.Anchoring
import CanvasLayout.Proofs.Binary64

/-!
# Layers in reading order

Elements become layers by a stable sort: nothing of an element is lost, layers stand by rising
`ReadingKey.rank`, the place of the key's bits in the total order of floating-point numbers, and
layers with equal keys keep the order they came in (`Screen.ofElements_order`). So two lists of
elements give the same screen if and only if they hold the same elements, those with equal keys in
the same order (`Screen.ofElements_eq_iff`).
-/

namespace CanvasLayout

namespace Binary64

open Float.Model Float.Model.UnpackedFloat

/-- The place of a bit pattern in the total order of IEEE 754: numbers with a minus sign come first
and stand by falling magnitude, the others by rising magnitude. -/
def place (bits : UInt64) : ℤ :=
  if bits.toNat < 2 ^ 63 then bits.toNat else 2 ^ 63 - 1 - bits.toNat

/-- The greatest bits that a number has are those of the negative infinity. -/
theorem toBits_le (x : Float) : x.toBits.toNat ≤ 0xFFF0000000000000 := by
  by_contra above
  have lt : x.toBits.toNat < 2 ^ 64 := x.toBits.toNat_lt
  let b : BitVec Format.binary64.numBits := x.toModel.toBits.toBitVec
  have exponent : unpackExponent b = -1#11 := by
    rw [← BitVec.toNat_inj, toNat_exponent]
    change x.toBits.toNat / 2 ^ 52 % 2048 = 2047
    omega
  have mantissa : unpackMantissa b ≠ 0#52 := by
    rw [← BitVec.toNat_inj.ne, toNat_mantissa]
    change x.toBits.toNat % 2 ^ 52 ≠ 0
    omega
  have undefined : x.toBits.toNat = 0x7FF8000000000000 :=
    congrArg BitVec.toNat (x.toModel.valid.eq_packedNaN exponent mantissa)
  omega

end Binary64

namespace ReadingKey

/-- The bits of the sum. Opposite infinities add up to the undefined number with a minus sign, which
the key has to remember, for all undefined numbers are one `Float`. Other patterns of undefined
numbers are not told apart: their sums have the bits of that one. -/
def bits (k : ReadingKey Float) : UInt64 := if k.opposed then 0xFFF8000000000000 else k.sum.toBits

/-- The place of the key in the total order of IEEE 754. -/
def rank (k : ReadingKey Float) : ℤ := Binary64.place k.bits

/-- The key of opposite infinities has the rank of the undefined number with a minus sign. -/
theorem rank_of_opposed {k : ReadingKey Float} (h : k.opposed = true) :
    k.rank = 2 ^ 63 - 1 - 0xFFF8000000000000 := by
  unfold rank bits
  rw [if_pos h]
  rfl

theorem rank_of_not_opposed {k : ReadingKey Float} (h : k.opposed = false) :
    k.rank = Decimal.totalRank k.sum := by
  unfold rank bits
  rw [h]
  rfl

theorem lt_totalRank (x : Float) : 2 ^ 63 - 1 - 0xFFF8000000000000 < Decimal.totalRank x := by
  have := Binary64.toBits_le x
  change _ < Binary64.place x.toBits
  unfold Binary64.place
  split <;> omega

/-- Reading keys are ordered by their bits, as floating-point numbers are. -/
theorem le_iff {a b : ReadingKey Float} : a.le b = true ↔ a.rank ≤ b.rank := by
  unfold ReadingKey.le
  cases ha : a.opposed with
  | true =>
    rw [rank_of_opposed ha, Bool.true_or]
    cases hb : b.opposed with
    | true =>
      rw [rank_of_opposed hb]
      exact iff_of_true rfl le_rfl
    | false =>
      rw [rank_of_not_opposed hb]
      exact iff_of_true rfl (lt_totalRank b.sum).le
  | false =>
    rw [rank_of_not_opposed ha, Bool.false_or]
    cases hb : b.opposed with
    | true =>
      rw [rank_of_opposed hb]
      exact iff_of_false Bool.false_ne_true (not_le.2 (lt_totalRank a.sum))
    | false =>
      rw [rank_of_not_opposed hb, Bool.not_false, Bool.true_and]
      exact decide_eq_true_iff

/-- Opposite infinities come first, `-0` before `0`, and an undefined frame last. -/
example : [(⟨1 / 0, -1 / 0, 0, 0⟩ : PixelFrame Float), ⟨-1 / 0, 0, 0, 0⟩, ⟨-2, 0, 0, 0⟩,
    ⟨-0.0, -0.0, -0.0, -0.0⟩, ⟨0, 0, 0, 0⟩, ⟨1 / 0, 0, 0, 0⟩, ⟨0 / 0, 0, 0, 0⟩].Pairwise
      (·.readingKey.rank < ·.readingKey.rank) := by
  decide +kernel

end ReadingKey

/-- The element that content in a frame is. -/
def Block.element (b : Block Float Content) : Element :=
  ⟨b.id, b.content.style, b.frame, b.content.layer⟩

/-- An element is the content of its block in the frame of the block. -/
theorem Element.element_block (e : Element) : (Block.element ∘ Element.block) e = e := by
  cases e
  rfl

/-- The order in which elements are placed. -/
def Element.reads (a b : Element) : Bool := a.block.reads b.block

theorem Element.reads_iff (a b : Element) :
    a.reads b = true ↔ a.frame.readingKey.rank ≤ b.frame.readingKey.rank :=
  ReadingKey.le_iff

namespace Screen

variable (canvas : Canvas) (es : List Element)

/-- The layers of a screen are placed one after the other, sorted by reading order. -/
theorem layers_ofElements : (ofElements canvas es).layers =
    Block.placeAfter canvas.extent [] ((es.mergeSort Element.reads).map Element.block) := by
  have sorted : (es.map Element.block).mergeSort Block.reads =
      (es.mergeSort Element.reads).map Element.block := by
    symm
    apply List.map_mergeSort
    intro a _ b _
    rfl
  unfold ofElements Block.placeAll
  rw [sorted]

/-- The layers are the elements in reading order. -/
theorem elements_ofElements :
    (ofElements canvas es).layers.map Placed.element = es.mergeSort Element.reads := by
  calc (ofElements canvas es).layers.map Placed.element
      = ((ofElements canvas es).layers.map Placed.block).map Block.element := by
        rw [List.map_map]
        rfl
    _ = (es.mergeSort Element.reads).map (Block.element ∘ Element.block) := by
        rw [layers_ofElements, Block.map_block_placeAfter, List.map_map]
    _ = es.mergeSort Element.reads := by
        rw [funext Element.element_block]
        exact List.map_id' (es.mergeSort Element.reads)

/-- No element is lost, doubled or changed. -/
theorem perm_ofElements : ((ofElements canvas es).layers.map Placed.element).Perm es := by
  rw [elements_ofElements]
  exact List.mergeSort_perm es Element.reads

/-- The layers of a screen are its elements, none lost, doubled or changed, by rising reading key
and of equal keys in the order given; the frame of a layer is that of its element in fractions of
the canvas. -/
theorem ofElements_order (canvas : Canvas) (es : List Element) :
    let out := (ofElements canvas es).layers
    (out.map Placed.element).Perm es ∧
      out.Pairwise (fun p q => p.pixelFrame.readingKey.rank ≤ q.pixelFrame.readingKey.rank) ∧
      (∀ r, (out.map Placed.element).filter (·.frame.readingKey.rank = r) =
        es.filter (·.frame.readingKey.rank = r)) ∧
      ∀ a, (out.map fun p => (p.frame.start a, p.frame.extent a)) =
        out.map fun p => (p.pixelFrame.start a / canvas.extent.along a,
          p.pixelFrame.extent a / canvas.extent.along a) := by
  intro out
  have elements : out.map Placed.element = es.mergeSort Element.reads :=
    elements_ofElements canvas es
  refine ⟨perm_ofElements canvas es, ?_, ?_, ?_⟩
  · have sorted := pairwise_mergeSort_key Element.reads_iff es
    rw [← elements, List.pairwise_map] at sorted
    exact sorted
  · intro r
    rw [elements]
    exact filter_mergeSort_key Element.reads_iff es r
  · intro a
    apply List.map_congr_left
    intro p hp
    obtain ⟨i, hi⟩ := List.mem_iff_getElem?.1 hp
    have normalized : p.frame = p.pixelFrame.normalize canvas.extent.width canvas.extent.height :=
      (Block.frame_placeAll hi).2
    rw [normalized]
    cases a with
    | horizontal => rfl
    | vertical => rfl

/-- Elements that are sorted to the same list make the same screen. -/
theorem ofElements_eq_of_sorted {es es' : List Element}
    (sorted : es.mergeSort Element.reads = es'.mergeSort Element.reads) :
    ofElements canvas es = ofElements canvas es' := by
  have layers : (ofElements canvas es).layers = (ofElements canvas es').layers := by
    rw [layers_ofElements, layers_ofElements, sorted]
  exact congrArg (Screen.mk canvas) layers

/-- Elements make the same screen in either of two orders if and only if the two agree on the order
of elements with equal keys; so a screen whose layers are placed again stays as it is. -/
theorem ofElements_eq_iff (canvas : Canvas) (es es' : List Element) :
    (ofElements canvas es = ofElements canvas es' ↔
      es.Perm es' ∧ ∀ r, es.filter (·.frame.readingKey.rank = r) =
        es'.filter (·.frame.readingKey.rank = r)) ∧
      ofElements canvas ((ofElements canvas es).layers.map Placed.element) =
        ofElements canvas es := by
  constructor
  · constructor
    · intro same
      have sorted : es.mergeSort Element.reads = es'.mergeSort Element.reads := by
        rw [← elements_ofElements canvas, same, elements_ofElements]
      constructor
      · have perm := perm_ofElements canvas es
        rw [same] at perm
        exact perm.symm.trans (perm_ofElements canvas es')
      · intro r
        rw [← filter_mergeSort_key Element.reads_iff, sorted, filter_mergeSort_key Element.reads_iff]
    · rintro ⟨-, same⟩
      exact ofElements_eq_of_sorted canvas (mergeSort_eq_of_filter Element.reads_iff same)
  · apply ofElements_eq_of_sorted
    apply mergeSort_eq_of_filter Element.reads_iff
    intro r
    rw [elements_ofElements, filter_mergeSort_key Element.reads_iff]

end Screen

end CanvasLayout
