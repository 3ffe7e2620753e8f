import CanvasLayout.Proofs.IssueCounts

/-!
# Which rules a screen breaks

Each kind of issue has a rule, and the rules are stated here without regard to how they are checked:
`Screen.BreaksAt` says which of them a layer breaks by its name or its frames, `Screen.BreaksAlong`
which of them its anchors break, and `Screen.IsSound` puts together what every screen should be.
A report shows, kind by kind, the very places that break the rule, each once and in the order of the
layers (`Validation.places_issues`). Hence it has no error for a sound screen only, and no issue at
all if the frames lie where they should as well: `Screen.validate_breaches`.
-/

namespace CanvasLayout

/-- Both axes, in the order in which the anchors of a layer are checked. -/
def Axis.all : List Axis := [.vertical, .horizontal]

theorem Axis.mem_all (a : Axis) : a ∈ all := by cases a <;> decide

theorem Axis.forall_iff {P : Axis → Prop} : (∀ a, P a) ↔ P .horizontal ∧ P .vertical := by
  constructor
  · intro h
    exact ⟨h _, h _⟩
  · rintro ⟨horizontal, vertical⟩ a
    cases a
    · exact horizontal
    · exact vertical

instance {P : Axis → Prop} [DecidablePred P] : Decidable (∀ a, P a) :=
  decidable_of_iff _ Axis.forall_iff.symm

/-! ## Rules -/

namespace Frame

/-- The frame lies in the unit square and covers some of it. -/
def LiesInUnit (f : NormalizedFrame Float) : Prop :=
  ∀ a, 0 ≤ f.start a ∧ f.start a < 1 ∧ 0 < f.extent a ∧ f.extent a ≤ 1

/-- No edge of the frame is outside of the canvas. -/
def LiesOn (c : Canvas) (f : PixelFrame Float) : Prop :=
  ∀ a, ¬f.start a < 0 ∧ ¬c.extent.along a < f.finish a

instance (f : NormalizedFrame Float) : Decidable f.LiesInUnit :=
  inferInstanceAs (Decidable (∀ a, 0 ≤ f.start a ∧ f.start a < 1 ∧ 0 < f.extent a ∧ f.extent a ≤ 1))

instance (c : Canvas) (f : PixelFrame Float) : Decidable (f.LiesOn c) :=
  inferInstanceAs (Decidable (∀ a, ¬f.start a < 0 ∧ ¬c.extent.along a < f.finish a))

end Frame

/-- All components of both frames of a layer are finite. -/
def Placed.IsFinite (p : PlacedLayer) : Prop :=
  p.frame.isFinite = true ∧ p.pixelFrame.isFinite = true

/-- The two frames of a layer agree within the tolerance, component by component. -/
def Placed.Agrees (c : Canvas) (p : PlacedLayer) : Prop :=
  ∀ a, Scalar.close (p.frame.start a * c.extent.along a) (p.pixelFrame.start a) = true ∧
    Scalar.close (p.frame.extent a * c.extent.along a) (p.pixelFrame.extent a) = true

instance (p : PlacedLayer) : Decidable p.IsFinite :=
  inferInstanceAs (Decidable (p.frame.isFinite = true ∧ p.pixelFrame.isFinite = true))

instance (c : Canvas) (p : PlacedLayer) : Decidable (p.Agrees c) :=
  inferInstanceAs (Decidable (∀ a,
    Scalar.close (p.frame.start a * c.extent.along a) (p.pixelFrame.start a) = true ∧
      Scalar.close (p.frame.extent a * c.extent.along a) (p.pixelFrame.extent a) = true))

/-- The canvas has no area. -/
def Canvas.IsEmpty (c : Canvas) : Prop := c.width = 0 ∨ c.height = 0

instance (c : Canvas) : Decidable c.IsEmpty :=
  inferInstanceAs (Decidable (c.width = 0 ∨ c.height = 0))

namespace Screen

variable (s : Screen) (n : Nat) (p : PlacedLayer) (a : Axis)

/-- The layer at place `n` breaks the rule of a kind of issue by its name or its frames. What its
frames are is only asked when they are finite, and where they lie when the canvas has an area. -/
def BreaksAt : IssueCode → Prop
  | .duplicateId => ∃ q ∈ s.layers.take n, q.id = p.id
  | .notFinite => ¬p.IsFinite
  | .outsideUnit => p.IsFinite ∧ ¬p.frame.LiesInUnit
  | .outsideCanvas => p.IsFinite ∧ ¬s.canvas.IsEmpty ∧ ¬p.pixelFrame.LiesOn s.canvas
  | .frameMismatch => p.IsFinite ∧ ¬s.canvas.IsEmpty ∧ ¬p.Agrees s.canvas
  | _ => False

/-- The layer at place `n` breaks the rule of a kind of issue by its anchor along an axis. -/
def BreaksAlong : IssueCode → Prop
  | .wrongDirection => (p.anchor a).direction ≠ a.direction
  | .invalidDistance => (p.anchor a).distance.isFinite = false ∨ (p.anchor a).distance < 0
  | .unknownReference => ∃ r ∈ (p.anchor a).reference, ∀ q ∈ s.layers, q.id ≠ r
  | .forwardReference => ∃ r ∈ (p.anchor a).reference,
      (∃ q ∈ s.layers, q.id = r) ∧ ∀ q ∈ s.layers.take n, q.id ≠ r
  | _ => False

instance (code : IssueCode) : Decidable (s.BreaksAt n p code) := by
  cases code <;> dsimp only [BreaksAt] <;> infer_instance

instance (code : IssueCode) : Decidable (s.BreaksAlong n p a code) := by
  cases code <;> dsimp only [BreaksAlong] <;> infer_instance

/-- The places of the layer at place `n` that break the rule of a kind of issue. -/
def breachesAt (code : IssueCode) : List IssueContext :=
  (Axis.all.filter fun a => s.BreaksAlong n p a code).map (.anchor p.id) ++
    if s.BreaksAt n p code then [.layer p.id] else []

/-- The places that break the rule of a kind of issue, in the order of the layers. -/
def breaches (code : IssueCode) : List IssueContext :=
  (if code = .emptyCanvas ∧ s.canvas.IsEmpty then [.canvas] else []) ++
    s.layers.zipIdx.flatMap fun (p, n) => s.breachesAt n p code

/-- What every screen should be: a canvas with an area, layers with names of their own and finite
frames, each anchored up and to the left, at distances that are finite and not below zero, to
earlier layers or to the edge of the canvas. -/
structure IsSound : Prop where
  width : s.canvas.width ≠ 0
  height : s.canvas.height ≠ 0
  names : (s.layers.map (·.id)).Nodup
  up : ∀ p ∈ s.layers, p.vertical.direction = .up
  left : ∀ p ∈ s.layers, p.horizontal.direction = .left
  distances : ∀ p ∈ s.layers, ∀ a,
    (p.anchor a).distance.isFinite = true ∧ ¬(p.anchor a).distance < 0
  references : ∀ n p, s.layers[n]? = some p → ∀ a, ∀ r ∈ (p.anchor a).reference,
    ∃ q ∈ s.layers.take n, q.id = r
  frames : ∀ p ∈ s.layers, p.IsFinite

end Screen

/-! ## What the checks report -/

namespace Validation

section Places

variable {α β : Type} {code : IssueCode}

/-- The places of the issues of a kind, in order. -/
def places (code : IssueCode) (is : List (Issue α)) : List IssueContext :=
  (is.filter (·.code = code)).map (·.context)

theorem places_append (is is' : List (Issue α)) :
    places code (is ++ is') = places code is ++ places code is' := by
  unfold places
  rw [List.filter_append, List.map_append]

/-- The places of the issues of several lists are those of each, in order. -/
theorem places_flatMap (f : β → List (Issue α)) (xs : List β) :
    places code (xs.flatMap f) = xs.flatMap fun x => places code (f x) := by
  unfold places
  rw [List.filter_flatMap, List.map_flatMap]

/-- A single issue is at its place when the rule for its kind is broken. -/
theorem places_singleton {broken : Prop} [Decidable broken] {issue : Issue α}
    (rule : broken ↔ code = issue.code) :
    places code [issue] = if broken then [issue.context] else [] := by
  unfold places
  by_cases same : code = issue.code
  · simp [rule, same]
  · simp [rule, same, Ne.symm same]

/-- A check that fails reports one place, to the kind of its issue. -/
theorem places_check {passes broken : Prop} [Decidable passes] [Decidable broken] {issue : Issue α}
    (rule : broken ↔ code = issue.code ∧ ¬passes) :
    places code (if passes then [] else [issue]) = if broken then [issue.context] else [] := by
  split
  · rename_i passed
    rw [if_neg (by tauto)]
    rfl
  · rename_i fails
    exact places_singleton (by tauto)

/-- Of checks that report to different kinds one at most reports to a kind. -/
theorem ite_append_ite {x : IssueContext} {P Q R : Prop} [Decidable P] [Decidable Q] [Decidable R]
    (apart : P → ¬Q) (either : R ↔ P ∨ Q) :
    (if P then [x] else []) ++ (if Q then [x] else []) = if R then [x] else [] := by
  by_cases hp : P
  · rw [if_pos hp, if_neg (apart hp), if_pos (either.2 (.inl hp))]
    rfl
  · rw [if_neg hp, List.nil_append]
    exact if_congr (by rw [either, or_iff_right hp]) rfl rfl

/-- No issue of a kind has a place when there is none of that kind. -/
theorem places_eq_nil {is : List (Issue α)} :
    places code is = [] ↔ ∀ i ∈ is, i.code ≠ code := by
  simp [places, List.filter_eq_nil_iff]

end Places

section Checks

variable {s : Screen} {n : Nat} {p : PlacedLayer} {a : Axis} {code : IssueCode}

/-- The check of the canvas is that neither of its sides is zero. -/
theorem hasArea_iff {c : Canvas} : hasArea c = true ↔ ¬c.IsEmpty := by
  unfold hasArea Canvas.IsEmpty
  simp

theorem places_canvasIssues :
    places code (canvasIssues s.canvas : List (Issue Float)) =
      if code = .emptyCanvas ∧ s.canvas.IsEmpty then [.canvas] else [] := by
  apply places_check
  rw [hasArea_iff, not_not]
  rfl

/-- A name is reported at every layer but the first that has it. -/
theorem places_nameIssues (h : s.layers[n]? = some p) :
    places code (nameIssues s.layers n p) =
      if code = .duplicateId ∧ s.BreaksAt n p .duplicateId then [.layer p.id] else [] := by
  obtain ⟨first, -, position⟩ := position?_le h
  unfold nameIssues
  simp only [position]
  rw [← ite_not]
  apply places_check
  rw [not_not, position?_lt_iff position, List.mem_map]
  rfl

theorem position?_eq_none {layers : List PlacedLayer} {id : String} :
    position? layers id = none ↔ ∀ q ∈ layers, q.id ≠ id := by
  unfold position?
  simp

theorem exists_of_position? {layers : List PlacedLayer} {id : String} {first : Nat}
    (position : position? layers id = some first) : ∃ q ∈ layers, q.id = id := by
  obtain ⟨q, hq, same⟩ := position?_eq_some position
  exact ⟨q, List.mem_of_getElem? hq, same⟩

/-- A reference is reported if no layer before has the name: as unknown if no layer has it. -/
theorem places_referenceIssues :
    places code (referenceIssues s.layers n p.id a (p.anchor a).reference) =
      if (code = .unknownReference ∨ code = .forwardReference) ∧ s.BreaksAlong n p a code then
        [.anchor p.id a] else [] := by
  cases named : (p.anchor a).reference with
  | none =>
    symm
    apply if_neg
    rintro ⟨rfl | rfl, r, found, -⟩ <;>
    · rw [named] at found
      cases found
  | some r =>
    have broken {P : String → Prop} : (∃ r ∈ (p.anchor a).reference, P r) ↔ P r := by
      simp only [named, Option.mem_some_iff, exists_eq_left']
    have unknown : s.BreaksAlong n p a .unknownReference ↔ ∀ q ∈ s.layers, q.id ≠ r := broken
    have forward : s.BreaksAlong n p a .forwardReference ↔
        (∃ q ∈ s.layers, q.id = r) ∧ ∀ q ∈ s.layers.take n, q.id ≠ r := broken
    cases position : position? s.layers r with
    | none =>
      have absent := position?_eq_none.1 position
      simp only [referenceIssues, position]
      apply places_singleton
      constructor
      · rintro ⟨rfl | rfl, breaks⟩
        · rfl
        · obtain ⟨⟨q, hq, same⟩, -⟩ := forward.1 breaks
          exact absurd same (absent q hq)
      · rintro rfl
        exact ⟨.inl rfl, unknown.2 absent⟩
    | some first =>
      have present := exists_of_position? position
      have late : (∀ q ∈ s.layers.take n, q.id ≠ r) ↔ ¬first < n := by
        rw [position?_lt_iff position, List.mem_map]
        simp
      simp only [referenceIssues, position]
      rw [← ite_not]
      apply places_check
      rw [not_not, ← not_lt, ← late]
      constructor
      · rintro ⟨rfl | rfl, breaks⟩
        · obtain ⟨q, hq, same⟩ := present
          exact absurd same (unknown.1 breaks q hq)
        · exact ⟨rfl, (forward.1 breaks).2⟩
      · rintro ⟨rfl, absent⟩
        exact ⟨.inr rfl, forward.2 ⟨present, absent⟩⟩

/-- A distance passes when it is finite and not below zero. -/
theorem passes_distance_iff {x : Float} : (Scalar.isFinite x && !Scalar.negative x) = true ↔
    ¬(x.isFinite = false ∨ x < 0) := by
  rw [Bool.and_eq_true, Bool.not_eq_true', not_or, Bool.not_eq_false]
  exact and_congr_right fun _ => decide_eq_false_iff_not

/-- An anchor is reported once for each of the rules that it breaks. -/
theorem places_anchorIssues :
    places code (anchorIssues s.layers n p a) =
      if s.BreaksAlong n p a code then [.anchor p.id a] else [] := by
  have direction : places code (if (p.anchor a).direction = a.direction then [] else
      [Issue.wrongDirection (α := Float) p.id a (p.anchor a).direction]) =
        if code = .wrongDirection ∧ s.BreaksAlong n p a .wrongDirection then
          [.anchor p.id a] else [] := places_check Iff.rfl
  have distance : places code (if Scalar.isFinite (p.anchor a).distance &&
      !Scalar.negative (p.anchor a).distance then [] else
        [Issue.invalidDistance p.id a (p.anchor a).distance]) =
        if code = .invalidDistance ∧ s.BreaksAlong n p a .invalidDistance then
          [.anchor p.id a] else [] := by
    apply places_check
    rw [passes_distance_iff, not_not]
    rfl
  unfold anchorIssues
  rw [places_append, places_append, direction, distance, places_referenceIssues,
    ite_append_ite (R := (code = .wrongDirection ∨ code = .invalidDistance) ∧ s.BreaksAlong n p a code)]
  · apply ite_append_ite
    · rintro ⟨rfl | rfl, -⟩ <;> simp
    · cases code <;> simp [Screen.BreaksAlong]
  · rintro ⟨rfl, -⟩
    simp
  · cases code <;> simp

/-- The check of a normalized frame is that it lies in the unit square. -/
theorem isWithinUnit_iff {f : NormalizedFrame Float} : f.isWithinUnit = true ↔ f.LiesInUnit := by
  unfold Frame.isWithinUnit Frame.LiesInUnit
  simp only [Axis.forall_iff, Bool.and_eq_true, Scalar.le, Scalar.lt, decide_eq_true_eq]
  constructor
  · rintro ⟨⟨⟨⟨⟨⟨⟨x, x'⟩, y⟩, y'⟩, width⟩, width'⟩, height⟩, height'⟩
    exact ⟨⟨x, x', width, width'⟩, y, y', height, height'⟩
  · rintro ⟨⟨x, x', width, width'⟩, y, y', height, height'⟩
    exact ⟨⟨⟨⟨⟨⟨⟨x, x'⟩, y⟩, y'⟩, width⟩, width'⟩, height⟩, height'⟩

/-- The check of a pixel frame is that it lies on the canvas. -/
theorem isOnCanvas_iff {c : Canvas} {f : PixelFrame Float} :
    isOnCanvas c f = true ↔ f.LiesOn c := by
  unfold isOnCanvas Frame.LiesOn
  simp only [Axis.forall_iff, Bool.not_eq_true', Bool.or_eq_false_iff, Scalar.negative, Scalar.lt,
    decide_eq_false_iff_not]
  constructor
  · rintro ⟨⟨⟨x, y⟩, right⟩, bottom⟩
    exact ⟨⟨x, right⟩, y, bottom⟩
  · rintro ⟨⟨x, right⟩, y, bottom⟩
    exact ⟨⟨⟨x, y⟩, right⟩, bottom⟩

/-- The check of the two frames is that they agree along each axis. -/
theorem framesAgree_iff {c : Canvas} : framesAgree c p = true ↔ p.Agrees c := by
  unfold framesAgree Placed.Agrees Frame.close
  simp only [Axis.forall_iff, Bool.and_eq_true]
  constructor
  · rintro ⟨⟨⟨x, y⟩, width⟩, height⟩
    exact ⟨⟨x, width⟩, y, height⟩
  · rintro ⟨⟨x, width⟩, y, height⟩
    exact ⟨⟨⟨x, y⟩, width⟩, height⟩

theorem not_isFinite_iff :
    (!(p.frame.isFinite && p.pixelFrame.isFinite)) = true ↔ ¬p.IsFinite := by
  unfold Placed.IsFinite
  rw [Bool.not_eq_true', ← Bool.not_eq_true, Bool.and_eq_true]

/-- Where a finite layer lies is asked only on a canvas that has an area. -/
theorem places_areaIssues (finite : p.IsFinite) :
    places code (if hasArea s.canvas then
        (if isOnCanvas s.canvas p.pixelFrame then [] else
          [.outsideCanvas p.id p.pixelFrame s.canvas.width s.canvas.height]) ++
        (if framesAgree s.canvas p then [] else [.frameMismatch p.id]) else []) =
      if (code = .outsideCanvas ∨ code = .frameMismatch) ∧ s.BreaksAt n p code then
        [.layer p.id] else [] := by
  split
  · rename_i hasArea
    have asked {P : Prop} : p.IsFinite ∧ ¬s.canvas.IsEmpty ∧ P ↔ P :=
      (and_iff_right finite).trans (and_iff_right (hasArea_iff.1 hasArea))
    have canvas : places code (if isOnCanvas s.canvas p.pixelFrame then [] else
          [.outsideCanvas p.id p.pixelFrame s.canvas.width s.canvas.height]) =
        if code = .outsideCanvas ∧ s.BreaksAt n p .outsideCanvas then [.layer p.id] else [] := by
      apply places_check
      rw [isOnCanvas_iff]
      exact and_congr_right fun _ => asked
    have agree : places code (if framesAgree s.canvas p then [] else
          [.frameMismatch (α := Float) p.id]) =
        if code = .frameMismatch ∧ s.BreaksAt n p .frameMismatch then [.layer p.id] else [] := by
      apply places_check
      rw [framesAgree_iff]
      exact and_congr_right fun _ => asked
    rw [places_append, canvas, agree]
    apply ite_append_ite
    · rintro ⟨rfl, -⟩
      simp
    · cases code <;> simp
  · rename_i hasArea
    rw [hasArea_iff, not_not] at hasArea
    symm
    apply if_neg
    rintro ⟨rfl | rfl, -, area, -⟩ <;> exact area hasArea

/-- A layer is reported once for each of the rules on frames that it breaks. -/
theorem places_frameIssues :
    places code (frameIssues s.canvas p) =
      if code ≠ .duplicateId ∧ s.BreaksAt n p code then [.layer p.id] else [] := by
  unfold frameIssues
  by_cases finite : p.IsFinite
  · have unit : places code (if p.frame.isWithinUnit then [] else [.outsideUnit p.id p.frame]) =
        if code = .outsideUnit ∧ s.BreaksAt n p .outsideUnit then [.layer p.id] else [] := by
      apply places_check
      rw [isWithinUnit_iff]
      exact and_congr_right fun _ => and_iff_right finite
    rw [if_neg (mt not_isFinite_iff.1 (not_not.2 finite)), places_append, unit,
      places_areaIssues (n := n) finite]
    apply ite_append_ite
    · rintro ⟨rfl, -⟩
      simp
    · cases code <;> simp [Screen.BreaksAt, finite]
  · rw [if_pos (not_isFinite_iff.2 finite)]
    apply places_singleton
    cases code <;> simp [Screen.BreaksAt, finite, Issue.code]

/-- The issues of one layer: those of its anchors along each axis, then those of the layer itself.
-/
theorem places_layerIssues :
    places code (layerIssues s.canvas s.layers n p) =
      (Axis.all.filter fun a => s.BreaksAlong n p a code).map (.anchor p.id) ++
        if code ≠ .duplicateId ∧ s.BreaksAt n p code then [.layer p.id] else [] := by
  unfold layerIssues
  rw [places_append, places_append, places_frameIssues, places_anchorIssues, places_anchorIssues]
  congr 1
  by_cases vertical : s.BreaksAlong n p .vertical code <;>
    by_cases horizontal : s.BreaksAlong n p .horizontal code <;>
      simp [Axis.all, vertical, horizontal]

/-- Names are checked before all else, but nothing else is reported to their kind. -/
theorem places_issues (s : Screen) (code : IssueCode) :
    places code (issues s.canvas s.layers) = s.breaches code := by
  unfold issues Screen.breaches
  rw [places_append, places_append, places_canvasIssues, places_flatMap, places_flatMap,
    List.append_assoc]
  congr 1
  by_cases name : code = .duplicateId
  · subst name
    have rest : (s.layers.zipIdx.flatMap fun x =>
        places .duplicateId (layerIssues s.canvas s.layers x.2 x.1)) = [] := by
      rw [List.flatMap_eq_nil_iff]
      rintro ⟨p, n⟩ -
      rw [places_eq_nil]
      exact fun i hi => code_of_mem_layerIssues hi
    rw [rest, List.append_nil]
    apply List.flatMap_congr
    rintro ⟨p, n⟩ hp
    have anchors : (Axis.all.filter fun a =>
        s.BreaksAlong n p a .duplicateId) = [] :=
      List.filter_eq_nil_iff.2 fun a _ broken => of_decide_eq_true broken
    show places .duplicateId (nameIssues s.layers n p) = s.breachesAt n p .duplicateId
    rw [places_nameIssues (List.mem_zipIdx_iff_getElem?.1 hp), Screen.breachesAt, anchors]
    simp only [true_and, List.map_nil, List.nil_append]
  · have names : (s.layers.zipIdx.flatMap fun x => places code (nameIssues s.layers x.2 x.1)) =
        [] := by
      rw [List.flatMap_eq_nil_iff]
      rintro ⟨p, n⟩ -
      rw [places_eq_nil]
      intro i hi same
      exact name (same.symm.trans (code_of_mem_nameIssues hi))
    rw [names, List.nil_append]
    apply List.flatMap_congr
    rintro ⟨p, n⟩ -
    show places code (layerIssues s.canvas s.layers n p) = s.breachesAt n p code
    rw [places_layerIssues, Screen.breachesAt]
    simp only [ne_eq, name, not_false_eq_true, true_and]

end Checks

end Validation

namespace Screen

variable {s : Screen} {code : IssueCode}

/-- A layer has no place among the breaches when it breaks the rule neither along an axis nor by
itself. -/
theorem breachesAt_eq_nil {n : Nat} {p : PlacedLayer} : s.breachesAt n p code = [] ↔
    (∀ a, ¬s.BreaksAlong n p a code) ∧ ¬s.BreaksAt n p code := by
  unfold breachesAt
  rw [List.append_eq_nil_iff, List.map_eq_nil_iff, List.filter_eq_nil_iff]
  refine and_congr ⟨fun h a broken => ?_, fun h a _ broken => ?_⟩ (by simp)
  · exact h a a.mem_all (decide_eq_true broken)
  · exact h a (of_decide_eq_true broken)

/-- A rule is kept when neither the canvas nor any layer breaks it. -/
theorem breaches_eq_nil : s.breaches code = [] ↔
    ¬(code = .emptyCanvas ∧ s.canvas.IsEmpty) ∧
      ∀ n p, s.layers[n]? = some p → (∀ a, ¬s.BreaksAlong n p a code) ∧ ¬s.BreaksAt n p code := by
  unfold breaches
  rw [List.append_eq_nil_iff, List.flatMap_eq_nil_iff]
  refine and_congr (by simp) ⟨?_, ?_⟩
  · intro h n p hp
    exact breachesAt_eq_nil.1 (h (p, n) (List.mem_zipIdx_iff_getElem?.2 hp))
  · rintro h ⟨p, n⟩ hp
    exact breachesAt_eq_nil.2 (h n p (List.mem_zipIdx_iff_getElem?.1 hp))

/-- Names are distinct when none is that of an earlier layer. -/
theorem nodup_names_iff {layers : List PlacedLayer} : (layers.map (·.id)).Nodup ↔
    ∀ n p, layers[n]? = some p → ∀ q ∈ layers.take n, q.id ≠ p.id := by
  rw [List.nodup_iff_pairwise_ne, List.pairwise_map, List.pairwise_iff_getElem]
  constructor
  · intro h n p hp q hq
    obtain ⟨inside, rfl⟩ := List.getElem?_eq_some_iff.1 hp
    obtain ⟨j, hj, rfl⟩ := List.getElem_of_mem hq
    rw [List.length_take] at hj
    rw [List.getElem_take]
    exact h j n (by omega) inside (by omega)
  · intro h i j hi hj lt
    exact h j _ (List.getElem?_eq_getElem hj) _ (List.mem_take_iff_getElem.2 ⟨i, by omega, rfl⟩)

/-- A reference to no earlier layer is one to no layer at all or to a later one. -/
theorem reference_iff {n : Nat} {p : PlacedLayer} {a : Axis} :
    (∀ r ∈ (p.anchor a).reference, ∃ q ∈ s.layers.take n, q.id = r) ↔
      ¬s.BreaksAlong n p a .unknownReference ∧ ¬s.BreaksAlong n p a .forwardReference := by
  constructor
  · intro earlier
    constructor
    · rintro ⟨r, named, absent⟩
      obtain ⟨q, hq, same⟩ := earlier r named
      exact absent q (List.mem_of_mem_take hq) same
    · rintro ⟨r, named, -, late⟩
      obtain ⟨q, hq, same⟩ := earlier r named
      exact late q hq same
  · rintro ⟨known, early⟩ r named
    by_contra late
    push Not at late
    refine early ⟨r, named, ?_, late⟩
    by_contra absent
    push Not at absent
    exact known ⟨r, named, absent⟩

/-- A screen is sound if it breaks none of the rules whose issues are errors. -/
theorem isSound_iff : s.IsSound ↔
    ∀ code : IssueCode, code.severity = .error → s.breaches code = [] := by
  constructor
  · intro sound code error
    rw [breaches_eq_nil]
    refine ⟨?_, fun n p hp => ⟨fun a broken => ?_, fun broken => ?_⟩⟩
    · rintro ⟨-, empty⟩
      exact empty.elim sound.width sound.height
    · have mem := List.mem_of_getElem? hp
      have known := reference_iff.1 (sound.references n p hp a)
      cases code with
      | wrongDirection =>
        cases a with
        | horizontal => exact broken (sound.left p mem)
        | vertical => exact broken (sound.up p mem)
      | invalidDistance =>
        obtain ⟨finite, nonneg⟩ := sound.distances p mem a
        rcases broken with infinite | negative
        · rw [finite] at infinite
          contradiction
        · exact nonneg negative
      | unknownReference => exact known.1 broken
      | forwardReference => exact known.2 broken
      | _ => exact broken
    · have mem := List.mem_of_getElem? hp
      cases code with
      | duplicateId =>
        obtain ⟨q, hq, same⟩ := broken
        exact nodup_names_iff.1 sound.names n p hp q hq same
      | notFinite => exact broken (sound.frames p mem)
      | outsideUnit => cases error
      | outsideCanvas => cases error
      | frameMismatch => cases error
      | _ => exact broken
  · intro h
    have rules (code : IssueCode) (error : code.severity = .error) := breaches_eq_nil.1 (h code error)
    have area := not_or.1 fun empty => (rules .emptyCanvas rfl).1 ⟨rfl, empty⟩
    have each {p : PlacedLayer} (mem : p ∈ s.layers) : ∃ n, s.layers[n]? = some p :=
      List.mem_iff_getElem?.1 mem
    refine ⟨area.1, area.2, ?_, ?_, ?_, ?_, ?_, ?_⟩
    · rw [nodup_names_iff]
      intro n p hp q hq same
      exact ((rules .duplicateId rfl).2 n p hp).2 ⟨q, hq, same⟩
    · intro p mem
      obtain ⟨n, hp⟩ := each mem
      exact not_not.1 (((rules .wrongDirection rfl).2 n p hp).1 .vertical)
    · intro p mem
      obtain ⟨n, hp⟩ := each mem
      exact not_not.1 (((rules .wrongDirection rfl).2 n p hp).1 .horizontal)
    · intro p mem a
      obtain ⟨n, hp⟩ := each mem
      obtain ⟨finite, nonneg⟩ := not_or.1 (((rules .invalidDistance rfl).2 n p hp).1 a)
      exact ⟨Bool.not_eq_false _ ▸ finite, nonneg⟩
    · intro n p hp a
      rw [reference_iff]
      exact ⟨((rules .unknownReference rfl).2 n p hp).1 a,
        ((rules .forwardReference rfl).2 n p hp).1 a⟩
    · intro p mem
      obtain ⟨n, hp⟩ := each mem
      exact not_not.1 ((rules .notFinite rfl).2 n p hp).2

/-- A screen passes the checks exactly when it is sound. -/
theorem isOk_validate_iff : s.validate.isOk = true ↔ s.IsSound := by
  rw [Report.isOk_iff, isSound_iff]
  simp only [← Validation.places_issues, Validation.places_eq_nil]
  constructor
  · rintro h code error i hi rfl
    exact h i hi error
  · intro h i hi error
    exact h i.code error i hi rfl

/-- A screen passes strictly exactly when no rule of any kind is broken. -/
theorem isOkStrict_validate_iff : s.validate.isOkStrict = true ↔ ∀ code, s.breaches code = [] := by
  unfold Report.isOkStrict
  simp only [← Validation.places_issues, Validation.places_eq_nil]
  rw [List.isEmpty_iff, List.eq_nil_iff_forall_not_mem]
  constructor
  · intro h code i hi
    exact absurd hi (h i)
  · intro h i hi
    exact h i.code i hi rfl

/-- Without any breach a screen is sound, and its frames lie where they should and agree. -/
theorem breaches_eq_nil_all : (∀ code, s.breaches code = []) ↔ s.IsSound ∧ ∀ p ∈ s.layers,
    p.frame.LiesInUnit ∧ p.pixelFrame.LiesOn s.canvas ∧ p.Agrees s.canvas := by
  constructor
  · intro h
    have sound : s.IsSound := isSound_iff.2 fun code _ => h code
    have area : ¬s.canvas.IsEmpty := not_or.2 ⟨sound.width, sound.height⟩
    refine ⟨sound, fun p mem => ?_⟩
    obtain ⟨n, hp⟩ := List.mem_iff_getElem?.1 mem
    have finite := sound.frames p mem
    have passes (code : IssueCode) : ¬s.BreaksAt n p code := ((breaches_eq_nil.1 (h code)).2 n p hp).2
    refine ⟨?_, ?_, ?_⟩ <;> by_contra broken
    · exact passes .outsideUnit ⟨finite, broken⟩
    · exact passes .outsideCanvas ⟨finite, area, broken⟩
    · exact passes .frameMismatch ⟨finite, area, broken⟩
  · rintro ⟨sound, placed⟩ code
    cases severity : code.severity with
    | error => exact isSound_iff.1 sound code severity
    | warning =>
      rw [breaches_eq_nil]
      refine ⟨?_, fun n p hp => ?_⟩
      · rintro ⟨rfl, -⟩
        cases severity
      · obtain ⟨unit, canvas, agree⟩ := placed p (List.mem_of_getElem? hp)
        cases code with
        | outsideUnit => exact ⟨fun _ => id, fun broken => broken.2 unit⟩
        | outsideCanvas => exact ⟨fun _ => id, fun broken => broken.2.2 canvas⟩
        | frameMismatch => exact ⟨fun _ => id, fun broken => broken.2.2 agree⟩
        | _ => cases severity

/-- What a report says of a screen, whatever the screen is. There is no error if and only if the
screen is sound; each breach of a rule is one issue of the kind of that rule, at its place, and there
are no other issues; and there is no issue at all if and only if the screen is sound and the frames
of its layers lie in the unit square and on the canvas and agree. -/
theorem validate_breaches (s : Screen) :
    (s.validate.isOk = true ↔ s.IsSound) ∧
      (∀ code, (s.validate.issues.filter (·.code = code)).map (·.context) = s.breaches code) ∧
      (s.validate.isOkStrict = true ↔ s.IsSound ∧ ∀ p ∈ s.layers,
        p.frame.LiesInUnit ∧ p.pixelFrame.LiesOn s.canvas ∧ p.Agrees s.canvas) :=
  ⟨isOk_validate_iff, Validation.places_issues s, isOkStrict_validate_iff.trans breaches_eq_nil_all⟩

/-- A full-size layer called `tab`, anchored to a layer above and at a distance from the left. -/
def tab (above : Option String) (distance : Float) : PlacedLayer where
  id := "tab"
  content := ⟨{}, .shape .rect⟩
  frame := ⟨0, 0, 1, 1⟩
  pixelFrame := ⟨0, 0, 10, 10⟩
  vertical := ⟨.up, above, 0⟩
  horizontal := ⟨.left, none, distance⟩

-- the second layer may refer to `tab`, since the first one has that name too
example :
    let s : Screen := ⟨⟨10, 10, .white, "", ""⟩, [tab none 0, tab (some "tab") (-1), tab (some "bar") 0]⟩
    (IssueCode.all.map fun code => (code, s.breaches code)).filter (·.2 ≠ []) =
      [(.duplicateId, [.layer "tab", .layer "tab"]), (.unknownReference, [.anchor "tab" .vertical]),
        (.invalidDistance, [.anchor "tab" .horizontal])] := by
  decide +kernel

end Screen

end CanvasLayout
