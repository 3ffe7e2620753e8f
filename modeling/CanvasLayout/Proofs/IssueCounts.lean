import CanvasLayout.Proofs.ReadingOrder
import CanvasLayout.Proofs.ScreenChecks

/-!
# How many issues a screen has

Each check gives issues of its own kinds, so the issues of a kind are counted in the check that
gives them. Of the layers with a name all but the first are reported, hence as many repeated names
as there are layers beyond the distinct names (`Validation.count_duplicateId`). Whatever elements a
screen is made of, no anchor is reported for its reference or its direction
(`Screen.validate_ofElements`).
-/

namespace CanvasLayout

namespace Validation

variable {α γ : Type} {c : Canvas} {layers : List (Placed α γ)} {p : Placed α γ} {n : Nat}
  {i : Issue α}

section Names

/-- A check that passes gives nothing, and one that fails a single issue. -/
theorem eq_of_mem_check {passes : Prop} [Decidable passes] {issue : Issue α}
    (h : i ∈ if passes then [] else [issue]) : i = issue := by
  split at h
  · contradiction
  · exact List.mem_singleton.1 h

theorem code_of_mem_canvasIssues (h : i ∈ canvasIssues c) : i.code = .emptyCanvas := by
  rw [eq_of_mem_check h]
  rfl

theorem code_of_mem_nameIssues (h : i ∈ nameIssues layers n p) : i.code = .duplicateId := by
  unfold nameIssues at h
  split at h
  · rw [← ite_not] at h
    rw [eq_of_mem_check h]
    rfl
  · contradiction

theorem code_of_mem_referenceIssues {id : String} {a : Axis} {reference : Option String}
    (h : i ∈ referenceIssues layers n id a reference) :
    i.code ∈ [IssueCode.unknownReference, .forwardReference] := by
  unfold referenceIssues at h
  split at h
  · contradiction
  · split at h
    · rw [List.mem_singleton.1 h]
      simp [Issue.code]
    · rw [← ite_not] at h
      rw [eq_of_mem_check h]
      simp [Issue.code]

/-- A name is found before a place if and only if a layer before that place has it. -/
theorem position?_lt_iff {id : String} {first : Nat} (position : position? layers id = some first) :
    first < n ↔ id ∈ (layers.take n).map (·.id) := by
  constructor
  · intro lt
    obtain ⟨q, hq, same⟩ := position?_eq_some position
    refine List.mem_map.2 ⟨q, ?_, same⟩
    apply List.mem_of_getElem?
    rw [List.getElem?_take_of_lt lt, hq]
  · intro mem
    obtain ⟨q, hq, rfl⟩ := List.mem_map.1 mem
    obtain ⟨j, hj⟩ := List.mem_iff_getElem?.1 hq
    obtain ⟨inside, -⟩ := List.getElem?_eq_some_iff.1 hj
    have lt : j < n := by
      rw [List.length_take] at inside
      omega
    rw [List.getElem?_take_of_lt lt] at hj
    obtain ⟨found, le, position'⟩ := position?_le hj
    rw [position] at position'
    obtain rfl := Option.some.inj position'
    exact Nat.lt_of_le_of_lt le lt

/-- A layer is reported once if an earlier one has its name, and else not at all. -/
theorem length_nameIssues (h : layers[n]? = some p) :
    (nameIssues layers n p).length = if p.id ∈ (layers.take n).map (·.id) then 1 else 0 := by
  obtain ⟨first, -, position⟩ := position?_le h
  unfold nameIssues
  simp only [position, position?_lt_iff position]
  split <;> rfl

/-- Names are new or reported. The induction is on the layers that are still to come: the next one
has a new name or is one more report. -/
theorem length_names (earlier later : List (Placed α γ)) (h : layers = earlier ++ later) :
    ((later.zipIdx earlier.length).flatMap fun (p, n) => nameIssues layers n p).length +
        (layers.map (·.id)).toFinset.card =
      later.length + (earlier.map (·.id)).toFinset.card := by
  induction later generalizing earlier with
  | nil =>
    rw [h, List.append_nil]
    rfl
  | cons p later ih =>
    have rest := ih (earlier ++ [p]) (by rw [h, List.append_assoc, List.singleton_append])
    have here : layers[earlier.length]? = some p := by
      rw [h, List.getElem?_append_right le_rfl, Nat.sub_self, List.getElem?_cons_zero]
    have report := length_nameIssues here
    rw [h, List.take_left, ← h] at report
    have names : ((earlier ++ [p]).map (·.id)).toFinset =
        insert p.id (earlier.map (·.id)).toFinset := by
      ext id
      simp
    rw [List.length_append, List.length_singleton, names] at rest
    rw [List.zipIdx_cons, List.flatMap_cons, List.length_append, report, List.length_cons]
    split
    · rename_i old
      rw [Finset.card_insert_of_mem (List.mem_toFinset.2 old)] at rest
      omega
    · rename_i new
      rw [Finset.card_insert_of_notMem (mt List.mem_toFinset.1 new)] at rest
      omega

end Names

section Layers

variable [Scalar α]

theorem code_of_mem_anchorIssues {a : Axis} (h : i ∈ anchorIssues layers n p a) :
    i.code ∈ [IssueCode.wrongDirection, .invalidDistance, .unknownReference, .forwardReference] := by
  unfold anchorIssues at h
  rcases List.mem_append.1 h with h | h
  · rcases List.mem_append.1 h with h | h
    · rw [eq_of_mem_check h]
      simp [Issue.code]
    · rw [eq_of_mem_check h]
      simp [Issue.code]
  · exact List.mem_cons_of_mem _ (List.mem_cons_of_mem _ (code_of_mem_referenceIssues h))

theorem code_of_mem_frameIssues (h : i ∈ frameIssues c p) :
    i.code ∈ [IssueCode.notFinite, .outsideUnit, .outsideCanvas, .frameMismatch] := by
  unfold frameIssues at h
  split at h
  · rw [List.mem_singleton.1 h]
    simp [Issue.code]
  · rcases List.mem_append.1 h with h | h
    · rw [eq_of_mem_check h]
      simp [Issue.code]
    · split at h
      · rcases List.mem_append.1 h with h | h
        · rw [eq_of_mem_check h]
          simp [Issue.code]
        · rw [eq_of_mem_check h]
          simp [Issue.code]
      · contradiction

/-- Other checks of a layer never raise the code of repeated names. -/
theorem code_of_mem_layerIssues (h : i ∈ layerIssues c layers n p) : i.code ≠ .duplicateId := by
  intro repeated
  have anchored {a : Axis} (h : i ∈ anchorIssues layers n p a) : False := by
    have := code_of_mem_anchorIssues h
    rw [repeated] at this
    contradiction
  unfold layerIssues at h
  rcases List.mem_append.1 h with h | h
  · exact (List.mem_append.1 h).elim anchored anchored
  · have := code_of_mem_frameIssues h
    rw [repeated] at this
    contradiction

/-- As many repeated names are reported as there are layers beyond the distinct names. -/
theorem count_duplicateId (c : Canvas) (layers : List (Placed α γ)) :
    (issues c layers).countP (·.code = .duplicateId) + (layers.map (·.id)).toFinset.card =
      layers.length := by
  have canvas : (canvasIssues c : List (Issue α)).countP (·.code = .duplicateId) = 0 := by
    rw [List.countP_eq_zero]
    intro i hi
    rw [code_of_mem_canvasIssues hi]
    decide
  have names : (layers.zipIdx.flatMap fun (p, n) => nameIssues layers n p).countP
      (·.code = .duplicateId) =
        (layers.zipIdx.flatMap fun (p, n) => nameIssues layers n p).length := by
    rw [List.countP_eq_length]
    intro i hi
    obtain ⟨⟨p, n⟩, -, hi⟩ := List.mem_flatMap.1 hi
    rw [code_of_mem_nameIssues hi]
    decide
  have others : (layers.zipIdx.flatMap fun (p, n) => layerIssues c layers n p).countP
      (·.code = .duplicateId) = 0 := by
    rw [List.countP_eq_zero]
    intro i hi
    obtain ⟨⟨p, n⟩, -, hi⟩ := List.mem_flatMap.1 hi
    exact mt of_decide_eq_true (code_of_mem_layerIssues hi)
  unfold issues
  rw [List.countP_append, List.countP_append, canvas, names, others, Nat.zero_add, Nat.add_zero]
  exact length_names [] layers rfl

end Layers

end Validation

theorem Report.has_eq_false {r : Report} {code : IssueCode} (h : ∀ i ∈ r.issues, i.code ≠ code) :
    r.has code = false := by
  unfold Report.has
  rw [List.any_eq_false]
  intro i hi
  exact mt of_decide_eq_true (h i hi)

namespace Screen

/-- Of the kinds of issues of names and anchors only two are found in a screen made of elements. -/
theorem code_of_mem_validate {c : Canvas} {es : List Element} {i : Issue Float}
    (h : i ∈ (ofElements c es).validate.issues) :
    i.code ∈ [IssueCode.emptyCanvas, .duplicateId, .invalidDistance, .notFinite, .outsideUnit,
      .outsideCanvas, .frameMismatch] := by
  rcases Validation.mem_issues h with h | ⟨n, p, hp, h | ⟨a, h⟩ | h⟩
  · simp [Validation.code_of_mem_canvasIssues h]
  · simp [Validation.code_of_mem_nameIssues h]
  · have distance := Validation.anchorIssues_placeAll hp a
    rw [show Validation.anchorIssues (ofElements c es).layers n p a = _ from distance] at h
    rw [Validation.eq_of_mem_check h]
    simp [Issue.code]
  · have := Validation.code_of_mem_frameIssues h
    simp only [List.mem_cons] at this ⊢
    tauto

/-- Whatever the elements are, the anchors of their screen refer to earlier layers and have the
direction of their axis, and one repeated name is reported for each element beyond the distinct
names. -/
theorem validate_ofElements (c : Canvas) (es : List Element) :
    let r := (ofElements c es).validate
    r.has .unknownReference = false ∧ r.has .forwardReference = false ∧
      r.has .wrongDirection = false ∧
      r.issues.countP (·.code = .duplicateId) + (es.map (·.id)).toFinset.card = es.length := by
  intro r
  have absent {code : IssueCode} (other : code ∉ [IssueCode.emptyCanvas, .duplicateId,
      .invalidDistance, .notFinite, .outsideUnit, .outsideCanvas, .frameMismatch]) :
      r.has code = false := by
    apply Report.has_eq_false
    rintro i hi rfl
    exact other (code_of_mem_validate hi)
  refine ⟨absent (by decide), absent (by decide), absent (by decide), ?_⟩
  have elements := perm_ofElements c es
  have names : ((ofElements c es).layers.map (·.id)).toFinset = (es.map (·.id)).toFinset := by
    apply List.toFinset_eq_of_perm
    simpa [Function.comp_def, Placed.element] using elements.map (·.id)
  have length : (ofElements c es).layers.length = es.length := by
    simpa using elements.length_eq
  rw [← names, ← length]
  exact Validation.count_duplicateId c (ofElements c es).layers

end Screen

end CanvasLayout
