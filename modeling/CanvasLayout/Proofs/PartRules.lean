import CanvasLayout.Proofs.Classification

/-!
# The rules that building checks

The checks on the built children of an element, in the order in which they are made: a child that
comes second for a slot that holds one, then the slots that stayed empty, and for a collection its
name before all of them. `Prepared.fault?_build` says that an element is made when no check fails,
and that the first check that fails gives the failure otherwise.
-/

namespace CanvasLayout

open Outcome (fault? firstFault)

namespace Draft

/-- The verdict on a rule: its violation, if the rule is broken. -/
def verdict (d : Draft) (broken : Bool) (rule : StructuralRule) : Option Failure :=
  if broken then some (.structural d.id rule) else none

variable {π : Type} [DecidableEq π]

/-- The verdicts on children one after the other, behind those in `before`: a child is at fault when
an earlier one has the same part and there is a rule against a second. -/
def repeated (d : Draft) (part : Element → π) (rule : Element → Option StructuralRule)
    (before : List Element) : List Element → List (Option Failure)
  | [] => []
  | c :: cs =>
    (if before.any (part · = part c) then (rule c).map (.structural d.id) else none) ::
      d.repeated part rule (before ++ [c]) cs

variable {σ : Type} {d : Draft} {add : σ → Element → Logged σ} {part : Element → π}
  {rule : Element → Option StructuralRule}

/-- A fold that puts each child into the slot of its part, and refuses a second child for a slot
with a rule, fails at the first repeated part. The slots that are taken are those of the children so
far, which is the invariant. -/
theorem fault?_foldlM_of_taken (taken : σ → π → Bool)
    (step : ∀ s c, (add s c).outcome.fault? =
      if taken s (part c) then (rule c).map (.structural d.id) else none)
    (keep : ∀ s c s', (add s c).outcome = .ok s' → ∀ x, (rule x).isSome →
      taken s' (part x) = (taken s (part x) || part c = part x))
    {s : σ} {before children : List Element}
    (inv : ∀ x, (rule x).isSome → taken s (part x) = before.any (part · = part x)) :
    (children.foldlM add s).outcome.fault? = firstFault (d.repeated part rule before children) := by
  induction children generalizing s before with
  | nil => rfl
  | cons c cs ih =>
    rw [List.foldlM_cons, repeated]
    apply Logged.fault?_bind_cons
    · rw [step]
      cases hr : rule c with
      | none => simp
      | some r => rw [inv c (by rw [hr]; rfl)]
    · intro s' hs
      apply ih
      intro x hx
      rw [keep s c s' hs x hx, inv x hx, List.any_append]
      simp

/-- The same from slots that are all free. -/
theorem fault?_foldlM (taken : σ → π → Bool)
    (step : ∀ s c, (add s c).outcome.fault? =
      if taken s (part c) then (rule c).map (.structural d.id) else none)
    (keep : ∀ s c s', (add s c).outcome = .ok s' → ∀ x, (rule x).isSome →
      taken s' (part x) = (taken s (part x) || part c = part x))
    {s : σ} (free : ∀ slot, taken s slot = false) (children : List Element) :
    (children.foldlM add s).outcome.fault? = firstFault (d.repeated part rule [] children) := by
  apply fault?_foldlM_of_taken taken step keep
  intro x _
  exact free (part x)

theorem fault?_violates {α : Type} (d : Draft) (r : StructuralRule) :
    (d.violates r : Logged α).outcome.fault? = some (.structural d.id r) := rfl

end Draft

variable {d : Draft}

namespace Group

/-- The rule against a second child for the slot of the child's part. -/
def rule (c : Element) : Option StructuralRule :=
  match part c with
  | .header => some .secondHeader
  | .bound => some .secondSectionBound
  | .cell | .ignored => none

/-- The checks on the children of a section. -/
def checks (d : Draft) (children : List Element) : List (Option Failure) :=
  d.repeated part rule [] children ++
    [d.verdict (children.filter (part · = .cell)).isEmpty .noCells,
      d.verdict (children.find? (part · = .bound)).isNone .noSectionBound]

/-- The slot of a part with a rule is taken. -/
def Parts.taken (p : Parts) : Part → Bool
  | .header => p.header.isSome
  | .bound => p.bound.isSome
  | .cell | .ignored => false

/-- A child is refused when the slot of its part is taken and there is a rule for that. -/
theorem fault?_add (p : Parts) (c : Element) : (Parts.add d p c).outcome.fault? =
    if p.taken (part c) then (rule c).map (.structural d.id) else none := by
  unfold Parts.add rule part Parts.taken
  split
  · split <;> simp_all [Draft.fault?_violates]
  · simp_all
  · split
    · split <;> simp_all [Draft.fault?_violates]
    · show fault? (.ok p) = _
      simp_all

theorem taken_add {p q : Parts} {c x : Element} (h : (Parts.add d p c).outcome = .ok q)
    (hx : (rule x).isSome) : q.taken (part x) = (p.taken (part x) || part c = part x) := by
  have step := add_eq_ok h
  unfold rule at hx
  cases hc : part c <;> cases hp : part x <;> simp_all [Parts.taken]

theorem fault?_build (d : Draft) (children : List Element) :
    (build d children).outcome.fault? = firstFault (checks d children) := by
  apply Logged.fault?_bind
  · apply Draft.fault?_foldlM Parts.taken fault?_add
    · intro p c q h x hx
      exact taken_add h hx
    · intro slot
      cases slot <;> rfl
  · intro p hp
    obtain ⟨-, cells, bound⟩ := foldlM_add_eq_ok hp
    rw [Option.none_or] at bound
    rw [List.nil_append] at cells
    rw [← cells, ← bound]
    cases hc : p.cells with
    | nil => rfl
    | cons c cs => cases hb : p.bound <;> rfl

end Group

namespace ListView

/-- The rule against a second child for the slot of the child's part. -/
def rule (c : Element) : Option StructuralRule :=
  match part c with
  | .bound => some .secondListBound
  | .group | .ignored => none

/-- The checks on the name and the children of a list. -/
def checks (d : Draft) (kind : ListKind) (children : List Element) : List (Option Failure) :=
  (identity kind d.id).fault? :: d.repeated part rule [] children ++
    [d.verdict (children.filter (part · = .group)).isEmpty .noSections]

/-- The slot of a part with a rule is taken. -/
def Parts.taken (p : Parts) : Part → Bool
  | .bound => p.bound.isSome
  | .group | .ignored => false

/-- A child of a list is refused when it is a second bound. -/
theorem fault?_add (p : Parts) (c : Element) : (Parts.add d p c).outcome.fault? =
    if p.taken (part c) then (rule c).map (.structural d.id) else none := by
  unfold Parts.add rule part Parts.taken
  split
  · simp_all
  · split
    · split <;> simp_all [Draft.fault?_violates]
    · show fault? (.ok p) = _
      simp_all

/-- A child of a list takes the slot of its part and no other. -/
theorem taken_add {p q : Parts} {c x : Element} (h : (Parts.add d p c).outcome = .ok q)
    (hx : (rule x).isSome) : q.taken (part x) = (p.taken (part x) || part c = part x) := by
  have step := add_eq_ok h
  unfold rule at hx
  cases hc : part c <;> cases hp : part x <;> simp_all [Parts.taken]

/-- A list fails as the first of its checks that fails, that of its name included. -/
theorem fault?_build (d : Draft) (kind : ListKind) (children : List Element) :
    (build d kind children).outcome.fault? = firstFault (checks d kind children) := by
  unfold checks
  rw [List.cons_append]
  apply Logged.fault?_bind_cons
  · rfl
  · intro named _
    apply Logged.fault?_bind
    · apply Draft.fault?_foldlM Parts.taken fault?_add
      · intro p c q h x hx
        exact taken_add h hx
      · intro slot
        cases slot <;> rfl
    · intro p hp
      obtain ⟨sections, -⟩ := foldlM_add_eq_ok hp
      rw [List.nil_append] at sections
      rw [← sections]
      cases hs : p.sections <;> rfl

end ListView

namespace Slider

/-- The rule against a second child for the slot of the child's part. -/
def rule (c : Element) : Option StructuralRule :=
  match part c with
  | .options | .content | .bound => some (.repeatedBlock c.id)
  | .ignored => none

/-- The checks on the children of a slider. -/
def checks (d : Draft) (children : List Element) : List (Option Failure) :=
  d.repeated part rule [] children ++
    [d.verdict (children.find? (part · = .options)).isNone .noOptions,
      d.verdict (children.find? (part · = .content)).isNone .noContent]

/-- The slot of a part with a rule is taken. -/
def Parts.taken (p : Parts) : Part → Bool
  | .options => p.options.isSome
  | .content => p.content.isSome
  | .bound => p.bound.isSome
  | .ignored => false

theorem fault?_fill (slot : Option Element) (c : Element) (next : Option Element → Parts) :
    (fill d slot c >>= fun slot => pure (next slot)).outcome.fault? =
      if slot.isSome then some (.structural d.id (.repeatedBlock c.id)) else none := by
  unfold fill
  split <;> rfl

/-- A child of a slider is refused when the slot of its part is taken. -/
theorem fault?_add (p : Parts) (c : Element) : (Parts.add d p c).outcome.fault? =
    if p.taken (part c) then (rule c).map (.structural d.id) else none := by
  unfold Parts.add rule part Parts.taken
  split
  · apply (fault?_fill p.options c fun slot => { p with options := slot }).trans
    simp_all
  · apply (fault?_fill p.content c fun slot => { p with content := slot }).trans
    simp_all
  · split
    · apply (fault?_fill p.bound c fun slot => { p with bound := slot }).trans
      simp_all
    · show fault? (.ok p) = _
      simp_all

/-- A child of a slider takes the slot of its part and no other. -/
theorem taken_add {p q : Parts} {c x : Element} (h : (Parts.add d p c).outcome = .ok q)
    (hx : (rule x).isSome) : q.taken (part x) = (p.taken (part x) || part c = part x) := by
  have step := add_eq_ok h
  unfold rule at hx
  cases hc : part c <;> cases hp : part x <;> simp_all [Parts.taken]

theorem fault?_build (d : Draft) (children : List Element) :
    (build d children).outcome.fault? = firstFault (checks d children) := by
  apply Logged.fault?_bind
  · apply Draft.fault?_foldlM Parts.taken fault?_add
    · intro p c q h x hx
      exact taken_add h hx
    · intro slot
      cases slot <;> rfl
  · intro p hp
    obtain ⟨options, content, -⟩ := foldlM_add_eq_ok hp
    rw [Option.none_or] at options content
    rw [← options, ← content]
    cases ho : p.options with
    | none => rfl
    | some o => cases hc : p.content <;> rfl

end Slider

namespace Button

/-- The checks on the parts of a button. -/
def checks (d : Draft) (children : List Element) : List (Option Failure) :=
  let parts := children.flatMap Element.parts
  let labels := (parts.filter (·.kind = .text)).length
  let shapes := (parts.filter (·.kind = .shape)).length
  [d.verdict (1 < labels) (.tooManyLabels labels), d.verdict (1 < shapes) (.tooManyShapes shapes),
    d.verdict (labels = 0) .noLabel]

theorem fault?_build (d : Draft) (children : List Element) :
    (build d children).outcome.fault? = firstFault (checks d children) := by
  unfold build checks
  rw [Logged.outcome_notes_bind]
  dsimp only
  generalize (children.flatMap Element.parts).filter (·.kind = .text) = labels
  generalize (children.flatMap Element.parts).filter (·.kind = .shape) = shapes
  by_cases many : 1 < labels.length
  · simp [many, Draft.verdict, Draft.fault?_violates, firstFault]
  · by_cases drawn : 1 < shapes.length
    · simp [many, drawn, Draft.verdict, Draft.fault?_violates, firstFault]
    · rw [if_neg many, if_neg drawn]
      cases labels <;> simp_all [Draft.verdict, Draft.fault?_violates, firstFault]

end Button

namespace Prepared

/-- The checks on the built children of a prepared draft. -/
def checks (p : Prepared) (children : List Element) : List (Option Failure) :=
  match p.declared with
  | .button => Button.checks p.draft children
  | .group => Group.checks p.draft children
  | .list kind => ListView.checks p.draft kind children
  | .slider => Slider.checks p.draft children
  | .shape | .text | .container _ => []

/-- An element is made unless a check fails, and then the first check that fails tells why. -/
theorem fault?_build (p : Prepared) (children : List Element) :
    (p.build children).outcome.fault? = firstFault (p.checks children) := by
  unfold Prepared.build checks
  cases p.declared with
  | shape => exact congrArg fault? Draft.outcome_childless_bind
  | text => exact congrArg fault? Draft.outcome_childless_bind
  | button => exact Button.fault?_build p.draft children
  | group => exact Group.fault?_build p.draft children
  | list kind => exact ListView.fault?_build p.draft kind children
  | slider => exact Slider.fault?_build p.draft children
  | container role => rfl

end Prepared

end CanvasLayout
