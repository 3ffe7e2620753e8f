import CanvasLayout.Logged

/-!
# Sequences of operations that can fail

An operation over a list ends at the first entry that fails, and a fold that sorts entries into
slots leaves in each slot the entries meant for it. The laws of plain outcomes come first; those
of logged operations speak of their outcomes alone. A sequence of operations can be told by the list
of its checks: it ends in the first failure among them (`fault?_bind`).
-/

namespace CanvasLayout

variable {α β : Type}

namespace Outcome

/-- Two steps succeed when the first does and the second does with its result. -/
theorem bind_eq_ok {x : Outcome α} {f : α → Outcome β} {b : β} :
    x.bind f = .ok b ↔ ∃ a, x = .ok a ∧ f a = .ok b := by
  cases x with
  | error e => simp [Except.bind]
  | ok a => simp [Except.bind]

/-- Two steps fail as the first, or as the second after the first succeeded. -/
theorem bind_eq_error {x : Outcome α} {f : α → Outcome β} {e : Failure} :
    x.bind f = .error e ↔ x = .error e ∨ ∃ a, x = .ok a ∧ f a = .error e := by
  cases x with
  | error e' => simp [Except.bind]
  | ok a => simp [Except.bind]

theorem bind_congr {x : Outcome α} {f g : α → Outcome β} (h : ∀ a, x = .ok a → f a = g a) :
    x.bind f = x.bind g := by
  cases x with
  | error e => simp only [Except.bind]
  | ok a => exact h a rfl

/-- What is seen of a result is seen of one that there is. -/
theorem exists_of_toOption {ε : Type} {x : Except ε α} {f : α → β} {b : β}
    (h : x.toOption.map f = some b) : ∃ a, x = .ok a ∧ f a = b := by
  cases x with
  | error e => cases h
  | ok a => exact ⟨a, rfl, Option.some.inj h⟩

theorem toOption_eq_some {x : Outcome α} {a : α} : x.toOption = some a ↔ x = .ok a := by
  cases x <;> simp [Except.toOption]

theorem toOption_map (x : Outcome α) (f : α → β) : Except.toOption (x.map f) = x.toOption.map f := by
  cases x <;> rfl

theorem toOption_bind (x : Outcome α) (f : α → Outcome β) :
    (x.bind f).toOption = x.toOption.bind fun a => (f a).toOption := by
  cases x <;> rfl

/-- All entries succeed, each with the result at its place. -/
theorem mapM_eq_ok {f : α → Outcome β} {as : List α} {bs : List β} :
    as.mapM f = .ok bs ↔ as.map f = bs.map .ok := by
  induction as generalizing bs with
  | nil => cases bs <;> simp [pure, Except.pure]
  | cons a as ih =>
    have split : (a :: as).mapM f = .ok bs ↔
        ∃ b, f a = .ok b ∧ ∃ cs, as.mapM f = .ok cs ∧ b :: cs = bs := by
      rw [List.mapM_cons]
      refine bind_eq_ok.trans (exists_congr fun b => and_congr_right fun _ => ?_)
      exact bind_eq_ok.trans (by simp [pure, Except.pure])
    rw [split]
    cases bs with
    | nil => simp
    | cons b bs => simp [← ih]

/-- The failure is that of the first entry that fails. -/
theorem mapM_eq_error {f : α → Outcome β} {as : List α} {e : Failure} :
    as.mapM f = .error e ↔ ∃ before a after, as = before ++ a :: after ∧
      (∀ x ∈ before, ∃ b, f x = .ok b) ∧ f a = .error e := by
  induction as with
  | nil => simp [pure, Except.pure]
  | cons a as ih =>
    have split : (a :: as).mapM f = .error e ↔
        f a = .error e ∨ ∃ b, f a = .ok b ∧ as.mapM f = .error e := by
      rw [List.mapM_cons]
      refine bind_eq_error.trans (or_congr_right (exists_congr fun b => and_congr_right fun _ => ?_))
      exact bind_eq_error.trans (by simp [pure, Except.pure])
    rw [split]
    constructor
    · rintro (h | ⟨b, hb, h⟩)
      · exact ⟨[], a, as, rfl, by simp, h⟩
      · obtain ⟨before, x, after, rfl, all, hx⟩ := ih.1 h
        exact ⟨a :: before, x, after, rfl, List.forall_mem_cons.2 ⟨⟨b, hb⟩, all⟩, hx⟩
    · rintro ⟨before, x, after, h, all, hx⟩
      cases before with
      | nil =>
        obtain ⟨rfl, -⟩ := List.cons.inj h
        exact .inl hx
      | cons y before =>
        obtain ⟨rfl, rfl⟩ := List.cons.inj h
        obtain ⟨⟨b, hb⟩, all⟩ := List.forall_mem_cons.1 all
        exact .inr ⟨b, hb, ih.2 ⟨before, x, after, rfl, all, hx⟩⟩

/-- The failure that an outcome is. -/
def fault? : Outcome α → Option Failure
  | .ok _ => none
  | .error f => some f

@[simp] theorem fault?_ok (a : α) : fault? (.ok a) = none := rfl

@[simp] theorem fault?_error (f : Failure) : fault? (.error f : Outcome α) = some f := rfl

theorem fault?_eq_none {x : Outcome α} : x.fault? = none ↔ ∃ a, x = .ok a := by
  cases x with
  | error e => simp
  | ok a => simp

theorem fault?_eq_some {x : Outcome α} {f : Failure} : x.fault? = some f ↔ x = .error f := by
  cases x with
  | error e => simp
  | ok a => simp

/-- The first failure among the verdicts of checks made one after the other. -/
def firstFault (checks : List (Option Failure)) : Option Failure := checks.findSome? id

theorem firstFault_eq_none {checks : List (Option Failure)} :
    firstFault checks = none ↔ ∀ c ∈ checks, c = none := by
  simp [firstFault]

/-- The first fault is that of a check before which all others pass. -/
theorem firstFault_eq_some {checks : List (Option Failure)} {f : Failure} :
    firstFault checks = some f ↔
      ∃ before after, checks = before ++ some f :: after ∧ ∀ c ∈ before, c = none := by
  unfold firstFault
  rw [List.findSome?_eq_some_iff]
  constructor
  · rintro ⟨before, c, after, rfl, rfl, passed⟩
    exact ⟨before, after, rfl, passed⟩
  · rintro ⟨before, after, rfl, passed⟩
    exact ⟨before, some f, after, rfl, rfl, passed⟩

@[simp] theorem firstFault_singleton (check : Option Failure) : firstFault [check] = check := by
  cases check <;> rfl

/-- The first fault of checks and further checks is that of the former, if there is one. -/
theorem firstFault_append (checks checks' : List (Option Failure)) :
    firstFault (checks ++ checks') = (firstFault checks).or (firstFault checks') :=
  List.findSome?_append

/-- The checks of a sequence are those of its first part and then those of its second part, which is
only run when the first part succeeds. -/
theorem fault?_bind {x : Outcome α} {f : α → Outcome β} {checks checks' : List (Option Failure)}
    (first : x.fault? = firstFault checks)
    (second : ∀ a, x = .ok a → (f a).fault? = firstFault checks') :
    fault? (x.bind f) = firstFault (checks ++ checks') := by
  rw [firstFault_append, ← first]
  cases x with
  | error e => rfl
  | ok a => exact second a rfl

/-- What only goes on with a result has no checks of its own. -/
theorem fault?_bind_ok (x : Outcome α) (g : α → β) : fault? (x.bind fun a => .ok (g a)) = x.fault? := by
  cases x <;> rfl

/-- The first part can be a single check. -/
theorem fault?_bind_cons {x : Outcome α} {f : α → Outcome β} {check : Option Failure}
    {checks : List (Option Failure)} (first : x.fault? = check)
    (second : ∀ a, x = .ok a → (f a).fault? = firstFault checks) :
    fault? (x.bind f) = firstFault (check :: checks) :=
  fault?_bind (first.trans (firstFault_singleton check).symm) second

end Outcome

namespace Logged

instance : LawfulMonad Logged := LawfulMonad.mk' Logged
  (by
    intro α x
    obtain ⟨outcome, lines⟩ := x
    cases outcome <;> simp [Functor.map, Logged.bind])
  (by
    intro α β a f
    simp [pure, bind, Logged.bind])
  (by
    intro α β γ x f g
    obtain ⟨outcome, lines⟩ := x
    cases outcome with
    | error e => rfl
    | ok a =>
      simp only [bind, Logged.bind]
      cases (f a).outcome <;> simp)

theorem bind_eq_ok {x : Logged α} {f : α → Logged β} {b : β} :
    (x >>= f).outcome = .ok b ↔ ∃ a, x.outcome = .ok a ∧ (f a).outcome = .ok b := by
  rw [outcome_bind]
  exact Outcome.bind_eq_ok

/-- The checks of two steps are those of the first and then those of the second. -/
theorem fault?_bind {x : Logged α} {f : α → Logged β} {checks checks' : List (Option Failure)}
    (first : x.outcome.fault? = Outcome.firstFault checks)
    (second : ∀ a, x.outcome = .ok a → (f a).outcome.fault? = Outcome.firstFault checks') :
    (x >>= f).outcome.fault? = Outcome.firstFault (checks ++ checks') := by
  rw [outcome_bind]
  exact Outcome.fault?_bind first second

theorem fault?_bind_pure (x : Logged α) (g : α → β) :
    (x >>= fun a => pure (g a)).outcome.fault? = x.outcome.fault? := by
  rw [outcome_bind]
  exact Outcome.fault?_bind_ok _ _

/-- The check of a first step comes before those of the second. -/
theorem fault?_bind_cons {x : Logged α} {f : α → Logged β} {check : Option Failure}
    {checks : List (Option Failure)} (first : x.outcome.fault? = check)
    (second : ∀ a, x.outcome = .ok a → (f a).outcome.fault? = Outcome.firstFault checks) :
    (x >>= f).outcome.fault? = Outcome.firstFault (check :: checks) := by
  rw [outcome_bind]
  exact Outcome.fault?_bind_cons first second

variable {σ : Type} {f : σ → α → Logged σ} {mine : α → Bool} {as : List α} {s s' : σ}

/-- A slot that each step fills while it is free ends up with the first entry meant for it. -/
theorem foldlM_find? (slot : σ → Option α)
    (step : ∀ s a s', (f s a).outcome = .ok s' →
      slot s' = (slot s).or (if mine a then some a else none))
    (h : (as.foldlM f s).outcome = .ok s') : slot s' = (slot s).or (as.find? mine) := by
  induction as generalizing s with
  | nil =>
    obtain rfl : s = s' := by simpa using h
    simp
  | cons a as ih =>
    rw [List.foldlM_cons] at h
    obtain ⟨t, ht, h⟩ := bind_eq_ok.1 h
    rw [ih h, step s a t ht, Option.or_assoc, List.find?_cons]
    cases mine a <;> rfl

/-- A list that each step extends ends up with all entries meant for it, in order. -/
theorem foldlM_filter (slot : σ → List α)
    (step : ∀ s a s', (f s a).outcome = .ok s' → slot s' = slot s ++ if mine a then [a] else [])
    (h : (as.foldlM f s).outcome = .ok s') : slot s' = slot s ++ as.filter mine := by
  induction as generalizing s with
  | nil =>
    obtain rfl : s = s' := by simpa using h
    simp
  | cons a as ih =>
    rw [List.foldlM_cons] at h
    obtain ⟨t, ht, h⟩ := bind_eq_ok.1 h
    rw [ih h, step s a t ht, List.append_assoc, List.filter_cons]
    cases mine a <;> rfl

end Logged

end CanvasLayout
