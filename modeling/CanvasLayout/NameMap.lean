/-!
# Finite maps from names

Entries kept in strictly increasing order of their names, so a map is determined by its
lookups (`ext_get?`) and is written out in one order whatever order it was filled in.
`insert` replaces, `insertNew` keeps what is there, `fillFrom` adds what is missing.
-/

namespace CanvasLayout

/-- A finite map from names, its entries in increasing order of names. -/
structure NameMap (α : Type) where
  entries : List (String × α)
  sorted : entries.Pairwise fun a b => a.1 < b.1 := by simp

namespace NameMap

variable {α β : Type}

instance : Inhabited (NameMap α) := ⟨⟨[], by simp⟩⟩

/-- The map without entries. -/
def empty : NameMap α := ⟨[], by simp⟩

/-- The first value listed under a name. -/
def lookup (name : String) : List (String × α) → Option α
  | [] => none
  | e :: es => if e.1 = name then some e.2 else lookup name es

/-- The value under a name. -/
def get? (m : NameMap α) (name : String) : Option α := lookup name m.entries

/-- The name has a value. -/
def contains (m : NameMap α) (name : String) : Bool := (m.get? name).isSome

/-- The number of names. -/
def size (m : NameMap α) : Nat := m.entries.length

/-- No name has a value. -/
def isEmpty (m : NameMap α) : Bool := m.entries.isEmpty

/-- Puts a value into entries in increasing order, in place of one under the same name. -/
def put (name : String) (a : α) : List (String × α) → List (String × α)
  | [] => [(name, a)]
  | e :: es =>
    if name < e.1 then (name, a) :: e :: es
    else if name = e.1 then (name, a) :: es
    else e :: put name a es

theorem mem_put {name : String} {a : α} {x : String × α} {es : List (String × α)}
    (h : x ∈ put name a es) : x = (name, a) ∨ x ∈ es := by
  induction es with
  | nil => simpa [put] using h
  | cons e es ih =>
    simp only [put] at h
    split at h
    · simpa using h
    · split at h
      · rcases List.mem_cons.1 h with h | h
        · exact .inl h
        · exact .inr (List.mem_cons_of_mem _ h)
      · rcases List.mem_cons.1 h with h | h
        · exact .inr (h ▸ List.mem_cons_self)
        · exact (ih h).imp_right (List.mem_cons_of_mem _)

theorem sorted_put {name : String} {a : α} {es : List (String × α)}
    (h : es.Pairwise fun a b => a.1 < b.1) : (put name a es).Pairwise fun a b => a.1 < b.1 := by
  induction es with
  | nil => simp [put]
  | cons e es ih =>
    rw [List.pairwise_cons] at h
    simp only [put]
    split
    · rename_i hlt
      refine List.pairwise_cons.2 ⟨fun x hx => ?_, List.pairwise_cons.2 h⟩
      rcases List.mem_cons.1 hx with rfl | hx
      · exact hlt
      · exact String.lt_trans hlt (h.1 x hx)
    · rename_i hlt
      split
      · rename_i he
        exact List.pairwise_cons.2 ⟨fun x hx => he ▸ h.1 x hx, h.2⟩
      · rename_i he
        refine List.pairwise_cons.2 ⟨fun x hx => ?_, ih h.2⟩
        rcases mem_put hx with rfl | hx
        · exact Std.lt_of_le_of_ne (String.not_lt.1 hlt) (Ne.symm he)
        · exact h.1 x hx

/-- The map with `a` under `name`, in place of what was there. -/
def insert (m : NameMap α) (name : String) (a : α) : NameMap α :=
  ⟨put name a m.entries, sorted_put m.sorted⟩

/-- The map with `a` under `name`, unless the name has a value. -/
def insertNew (m : NameMap α) (name : String) (a : α) : NameMap α :=
  if m.contains name then m else m.insert name a

/-- The map with every entry of `other` whose name is missing. -/
def fillFrom (m other : NameMap α) : NameMap α :=
  other.entries.foldl (fun m e => m.insertNew e.1 e.2) m

/-- The last value listed for each name. -/
def ofList (es : List (String × α)) : NameMap α :=
  es.foldl (fun m e => m.insert e.1 e.2) empty

/-- The first value listed for each name. -/
def firstOf (es : List (String × α)) : NameMap α :=
  es.foldl (fun m e => m.insertNew e.1 e.2) empty

@[simp] theorem get?_empty (name : String) : (empty : NameMap α).get? name = none := rfl

theorem lookup_put (name other : String) (a : α) (es : List (String × α)) :
    lookup other (put name a es) = if other = name then some a else lookup other es := by
  induction es with
  | nil => simp [put, lookup, eq_comm]
  | cons e es ih =>
    by_cases h : name < e.1
    · simp [put, lookup, h, eq_comm]
    · by_cases h' : name = e.1
      · subst h'
        by_cases ho : other = e.1
        · simp [put, lookup, ho]
        · simp [put, lookup, ho, Ne.symm ho]
      · by_cases ho : other = name
        · subst ho
          simp [put, lookup, h, h', Ne.symm h', ih]
        · simp [put, lookup, h, h', ih, ho]

theorem get?_insert (m : NameMap α) (name other : String) (a : α) :
    (m.insert name a).get? other = if other = name then some a else m.get? other :=
  lookup_put name other a m.entries

theorem get?_insertNew (m : NameMap α) (name other : String) (a : α) :
    (m.insertNew name a).get? other =
      if other = name then some ((m.get? name).getD a) else m.get? other := by
  unfold insertNew contains
  cases h : m.get? name with
  | some b =>
    by_cases ho : other = name
    · subst ho; simp [h]
    · simp [ho]
  | none => simp [get?_insert]

theorem mem_of_lookup {name : String} {a : α} {es : List (String × α)}
    (h : lookup name es = some a) : (name, a) ∈ es := by
  induction es with
  | nil => simp [lookup] at h
  | cons e es ih =>
    simp only [lookup] at h
    split at h
    · rename_i he
      simp only [Option.some.injEq] at h
      simp [← he, ← h]
    · exact List.mem_cons_of_mem _ (ih h)

/-- Two sorted lists with the same lookups start with the same entry. -/
theorem head_eq_of_lookup {e f : String × α} {es fs : List (String × α)}
    (hes : (e :: es).Pairwise fun a b => a.1 < b.1) (hfs : (f :: fs).Pairwise fun a b => a.1 < b.1)
    (h : ∀ name, lookup name (e :: es) = lookup name (f :: fs)) : e = f := by
  rw [List.pairwise_cons] at hes hfs
  have he := h e.1
  have hf := h f.1
  simp only [lookup, if_true] at he hf
  by_cases hn : e.1 = f.1
  · simp only [hn, if_true, Option.some.injEq] at he
    exact Prod.ext hn he
  · simp only [Ne.symm hn, if_false] at he
    simp only [hn, if_false] at hf
    exact absurd (String.lt_trans (hfs.1 _ (mem_of_lookup he.symm)) (hes.1 _ (mem_of_lookup hf)))
      (String.lt_irrefl _)

/-- Sorted lists with the same lookups are equal, by induction on both at once. -/
theorem entries_eq_of_lookup {es fs : List (String × α)}
    (hes : es.Pairwise fun a b => a.1 < b.1) (hfs : fs.Pairwise fun a b => a.1 < b.1)
    (h : ∀ name, lookup name es = lookup name fs) : es = fs := by
  induction es generalizing fs with
  | nil =>
    cases fs with
    | nil => rfl
    | cons f fs => have := h f.1; simp [lookup] at this
  | cons e es ih =>
    cases fs with
    | nil => have := h e.1; simp [lookup] at this
    | cons f fs =>
      obtain rfl := head_eq_of_lookup hes hfs h
      rw [List.pairwise_cons] at hes hfs
      rw [ih hes.2 hfs.2 fun name => ?_]
      have hn := h name
      simp only [lookup] at hn
      split at hn
      · rename_i he
        have absent : ∀ gs : List (String × α), (∀ g ∈ gs, e.1 < g.1) → lookup name gs = none := by
          intro gs hgs
          cases hl : lookup name gs with
          | none => rfl
          | some a =>
            have := hgs _ (mem_of_lookup hl)
            simp only [← he] at this
            exact absurd this (String.lt_irrefl _)
        rw [absent es hes.1, absent fs hfs.1]
      · exact hn

theorem get?_foldl_insertNew (es : List (String × α)) (m : NameMap α) (name : String) :
    (es.foldl (fun m e => m.insertNew e.1 e.2) m).get? name =
      (m.get? name).or (lookup name es) := by
  induction es generalizing m with
  | nil => simp [lookup]
  | cons e es ih =>
    rw [List.foldl_cons, ih, get?_insertNew, lookup]
    by_cases h : name = e.1
    · subst h
      cases m.get? e.1 <;> simp
    · simp [h, Ne.symm h]

@[simp] theorem get?_firstOf (es : List (String × α)) (name : String) :
    (firstOf es).get? name = lookup name es := by
  rw [firstOf, get?_foldl_insertNew, get?_empty, Option.none_or]

/-- The map's own values go before those that it is filled from. -/
theorem get?_fillFrom (m other : NameMap α) (name : String) :
    (m.fillFrom other).get? name = (m.get? name).or (other.get? name) :=
  get?_foldl_insertNew other.entries m name

/-- Maps with the same lookups are equal. -/
theorem ext_get? {m n : NameMap α} (h : ∀ name, m.get? name = n.get? name) : m = n := by
  obtain ⟨es, hes⟩ := m
  obtain ⟨fs, hfs⟩ := n
  obtain rfl := entries_eq_of_lookup hes hfs h
  rfl

end NameMap

end CanvasLayout
