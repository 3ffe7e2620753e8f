import Mathlib

/-!
# Lists searched and sorted

A search from the end of a prefix finds the greatest index with a hit (`isGreatest_of_findSome?`).
A stable sort keeps the order of the entries of one key (`filter_mergeSort_key`), and since a list in
order is determined by what it holds of each key (`eq_of_pairwise_of_filter`), nothing else of the
order that the entries came in is left (`mergeSort_eq_of_filter`).
-/

namespace CanvasLayout

section Search

variable {β δ : Type} {l : List β} {g : β → Option δ} {i : Nat}

/-- A search from the end of a prefix looks at its last entry first. -/
theorem findSome?_reverse_take_succ (l : List β) (g : β → Option δ) (i : Nat) :
    (l.take (i + 1)).reverse.findSome? g =
      (l[i]?.bind g).or ((l.take i).reverse.findSome? g) := by
  rw [List.take_add_one, List.reverse_append, List.findSome?_append]
  cases l[i]? with
  | none => simp
  | some b => simp [List.findSome?_singleton]

/-- A search from the end of a prefix finds the greatest index with a hit. -/
theorem isGreatest_of_findSome? {x : δ} (h : (l.take i).reverse.findSome? g = some x) :
    ∃ j, l[j]?.bind g = some x ∧ IsGreatest {k | k < i ∧ l[k]?.bind g ≠ none} j := by
  induction i with
  | zero => simp at h
  | succ i ih =>
    rw [findSome?_reverse_take_succ] at h
    cases hi : l[i]?.bind g with
    | some y =>
      rw [hi, Option.some_or] at h
      refine ⟨i, hi.trans h, ⟨by omega, by simp [hi]⟩, ?_⟩
      rintro k ⟨hk, -⟩
      omega
    | none =>
      rw [hi, Option.none_or] at h
      obtain ⟨j, hj, ⟨hlt, hit⟩, upper⟩ := ih h
      refine ⟨j, hj, ⟨by omega, hit⟩, ?_⟩
      rintro k ⟨hk, hit⟩
      have : k ≠ i := by
        rintro rfl
        exact hit hi
      exact upper ⟨by omega, hit⟩

/-- A search from the end of a prefix finds nothing if no index has a hit. -/
theorem forall_of_findSome?_eq_none (h : (l.take i).reverse.findSome? g = none) :
    ∀ k < i, l[k]?.bind g = none := by
  induction i with
  | zero => simp
  | succ i ih =>
    rw [findSome?_reverse_take_succ, Option.or_eq_none_iff] at h
    intro k hk
    rcases Nat.lt_succ_iff_lt_or_eq.1 hk with hk | rfl
    · exact ih h.2 k hk
    · exact h.1

/-- Among entries with distinct keys a search for the key of an entry finds the entry. -/
theorem find?_of_mem {κ : Type} [DecidableEq κ] {key : β → κ} (distinct : (l.map key).Nodup) :
    ∀ b ∈ l, l.find? (fun c => key c = key b) = some b := by
  induction l with
  | nil => simp
  | cons c l ih =>
    rw [List.map_cons, List.nodup_cons] at distinct
    intro b hb
    rcases List.mem_cons.1 hb with rfl | hb
    · simp
    · have other : key c ≠ key b := fun e => distinct.1 (e ▸ List.mem_map_of_mem hb)
      rw [List.find?_cons_of_neg (by simpa using other)]
      exact ih distinct.2 b hb

variable {ε : Type} {S : β → ε → Prop} {l' : List ε}

theorem exists_of_rel {b : β} {o : Option ε} (h : Option.Rel S (some b) o) :
    ∃ c, o = some c ∧ S b c := by
  cases h with
  | some related => exact ⟨_, rfl, related⟩

theorem isSome_of_rel {o : Option β} {o' : Option ε} (h : Option.Rel S o o') :
    o'.isSome = o.isSome := by
  cases h <;> rfl

theorem rel_head? (h : List.Forall₂ S l l') : Option.Rel S l.head? l'.head? := by
  cases h with
  | nil => exact .none
  | cons first _ => exact .some first

/-- What is found first in one list has its counterpart found first in the other. -/
theorem rel_find? {p : β → Bool} {q : ε → Bool} (h : List.Forall₂ S l l')
    (same : ∀ b c, S b c → q c = p b) : Option.Rel S (l.find? p) (l'.find? q) := by
  induction h with
  | nil => exact .none
  | @cons b c _ _ first _ ih =>
    rw [List.find?_cons, List.find?_cons, same b c first]
    cases p b with
    | true => exact .some first
    | false => exact ih

end Search

section Keys

variable {β ρ : Type} [LinearOrder ρ] {key : β → ρ} {l l' : List β}

/-- Lists with the same entries of each rank have the same entries. -/
theorem mem_of_filter_eq (same : ∀ r, l.filter (key · = r) = l'.filter (key · = r)) {b : β}
    (h : b ∈ l) : b ∈ l' := by
  have level : b ∈ l.filter (key · = key b) := List.mem_filter.2 ⟨h, decide_eq_true rfl⟩
  rw [same] at level
  exact (List.mem_filter.1 level).1

theorem head_le_of_pairwise {a b : β} (sorted : (a :: l).Pairwise (key · ≤ key ·))
    (h : b ∈ a :: l) : key a ≤ key b := by
  rcases List.mem_cons.1 h with rfl | tail
  · exact le_rfl
  · exact (List.pairwise_cons.1 sorted).1 b tail

/-- A list in the order of its keys is determined by the entries that it has of each key. The
induction takes off the heads, which have the same key since neither list has a smaller one. -/
theorem eq_of_pairwise_of_filter (sorted : l.Pairwise (key · ≤ key ·))
    (sorted' : l'.Pairwise (key · ≤ key ·))
    (same : ∀ r, l.filter (key · = r) = l'.filter (key · = r)) : l = l' := by
  induction l generalizing l' with
  | nil =>
    symm
    apply List.eq_nil_iff_forall_not_mem.2
    intro b hb
    exact List.not_mem_nil (mem_of_filter_eq (fun r => (same r).symm) hb)
  | cons a l ih =>
    cases l' with
    | nil => exact absurd (mem_of_filter_eq same List.mem_cons_self) List.not_mem_nil
    | cons a' l' =>
      have le : key a ≤ key a' :=
        head_le_of_pairwise sorted (mem_of_filter_eq (fun r => (same r).symm) List.mem_cons_self)
      have ge : key a' ≤ key a :=
        head_le_of_pairwise sorted' (mem_of_filter_eq same List.mem_cons_self)
      have heads := same (key a)
      rw [List.filter_cons, if_pos (decide_eq_true rfl), List.filter_cons,
        if_pos (decide_eq_true (le_antisymm ge le)), List.cons.injEq] at heads
      obtain ⟨rfl, -⟩ := heads
      have tails (r : ρ) : l.filter (key · = r) = l'.filter (key · = r) := by
        have := same r
        rw [List.filter_cons, List.filter_cons] at this
        split at this
        · exact (List.cons.inj this).2
        · exact this
      rw [ih sorted.of_cons sorted'.of_cons tails]

variable {le : β → β → Bool} (ordered : ∀ a b, le a b = true ↔ key a ≤ key b)

include ordered

theorem trans_of_ordered (a b c : β) (h : le a b = true) (h' : le b c = true) : le a c = true := by
  rw [ordered] at h h' ⊢
  exact le_trans h h'

theorem total_of_ordered (a b : β) : (le a b || le b a) = true := by
  rw [Bool.or_eq_true, ordered, ordered]
  exact le_total (key a) (key b)

theorem pairwise_mergeSort_key (l : List β) : (l.mergeSort le).Pairwise (key · ≤ key ·) := by
  have sorted := List.pairwise_mergeSort (trans_of_ordered ordered) (total_of_ordered ordered) l
  exact sorted.imp fun h => (ordered _ _).1 h

/-- A stable sort keeps the order of the entries of one key. -/
theorem filter_mergeSort_key (l : List β) (r : ρ) :
    (l.mergeSort le).filter (key · = r) = l.filter (key · = r) := by
  have level : (l.filter (key · = r)).Pairwise fun a b => le a b = true := by
    apply List.pairwise_of_forall_mem_list
    intro a ha b hb
    have keyA : key a = r := of_decide_eq_true (List.mem_filter.1 ha).2
    have keyB : key b = r := of_decide_eq_true (List.mem_filter.1 hb).2
    rw [ordered, keyA, keyB]
  have kept : (l.filter (key · = r)).Sublist ((l.mergeSort le).filter (key · = r)) := by
    have whole := List.sublist_mergeSort (trans_of_ordered ordered) (total_of_ordered ordered)
      level List.filter_sublist
    have part := whole.filter (key · = r)
    rwa [List.filter_filter, funext fun b => Bool.and_self _] at part
  have length := ((List.mergeSort_perm l le).filter (key · = r)).length_eq
  exact (kept.eq_of_length length.symm).symm

/-- Lists with the same entries of each key are sorted to the same list. -/
theorem mergeSort_eq_of_filter
    (same : ∀ r, l.filter (key · = r) = l'.filter (key · = r)) :
    l.mergeSort le = l'.mergeSort le := by
  apply eq_of_pairwise_of_filter (pairwise_mergeSort_key ordered l) (pairwise_mergeSort_key ordered l')
  intro r
  rw [filter_mergeSort_key ordered, filter_mergeSort_key ordered, same]

end Keys

end CanvasLayout
