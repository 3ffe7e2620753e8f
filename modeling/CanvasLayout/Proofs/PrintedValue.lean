import CanvasLayout.Json.Free
import CanvasLayout.Proofs.PrintedToken
import CanvasLayout.Proofs.ShortestDecimal

/-!
# Printed values

A printed value is scanned to one token tree (`Json.raw`) whatever the spacing, and the reader
that wants no particular shape makes the value of it again, provided that its numbers are in
range and that it is not nested too deep (`free_raw`).
-/

namespace CanvasLayout.Json

/-- Induction on values by the values in them. -/
@[elab_as_elim] theorem induct {P : Json → Prop} (null : P null) (bool : ∀ b, P (bool b))
    (int : ∀ n, P (int n)) (float : ∀ x, P (float x)) (string : ∀ s, P (string s))
    (array : ∀ js, (∀ j ∈ js, P j) → P (array js))
    (object : ∀ ms : List (String × Json), (∀ m ∈ ms, P m.2) → P (object ms)) : ∀ j, P j
  | .null => null
  | .bool b => bool b
  | .int n => int n
  | .float x => float x
  | .string s => string s
  | .array js => array js fun j _ => induct null bool int float string array object j
  | .object ms => object ms fun m _ => induct null bool int float string array object m.2
termination_by j => sizeOf j
decreasing_by
  · have := List.sizeOf_lt_of_mem ‹_›
    simp only [Json.array.sizeOf_spec]
    omega
  · have := List.sizeOf_lt_of_mem ‹_›
    obtain ⟨name, j⟩ := m
    simp only [Json.object.sizeOf_spec, Prod.mk.sizeOf_spec] at this ⊢
    omega

mutual

/-- What the scanner makes of a printed value. -/
def raw : Json → Raw
  | null => .null
  | bool b => .bool b
  | int n => .number (.whole (n < 0) n.natAbs)
  | float x => if x.isFinite then .number (.decimal (floatNumeral x)) else .null
  | string s => .string (stringToken s)
  | array js => .array (rawItems js) .closed
  | object ms => .object (rawMembers ms) .closed

/-- What the scanner makes of printed items. -/
def rawItems : List Json → List Raw
  | [] => []
  | j :: js => raw j :: rawItems js

/-- What the scanner makes of printed members. -/
def rawMembers : List (String × Json) → List (Raw × Raw)
  | [] => []
  | (name, j) :: ms => (.string (stringToken name), raw j) :: rawMembers ms

end

/-- The parts are set apart by white space. -/
structure Spacing.Blank (sp : Spacing) : Prop where
  lead : ∀ level, ∀ c ∈ sp.lead level, isSpace (some c)
  colon : ∀ c ∈ sp.afterColon, isSpace (some c)

theorem blank_wide : Spacing.wide.Blank where
  lead level c h := by
    rcases List.mem_cons.1 h with rfl | h
    · rfl
    · rw [List.eq_of_mem_replicate h]
      rfl
  colon c h := by
    rw [List.mem_singleton.1 h]
    rfl

theorem skipSpace_blank {blanks : List Char} (h : ∀ c ∈ blanks, isSpace (some c))
    (cs : List Symbol) : skipSpace (blanks.map some ++ cs) = skipSpace cs := by
  induction blanks with
  | nil => rfl
  | cons b bs ih =>
    rw [List.forall_mem_cons] at h
    rw [List.map_cons, List.cons_append, skipSpace, List.dropWhile_cons_of_pos h.1]
    exact ih h.2

theorem skipSpace_cons {s : Symbol} (h : isSpace s = false) (cs : List Symbol) :
    skipSpace (s :: cs) = s :: cs := by
  rw [skipSpace, List.dropWhile_cons_of_neg (by simp [h])]

theorem scanValue_blank {blanks : List Char} (h : ∀ c ∈ blanks, isSpace (some c)) (fuel : Nat)
    (cs : List Symbol) :
    Raw.scanValue (fuel + 1) (blanks.map some ++ cs) = Raw.scanValue (fuel + 1) cs := by
  rw [Raw.scanValue, Raw.scanValue, skipSpace_blank h]

/-- A number starts with a sign or a digit. -/
theorem head_of_scanNumber {cs : List Symbol} {p : NumberToken × List Symbol}
    (h : scanNumber cs = .ok p) : ∃ c rest, cs = some c :: rest ∧ (c = '-' ∨ c.isDigit) := by
  match cs with
  | [] | none :: _ => simp [scanNumber, someDigits, digitRun, bind, Except.bind] at h
  | some c :: rest =>
    refine ⟨c, rest, rfl, ?_⟩
    by_contra other
    rw [not_or, Bool.not_eq_true] at other
    have unsigned : ∀ cs, some c :: rest = some '-' :: cs → False := by simp [other.1]
    simp [scanNumber, someDigits, digitRun, other.2, bind, Except.bind] at h

/-- No blank, word, string or bracket starts with a sign or a digit. -/
theorem plain_of_sign_or_digit {c : Char} (h : c = '-' ∨ c.isDigit) :
    isSpace (some c) = false ∧ c ∉ ['n', 't', 'f', '"', '[', '\x7b', ']', '\x7d'] := by
  constructor
  · rw [Bool.eq_false_iff]
    intro space
    simp only [isSpace, Bool.or_eq_true, beq_iff_eq, Option.some.injEq] at space
    rcases space with ((rfl | rfl) | rfl) | rfl <;> simp at h
  · intro other
    simp only [List.mem_cons, List.not_mem_nil, or_false] at other
    rcases other with rfl | rfl | rfl | rfl | rfl | rfl | rfl | rfl <;> simp at h

/-- What is scanned as a number is scanned as a value, since no other value starts like one. -/
theorem scanValue_number {cs rest : List Symbol} {n : NumberToken} (h : scanNumber cs = .ok (n, rest))
    (fuel : Nat) : Raw.scanValue (fuel + 1) cs = (.number n, rest) := by
  obtain ⟨c, tail, rfl, start⟩ := head_of_scanNumber h
  obtain ⟨space, plain⟩ := plain_of_sign_or_digit start
  simp only [List.mem_cons, List.not_mem_nil, or_false, not_or] at plain
  rw [Raw.scanValue, skipSpace_cons space]
  simp [plain, start, Raw.scanNumeral, h]

theorem endsNumber_nil : EndsNumber [] := by simp [EndsNumber, EndsDigits]

/-- A number ends before a separator, blanks between them or not. -/
theorem endsNumber_separator {blanks : List Char} (h : ∀ c ∈ blanks, isSpace (some c)) {c : Char}
    (hc : c ∈ [',', ']', '\x7d']) (rest : List Symbol) :
    EndsNumber (blanks.map some ++ some c :: rest) := by
  have head : ∃ d, (blanks.map some ++ some c :: rest).head? = some (some d) ∧
      d ∈ [',', ']', '\x7d'] ++ [' ', '\n', '\t', '\r'] := by
    cases blanks with
    | nil => exact ⟨c, rfl, List.mem_append_left _ hc⟩
    | cons b bs =>
      refine ⟨b, rfl, List.mem_append_right _ ?_⟩
      have := h b (by simp)
      simpa [isSpace, or_assoc] using this
  obtain ⟨d, hd, mem⟩ := head
  have stops : ([',', ']', '\x7d'] ++ [' ', '\n', '\t', '\r']).all
      fun d => !d.isDigit && d != '.' && d != 'e' && d != 'E' := by decide
  have := List.all_eq_true.1 stops d mem
  simp only [Bool.and_eq_true, Bool.not_eq_true', bne_iff_ne] at this
  simp only [EndsNumber, EndsDigits, hd, Option.some.injEq]
  exact ⟨fun _ e => e ▸ this.1.1.1, fun _ e => e ▸ ⟨this.1.1.2, this.1.2, this.2⟩⟩

/-- A printed value starts with a character that is neither a blank nor a closing bracket. -/
theorem textThen_start (sp : Spacing) (level : Nat) (rest : List Char) (j : Json) :
    ∃ c cs,
      j.textThen sp level rest = c :: cs ∧ isSpace (some c) = false ∧ c ≠ ']' ∧ c ≠ '\x7d' := by
  have number : ∀ {text : List Char} {p}, scanNumber (text.map some ++ []) = .ok p →
      ∃ c cs, text ++ rest = c :: cs ∧ isSpace (some c) = false ∧ c ≠ ']' ∧ c ≠ '\x7d' := by
    intro text p h
    obtain ⟨c, tail, head, start⟩ := head_of_scanNumber h
    obtain ⟨space, plain⟩ := plain_of_sign_or_digit start
    cases text with
    | nil => simp at head
    | cons d ds =>
      obtain rfl : d = c := by simpa using congrArg List.head? head
      simp only [List.mem_cons, List.not_mem_nil, or_false, not_or] at plain
      exact ⟨d, ds ++ rest, rfl, space, plain.2.2.2.2.2.2.1, plain.2.2.2.2.2.2.2⟩
  match j with
  | null | bool true | bool false | string _ | array [] | array (_ :: _) | object [] |
    object ((_, _) :: _) => exact ⟨_, _, rfl, by decide, by decide, by decide⟩
  | int n => exact number (scanNumber_integer n endsNumber_nil)
  | float x =>
    rw [textThen]
    by_cases finite : x.isFinite
    · rw [floatText, if_pos finite]
      exact number (scanNumber_layout Decimal.shortest_exponent endsNumber_nil)
    · rw [floatText, if_neg finite]
      exact ⟨_, _, rfl, by decide, by decide, by decide⟩

theorem length_le_itemsThen {sp : Spacing} (level : Nat) (rest : List Char) {js : List Json}
    (longer : ∀ j ∈ js, ∀ level rest, rest.length < (j.textThen sp level rest).length) :
    rest.length ≤ (itemsThen sp level rest js).length := by
  induction js with
  | nil => exact Nat.le_refl _
  | cons j js ih =>
    rw [List.forall_mem_cons] at longer
    have := longer.1 level (itemsThen sp level rest js)
    have := ih longer.2
    simp only [itemsThen, List.length_cons, List.length_append]
    omega

theorem length_le_membersThen {sp : Spacing} (level : Nat) (rest : List Char)
    {ms : List (String × Json)}
    (longer : ∀ m ∈ ms, ∀ level rest, rest.length < (m.2.textThen sp level rest).length) :
    rest.length ≤ (membersThen sp level rest ms).length := by
  induction ms with
  | nil => exact Nat.le_refl _
  | cons m ms ih =>
    rw [List.forall_mem_cons] at longer
    have := longer.1 level (membersThen sp level rest ms)
    have := ih longer.2
    simp only [membersThen, List.length_cons, List.length_append]
    omega

/-- A printed value has at least one character. -/
theorem length_lt_textThen (sp : Spacing) (j : Json) :
    ∀ level rest, rest.length < (j.textThen sp level rest).length := by
  have scalar : ∀ {text rest : List Char} {p : Char → Prop},
      (∃ c cs, text ++ [] = c :: cs ∧ p c) → rest.length < (text ++ rest).length := by
    rintro text rest p ⟨c, cs, head, -⟩
    rw [List.append_nil] at head
    simp only [head, List.length_append, List.length_cons]
    omega
  induction j using Json.induct with
  | null => exact fun level _ => scalar (textThen_start sp level [] null)
  | bool b => exact fun level _ => scalar (textThen_start sp level [] (bool b))
  | int n => exact fun level _ => scalar (textThen_start sp level [] (int n))
  | float x => exact fun level _ => scalar (textThen_start sp level [] (float x))
  | string s => exact fun level _ => scalar (textThen_start sp level [] (string s))
  | array js ih =>
    intro level rest
    cases js with
    | nil =>
      simp only [textThen, List.length_cons]
      omega
    | cons x xs =>
      rw [List.forall_mem_cons] at ih
      have := ih.1 (level + 1) (itemsThen sp (level + 1) (sp.lead level ++ ']' :: rest) xs)
      have := length_le_itemsThen (level + 1) (sp.lead level ++ ']' :: rest) ih.2
      simp only [textThen, List.length_cons, List.length_append] at *
      omega
  | object ms ih =>
    intro level rest
    cases ms with
    | nil =>
      simp only [textThen, List.length_cons]
      omega
    | cons m ms =>
      rw [List.forall_mem_cons] at ih
      have := ih.1 (level + 1) (membersThen sp (level + 1) (sp.lead level ++ '\x7d' :: rest) ms)
      have := length_le_membersThen (level + 1) (sp.lead level ++ '\x7d' :: rest) ih.2
      simp only [textThen, List.length_cons, List.length_append] at *
      omega

namespace Raw

theorem scanItems_last {fuel : Nat} {cs mid rest : List Symbol} {r : Raw}
    (value : scanValue fuel cs = (r, mid)) (close : skipSpace mid = some ']' :: rest) :
    scanItems (fuel + 1) cs = ([r], .closed, rest) := by
  rw [scanItems, value]
  simp only [close]

theorem scanItems_next {fuel : Nat} {cs mid next more rest : List Symbol} {r : Raw} {s : Symbol}
    {rs : List Raw} {e : Ending} (value : scanValue fuel cs = (r, mid))
    (comma : skipSpace mid = some ',' :: next) (start : skipSpace next = s :: more)
    (items : scanItems fuel (s :: more) = (rs, e, rest)) :
    scanItems (fuel + 1) cs = (r :: rs, e, rest) := by
  rw [scanItems, value]
  simp only [comma, start, items]

theorem scanMembers_last {fuel : Nat} {cs mid text mid' rest : List Symbol} {k r : Raw}
    (key : scanValue fuel cs = (k, mid)) (colon : skipSpace mid = some ':' :: text)
    (value : scanValue fuel text = (r, mid')) (close : skipSpace mid' = some '\x7d' :: rest) :
    scanMembers (fuel + 1) cs = ([(k, r)], .closed, rest) := by
  rw [scanMembers, key]
  simp only [colon, value, close]

theorem scanMembers_next {fuel : Nat} {cs mid text mid' next more rest : List Symbol} {k r : Raw}
    {s : Symbol} {ms : List (Raw × Raw)} {e : Ending} (key : scanValue fuel cs = (k, mid))
    (colon : skipSpace mid = some ':' :: text) (value : scanValue fuel text = (r, mid'))
    (comma : skipSpace mid' = some ',' :: next) (start : skipSpace next = s :: more)
    (members : scanMembers fuel (s :: more) = (ms, e, rest)) :
    scanMembers (fuel + 1) cs = ((k, r) :: ms, e, rest) := by
  rw [scanMembers, key]
  simp only [colon, value, comma, start, members]

theorem scanValue_array {fuel : Nat} {cs more rest : List Symbol} {s : Symbol} {rs : List Raw}
    {e : Ending} (start : skipSpace cs = s :: more) (open_ : s ≠ some ']')
    (items : scanItems fuel (s :: more) = (rs, e, rest)) :
    scanValue (fuel + 1) (some '[' :: cs) = (array rs e, rest) := by
  rw [scanValue, skipSpace_cons (by decide)]
  simp only [start]
  split
  · simp_all
  · simp_all
  · simp only [items]

/-- An object that is not empty is the list of its members. -/
theorem scanValue_object {fuel : Nat} {cs more rest : List Symbol} {s : Symbol}
    {ms : List (Raw × Raw)} {e : Ending} (start : skipSpace cs = s :: more)
    (open_ : s ≠ some '\x7d') (members : scanMembers fuel (s :: more) = (ms, e, rest)) :
    scanValue (fuel + 1) (some '\x7b' :: cs) = (object ms e, rest) := by
  rw [scanValue, skipSpace_cons (by decide)]
  simp only [start]
  split
  · simp_all
  · simp_all
  · simp only [members]

theorem scanValue_string (fuel : Nat) (s : String) (rest : List Symbol) :
    scanValue (fuel + 1) ((stringText s).map some ++ rest) = (string (stringToken s), rest) := by
  have text : (stringText s).map some ++ rest =
      some '"' :: ((s.toList.flatMap escape).map some ++ some '"' :: rest) := by
    simp [stringText]
  rw [text, scanValue, skipSpace_cons (by decide)]
  simp only [scanString_flatMap]
  rfl

end Raw

/-- The scanner finds a value where it is printed, with fuel for each of the symbols. -/
def Scans (sp : Spacing) (j : Json) : Prop :=
  ∀ fuel level rest, EndsNumber (rest.map some) →
    2 * (j.textThen sp level rest).length + 2 ≤ fuel →
    Raw.scanValue fuel ((j.textThen sp level rest).map some) = (j.raw, rest.map some)

section

variable {sp : Spacing} (blank : sp.Blank)

include blank

/-- The next value after a separator. -/
theorem skipSpace_lead (level : Nat) (rest : List Char) (j : Json) :
    ∃ s more, (j.textThen sp level rest).map some = s :: more ∧ s ≠ some ']' ∧ s ≠ some '\x7d' ∧
      ∀ level', skipSpace ((sp.lead level' ++ j.textThen sp level rest).map some) = s :: more := by
  obtain ⟨c, cs, head, space, bracket, brace⟩ := textThen_start sp level rest j
  refine ⟨some c, cs.map some, by rw [head, List.map_cons], by simpa using bracket,
    by simpa using brace, fun level' => ?_⟩
  rw [List.map_append, skipSpace_blank (blank.lead level'), head, List.map_cons,
    skipSpace_cons space]

/-- Printed items are found one by one, by induction on the items behind the first. -/
theorem scanItems_itemsThen {x : Json} {xs : List Json} (all : ∀ j ∈ x :: xs, Scans sp j)
    {closing : List Char} (hc : ∀ c ∈ closing, isSpace (some c)) (level : Nat) (rest : List Char) :
    ∀ fuel,
    2 * (x.textThen sp level (itemsThen sp level (closing ++ ']' :: rest) xs)).length + 3 ≤ fuel →
    Raw.scanItems fuel ((x.textThen sp level
        (itemsThen sp level (closing ++ ']' :: rest) xs)).map some) =
      (rawItems (x :: xs), .closed, rest.map some) := by
  induction xs generalizing x with
  | nil =>
    intro fuel bound
    obtain ⟨fuel, rfl⟩ : ∃ f, fuel = f + 1 := ⟨fuel - 1, by omega⟩
    rw [List.forall_mem_singleton] at all
    have close : (closing ++ ']' :: rest).map some =
        closing.map some ++ some ']' :: rest.map some := by
      simp
    refine Raw.scanItems_last (all fuel level _ ?_ (by omega)) ?_
    · rw [itemsThen, close]
      exact endsNumber_separator hc (by decide) _
    · rw [itemsThen, close, skipSpace_blank hc, skipSpace_cons (by decide)]
  | cons y ys ih =>
    intro fuel bound
    obtain ⟨fuel, rfl⟩ : ∃ f, fuel = f + 1 := ⟨fuel - 1, by omega⟩
    rw [List.forall_mem_cons] at all
    obtain ⟨s, more, head, -, -, lead⟩ :=
      skipSpace_lead blank level (itemsThen sp level (closing ++ ']' :: rest) ys) y
    have shorter := length_lt_textThen sp x level
      (itemsThen sp level (closing ++ ']' :: rest) (y :: ys))
    refine Raw.scanItems_next (all.1 fuel level _ ?_ (by omega)) ?_ (lead level) ?_
    · exact @endsNumber_separator [] (by simp) _ (by decide) _
    · exact skipSpace_cons (by decide) _
    · rw [← head]
      refine ih all.2 fuel ?_
      simp only [itemsThen, List.length_cons, List.length_append] at shorter bound
      omega

/-- The value behind a colon is found across the blank that may stand there. -/
theorem scanValue_colon {j : Json} (value : Scans sp j) (level : Nat) {rest : List Char}
    (stop : EndsNumber (rest.map some)) :
    ∀ fuel, 2 * (j.textThen sp level rest).length + 2 ≤ fuel →
    Raw.scanValue fuel ((sp.afterColon ++ j.textThen sp level rest).map some) =
      (j.raw, rest.map some) := by
  intro fuel bound
  obtain ⟨fuel, rfl⟩ : ∃ f, fuel = f + 1 := ⟨fuel - 1, by omega⟩
  rw [List.map_append, scanValue_blank blank.colon]
  exact value _ level rest stop bound

/-- Printed members are found one by one, by induction on the members behind the first. -/
theorem scanMembers_membersThen {key : String} {x : Json} {ms : List (String × Json)}
    (all : ∀ m ∈ (key, x) :: ms, Scans sp m.2) {closing : List Char}
    (hc : ∀ c ∈ closing, isSpace (some c)) (level : Nat) (rest : List Char) :
    ∀ fuel,
    2 * (stringText key ++ ':' :: (sp.afterColon ++ x.textThen sp level
        (membersThen sp level (closing ++ '\x7d' :: rest) ms))).length + 3 ≤ fuel →
    Raw.scanMembers fuel ((stringText key ++ ':' :: (sp.afterColon ++ x.textThen sp level
        (membersThen sp level (closing ++ '\x7d' :: rest) ms))).map some) =
      (rawMembers ((key, x) :: ms), .closed, rest.map some) := by
  induction ms generalizing key x with
  | nil =>
    intro fuel bound
    obtain ⟨fuel, rfl⟩ : ∃ f, fuel = f + 1 := ⟨fuel - 1, by omega⟩
    rw [List.forall_mem_singleton] at all
    simp only [List.length_append, List.length_cons] at bound
    obtain ⟨fuel, rfl⟩ : ∃ f, fuel = f + 1 := ⟨fuel - 1, by omega⟩
    have close : (closing ++ '\x7d' :: rest).map some =
        closing.map some ++ some '\x7d' :: rest.map some := by simp
    rw [List.map_append, List.map_cons]
    refine Raw.scanMembers_last (Raw.scanValue_string fuel key _) (skipSpace_cons (by decide) _)
      (scanValue_colon blank (j := x) all level ?_ _ (by omega)) ?_
    · rw [membersThen, close]
      exact endsNumber_separator hc (by decide) _
    · rw [membersThen, close, skipSpace_blank hc, skipSpace_cons (by decide)]
  | cons m ms ih =>
    obtain ⟨key', y⟩ := m
    intro fuel bound
    obtain ⟨fuel, rfl⟩ : ∃ f, fuel = f + 1 := ⟨fuel - 1, by omega⟩
    rw [List.forall_mem_cons] at all
    have shorter := length_lt_textThen sp x level
      (membersThen sp level (closing ++ '\x7d' :: rest) ((key', y) :: ms))
    simp only [List.length_append, List.length_cons] at bound
    obtain ⟨fuel, rfl⟩ : ∃ f, fuel = f + 1 := ⟨fuel - 1, by omega⟩
    rw [List.map_append, List.map_cons]
    refine Raw.scanMembers_next (Raw.scanValue_string fuel key _) (skipSpace_cons (by decide) _)
      (scanValue_colon blank (j := x) all.1 level ?_ _ (by omega)) (skipSpace_cons (by decide) _) ?_
      (ih all.2 (fuel + 1) ?_)
    · exact @endsNumber_separator [] (by simp) _ (by decide) _
    · rw [List.map_append, skipSpace_blank (blank.lead level)]
      exact skipSpace_cons (by decide) _
    · simp only [membersThen, List.length_cons, List.length_append] at shorter bound ⊢
      omega

/-- The scanner finds every printed value. -/
theorem scans (j : Json) : Scans sp j := by
  induction j using Json.induct with
  | null =>
    intro fuel level rest stop bound
    obtain ⟨fuel, rfl⟩ : ∃ f, fuel = f + 1 := ⟨fuel - 1, by omega⟩
    rfl
  | bool b =>
    intro fuel level rest stop bound
    obtain ⟨fuel, rfl⟩ : ∃ f, fuel = f + 1 := ⟨fuel - 1, by omega⟩
    cases b <;> rfl
  | int n =>
    intro fuel level rest stop bound
    obtain ⟨fuel, rfl⟩ : ∃ f, fuel = f + 1 := ⟨fuel - 1, by omega⟩
    rw [textThen, List.map_append]
    exact scanValue_number (scanNumber_integer n stop) fuel
  | float x =>
    intro fuel level rest stop bound
    obtain ⟨fuel, rfl⟩ : ∃ f, fuel = f + 1 := ⟨fuel - 1, by omega⟩
    rw [textThen, floatText, raw]
    split
    · rw [List.map_append]
      exact scanValue_number (scanNumber_layout Decimal.shortest_exponent stop) fuel
    · rfl
  | string s =>
    intro fuel level rest stop bound
    obtain ⟨fuel, rfl⟩ : ∃ f, fuel = f + 1 := ⟨fuel - 1, by omega⟩
    rw [textThen, List.map_append]
    exact Raw.scanValue_string fuel s _
  | array js ih =>
    intro fuel level rest stop bound
    obtain ⟨fuel, rfl⟩ : ∃ f, fuel = f + 1 := ⟨fuel - 1, by omega⟩
    cases js with
    | nil => rfl
    | cons x xs =>
      simp only [textThen, List.length_cons, List.length_append] at bound
      obtain ⟨s, more, head, bracket, -, lead⟩ := skipSpace_lead blank (level + 1)
        (itemsThen sp (level + 1) (sp.lead level ++ ']' :: rest) xs) x
      refine Raw.scanValue_array (lead (level + 1)) bracket ?_
      rw [← head]
      exact scanItems_itemsThen blank ih (blank.lead level) (level + 1) rest fuel (by omega)
  | object ms ih =>
    intro fuel level rest stop bound
    obtain ⟨fuel, rfl⟩ : ∃ f, fuel = f + 1 := ⟨fuel - 1, by omega⟩
    cases ms with
    | nil => rfl
    | cons m ms =>
      obtain ⟨key, x⟩ := m
      simp only [textThen, List.length_cons, List.length_append] at bound
      refine Raw.scanValue_object ?_ (by decide)
        (scanMembers_membersThen blank ih (blank.lead level) (level + 1) rest fuel ?_)
      · rw [List.map_append, skipSpace_blank (blank.lead (level + 1))]
        exact skipSpace_cons (by decide) _
      · simp only [List.length_cons, List.length_append]
        omega

/-- A printed value is scanned whole, with nothing left behind it. -/
theorem scan_textThen (j : Json) :
    RawText.scan ((j.textThen sp 0 []).map some) = ⟨j.raw, false⟩ := by
  have value := scans blank j (2 * ((j.textThen sp 0 []).map some).length + 2) 0 []
    endsNumber_nil (by rw [List.length_map])
  rw [RawText.scan, value]
  rfl

end

/-- A printed text is taken apart into what was printed. -/
theorem ofString_pretty (j : Json) : RawText.ofString j.pretty = ⟨j.raw, false⟩ := by
  rw [RawText.ofString, pretty, String.toList_ofList]
  exact scan_textThen blank_wide j

mutual

/-- How deep arrays and objects are nested. -/
def depth : Json → Nat
  | array js => depthItems js + 1
  | object ms => depthMembers ms + 1
  | _ => 0

/-- How deep the deepest of items is nested. -/
def depthItems : List Json → Nat
  | [] => 0
  | j :: js => max j.depth (depthItems js)

/-- How deep the deepest of members is nested. -/
def depthMembers : List (String × Json) → Nat
  | [] => 0
  | (_, j) :: ms => max j.depth (depthMembers ms)

end

mutual

/-- The values in a value that hold no others. -/
def leaves : Json → List Json
  | array js => leavesItems js
  | object ms => leavesMembers ms
  | j => [j]

/-- The leaves of items. -/
def leavesItems : List Json → List Json
  | [] => []
  | j :: js => j.leaves ++ leavesItems js

/-- The leaves of members. -/
def leavesMembers : List (String × Json) → List Json
  | [] => []
  | (_, j) :: ms => j.leaves ++ leavesMembers ms

end

/-- A number is finite, and one without a fraction fits in 64 bits. -/
def InRange : Json → Prop
  | int n => -2 ^ 63 ≤ n ∧ n < 2 ^ 64
  | float x => x.isFinite
  | _ => True

instance : DecidablePred InRange
  | int n => inferInstanceAs (Decidable (-2 ^ 63 ≤ n ∧ n < 2 ^ 64))
  | float x => inferInstanceAs (Decidable (x.isFinite = true))
  | null | bool _ | string _ | array _ | object _ => .isTrue trivial

theorem depthItems_le {js : List Json} {n : Nat} : depthItems js ≤ n ↔ ∀ j ∈ js, j.depth ≤ n := by
  induction js with
  | nil => simp [depthItems]
  | cons j js ih => simp [depthItems, ih]

theorem depthMembers_le {ms : List (String × Json)} {n : Nat} :
    depthMembers ms ≤ n ↔ ∀ m ∈ ms, m.2.depth ≤ n := by
  induction ms with
  | nil => simp [depthMembers]
  | cons m ms ih => simp [depthMembers, ih]

theorem mem_leavesItems {js : List Json} {v : Json} :
    v ∈ leavesItems js ↔ ∃ j ∈ js, v ∈ j.leaves := by
  induction js with
  | nil => simp [leavesItems]
  | cons j js ih => simp [leavesItems, ih]

theorem mem_leavesMembers {ms : List (String × Json)} {v : Json} :
    v ∈ leavesMembers ms ↔ ∃ m ∈ ms, v ∈ m.2.leaves := by
  induction ms with
  | nil => simp [leavesMembers]
  | cons m ms ih => simp [leavesMembers, ih]

/-- A printed number reads back. -/
theorem toFloat_floatNumeral {x : Float} (finite : x.isFinite) : (floatNumeral x).toFloat = x := by
  refine Decimal.toFloat_of_shortest finite ?_ (?_ : _ = (Decimal.shortest .toEven x).value)
  · simp only [floatNumeral, layoutNumeral, pointNumeral]
    split
    · split <;> rfl
    · rfl
  · unfold Decimal.Numeral.value Decimal.Magnitude.value
    simp only [floatNumeral, layoutNumeral, pointNumeral]
    split
    · split
      · rename_i nonneg
        have ten : (10 : ℚ) ≠ 0 := by decide
        obtain ⟨e, he⟩ := Int.eq_ofNat_of_zero_le nonneg
        rw [he, zpow_neg_one, zpow_natCast, Int.natAbs_natCast, pow_succ]
        push_cast
        field_simp
      · rfl
    · rfl

/-- Items that are read back one by one are read back as a list. -/
theorem freeItems_raw {depth : Nat} {js : List Json} (h : ∀ j ∈ js, Raw.free depth j.raw = .ok j) :
    Raw.freeItems depth (rawItems js) = .ok js := by
  induction js with
  | nil => rfl
  | cons j js ih =>
    rw [List.forall_mem_cons] at h
    rw [rawItems, Raw.freeItems, h.1, ok_bind, ih h.2]
    rfl

theorem key_stringToken (name : String) : (Raw.string (stringToken name)).key = .ok name :=
  text_stringToken name

/-- Members that are read back one by one are read back under their names. -/
theorem freeMembers_raw {depth : Nat} {ms : List (String × Json)}
    (h : ∀ m ∈ ms, Raw.free depth m.2.raw = .ok m.2) :
    Raw.freeMembers depth (rawMembers ms) = .ok ms := by
  induction ms with
  | nil => rfl
  | cons m ms ih =>
    rw [List.forall_mem_cons] at h
    rw [rawMembers, Raw.freeMembers, key_stringToken, ok_bind, h.1, ok_bind, ih h.2]
    rfl

theorem deeper_eq_ok {depth n : Nat} :
    deeper depth = .ok n ↔ depth < depthLimit ∧ n = depth + 1 := by
  unfold deeper
  split <;> simp_all [eq_comm]

/-- A printed value reads back. -/
theorem free_raw (j : Json) : ∀ {depth : Nat}, (∀ v ∈ j.leaves, v.InRange) →
    depth + j.depth ≤ depthLimit → Raw.free depth j.raw = .ok j := by
  induction j using Json.induct with
  | null => exact fun _ _ => rfl
  | bool b => exact fun _ _ => rfl
  | int n =>
    intro depth range _
    have range : -2 ^ 63 ≤ n ∧ n < 2 ^ 64 := range (int n) (by simp [leaves])
    have size : UInt64.size = 2 ^ 64 := rfl
    rw [raw, Raw.free]
    rcases Int.lt_or_le n 0 with neg | nonneg
    · rw [decide_eq_true neg, NumberToken.value, if_pos (by omega)]
      congr
      omega
    · rw [decide_eq_false (by omega), NumberToken.value, if_pos (by omega)]
      congr
      omega
  | float x =>
    intro depth range _
    have range : x.isFinite := range (float x) (by simp [leaves])
    rw [raw, if_pos range, Raw.free, NumberToken.value, toFloat_floatNumeral range, finite,
      if_pos range]
    rfl
  | string s =>
    intro depth _ _
    rw [raw, Raw.free, text_stringToken]
    rfl
  | array js ih =>
    intro depth range bound
    rw [Json.depth] at bound
    have items := depthItems_le.1 (Nat.le_refl (depthItems js))
    have inside : ∀ j ∈ js, Raw.free (depth + 1) j.raw = .ok j := by
      intro j hj
      have := items j hj
      apply ih j hj
      · exact fun v hv => range v (mem_leavesItems.2 ⟨j, hj, hv⟩)
      · omega
    rw [raw, Raw.free, deeper_eq_ok.2 ⟨by omega, rfl⟩, ok_bind, freeItems_raw inside]
    rfl
  | object ms ih =>
    intro depth range bound
    rw [Json.depth] at bound
    have members := depthMembers_le.1 (Nat.le_refl (depthMembers ms))
    have inside : ∀ m ∈ ms, Raw.free (depth + 1) m.2.raw = .ok m.2 := by
      intro m hm
      have := members m hm
      apply ih m hm
      · exact fun v hv => range v (mem_leavesMembers.2 ⟨m, hm, hv⟩)
      · omega
    rw [raw, Raw.free, deeper_eq_ok.2 ⟨by omega, rfl⟩, ok_bind, freeMembers_raw inside]
    rfl

end CanvasLayout.Json
