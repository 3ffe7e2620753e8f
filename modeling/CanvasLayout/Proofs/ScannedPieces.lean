import Mathlib
import CanvasLayout.Proofs.FormRead
import CanvasLayout.Proofs.PrintedValue
import CanvasLayout.Proofs.ReadOrder

/-!
# Values inside a text

The scanner looks at no more of a text than the value that it finds there, but for a number that
ends the text and may go on in a longer one. So it finds a value that can be passed over wherever
the text of the value stands (`Raw.finds`): first the tokens, then one step for each list of parts,
then the induction on the fuel for values, items and members together.
-/

namespace CanvasLayout.Json

section Tokens

variable {cs rest more : List Symbol}

/-- A run of digits goes on only if the text ends with it and what follows starts with a digit. -/
theorem digitRun_more {ds : List Char} (h : digitRun cs = (ds, rest))
    (stop : rest = [] → EndsDigits more) : digitRun (cs ++ more) = (ds, rest ++ more) := by
  induction cs generalizing ds with
  | nil =>
    cases h
    exact @digitRun_append [] _ (by simp) (stop rfl)
  | cons s cs ih =>
    cases s with
    | none =>
      cases h
      rfl
    | some c =>
      rw [List.cons_append, digitRun] at *
      split at h
      · rename_i digit
        cases run : digitRun cs with
        | mk ds' rest' =>
          rw [run] at h
          cases h
          rw [if_pos digit, ih run]
      · rename_i other
        cases h
        rw [if_neg other]
        rfl

theorem someDigits_eq_ok {ds : List Char} :
    someDigits cs = .ok (ds, rest) ↔ digitRun cs = (ds, rest) ∧ ds ≠ [] := by
  unfold someDigits
  obtain ⟨run, after⟩ := digitRun cs
  cases run with
  | nil =>
    cases after with
    | nil => simp +contextual [eq_comm]
    | cons s after => simp +contextual [eq_comm]
  | cons d run =>
    simp only [Except.ok.injEq, Prod.mk.injEq]
    constructor
    · rintro ⟨rfl, rfl⟩
      exact ⟨⟨rfl, rfl⟩, List.cons_ne_nil d run⟩
    · exact And.left

theorem someDigits_more {ds : List Char} (h : someDigits cs = .ok (ds, rest))
    (stop : rest = [] → EndsDigits more) : someDigits (cs ++ more) = .ok (ds, rest ++ more) := by
  rw [someDigits_eq_ok] at h ⊢
  exact ⟨digitRun_more h.1 stop, h.2⟩

/-- A fraction does not go on in what follows, if that cannot belong to a number. -/
theorem fractionDigits_more {f : Option (List Char)} (h : fractionDigits cs = .ok (f, rest))
    (stop : rest = [] → EndsNumber more) : fractionDigits (cs ++ more) = .ok (f, rest ++ more) := by
  unfold fractionDigits at h
  split at h
  · obtain ⟨⟨ds, rest'⟩, hds, h⟩ := map_eq_ok.1 h
    cases h
    rw [List.cons_append, fractionDigits, someDigits_more hds fun none => (stop none).1]
    rfl
  · rename_i other
    cases h
    cases cs with
    | nil => exact fractionDigits_none fun c hc => ((stop rfl).2 c hc).1
    | cons s cs =>
      rw [List.cons_append, fractionDigits]
      intro cs' same
      exact other cs (by rw [(List.cons.inj same).1])

/-- A sign is at the front and sees nothing of what follows. -/
theorem signOf_more (start : cs ≠ []) :
    signOf (cs ++ more) = ((signOf cs).1, (signOf cs).2 ++ more) := by
  obtain ⟨s, cs, rfl⟩ := List.exists_cons_of_ne_nil start
  rw [List.cons_append]
  unfold signOf
  split
  · simp_all
  · simp_all
  · split
    · simp_all
    · simp_all
    · rfl

/-- An exponent does not go on in what follows, if that cannot belong to a number. -/
theorem exponentPart_more {e : Option Int} (h : exponentPart cs = .ok (e, rest))
    (stop : rest = [] → EndsNumber more) : exponentPart (cs ++ more) = .ok (e, rest ++ more) := by
  cases cs with
  | nil =>
    cases h
    exact exponentPart_none fun c hc => ((stop rfl).2 c hc).2
  | cons s cs =>
    cases s with
    | none =>
      cases h
      rfl
    | some c =>
      rw [exponentPart] at h
      rw [List.cons_append, exponentPart]
      split at h
      · rename_i letter
        dsimp only at h
        obtain ⟨⟨ds, rest'⟩, hds, h⟩ := map_eq_ok.1 h
        cases h
        have start : cs ≠ [] := by
          rintro rfl
          cases hds
        rw [if_pos letter, signOf_more start]
        dsimp only
        rw [someDigits_more hds fun none => (stop none).1]
        rfl
      · rename_i other
        cases h
        rw [if_neg other]
        rfl

/-- The number that a text starts with after its sign. -/
def scanUnsigned (negative : Bool) (cs : List Symbol) :
    Except Fault (NumberToken × List Symbol) := do
  let (whole, cs) ← someDigits cs
  if !isPlainRun whole then .error .malformed
  else
    let (fraction, cs) ← fractionDigits cs
    let (exponent, cs) ← exponentPart cs
    match fraction, exponent with
    | none, none => .ok (.whole negative (Decimal.digitsValue whole), cs)
    | _, _ =>
      let ds := fraction.getD []
      .ok (.decimal ⟨negative, Decimal.digitsValue (whole ++ ds), exponent.getD 0 - ds.length⟩, cs)

theorem scanNumber_minus (cs : List Symbol) :
    scanNumber (some '-' :: cs) = scanUnsigned true cs := rfl

theorem scanNumber_plain {s : Symbol} (plain : s ≠ some '-') (cs : List Symbol) :
    scanNumber (s :: cs) = scanUnsigned false (s :: cs) := by
  unfold scanNumber
  dsimp only
  split
  · rename_i same
    exact absurd (List.cons.inj same).1 plain
  · rfl

theorem scanUnsigned_more {negative : Bool} {n : NumberToken}
    (h : scanUnsigned negative cs = .ok (n, rest)) (stop : rest = [] → EndsNumber more) :
    scanUnsigned negative (cs ++ more) = .ok (n, rest ++ more) := by
  unfold scanUnsigned at h ⊢
  obtain ⟨⟨whole, mid⟩, hwhole, h⟩ := bind_eq_ok.1 h
  dsimp only at h
  split at h
  · contradiction
  · rename_i plain
    obtain ⟨⟨f, tail⟩, hf, h⟩ := bind_eq_ok.1 h
    obtain ⟨⟨e, rest'⟩, he, h⟩ := bind_eq_ok.1 h
    obtain rfl : rest' = rest := by
      cases f <;> cases e <;> cases h <;> rfl
    -- the digits end the text only if there is neither a fraction nor an exponent
    have ends : tail = [] → EndsNumber more := by
      rintro rfl
      cases he
      exact stop rfl
    have ends' : mid = [] → EndsNumber more := by
      rintro rfl
      cases hf
      exact ends rfl
    refine bind_eq_ok.2 ⟨_, someDigits_more hwhole fun none => (ends' none).1, ?_⟩
    dsimp only
    rw [if_neg plain]
    refine bind_eq_ok.2 ⟨_, fractionDigits_more hf ends,
      bind_eq_ok.2 ⟨_, exponentPart_more he stop, ?_⟩⟩
    cases f <;> cases e <;> cases h <;> rfl

/-- A number is scanned whatever follows that cannot belong to it. -/
theorem scanNumber_more {n : NumberToken} (h : scanNumber cs = .ok (n, rest))
    (stop : rest = [] → EndsNumber more) : scanNumber (cs ++ more) = .ok (n, rest ++ more) := by
  have start : cs ≠ [] := by
    rintro rfl
    cases h
  obtain ⟨s, cs, rfl⟩ := List.exists_cons_of_ne_nil start
  by_cases minus : s = some '-'
  · subst minus
    rw [List.cons_append, scanNumber_minus] at *
    exact scanUnsigned_more h stop
  · rw [scanNumber_plain minus] at h
    rw [List.cons_append, scanNumber_plain minus]
    exact scanUnsigned_more h stop

/-- A string that ends with its quote ends there whatever follows. -/
theorem scanString_more {s : StringToken} (h : scanString cs = (s, rest)) (whole : s.stop = none) :
    scanString (cs ++ more) = (s, rest ++ more) := by
  fun_induction scanString cs generalizing s rest with
  | case1 | case4 | case6 | case7 | case9 | case10 =>
    cases h
    cases whole
  | case2 cs t rest' run ih =>
    cases h
    rw [List.cons_append, scanString, ih run whole]
  | case3 cs =>
    cases h
    rfl
  | case5 a b c d cs n digits t rest' run ih =>
    cases h
    simp only [List.cons_append, scanString, digits, ih run whole]
  | case8 c cs _ other e escape t rest' run ih =>
    cases h
    rw [List.cons_append, List.cons_append, scanString, escape]
    · simp only [ih run whole]
    · intro a b c d cs' hu
      exact (other hu).elim
    · exact other
  | case11 c cs quote lone _ _ slash plain t rest' run ih =>
    cases h
    have other : c ≠ '\\' := by
      rintro rfl
      cases cs with
      | nil => exact lone rfl rfl
      | cons d cs => exact slash d cs rfl rfl
    rw [List.cons_append, scanString, if_neg plain]
    · simp only [ih run whole]
    · exact quote
    · exact fun _ => other
    · exact fun _ _ _ _ _ _ => other
    · exact fun _ _ => other
    · exact fun _ _ _ => other

theorem scanWord_more {value r : Raw} {ws : List Char} (h : Raw.scanWord value ws cs = (r, rest))
    (sound : r.skip = .ok ()) : Raw.scanWord value ws (cs ++ more) = (r, rest ++ more) := by
  induction ws generalizing cs with
  | nil =>
    rw [Raw.scanWord] at h ⊢
    cases h
    rfl
  | cons w ws ih =>
    cases cs with
    | nil =>
      cases h
      cases sound
    | cons c cs =>
      rw [Raw.scanWord] at h
      rw [List.cons_append, Raw.scanWord]
      split at h
      · rename_i same
        rw [if_pos same]
        exact ih h
      · cases h
        cases sound

end Tokens

theorem skipSpace_more {cs tail : List Symbol} {s : Symbol} (h : skipSpace cs = s :: tail)
    (more : List Symbol) : skipSpace (cs ++ more) = s :: (tail ++ more) := by
  have start : (cs.dropWhile isSpace).isEmpty = false := by
    rw [show cs.dropWhile isSpace = s :: tail from h]
    rfl
  rw [skipSpace, List.dropWhile_append, start, if_neg Bool.false_ne_true]
  rw [show cs.dropWhile isSpace = s :: tail from h, List.cons_append]

namespace Raw

/-- What the scanner finds at the start of a text that ends well it finds there whatever follows,
with as much fuel or more. -/
def FindsValue (fuel : Nat) : Prop :=
  ∀ cs r rest, scanValue fuel cs = (r, rest) → r.skip = .ok () →
    ∀ fuel' more, fuel ≤ fuel' → (rest = [] → EndsNumber more) →
      scanValue fuel' (cs ++ more) = (r, rest ++ more)

/-- So it does for items. -/
def FindsItems (fuel : Nat) : Prop :=
  ∀ cs rs e rest, scanItems fuel cs = (rs, e, rest) → skipItems rs = .ok () → e.more = .ok () →
    ∀ fuel' more, fuel ≤ fuel' → scanItems fuel' (cs ++ more) = (rs, e, rest ++ more)

/-- So it does for members. -/
def FindsMembers (fuel : Nat) : Prop :=
  ∀ cs ms e rest, scanMembers fuel cs = (ms, e, rest) → skipMembers ms = .ok () → e.more = .ok () →
    ∀ fuel' more, fuel ≤ fuel' → scanMembers fuel' (cs ++ more) = (ms, e, rest ++ more)

/-- Items that end well are one, or one and a comma and others. -/
theorem scanItems_eq_closed {fuel : Nat} {cs rest : List Symbol} {rs : List Raw} {e : Ending}
    (h : scanItems (fuel + 1) cs = (rs, e, rest)) (closed : e.more = .ok ()) :
    ∃ r mid, scanValue fuel cs = (r, mid) ∧
      ((skipSpace mid = some ']' :: rest ∧ rs = [r] ∧ e = .closed) ∨
        ∃ next s tail rs', skipSpace mid = some ',' :: next ∧ skipSpace next = s :: tail ∧
          scanItems fuel (s :: tail) = (rs', e, rest) ∧ rs = r :: rs') := by
  rw [scanItems] at h
  refine ⟨(scanValue fuel cs).1, (scanValue fuel cs).2, rfl, ?_⟩
  dsimp only at h
  split at h
  · cases h
    cases closed
  · rename_i close
    cases h
    exact .inl ⟨close, rfl, rfl⟩
  · rename_i next comma
    split at h
    · cases h
      cases closed
    · rename_i start
      cases hn : skipSpace next with
      | nil => exact absurd hn start
      | cons s tail =>
        rw [hn] at h
        cases h
        exact .inr ⟨next, s, tail, _, comma, hn, rfl, rfl⟩
  · cases h
    cases closed

/-- One more unit of fuel for items: the first item is found with the fuel that is left, and so are
the others. -/
theorem findsItems_succ {fuel : Nat} (value : FindsValue fuel) (items : FindsItems fuel) :
    FindsItems (fuel + 1) := by
  intro cs rs e rest h sound closed fuel' more le
  obtain ⟨fuel', rfl⟩ : ∃ f, fuel' = f + 1 := ⟨fuel' - 1, by omega⟩
  obtain ⟨r, mid, first, ⟨close, rfl, rfl⟩ | ⟨next, s, tail, rs', comma, start, others, rfl⟩⟩ :=
    scanItems_eq_closed h closed
  · rw [skipItems, seq_eq_ok] at sound
    have first' := value cs r mid first sound.1 fuel' more (by omega) (by rintro rfl; cases close)
    exact scanItems_last first' (skipSpace_more close more)
  · rw [skipItems, seq_eq_ok] at sound
    have first' := value cs r mid first sound.1 fuel' more (by omega) (by rintro rfl; cases comma)
    have others' := items _ rs' e rest others sound.2 closed fuel' more (by omega)
    exact scanItems_next first' (skipSpace_more comma more) (skipSpace_more start more) others'

/-- Members that end well are one, or one and a comma and others. -/
theorem scanMembers_eq_closed {fuel : Nat} {cs rest : List Symbol} {ms : List (Raw × Raw)}
    {e : Ending} (h : scanMembers (fuel + 1) cs = (ms, e, rest)) (closed : e.more = .ok ()) :
    ∃ k mid text r mid', scanValue fuel cs = (k, mid) ∧ skipSpace mid = some ':' :: text ∧
      scanValue fuel text = (r, mid') ∧
      ((skipSpace mid' = some '\x7d' :: rest ∧ ms = [(k, r)] ∧ e = .closed) ∨
        ∃ next s tail ms', skipSpace mid' = some ',' :: next ∧ skipSpace next = s :: tail ∧
          scanMembers fuel (s :: tail) = (ms', e, rest) ∧ ms = (k, r) :: ms') := by
  rw [scanMembers] at h
  dsimp only at h
  split at h
  · cases h
    cases closed
  · rename_i text colon
    refine ⟨(scanValue fuel cs).1, (scanValue fuel cs).2, text, (scanValue fuel text).1,
      (scanValue fuel text).2, rfl, colon, rfl, ?_⟩
    split at h
    · cases h
      cases closed
    · rename_i close
      cases h
      exact .inl ⟨close, rfl, rfl⟩
    · rename_i next comma
      split at h
      · cases h
        cases closed
      · rename_i start
        cases hn : skipSpace next with
        | nil => exact absurd hn start
        | cons s tail =>
          rw [hn] at h
          cases h
          exact .inr ⟨next, s, tail, _, comma, hn, rfl, rfl⟩
    · cases h
      cases closed
  · cases h
    cases closed

/-- What is passed over as a key is passed over as a value. -/
theorem skip_of_skipKey {k : Raw} (h : k.skipKey = .ok ()) : k.skip = .ok () := by
  cases k with
  | string s => exact h
  | _ => cases h

/-- One more unit of fuel for members: key, value and the others behind them. -/
theorem findsMembers_succ {fuel : Nat} (value : FindsValue fuel) (members : FindsMembers fuel) :
    FindsMembers (fuel + 1) := by
  intro cs ms e rest h sound closed fuel' more le
  obtain ⟨fuel', rfl⟩ : ∃ f, fuel' = f + 1 := ⟨fuel' - 1, by omega⟩
  obtain ⟨k, mid, text, r, mid', key, colon, first, last⟩ := scanMembers_eq_closed h closed
  have each : k.skip = .ok () ∧ r.skip = .ok () := by
    have all := skipMembers_eq_ok.1 sound (k, r) (by
      obtain ⟨-, rfl, -⟩ | ⟨_, _, _, _, -, -, -, rfl⟩ := last <;> exact List.mem_cons_self)
    exact ⟨skip_of_skipKey all.1, all.2⟩
  have key' := value cs k mid key each.1 fuel' more (by omega) (by rintro rfl; cases colon)
  have colon' := skipSpace_more colon more
  obtain ⟨close, rfl, rfl⟩ | ⟨next, s, tail, ms', comma, start, others, rfl⟩ := last
  · have first' := value text r mid' first each.2 fuel' more (by omega) (by rintro rfl; cases close)
    exact scanMembers_last key' colon' first' (skipSpace_more close more)
  · have first' := value text r mid' first each.2 fuel' more (by omega) (by rintro rfl; cases comma)
    have sound' : skipMembers ms' = .ok () := skipMembers_eq_ok.2 fun m hm =>
      skipMembers_eq_ok.1 sound m (List.mem_cons_of_mem _ hm)
    have others' := members _ ms' e rest others sound' closed fuel' more (by omega)
    exact scanMembers_next key' colon' first' (skipSpace_more comma more)
      (skipSpace_more start more) others'

theorem skipSpace_again {cs tail : List Symbol} {s : Symbol} (h : skipSpace cs = s :: tail) :
    skipSpace (s :: tail) = s :: tail := by
  rw [← h]
  exact List.dropWhile_idempotent isSpace cs

theorem scanValue_start {fuel : Nat} {cs tail : List Symbol} {s : Symbol}
    (h : skipSpace cs = s :: tail) :
    scanValue (fuel + 1) cs = scanValue (fuel + 1) (s :: tail) := by
  rw [scanValue, scanValue, h, skipSpace_again h]

section FindsValue

variable {fuel fuel' : Nat} {tail rest : List Symbol} {r : Raw} (sound : r.skip = .ok ())
  (le : fuel ≤ fuel')

include sound le

theorem finds_array (items : FindsItems fuel)
    (h : scanValue (fuel + 1) (some '[' :: tail) = (r, rest)) (more : List Symbol) :
    scanValue (fuel' + 1) (some '[' :: (tail ++ more)) = (r, rest ++ more) := by
  rw [scanValue, skipSpace_cons (by decide)] at h
  simp only at h
  split at h
  · cases h
    cases sound
  · rename_i close
    cases h
    rw [scanValue, skipSpace_cons (by decide)]
    simp only [skipSpace_more close more]
  · rename_i nonempty open_
    cases start : skipSpace tail with
    | nil => exact absurd start nonempty
    | cons s tail' =>
      rw [start] at h
      cases h
      rw [skip, seq_eq_ok] at sound
      have items' := items _ _ _ _ rfl sound.1 sound.2 fuel' more le
      refine scanValue_array (skipSpace_more start more) ?_ items'
      rintro rfl
      exact open_ _ start

/-- An object is found whatever follows, its members being found with less fuel. -/
theorem finds_object (members : FindsMembers fuel)
    (h : scanValue (fuel + 1) (some '\x7b' :: tail) = (r, rest)) (more : List Symbol) :
    scanValue (fuel' + 1) (some '\x7b' :: (tail ++ more)) = (r, rest ++ more) := by
  rw [scanValue, skipSpace_cons (by decide)] at h
  simp only at h
  split at h
  · cases h
    cases sound
  · rename_i close
    cases h
    rw [scanValue, skipSpace_cons (by decide)]
    simp only [skipSpace_more close more]
  · rename_i nonempty open_
    cases start : skipSpace tail with
    | nil => exact absurd start nonempty
    | cons s tail' =>
      rw [start] at h
      cases h
      rw [skip, seq_eq_ok] at sound
      have members' := members _ _ _ _ rfl sound.1 sound.2 fuel' more le
      refine scanValue_object (skipSpace_more start more) ?_ members'
      rintro rfl
      exact open_ _ start

omit le in
theorem finds_string (h : scanValue (fuel + 1) (some '"' :: tail) = (r, rest))
    (more : List Symbol) :
    scanValue (fuel' + 1) (some '"' :: (tail ++ more)) = (r, rest ++ more) := by
  rw [scanValue, skipSpace_cons (by decide)] at h ⊢
  simp only at h ⊢
  cases run : scanString tail with
  | mk t rest' =>
    rw [run] at h
    cases h
    have whole : t.stop = none := by
      rw [skip] at sound
      cases stopped : t.stop with
      | none => rfl
      | some f =>
        rw [stopped] at sound
        cases sound
    rw [scanString_more run whole]

end FindsValue

/-- A numeral is found whatever follows that cannot belong to a number. -/
theorem finds_numeral {fuel : Nat} {cs rest more : List Symbol} {r : Raw}
    (h : scanNumeral cs = (r, rest)) (sound : r.skip = .ok ())
    (stop : rest = [] → EndsNumber more) :
    scanValue (fuel + 1) (cs ++ more) = (r, rest ++ more) := by
  unfold scanNumeral at h
  split at h
  · rename_i n rest' number
    cases h
    exact scanValue_number (scanNumber_more number stop) fuel
  · cases h
    cases sound
  · cases h
    cases sound

/-- One more unit of fuel for a value, by the symbol that it starts with. -/
theorem findsValue_succ {fuel : Nat} (items : FindsItems fuel) (members : FindsMembers fuel) :
    FindsValue (fuel + 1) := by
  intro cs r rest h sound fuel' more le stop
  obtain ⟨fuel', rfl⟩ : ∃ f, fuel' = f + 1 := ⟨fuel' - 1, by omega⟩
  have le : fuel ≤ fuel' := by omega
  cases hs : skipSpace cs with
  | nil =>
    rw [scanValue, hs] at h
    cases h
    cases sound
  | cons s tail =>
    rw [scanValue_start hs] at h
    rw [scanValue_start (skipSpace_more hs more)]
    have value := h
    rw [scanValue, skipSpace_again hs] at h
    split at h
    · contradiction
    · rename_i cs' word
      cases word
      rw [scanValue, skipSpace_cons (by decide)]
      exact scanWord_more h sound
    · rename_i cs' word
      cases word
      rw [scanValue, skipSpace_cons (by decide)]
      exact scanWord_more h sound
    · rename_i cs' word
      cases word
      rw [scanValue, skipSpace_cons (by decide)]
      exact scanWord_more h sound
    · rename_i cs' quote
      cases quote
      exact finds_string sound value more
    · rename_i cs' bracket
      cases bracket
      exact finds_array sound le items value more
    · rename_i cs' brace
      cases brace
      exact finds_object sound le members value more
    · rename_i same
      cases same
      split at h
      · exact finds_numeral h sound stop
      · cases h
        cases sound
    · cases h
      cases sound

/-- The scanner finds values, items and members that end well in any longer text. -/
theorem finds (fuel : Nat) : FindsValue fuel ∧ FindsItems fuel ∧ FindsMembers fuel := by
  induction fuel with
  | zero =>
    refine ⟨?_, ?_, ?_⟩
    · intro cs r rest h sound
      cases h
      cases sound
    · intro cs rs e rest h _ closed
      cases h
      cases closed
    · intro cs ms e rest h _ closed
      cases h
      cases closed
  | succ fuel ih =>
    obtain ⟨value, items, members⟩ := ih
    exact ⟨findsValue_succ items members, findsItems_succ value items,
      findsMembers_succ value members⟩

end Raw

end CanvasLayout.Json
