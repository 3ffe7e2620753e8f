import Mathlib
import CanvasLayout.Proofs.ShapeOrder
import CanvasLayout.Xml.Tree

/-!
# Documents with shuffled attributes

Whether a document is well formed does not depend on the order in which its tags list their
attributes, for what a tag has to meet in the scope around it (`StartTag.Legal`) is about all of its
attributes at once. The pieces of two documents are read side by side (`Nesting.Matched`): where
start tags stay related when they are resolved (`Simulates`), either both documents are well formed,
with related tags at the same places, or neither is (`Node.rel_parse?`).
-/

namespace CanvasLayout.Xml

/-! ## Declarations -/

namespace Attribute

/-- The qualifier and the namespace that an attribute declares. -/
def declared? (a : Attribute) : Option (String × String) :=
  match a.role? with
  | some (.declares q space) => some (q, space)
  | _ => none

/-- The attribute is not about namespaces. -/
def isPlain (a : Attribute) : Bool :=
  match a.role? with
  | some .plain => true
  | _ => false

end Attribute

namespace Scope

/-- No qualifier but the empty one is declared twice. -/
def Distinct (s : Scope) : Prop := s.Pairwise fun d d' => d.1 = d'.1 → d.1 = ""

/-- Both scopes have the same namespace for each qualifier but the empty one, which is never looked
up. -/
def Agrees (s s' : Scope) : Prop := ∀ q, q ≠ "" → s'.lookup q = s.lookup q

variable {s s' d d' : Scope}

/-- Scopes that agree still do behind declarations that agree. -/
theorem Agrees.append (h : d.Agrees d') (h' : s.Agrees s') : Agrees (d ++ s) (d' ++ s') := by
  intro q named
  rw [List.lookup_append, List.lookup_append, h q named, h' q named]

theorem Distinct.of_perm (distinct : s.Distinct) (perm : s'.Perm s) : s'.Distinct := by
  refine (perm.pairwise_iff ?_).2 distinct
  intro d d' h same
  exact same.trans (h same.symm)

/-- Where no qualifier is declared twice, a lookup finds each declaration. -/
theorem Distinct.lookup_eq_some_iff (distinct : s.Distinct) {q space : String} (named : q ≠ "") :
    s.lookup q = some space ↔ (q, space) ∈ s := by
  rw [List.lookup_eq_some_iff]
  constructor
  · rintro ⟨before, after, rfl, -⟩
    exact List.mem_append_right _ List.mem_cons_self
  · intro mem
    obtain ⟨before, after, rfl⟩ := List.append_of_mem mem
    refine ⟨before, after, rfl, ?_⟩
    intro d hd
    have apart := (List.pairwise_append.1 distinct).2.2 d hd _ List.mem_cons_self
    exact bne_iff_ne.2 fun same => named (same.trans (apart same.symm))

theorem Distinct.agrees_of_perm (distinct : s.Distinct) (perm : s'.Perm s) : s.Agrees s' := by
  intro q named
  ext space
  have distinct' : Distinct s' := distinct.of_perm perm
  rw [distinct.lookup_eq_some_iff named, distinct'.lookup_eq_some_iff named, perm.mem_iff]

/-- A declaration may be added when its qualifier is the empty one or is not declared yet. -/
theorem Distinct.concat_iff (distinct : d.Distinct) {q space : String} :
    Distinct (d ++ [(q, space)]) ↔ ¬ (q ≠ "" ∧ (d.lookup q).isSome) := by
  have pairs : Distinct (d ++ [(q, space)]) ↔ ∀ x ∈ d, x.1 = q → x.1 = "" := by
    unfold Distinct
    simp only [List.pairwise_append, List.pairwise_singleton, List.mem_singleton, forall_eq,
      true_and]
    exact and_iff_right distinct
  rw [pairs, Json.isSome_lookup_iff, List.mem_map]
  constructor
  · rintro free ⟨named, x, hx, rfl⟩
    exact named (free x hx rfl)
  · rintro free x hx rfl
    by_contra named
    exact free ⟨named, x, hx, rfl⟩

end Scope

/-- The declarations are taken out one by one, each checked against those in front of it, but what is
checked in the end is about all of them. -/
theorem splitDeclarations_eq_some {d : Scope} {as : List Attribute} (distinct : d.Distinct)
    {split : Scope × List Attribute} : splitDeclarations d as = some split ↔
      (∀ a ∈ as, a.role?.isSome) ∧ Scope.Distinct (d ++ as.filterMap Attribute.declared?) ∧
        split = (d ++ as.filterMap Attribute.declared?, as.filter Attribute.isPlain) := by
  induction as generalizing d split with
  | nil =>
    rw [splitDeclarations, Option.some.injEq, List.filterMap_nil, List.append_nil, eq_comm]
    simp [distinct]
  | cons a as ih =>
    rw [List.forall_mem_cons, splitDeclarations, List.filterMap_cons, List.filter_cons,
      Attribute.declared?, Attribute.isPlain]
    cases a.role? with
    | none => simp
    | some r =>
      cases r with
      | declares q space =>
        simp only [Option.bind_eq_bind, Option.bind_some, Option.isSome_some, true_and]
        rw [List.append_cons d _ (as.filterMap _)]
        -- the next step starts from one declaration more, which has to be distinct from the others
        by_cases free : Scope.Distinct (d ++ [(q, space)])
        · rw [if_neg (distinct.concat_iff.1 free), ih free]
          simp
        · rw [if_pos (not_not.1 (mt distinct.concat_iff.2 free))]
          refine iff_of_false nofun ?_
          rintro ⟨-, all, -⟩
          exact free (List.pairwise_append.1 all).1
      | confirms =>
        simp only [Option.bind_eq_bind, Option.bind_some, Option.isSome_some, true_and]
        rw [ih distinct]
        simp
      | plain =>
        simp only [Option.bind_eq_bind, Option.bind_some, Option.bind_eq_some_iff, ih distinct,
          Option.isSome_some, true_and]
        constructor
        · rintro ⟨_, ⟨roles, all, rfl⟩, ⟨⟩⟩
          exact ⟨roles, all, rfl⟩
        · rintro ⟨roles, all, rfl⟩
          exact ⟨_, ⟨roles, all, rfl⟩, rfl⟩

/-! ## Start tags -/

/-- A partial map over a list succeeds when it does at each entry. -/
theorem mapM_eq_some {α β : Type} {f : α → Option β} {as : List α} {bs : List β} :
    as.mapM f = some bs ↔ (∀ a ∈ as, (f a).isSome) ∧ bs = as.filterMap f := by
  induction as generalizing bs with
  | nil =>
    rw [List.mapM_nil, List.filterMap_nil, eq_comm (a := bs)]
    simp
  | cons a as ih =>
    rw [List.mapM_cons, List.forall_mem_cons, List.filterMap_cons]
    cases f a with
    | none => simp
    | some b =>
      simp only [Option.bind_eq_bind, Option.bind_some, Option.bind_eq_some_iff, ih,
        Option.isSome_some, true_and]
      constructor
      · rintro ⟨_, ⟨some, rfl⟩, ⟨⟩⟩
        exact ⟨some, rfl⟩
      · rintro ⟨some, rfl⟩
        exact ⟨_, ⟨some, rfl⟩, rfl⟩

/-- The check that compares each entry with those behind it is that of no repetition. -/
theorem allDifferent_iff {α : Type} [BEq α] [LawfulBEq α] {as : List α} :
    allDifferent as = true ↔ as.Nodup := by
  induction as with
  | nil => simp [allDifferent]
  | cons a as ih => simp [allDifferent, ih]

namespace StartTag

/-- The declarations among the attributes. -/
def declared (t : StartTag) : Scope := t.attributes.filterMap Attribute.declared?

/-- The attributes that are not about namespaces. -/
def plain (t : StartTag) : List Attribute := t.attributes.filter Attribute.isPlain

/-- These by their local names. -/
def written (t : StartTag) : List (String × String) := t.plain.map fun a => (a.name.name, a.value)

/-- What a tag has to meet in the scope around it. -/
structure Legal (scope : Scope) (t : StartTag) : Prop where
  element : t.name.qualifier ≠ "xmlns"
  roles : ∀ a ∈ t.attributes, a.role?.isSome
  declared : t.declared.Distinct
  known : ∀ a ∈ t.plain, (a.expanded? (t.declared ++ scope)).isSome
  different : (t.plain.filterMap (Attribute.expanded? (t.declared ++ scope))).Nodup
  qualified : t.name.qualifier = "" ∨
    (List.lookup t.name.qualifier (t.declared ++ scope)).isSome

/-- A start tag is resolved when it is legal in its scope, to its name and its written attributes.
-/
theorem resolve?_eq_some {scope : Scope} {t : StartTag} {r : Scope × Tag} :
    t.resolve? scope = some r ↔
      t.Legal scope ∧ r = (t.declared ++ scope, ⟨t.name.name, t.written, t.offset⟩) := by
  simp only [resolve?, Option.bind_eq_bind, Option.bind_eq_some_iff, Option.guard_eq_some',
    splitDeclarations_eq_some .nil, mapM_eq_some, allDifferent_iff, exists_const]
  constructor
  · rintro ⟨element, _, ⟨roles, declared, rfl⟩, _, ⟨known, rfl⟩, different, qualified, ⟨⟩⟩
    exact ⟨⟨element, roles, declared, known, different, qualified⟩, rfl⟩
  · rintro ⟨⟨element, roles, declared, known, different, qualified⟩, rfl⟩
    exact ⟨element, _, ⟨roles, declared, rfl⟩, _, ⟨known, rfl⟩, different, qualified, rfl⟩

/-- The second tag is the first with its attributes, declarations included, in another order. Tags keep
their places: the text of a tag does not get longer or shorter. -/
structure Shuffled (t t' : StartTag) : Prop where
  name : t'.name = t.name
  attributes : t'.attributes.Perm t.attributes
  offset : t'.offset = t.offset
  empty : t'.empty = t.empty

namespace Shuffled

variable {t t' : StartTag} {scope scope' : Scope}

theorem symm (h : Shuffled t t') : Shuffled t' t :=
  ⟨h.name.symm, h.attributes.symm, h.offset.symm, h.empty.symm⟩

/-- Shuffled tags have the same attributes that are not about namespaces, in another order. -/
theorem plain (h : Shuffled t t') : t'.plain.Perm t.plain := h.attributes.filter _

/-- Shuffled tags have the same attributes under the same names, in another order. -/
theorem written (h : Shuffled t t') : t'.written.Perm t.written := h.plain.map _

/-- Shuffled tags declare the same namespaces, in another order. -/
theorem declared (h : Shuffled t t') : t'.declared.Perm t.declared := h.attributes.filterMap _

end Shuffled

end StartTag

/-- The expanded name of an attribute depends on no more of a scope than its lookups. -/
theorem Attribute.expanded?_congr {scope scope' : Scope} (h : scope.Agrees scope') :
    Attribute.expanded? scope' = Attribute.expanded? scope := by
  funext a
  unfold expanded?
  by_cases none : a.name.qualifier = ""
  · rw [if_pos none, if_pos none]
  · rw [h _ none]

namespace StartTag

variable {t t' : StartTag} {scope scope' : Scope}

/-- A legal tag stays legal when it is shuffled, in any scope that agrees with its own. -/
theorem Shuffled.legal (h : Shuffled t t') (around : scope.Agrees scope') (legal : t.Legal scope) :
    t'.Legal scope' := by
  have inside : Scope.Agrees (t.declared ++ scope) (t'.declared ++ scope') :=
    (legal.declared.agrees_of_perm h.declared).append around
  refine ⟨?_, ?_, ?_, ?_, ?_, ?_⟩
  · rw [h.name]
    exact legal.element
  · exact fun a ha => legal.roles a (h.attributes.mem_iff.1 ha)
  · exact legal.declared.of_perm h.declared
  · rw [Attribute.expanded?_congr inside]
    exact fun a ha => legal.known a (h.plain.mem_iff.1 ha)
  · rw [Attribute.expanded?_congr inside]
    exact (h.plain.filterMap _).nodup_iff.2 legal.different
  · rw [h.name]
    by_cases none : t.name.qualifier = ""
    · exact .inl none
    · rw [inside _ none]
      exact legal.qualified

end StartTag

/-- Start tags that are related by `R` are resolved to tags that are related by `T`. -/
structure Simulates (R : StartTag → StartTag → Prop) (T : Tag → Tag → Prop) : Prop where
  name : ∀ {t t'}, R t t' → t'.name = t.name
  empty : ∀ {t t'}, R t t' → t'.empty = t.empty
  resolve : ∀ {t t' scope scope' inside tag}, R t t' → Scope.Agrees scope scope' →
    t.resolve? scope = some (inside, tag) → ∃ inside' tag',
      t'.resolve? scope' = some (inside', tag') ∧ Scope.Agrees inside inside' ∧ T tag tag'

/-- Tags of one name at one place with attributes that are related by `P`. -/
structure Tag.Related (P : List (String × String) → List (String × String) → Prop)
    (tag tag' : Tag) : Prop where
  name : tag'.name = tag.name
  offset : tag'.offset = tag.offset
  attributes : P tag.attributes tag'.attributes

/-- Whatever holds of the attributes as written holds of the attributes that are read. -/
theorem simulates_shuffled (P : List (String × String) → List (String × String) → Prop) :
    Simulates (fun t t' => t.Shuffled t' ∧ P t.written t'.written) (Tag.Related P) where
  name h := h.1.name
  empty h := h.1.empty
  resolve := by
    rintro t t' scope scope' inside tag ⟨shuffled, same⟩ around resolved
    obtain ⟨legal, ⟨⟩⟩ := StartTag.resolve?_eq_some.1 resolved
    refine ⟨_, _, StartTag.resolve?_eq_some.2 ⟨shuffled.legal around legal, rfl⟩, ?_, ?_, ?_, same⟩
    · exact (legal.declared.agrees_of_perm shuffled.declared).append around
    · rw [shuffled.name]
    · exact shuffled.offset

/-- Shuffled tags are legal in the same scopes, with nothing asked of what they are resolved to. -/
theorem simulates_any : Simulates StartTag.Shuffled fun _ _ => True where
  name h := h.name
  empty h := h.empty
  resolve := by
    intro t t' scope scope' inside tag shuffled around resolved
    obtain ⟨inside', tag', resolved', agree, -⟩ :=
      (simulates_shuffled fun _ _ => True).resolve ⟨shuffled, trivial⟩ around resolved
    exact ⟨inside', tag', resolved', agree, trivial⟩

/-! ## Documents side by side -/

/-- Pieces that are the same, but for start tags, which are related by `R`. -/
inductive Token.Alike (R : StartTag → StartTag → Prop) : Token → Token → Prop
  | start {t t' : StartTag} (related : R t t') : Alike R (.start t) (.start t')
  | finish (name : QName) : Alike R (.finish name) (.finish name)
  | text (cs : List Char) : Alike R (.text cs) (.text cs)
  | literal (cs : List Char) : Alike R (.literal cs) (.literal cs)
  | remark : Alike R .remark .remark

variable {R : StartTag → StartTag → Prop} {T : Tag → Tag → Prop}

theorem Token.Alike.symm (symmetric : ∀ {t t'}, R t t' → R t' t) {k k' : Token} (h : Alike R k k') :
    Alike R k' k := by
  cases h with
  | start related => exact .start (symmetric related)
  | finish name => exact .finish name
  | text cs => exact .text cs
  | literal cs => exact .literal cs
  | remark => exact .remark

/-- Contents that are the same, but for the tags of elements, which are related by `T`. -/
inductive Matched (T : Tag → Tag → Prop) : List Node → List Node → Prop
  | nil : Matched T [] []
  | text (s : String) {ns ns' : List Node} (rest : Matched T ns ns') :
    Matched T (.text s :: ns) (.text s :: ns')
  | remark {ns ns' : List Node} (rest : Matched T ns ns') : Matched T (.remark :: ns) (.remark :: ns')
  | element {tag tag' : Tag} {content content' ns ns' : List Node} (related : T tag tag')
    (inside : Matched T content content') (rest : Matched T ns ns') :
    Matched T (.element tag content :: ns) (.element tag' content' :: ns')

namespace Matched

variable {ns ns' ms ms' : List Node}

theorem append (h : Matched T ns ns') (h' : Matched T ms ms') : Matched T (ns ++ ms) (ns' ++ ms') := by
  induction h with
  | nil => exact h'
  | text s _ ih => exact .text s ih
  | remark _ ih => exact .remark ih
  | element related inside _ _ ih => exact .element related inside ih

theorem reverse (h : Matched T ns ns') : Matched T ns.reverse ns'.reverse := by
  induction h with
  | nil => exact .nil
  | text s _ ih => simpa using ih.append (.text s .nil)
  | remark _ ih => simpa using ih.append (.remark .nil)
  | element related inside _ _ ih => simpa using ih.append (.element related inside .nil)

theorem addText (s : String) (h : Matched T ns ns') : Matched T (addText s ns) (addText s ns') := by
  cases h with
  | nil => exact .text s .nil
  | text t rest => exact .text (t ++ s) rest
  | remark rest => exact .text s (.remark rest)
  | element related inside rest => exact .text s (.element related inside rest)

end Matched

/-- Open elements that are the same, but for their tags. -/
structure Unclosed.Matched (T : Tag → Tag → Prop) (u u' : Unclosed) : Prop where
  name : u'.name = u.name
  scope : u.scope.Agrees u'.scope
  tag : T u.tag u'.tag
  content : Xml.Matched T u.content u'.content

/-- Documents that are read as far as each other and are the same, but for the tags of elements. -/
structure Nesting.Matched (T : Tag → Tag → Prop) (n n' : Nesting) : Prop where
  root : Xml.Matched T n.root.toList n'.root.toList
  stack : List.Forall₂ (Unclosed.Matched T) n.stack n'.stack

namespace Nesting

variable {n n' m : Nesting}

theorem Matched.isSome_root (h : Matched T n n') : n'.root.isSome = n.root.isSome := by
  obtain ⟨root, stack⟩ := n
  obtain ⟨root', stack'⟩ := n'
  cases root <;> cases root' <;> first | rfl | cases h.root

theorem Matched.isEmpty_stack (h : Matched T n n') : n'.stack.isEmpty = n.stack.isEmpty := by
  obtain ⟨root, stack⟩ := n
  obtain ⟨root', stack'⟩ := n'
  cases h.stack <;> rfl

/-- The scopes in which the next tag is resolved. -/
theorem Matched.scope (h : Matched T n n') :
    Scope.Agrees ((n.stack.head?.map Unclosed.scope).getD [])
      ((n'.stack.head?.map Unclosed.scope).getD []) := by
  obtain ⟨root, stack⟩ := n
  obtain ⟨root', stack'⟩ := n'
  cases h.stack with
  | nil => exact fun _ _ => rfl
  | cons u _ => exact u.scope

/-- Both readings go on side by side when a part is added to the element that is open. -/
theorem Matched.extend {f f' : List Node → List Node} (h : Matched T n n')
    (kept : ∀ ns ns', Xml.Matched T ns ns' → Xml.Matched T (f ns) (f' ns'))
    (step : n.extend f = some m) : ∃ m', n'.extend f' = some m' ∧ Matched T m m' := by
  obtain ⟨root, stack⟩ := n
  obtain ⟨root', stack'⟩ := n'
  cases h.stack with
  | nil => cases step
  | cons u rest =>
    cases step
    exact ⟨_, rfl, h.root, .cons ⟨u.name, u.scope, u.tag, kept _ _ u.content⟩ rest⟩

/-- Both readings go on side by side when an element is closed. -/
theorem Matched.finish {tag tag' : Tag} {content content' : List Node} (h : Matched T n n')
    (related : T tag tag') (inside : Xml.Matched T content content')
    (step : n.finish (.element tag content) = some m) :
    ∃ m', n'.finish (.element tag' content') = some m' ∧ Matched T m m' := by
  obtain ⟨root, stack⟩ := n
  obtain ⟨root', stack'⟩ := n'
  cases h.stack with
  | nil =>
    have once := h.isSome_root
    cases root with
    | some e => cases step
    | none =>
      cases step
      cases root' with
      | some e' => cases once
      | none => exact ⟨_, rfl, .element related inside .nil, .nil⟩
  | cons u rest => exact h.extend (fun ns ns' same => .element related inside same) step

/-- An end tag closes elements side by side. -/
theorem Matched.close {name : QName} (h : Matched T n n') (step : n.add (.finish name) = some m) :
    ∃ m', n'.add (.finish name) = some m' ∧ Matched T m m' := by
  obtain ⟨root, stack⟩ := n
  obtain ⟨root', stack'⟩ := n'
  cases h.stack with
  | nil => cases step
  | @cons u u' us us' same rest =>
    unfold Nesting.add at step ⊢
    dsimp only at step ⊢
    by_cases named : u.name = name
    · rw [if_pos named] at step
      rw [if_pos (same.name.trans named)]
      have around : Matched T ⟨root, us⟩ ⟨root', us'⟩ := ⟨h.root, rest⟩
      exact around.finish same.tag same.content.reverse step
    · rw [if_neg named] at step
      cases step

/-- One more piece. -/
theorem Matched.add (simulates : Simulates R T) {k k' : Token} (h : Matched T n n')
    (alike : Token.Alike R k k') (step : n.add k = some m) :
    ∃ m', n'.add k' = some m' ∧ Matched T m m' := by
  cases alike with
  | @start t t' related =>
    simp only [Nesting.add, Option.bind_eq_bind, Option.bind_eq_some_iff, Option.guard_eq_some',
      exists_const] at step ⊢
    obtain ⟨room, ⟨inside, tag⟩, resolved, step⟩ := step
    obtain ⟨inside', tag', resolved', agree, same⟩ := simulates.resolve related h.scope resolved
    -- there is room for the tag in both documents, unless both are complete
    rw [← h.isEmpty_stack, ← h.isSome_root] at room
    dsimp only at step
    by_cases empty : t.empty
    · rw [if_pos empty] at step
      obtain ⟨m', step', matched⟩ := h.finish same .nil step
      refine ⟨m', ⟨room, (inside', tag'), resolved', ?_⟩, matched⟩
      rw [simulates.empty related, if_pos empty, step']
    · rw [if_neg empty] at step
      cases step
      refine ⟨{ n' with stack := ⟨t'.name, inside', tag', []⟩ :: n'.stack },
        ⟨room, (inside', tag'), resolved', ?_⟩, h.root, .cons ?_ h.stack⟩
      · rw [simulates.empty related, if_neg empty]
        rfl
      · exact ⟨simulates.name related, agree, same, .nil⟩
  | finish name => exact h.close step
  | text cs =>
    dsimp only [Nesting.add] at step ⊢
    rw [h.isEmpty_stack]
    by_cases outside : n.stack.isEmpty = true
    · rw [if_pos outside] at step ⊢
      by_cases blank : cs.all isSpace = true
      · rw [if_pos blank] at step ⊢
        cases step
        exact ⟨n', rfl, h⟩
      · rw [if_neg blank] at step
        cases step
    · rw [if_neg outside] at step ⊢
      obtain ⟨s, value, step⟩ := Option.bind_eq_some_iff.1 step
      obtain ⟨m', step', matched⟩ := h.extend (fun _ _ same => same.addText s) step
      exact ⟨m', Option.bind_eq_some_iff.2 ⟨s, value, step'⟩, matched⟩
  | literal cs => exact h.extend (fun _ _ same => same.addText _) step
  | remark =>
    dsimp only [Nesting.add] at step ⊢
    rw [h.isEmpty_stack]
    by_cases outside : n.stack.isEmpty = true
    · rw [if_pos outside] at step ⊢
      cases step
      exact ⟨n', rfl, h⟩
    · rw [if_neg outside] at step ⊢
      exact h.extend (fun _ _ same => .remark same) step

/-- All pieces that are still to come. -/
theorem Matched.foldlM (simulates : Simulates R T) {ts ts' : List Token}
    (alike : List.Forall₂ (Token.Alike R) ts ts') (h : Matched T n n')
    (run : ts.foldlM Nesting.add n = some m) :
    ∃ m', ts'.foldlM Nesting.add n' = some m' ∧ Matched T m m' := by
  induction alike generalizing n n' with
  | nil =>
    cases run
    exact ⟨n', rfl, h⟩
  | cons first _ ih =>
    rw [List.foldlM_cons] at run
    obtain ⟨next, step, run⟩ := Option.bind_eq_some_iff.1 run
    obtain ⟨next', step', matched⟩ := h.add simulates first step
    obtain ⟨m', run', matched⟩ := ih matched run
    rw [List.foldlM_cons]
    exact ⟨m', Option.bind_eq_some_iff.2 ⟨next', step', run'⟩, matched⟩

end Nesting

namespace Node

theorem ofTokens?_matched (simulates : Simulates R T) {ts ts' : List Token}
    (alike : List.Forall₂ (Token.Alike R) ts ts') {n : Node} (whole : ofTokens? ts = some n) :
    ∃ n', ofTokens? ts' = some n' ∧ Matched T [n] [n'] := by
  unfold ofTokens? at whole ⊢
  obtain ⟨m, run, whole⟩ := Option.bind_eq_some_iff.1 whole
  have start : Nesting.Matched T {} {} := ⟨.nil, .nil⟩
  obtain ⟨m', run', matched⟩ := start.foldlM simulates alike run
  simp only [Option.bind_eq_bind, Option.bind_eq_some_iff, Option.guard_eq_some',
    exists_const] at whole ⊢
  obtain ⟨closed, root⟩ := whole
  have roots := matched.root
  rw [root] at roots
  cases root' : m'.root with
  | none =>
    rw [root'] at roots
    cases roots
  | some n' =>
    rw [root'] at roots
    exact ⟨n', ⟨m', run', by rwa [matched.isEmpty_stack], root'⟩, roots⟩

/-- Drawings that are cut into related pieces have related parts. -/
theorem parse?_matched (simulates : Simulates R T) {drawing drawing' : String} {ts ts' : List Token}
    (cut : tokens? drawing = some ts) (cut' : tokens? drawing' = some ts')
    (alike : List.Forall₂ (Token.Alike R) ts ts') {n : Node} (parsed : parse? drawing = some n) :
    ∃ n', parse? drawing' = some n' ∧ Matched T [n] [n'] := by
  unfold parse? at parsed ⊢
  rw [cut] at parsed
  rw [cut']
  exact ofTokens?_matched simulates alike parsed

/-- Of two documents with such pieces both are well formed, and then they are the same but for the tags
of elements, or neither is. -/
theorem rel_parse? (simulates : Simulates R T) (symmetric : ∀ {t t'}, R t t' → R t' t)
    {drawing drawing' : String} {ts ts' : List Token} (cut : tokens? drawing = some ts)
    (cut' : tokens? drawing' = some ts') (alike : List.Forall₂ (Token.Alike R) ts ts') :
    Option.Rel (fun n n' => Matched T [n] [n']) (parse? drawing) (parse? drawing') := by
  cases parsed : parse? drawing with
  | some n =>
    obtain ⟨n', parsed', matched⟩ := parse?_matched simulates cut cut' alike parsed
    rw [parsed']
    exact .some matched
  | none =>
    have back : List.Forall₂ (Token.Alike R) ts' ts :=
      (alike.imp fun _ _ related => related.symm symmetric).flip
    cases parsed' : parse? drawing' with
    | none => exact .none
    | some n' =>
      obtain ⟨n, whole, -⟩ := parse?_matched simulates cut' cut back parsed'
      rw [whole] at parsed
      cases parsed

end Node

end CanvasLayout.Xml