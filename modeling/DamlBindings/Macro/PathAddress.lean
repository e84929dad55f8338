import DamlBindings.Macro.Extract
import Mathlib.Data.List.Chain

/-!
# Which addresses a path expression has

The syntax allows one variant, one index and one `?` behind a field, in this order, so that not
every way into a value is the address of a path: an item of a list in a list is not, nor is an item
of a list in an optional.
-/

namespace DamlBindings.Macro

/-- The place of a step among those of its element. -/
def Step.rank : Step → Nat
  | field _ => 0
  | variant _ => 1
  | index _ => 2
  | content => 3

/-- Begins with a field, and each further step is another field or stands behind the one before it
in an element. -/
def Addressable (steps : List Step) : Prop :=
  (∃ label rest, steps = .field label :: rest) ∧
    steps.IsChain fun s t => t.rank = 0 ∨ s.rank < t.rank

instance : DecidablePred Addressable := fun steps =>
  match steps with
  | .field label :: rest =>
    decidable_of_iff ((Step.field label :: rest).IsChain fun s t => t.rank = 0 ∨ s.rank < t.rank)
      ⟨fun h => ⟨⟨label, rest, rfl⟩, h⟩, fun h => h.2⟩
  | [] => .isFalse fun ⟨⟨_, _, h⟩, _⟩ => by cases h
  | .variant _ :: _ => .isFalse fun ⟨⟨_, _, h⟩, _⟩ => by cases h
  | .index _ :: _ => .isFalse fun ⟨⟨_, _, h⟩, _⟩ => by cases h
  | .content :: _ => .isFalse fun ⟨⟨_, _, h⟩, _⟩ => by cases h

/-! ### Elements of an address -/

/-- The elements of an address, from the right: the accesses that wait for their field, in an
element without one, and the elements behind them. -/
def elements : List Step → PathElement × List PathElement
  | [] => (⟨"", none, none, false⟩, [])
  | s :: steps =>
    let (pending, es) := elements steps
    match s with
    | .field label => (⟨"", none, none, false⟩, { pending with field := label } :: es)
    | .variant c => ({ pending with variant := some c }, es)
    | .index i => ({ pending with index := some i }, es)
    | .content => ({ pending with optional := true }, es)

lemma elements_address (es : List PathElement) :
    elements (es.flatMap PathElement.address) = (⟨"", none, none, false⟩, es) := by
  induction es with
  | nil => rfl
  | cons e es ih =>
    obtain ⟨field, variant, index, optional⟩ := e
    cases variant <;> cases index <;> cases optional <;>
      simp [PathElement.address, PathElement.accesses, elements, ih]

/-- The first step that waits for its field has the least place. -/
lemma head?_accesses {e : PathElement} {rest : List Step} {r : Nat}
    (h : ∀ t ∈ (e.accesses ++ rest).head?, t.rank = 0 ∨ r < t.rank) :
    (1 ≤ r → e.variant = none) ∧ (2 ≤ r → e.variant = none ∧ e.index = none) ∧
      (3 ≤ r → e.variant = none ∧ e.index = none ∧ e.optional = false) := by
  obtain ⟨field, variant, index, optional⟩ := e
  cases variant <;> cases index <;> cases optional <;>
    simp_all [PathElement.accesses, Step.rank] <;> omega

/-- The elements of a chain of steps have these steps. -/
lemma accesses_elements {steps : List Step}
    (h : steps.IsChain fun s t => t.rank = 0 ∨ s.rank < t.rank) :
    steps = (elements steps).1.accesses ++ (elements steps).2.flatMap PathElement.address := by
  induction steps with
  | nil => rfl
  | cons s steps ih =>
    have hsteps := ih h.tail
    have hnext : ∀ t ∈ ((elements steps).1.accesses ++
        (elements steps).2.flatMap PathElement.address).head?, t.rank = 0 ∨ s.rank < t.rank := by
      rw [← hsteps]
      exact fun t ht => (List.isChain_cons.1 h).1 t ht
    obtain ⟨h1, h2, h3⟩ := head?_accesses hnext
    conv_lhs => rw [hsteps]
    cases s with
    | field label => simp [elements, PathElement.address, PathElement.accesses]
    | variant c =>
      simp [elements, PathElement.accesses, h1 le_rfl]
      rfl
    | index i => simp [elements, PathElement.accesses, h2 le_rfl]
    | content => simp [elements, PathElement.accesses, h3 le_rfl]

lemma isChain_address (es : List PathElement) :
    (es.flatMap PathElement.address).IsChain fun s t => t.rank = 0 ∨ s.rank < t.rank := by
  induction es with
  | nil => exact .nil
  | cons e es ih =>
    rw [List.flatMap_cons, List.isChain_append]
    refine ⟨?_, ih, fun s _ t ht => .inl ?_⟩
    · obtain ⟨field, variant, index, optional⟩ := e
      cases variant <;> cases index <;> cases optional <;>
        simp [PathElement.address, PathElement.accesses, Step.rank]
    · cases es with
      | nil => cases ht
      | cons e' es =>
        cases ht
        rfl

namespace DamlPath

/-- The elements of a path. -/
def all (p : DamlPath) : List PathElement := p.init ++ [p.last]

lemma address_eq (p : DamlPath) : p.address = p.all.flatMap PathElement.address := by
  simp [address, all]

lemma eq_of_all {p q : DamlPath} (h : p.all = q.all) (htype : p.type = q.type) : p = q := by
  obtain ⟨init, last, type⟩ := p
  obtain ⟨init', last', type'⟩ := q
  obtain ⟨rfl, hlast⟩ := List.append_inj' h rfl
  cases hlast
  cases htype
  rfl

lemma body_inj {p q : DamlPath} (h : p.body = q.body) : p = q := by
  obtain ⟨init, last, type⟩ := p
  obtain ⟨init', last', type'⟩ := q
  induction init generalizing init' with
  | nil =>
    cases init' with
    | nil => cases h; rfl
    | cons e init' => cases h
  | cons e init ih =>
    cases init' with
    | nil => cases h
    | cons e' init' =>
      injection h with he hrest
      cases ih init' hrest
      rw [he]

end DamlPath

/-- The path expressions are an unambiguous notation for addresses.  A list of steps is the address
of a path, of any type, exactly if it begins with a field and behind each field has at most one
variant, one index and one content, in this order; the path is the only one, and its tokens are
those of no other path. -/
theorem existsUnique_path (steps : List Step) (type : Option TypeSpecifier) :
    ((∃ p : DamlPath, p.address = steps ∧ p.type = type) ↔ Addressable steps) ∧
      ∀ p : DamlPath, p.address = steps → p.type = type → ∀ q : DamlPath,
        (q.address = steps ∧ q.type = type ↔ q = p) ∧ (q.tokens = p.tokens ↔ q = p) := by
  refine ⟨⟨?_, fun ⟨⟨label, rest, hhead⟩, hchain⟩ => ?_⟩, ?_⟩
  · rintro ⟨p, rfl, -⟩
    refine ⟨p.exists_address, ?_⟩
    rw [p.address_eq]
    exact isChain_address p.all
  · have hsteps := accesses_elements hchain
    subst hhead
    have hpending : (elements (.field label :: rest)).1.accesses = [] := rfl
    have hne : (elements (.field label :: rest)).2 ≠ [] := List.cons_ne_nil _ _
    rw [hpending, List.nil_append] at hsteps
    refine ⟨⟨(elements (.field label :: rest)).2.dropLast,
      (elements (.field label :: rest)).2.getLast hne, type⟩, ?_, rfl⟩
    rw [DamlPath.address_eq, DamlPath.all, List.dropLast_append_getLast hne, ← hsteps]
  · rintro p rfl rfl q
    refine ⟨⟨fun ⟨haddress, htype⟩ => DamlPath.eq_of_all ?_ htype, fun h => h ▸ ⟨rfl, rfl⟩⟩,
      fun htokens => DamlPath.body_inj ?_, fun h => h ▸ rfl⟩
    · have hp := elements_address p.all
      rw [← p.address_eq, ← haddress, q.address_eq, elements_address] at hp
      exact congrArg Prod.snd hp
    · have hp : expand (p.init.length + q.init.length + 2) (pathCall "" p.tokens) = some p.body :=
        expand_pathCall.2 ⟨p, rfl, rfl, by omega⟩
      have hq : expand (p.init.length + q.init.length + 2) (pathCall "" q.tokens) = some q.body :=
        expand_pathCall.2 ⟨q, rfl, rfl, by omega⟩
      rw [htokens, hp] at hq
      exact (Option.some.inj hq).symm

/-- `my_list[2][0]` is not valid. -/
example : ¬ Addressable [.field "my_list", .index 2, .index 0] := by decide

end DamlBindings.Macro
