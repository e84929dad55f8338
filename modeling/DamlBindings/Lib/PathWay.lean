import DamlBindings.Lib.PathTree
import Mathlib.Data.List.Induction
import Mathlib.Data.List.Infix

/-!
# Walks down a tree

A walk goes through all nodes of a tree and hands something down that is computed from the
values on the way.  What it does at a node then depends on the path to the node only.
-/

namespace PathTree

variable {κ α β γ : Type*}

/-- Every node has one child under a key. -/
inductive Keyed : PathTree κ α → Prop
  | node {v : α} {cs : List (κ × PathTree κ α)} :
      (AssocMap.keys cs).Nodup → (∀ c ∈ cs, Keyed c.2) → Keyed (node v cs)

lemma Keyed.child {t : PathTree κ α} (h : Keyed t) {c : κ × PathTree κ α} (hc : c ∈ t.children) :
    Keyed c.2 := by
  cases h with
  | node _ hchild => exact hchild c hc

variable [DecidableEq κ]

lemma Keyed.lookup_iff {t : PathTree κ α} (h : Keyed t) {k : κ} {c : PathTree κ α} :
    t.children.lookup k = some c ↔ (k, c) ∈ t.children := by
  cases h with
  | node hnodup _ => exact AssocMap.lookup_eq_some_iff hnodup

/-- The values on the way to a path, the one at the path included, as far as there are nodes. -/
def way : List κ → PathTree κ α → List α
  | [], t => [t.val]
  | k :: p, t => t.val :: ((t.children.lookup k).map (way p)).getD []

@[simp] lemma way_nil (t : PathTree κ α) : way [] t = [t.val] := rfl

lemma way_cons_of_lookup {t c : PathTree κ α} {k : κ} (h : t.children.lookup k = some c)
    (p : List κ) : way (k :: p) t = t.val :: way p c := by
  rw [way, h]
  rfl

lemma valAt_cons_of_lookup {t c : PathTree κ α} {k : κ} (h : t.children.lookup k = some c)
    (p : List κ) : valAt t (k :: p) = valAt c p := by
  rw [valAt_cons, h, Option.bind_some]

lemma valAt_cons_eq_some {t : PathTree κ α} {k : κ} {p : List κ} {v : α} :
    valAt t (k :: p) = some v ↔ ∃ c, t.children.lookup k = some c ∧ valAt c p = some v := by
  rw [valAt_cons, Option.bind_eq_some_iff]

/-- The way to a node is that to its parent, followed by the value at it. -/
lemma way_concat {t : PathTree κ α} {p : List κ} {k : κ} {v : α}
    (h : valAt t (p ++ [k]) = some v) : way (p ++ [k]) t = way p t ++ [v] := by
  induction p generalizing t with
  | nil =>
    obtain ⟨c, hc, hv⟩ := valAt_cons_eq_some.1 h
    cases hv
    exact way_cons_of_lookup hc []
  | cons k' p ih =>
    obtain ⟨c, hc, hv⟩ := valAt_cons_eq_some.1 h
    rw [List.cons_append, way_cons_of_lookup hc, way_cons_of_lookup hc, ih hv, List.cons_append]

/-- The values on the way are those at the prefixes of the path. -/
lemma way_eq (p : List κ) (t : PathTree κ α) : way p t = p.inits.filterMap (valAt t) := by
  induction p generalizing t with
  | nil => rfl
  | cons k p ih =>
    rw [List.inits_cons, List.filterMap_cons_some (valAt_nil t), List.filterMap_map, way]
    congr 1
    rcases hc : t.children.lookup k with - | c
    · simp [valAt_cons, hc]
    · have hbelow : valAt t ∘ (k :: ·) = valAt c := by
        funext q
        exact valAt_cons_of_lookup hc q
      rw [Option.map_some, Option.getD_some, ih, hbelow]

/-- What a walk collects that hands down a flag is what it collects at the nodes, where the flag
is what the way to the node makes of it. -/
theorem mem_walk (step : β → α → β) (own : β → α → List γ) (E : PathTree κ α → β → List γ)
    (hE : ∀ v cs b, E (node v cs) b =
      own (step b v) v ++ cs.flatMap fun c => E c.2 (step b v))
    {t : PathTree κ α} (ht : Keyed t) {b : β} {x : γ} :
    x ∈ E t b ↔ ∃ p v, valAt t p = some v ∧ x ∈ own ((way p t).foldl step b) v := by
  induction t generalizing b with
  | node v cs ih =>
    rw [hE, List.mem_append, List.mem_flatMap]
    constructor
    · rintro (hx | ⟨⟨k, c⟩, hc, hx⟩)
      · exact ⟨[], v, rfl, hx⟩
      · obtain ⟨p, w, hw, hx⟩ := (ih _ hc (ht.child hc)).1 hx
        have hlookup := ht.lookup_iff.2 hc
        refine ⟨k :: p, w, valAt_cons_eq_some.2 ⟨c, hlookup, hw⟩, ?_⟩
        rwa [way_cons_of_lookup hlookup, List.foldl_cons]
    · rintro ⟨_ | ⟨k, p⟩, w, hw, hx⟩
      · cases hw
        exact .inl hx
      · obtain ⟨c, hlookup, hw⟩ := valAt_cons_eq_some.1 hw
        rw [way_cons_of_lookup hlookup, List.foldl_cons] at hx
        have hc := ht.lookup_iff.1 hlookup
        exact .inr ⟨(k, c), hc, (ih _ hc (ht.child hc)).2 ⟨p, w, hw, hx⟩⟩

/-- A search for a node finds one if there is one. -/
theorem any_walk {P : α → Bool} {E : PathTree κ α → Bool}
    (hE : ∀ v cs, E (node v cs) = (P v || cs.any fun c => E c.2)) {t : PathTree κ α}
    (ht : Keyed t) : E t = true ↔ ∃ p v, valAt t p = some v ∧ P v = true := by
  induction t with
  | node v cs ih =>
    rw [hE, Bool.or_eq_true, List.any_eq_true]
    constructor
    · rintro (hP | ⟨⟨k, c⟩, hc, hP⟩)
      · exact ⟨[], v, rfl, hP⟩
      · obtain ⟨p, w, hw, hP⟩ := (ih _ hc (ht.child hc)).1 hP
        exact ⟨k :: p, w, valAt_cons_eq_some.2 ⟨c, ht.lookup_iff.2 hc, hw⟩, hP⟩
    · rintro ⟨_ | ⟨k, p⟩, w, hw, hP⟩
      · cases hw
        exact .inl hP
      · obtain ⟨c, hlookup, hw⟩ := valAt_cons_eq_some.1 hw
        have hc := ht.lookup_iff.1 hlookup
        exact .inr ⟨(k, c), hc, (ih _ hc (ht.child hc)).2 ⟨p, w, hw, hP⟩⟩

/-- A flag that some values set and the others hand down is what the last one of those on the
way sets. -/
lemma foldl_set_eq {set : α → Option β} (vs : List α) (b : β) :
    vs.foldl (fun b v => (set v).getD b) b = (vs.filterMap set).getLast?.getD b := by
  induction vs using List.reverseRecOn with
  | nil => rfl
  | append_singleton vs v ih =>
    rw [List.foldl_append, ih, List.filterMap_append]
    rcases h : set v with _ | b' <;> simp [h]

end PathTree
