import DamlBindings.Lib.Forall2
import DamlBindings.Lib.Worklist

/-!
# Visits of a tree

A visit of an element enters it, visits each of its children once, in some order and one after
the other, and leaves it.  What the children of an element are is a parameter, so that a walk
that forgets some children is a visit too, of a smaller tree; it is a visit of the whole tree
exactly if there was nothing to forget.
-/

namespace TreeVisit

open Worklist (Reaches)

variable {α β : Type*}

mutual

/-- The events of a visit of an element. -/
inductive Visit (children : α → List α) (enter leave : α → β) : α → List β → Prop
  | node {a as cs} : as.Perm (children a) → Visits children enter leave as cs →
      Visit children enter leave a (enter a :: (cs ++ [leave a]))

/-- The events of the visits of a list of elements. -/
inductive Visits (children : α → List α) (enter leave : α → β) : List α → List β → Prop
  | nil : Visits children enter leave [] []
  | cons {a as cs ds} : Visit children enter leave a cs → Visits children enter leave as ds →
      Visits children enter leave (a :: as) (cs ++ ds)

end

variable {children children' : α → List α} {enter leave : α → β}

section Induction

variable {P : α → List β → Prop} {Q : List α → List β → Prop}

/-- Induction on a visit together with the visits inside it. -/
lemma Visit.rec' (node : ∀ {a as cs}, as.Perm (children a) → Visits children enter leave as cs →
      Q as cs → P a (enter a :: (cs ++ [leave a])))
    (nil : Q [] [])
    (cons : ∀ {a as cs ds}, Visit children enter leave a cs → P a cs → Q as ds →
      Q (a :: as) (cs ++ ds)) {a : α} {cs : List β}
    (h : Visit children enter leave a cs) : P a cs :=
  Visit.rec (motive_1 := fun a cs _ => P a cs) (motive_2 := fun as cs _ => Q as cs)
    (fun hp hcs ih => node hp hcs ih) nil (fun ha _ iha ih => cons ha iha ih) h

end Induction

/-! ### Building visits -/

lemma Visit.of_children {a : α} {cs : List β} (h : Visits children enter leave (children a) cs) :
    Visit children enter leave a (enter a :: (cs ++ [leave a])) :=
  .node (.refl _) h

lemma Visits.append {as bs : List α} {cs ds : List β} (h : Visits children enter leave as cs)
    (h' : Visits children enter leave bs ds) :
    Visits children enter leave (as ++ bs) (cs ++ ds) := by
  induction as generalizing cs with
  | nil =>
    cases h
    exact h'
  | cons a as ih =>
    cases h with | cons ha has =>
    rw [List.append_assoc]
    exact .cons ha (ih has)

lemma Visits.single {a : α} {cs : List β} (h : Visit children enter leave a cs) :
    Visits children enter leave [a] cs := by
  have h' : Visits children enter leave [a] (cs ++ []) := .cons h .nil
  rwa [List.append_nil] at h'

lemma Visits.snoc {a : α} {as : List α} {cs ds : List β} (h : Visits children enter leave as cs)
    (h' : Visit children enter leave a ds) : Visits children enter leave (as ++ [a]) (cs ++ ds) :=
  h.append (.single h')

lemma Visits.flatMap {γ : Type*} {f : γ → List β} {g : γ → α} {xs : List γ}
    (h : ∀ x ∈ xs, Visit children enter leave (g x) (f x)) :
    Visits children enter leave (xs.map g) (xs.flatMap f) := by
  induction xs with
  | nil => exact .nil
  | cons x xs ih =>
    exact .cons (h x List.mem_cons_self) (ih fun y hy => h y (List.mem_cons_of_mem _ hy))

/-! ### Visits of the whole tree -/

/-- A visit enters everything in the tree. -/
lemma Visit.enter_mem {a b : α} {cs : List β} (h : Visit children enter leave a cs)
    (hb : Reaches children a b) : enter b ∈ cs := by
  refine Visit.rec' (P := fun a cs => ∀ b, Reaches children a b → enter b ∈ cs)
    (Q := fun as cs => ∀ a ∈ as, ∀ b, Reaches children a b → enter b ∈ cs)
    ?_ ?_ ?_ h b hb
  · intro a as cs hp _ ih b hb
    obtain rfl | ⟨c, hc, hb⟩ := Worklist.reaches_iff.1 hb
    · exact List.mem_cons_self
    · have hin := ih c (hp.mem_iff.2 hc) b hb
      exact List.mem_cons_of_mem _ (List.mem_append_left _ hin)
  · intro a ha
    cases ha
  · intro a as cs ds _ iha ih a' ha' b hb
    rcases List.mem_cons.1 ha' with rfl | ha'
    · exact List.mem_append_left _ (iha b hb)
    · exact List.mem_append_right _ (ih a' ha' b hb)

/-- Only the children of what is in the tree matter. -/
lemma Visit.congr {a : α} {cs : List β} (h : Visit children enter leave a cs)
    (heq : ∀ b, Reaches children a b → (children b).Perm (children' b)) :
    Visit children' enter leave a cs := by
  refine Visit.rec' (P := fun a cs => (∀ b, Reaches children a b →
      (children b).Perm (children' b)) → Visit children' enter leave a cs)
    (Q := fun as cs => (∀ a ∈ as, ∀ b, Reaches children a b →
      (children b).Perm (children' b)) → Visits children' enter leave as cs)
    ?_ ?_ ?_ h heq
  · intro a as cs hp _ ih heq
    refine .node (hp.trans (heq a .refl)) (ih fun c hc b hb => heq b ?_)
    exact Worklist.reaches_iff.2 (.inr ⟨c, hp.mem_iff.1 hc, hb⟩)
  · intro _
    exact .nil
  · intro a as cs ds _ iha ih heq
    exact .cons (iha fun b hb => heq a List.mem_cons_self b hb)
      (ih fun a' ha' => heq a' (List.mem_cons_of_mem _ ha'))

section Count

variable {entered : β → Option α} (henter : ∀ a, entered (enter a) = some a)
  (hleave : ∀ a, entered (leave a) = none)

include henter hleave

/-- A visit enters nothing else. -/
lemma Visit.reaches_of_mem {a b : α} {cs : List β} (h : Visit children enter leave a cs)
    (hb : b ∈ cs.filterMap entered) : Reaches children a b := by
  refine Visit.rec' (P := fun a cs => ∀ b ∈ cs.filterMap entered, Reaches children a b)
    (Q := fun as cs => ∀ b ∈ cs.filterMap entered, ∃ a ∈ as, Reaches children a b)
    ?_ ?_ ?_ h b hb
  · intro a as cs hp _ ih b hb
    simp only [List.filterMap_cons, henter, List.filterMap_append, hleave, List.filterMap_nil,
      List.append_nil, List.mem_cons] at hb
    rcases hb with rfl | hb
    · exact .refl
    · obtain ⟨c, hc, hreach⟩ := ih b hb
      exact Worklist.reaches_iff.2 (.inr ⟨c, hp.mem_iff.1 hc, hreach⟩)
  · intro b hb
    cases hb
  · intro a as cs ds _ iha ih b hb
    rw [List.filterMap_append, List.mem_append] at hb
    rcases hb with hb | hb
    · exact ⟨a, List.mem_cons_self, iha b hb⟩
    · obtain ⟨a', ha', hreach⟩ := ih b hb
      exact ⟨a', List.mem_cons_of_mem _ ha', hreach⟩

/-- Everything that is entered, apart from the root, is a child of one thing that is entered. -/
lemma Visit.sum_children {a : α} {cs : List β} (h : Visit children enter leave a cs) :
    ((cs.filterMap entered).map fun b => (children b).length).sum + 1 =
      (cs.filterMap entered).length := by
  refine Visit.rec' (P := fun _ cs => ((cs.filterMap entered).map fun b =>
      (children b).length).sum + 1 = (cs.filterMap entered).length)
    (Q := fun as cs => ((cs.filterMap entered).map fun b => (children b).length).sum + as.length =
      (cs.filterMap entered).length)
    ?_ ?_ ?_ h
  · intro a as cs hp _ ih
    simp only [List.filterMap_cons, henter, List.filterMap_append, hleave, List.filterMap_nil,
      List.append_nil, List.map_cons, List.sum_cons, List.length_cons]
    rw [← hp.length_eq]
    omega
  · rfl
  · intro a as cs ds _ iha ih
    simp only [List.filterMap_append, List.map_append, List.sum_append, List.length_append,
      List.length_cons]
    omega

/-- A visit that is one of a larger tree too has forgotten no child of anything in it. -/
lemma Visit.length_children_eq {a b : α} {cs : List β} (h : Visit children enter leave a cs)
    (h' : Visit children' enter leave a cs)
    (hle : ∀ b, (children b).length ≤ (children' b).length) (hb : Reaches children' a b) :
    (children b).length = (children' b).length := by
  have hsum := h.sum_children henter hleave
  have hsum' := h'.sum_children henter hleave
  have hmem : b ∈ cs.filterMap entered :=
    List.mem_filterMap.2 ⟨enter b, h'.enter_mem hb, henter b⟩
  have hall : List.Forall₂ (fun b b' => (children b').length ≤ (children' b).length ∧
      ((children b').length = (children' b).length →
        (children b).length = (children' b).length))
      (cs.filterMap entered) (cs.filterMap entered) :=
    List.forall₂_same.2 fun b _ => ⟨hle b, fun he => he⟩
  exact hall.sum_le.2 (by omega) b hmem

end Count

end TreeVisit
