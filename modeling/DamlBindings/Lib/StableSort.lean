import Mathlib.Data.List.Sort
import DamlBindings.Lib.Forall2

/-!
# Stable sorting by a key

A list sorted by a key of its members, where members with one key keep their order.  The result
depends on the order of the list only where different members have the same key; there it does.
-/

namespace StableSort

variable {α β γ κ : Type*} [Ord κ]

/-- The members in the order of their keys. -/
def sortedByKey (key : α → κ) (xs : List α) : List α :=
  xs.insertionSort fun x y => (compare (key x) (key y)).isLE

lemma perm_sortedByKey (key : α → κ) (xs : List α) : (sortedByKey key xs).Perm xs :=
  List.perm_insertionSort _ xs

@[simp] lemma mem_sortedByKey {key : α → κ} {xs : List α} {x : α} :
    x ∈ sortedByKey key xs ↔ x ∈ xs :=
  (perm_sortedByKey key xs).mem_iff

lemma length_flatMap_sortedByKey (key : α → κ) (f : α → List β) (xs : List α) :
    ((sortedByKey key xs).flatMap f).length = (xs.flatMap f).length :=
  ((perm_sortedByKey key xs).flatMap_right f).length_eq

/-- Sorting looks at the keys only. -/
lemma sortedByKey_map {key : α → κ} {f : γ → α} (xs : List γ) :
    sortedByKey key (xs.map f) = (sortedByKey (fun x => key (f x)) xs).map f :=
  (List.map_insertionSort _ _ f xs fun _ _ _ _ => Iff.rfl).symm

lemma sortedByKey_congr {key key' : α → κ} {xs : List α} (h : ∀ x ∈ xs, key x = key' x) :
    sortedByKey key xs = sortedByKey key' xs := by
  have hmap := List.map_insertionSort (fun x y => (compare (key x) (key y)).isLE)
    (fun x y => (compare (key' x) (key' y)).isLE) id xs fun x hx y hy => by
      simp only [id, h x hx, h y hy]
  rwa [List.map_id, List.map_id] at hmap

lemma sortedByKey_const [Std.ReflOrd κ] (k : κ) (xs : List α) :
    sortedByKey (fun _ => k) xs = xs := by
  refine List.Pairwise.insertionSort_eq (List.pairwise_of_forall fun _ _ => ?_)
  rw [Std.ReflOrd.compare_self]
  rfl

lemma pairwise_sortedByKey [Std.TransOrd κ] (key : α → κ) (xs : List α) :
    (sortedByKey key xs).Pairwise fun x y => (compare (key x) (key y)).isLE := by
  have : Std.Total fun x y : α => (compare (key x) (key y)).isLE := ⟨fun x y => by
    have hswap : compare (key y) (key x) = (compare (key x) (key y)).swap :=
      Std.OrientedOrd.eq_swap
    rw [hswap]
    cases compare (key x) (key y) <;> simp⟩
  have : IsTrans α fun x y => (compare (key x) (key y)).isLE :=
    ⟨fun _ _ _ => Std.TransOrd.isLE_trans⟩
  exact List.pairwise_insertionSort _ xs

/-- Lists with the same keys, however ordered, have them in the same places once sorted. -/
lemma map_sortedByKey_congr [Std.TransOrd κ] [Std.LawfulEqOrd κ] {key : α → κ} {xs ys : List α}
    (h : (xs.map key).Perm (ys.map key)) :
    (sortedByKey key xs).map key = (sortedByKey key ys).map key := by
  have hsorted : ∀ zs, ((sortedByKey key zs).map key).Pairwise fun k k' => (compare k k').isLE :=
    fun zs => List.pairwise_map.2 (pairwise_sortedByKey key zs)
  have hperm : ∀ zs, ((sortedByKey key zs).map key).Perm (zs.map key) :=
    fun zs => (perm_sortedByKey key zs).map key
  refine List.Perm.eq_of_pairwise (fun k k' _ _ hle hge => ?_) (hsorted xs) (hsorted ys)
    ((hperm xs).trans (h.trans (hperm ys).symm))
  exact Std.LawfulEqOrd.eq_of_compare (Std.OrientedCmp.isLE_antisymm hle hge)

/-- Where members with the same key are the same, the sorted list does not depend on the order of
the list. -/
theorem forall₂_sortedByKey [Std.TransOrd κ] [Std.LawfulEqOrd κ] {R : α → α → Prop} {key : α → κ}
    (hkey : ∀ x y, R x y → key x = key y) (htrans : ∀ x y z, R x y → R y z → R x z)
    {xs xs' ys : List α} (hp : xs.Perm xs') (h : List.Forall₂ R xs' ys)
    (hties : ∀ x ∈ xs, ∀ x' ∈ xs, key x = key x' → R x x') :
    List.Forall₂ R (sortedByKey key xs) (sortedByKey key ys) := by
  have hkeys : xs'.map key = ys.map key :=
    List.forall₂_eq_eq_eq ▸ List.forall₂_map_left_iff.2
      (List.forall₂_map_right_iff.2 (h.imp fun x y hR => hkey x y hR))
  refine List.forall₂_of_map_eq (map_sortedByKey_congr (hkeys ▸ hp.map key)) ?_
  intro x hx y hy hxy
  obtain ⟨x', hx', hR⟩ := h.exists_left (mem_sortedByKey.1 hy)
  have htie : R x x' :=
    hties x (mem_sortedByKey.1 hx) x' (hp.mem_iff.2 hx') (hxy.trans (hkey x' y hR).symm)
  exact htrans x x' y htie hR

/-! ### Two members with the same key -/

/-- Two members with the same key are next to each other where they head the list, in the order
that they have there. -/
lemma sortedByKey_pair [Std.ReflOrd κ] {key : α → κ} {x x' : α} (hkey : key x = key x')
    (xs : List α) :
    sortedByKey key (x :: x' :: xs) =
      (sortedByKey key xs).takeWhile (fun y => ¬ (compare (key x) (key y)).isLE) ++
        x :: x' :: (sortedByKey key xs).dropWhile (fun y => ¬ (compare (key x) (key y)).isLE) := by
  have hrefl : (compare (key x) (key x')).isLE := by
    rw [hkey, Std.ReflOrd.compare_self]
    rfl
  have hinner : sortedByKey key (x' :: xs) =
      (sortedByKey key xs).takeWhile (fun y => ¬ (compare (key x) (key y)).isLE) ++
        x' :: (sortedByKey key xs).dropWhile (fun y => ¬ (compare (key x) (key y)).isLE) := by
    rw [hkey]
    exact List.insertionSort_cons_eq_take_drop _ x' xs
  have houter : sortedByKey key (x :: x' :: xs) =
      (sortedByKey key (x' :: xs)).orderedInsert
        (fun y z => (compare (key y) (key z)).isLE) x :=
    List.insertionSort_cons _ _ _
  have hhead : ∀ y ∈ (sortedByKey key xs).takeWhile
      (fun y => ¬ (compare (key x) (key y)).isLE),
        decide (¬ (compare (key x) (key y)).isLE) = true :=
    List.all_eq_true.1 List.all_takeWhile
  rw [houter, hinner, List.orderedInsert_eq_take_drop, List.takeWhile_append_of_pos hhead,
    List.dropWhile_append_of_pos hhead, List.takeWhile_cons_of_neg (by simp [hrefl]),
    List.dropWhile_cons_of_neg (by simp [hrefl]), List.append_nil]

end StableSort
