import Mathlib.Data.List.Perm.Basic

/-!
# Taking an element out of a list by a swap

The element is taken out and the last one is put in its place.  This loses the order of the list
but none of its elements.
-/

namespace SwapRemove

variable {α : Type*}

/-- `Vec::swap_remove`: the element at the index, and the list in which the last element stands in
its place. -/
def swapRemove (xs : List α) (i : Fin xs.length) : α × List α :=
  match xs.getLast? with
  | some last => (xs[i], (xs.set i last).dropLast)
  | none => (xs[i], [])

lemma fst_swapRemove (xs : List α) (i : Fin xs.length) : (swapRemove xs i).1 = xs[i] := by
  rw [swapRemove]
  rcases xs.getLast? with _ | last <;> rfl

/-- Nothing is lost and nothing comes twice. -/
theorem swapRemove_perm (xs : List α) (i : Fin xs.length) :
    ((swapRemove xs i).1 :: (swapRemove xs i).2).Perm xs := by
  obtain ⟨i, hi⟩ := i
  rcases xs.eq_nil_or_concat with rfl | ⟨init, last, rfl⟩
  · cases hi
  have hswap : swapRemove (init.concat last) ⟨i, hi⟩ =
      ((init.concat last)[i], ((init.concat last).set i last).dropLast) := by
    simp [swapRemove]
  rw [hswap]
  simp only [List.concat_eq_append] at hi ⊢
  rw [List.length_append, List.length_singleton] at hi
  by_cases hlast : i = init.length
  · -- the last element is its own replacement
    subst hlast
    simpa using (List.perm_append_singleton last init).symm
  have hlt : i < init.length := by omega
  rw [List.set_append_left i last hlt, List.dropLast_concat, List.getElem_append_left hlt]
  calc init[i] :: init.set i last
    _ |>.Perm (init[i] :: last :: init.eraseIdx i) :=
        (List.set_perm_cons_eraseIdx hlt last).cons _
    _ |>.Perm (last :: init[i] :: init.eraseIdx i) := .swap ..
    _ |>.Perm (last :: init) := (List.getElem_cons_eraseIdx_perm hlt).cons _
    _ |>.Perm (init ++ [last]) := (List.perm_append_singleton last init).symm

end SwapRemove
