import Mathlib.Data.List.Induction

/-!
# Expanding a table

The entries of a table may refer to entries in front of them.  The table is expanded from the
front: in each entry the references are replaced by the entries they stand for, which are expanded
already.
-/

namespace Expansion

variable {α : Type*}

/-- A table expanded from the front, where `subst` replaces the references of an entry by the
entries of a table. -/
def expandTable (subst : List α → α → α) (table : List α) : List α :=
  table.foldl (fun done a => done ++ [subst done a]) []

/-- The result of `subst` depends on the entries that are used only. -/
def Local (subst : List α → α → α) (uses : α → ℕ → Prop) : Prop :=
  ∀ a T T', (∀ k, uses a k → T[k]? = T'[k]?) → subst T a = subst T' a

/-- Every entry uses only entries in front of it. -/
def Descends (uses : α → ℕ → Prop) (table : List α) : Prop :=
  ∀ k a, table[k]? = some a → ∀ j, uses a j → j < k

variable {subst : List α → α → α} {uses : α → ℕ → Prop} {table : List α}

lemma expandTable_append_singleton (table : List α) (a : α) :
    expandTable subst (table ++ [a]) =
      expandTable subst table ++ [subst (expandTable subst table) a] := by
  simp [expandTable, List.foldl_append]

@[simp] lemma length_expandTable (table : List α) :
    (expandTable subst table).length = table.length := by
  induction table using List.reverseRecOn with
  | nil => rfl
  | append_singleton table a ih => rw [expandTable_append_singleton]; simp [ih]

lemma Descends.of_append {rest : List α} (h : Descends uses (table ++ rest)) :
    Descends uses table := by
  intro k a hk
  have hlt : k < table.length := (List.getElem?_eq_some_iff.1 hk).1
  exact h k a (by rwa [List.getElem?_append_left hlt])

/-- An entry of the expanded table is the entry with its references replaced by entries of the
expanded table: what is expanded later is not used. -/
theorem getElem?_expandTable (hlocal : Local subst uses) (h : Descends uses table) (k : ℕ) :
    (expandTable subst table)[k]? = (table[k]?).map (subst (expandTable subst table)) := by
  induction table using List.reverseRecOn generalizing k with
  | nil => rfl
  | append_singleton table a ih =>
    have hsubst : ∀ b, (∀ j, uses b j → j < table.length) →
        subst (expandTable subst (table ++ [a])) b = subst (expandTable subst table) b := by
      intro b hb
      refine hlocal b _ _ fun j hj => ?_
      have hlt : j < (expandTable subst table).length := by
        rw [length_expandTable]
        exact hb j hj
      rw [expandTable_append_singleton, List.getElem?_append_left hlt]
    have hlen : (expandTable subst table).length = table.length := length_expandTable table
    rcases Nat.lt_trichotomy k table.length with hk | rfl | hk
    · have hb : ∀ j, uses table[k] j → j < table.length := by
        intro j hj
        have hlt := h.of_append k table[k] (List.getElem?_eq_getElem hk) j hj
        omega
      rw [List.getElem?_append_left hk, List.getElem?_eq_getElem hk, Option.map_some, hsubst _ hb,
        expandTable_append_singleton, List.getElem?_append_left (by omega), ih h.of_append k,
        List.getElem?_eq_getElem hk, Option.map_some]
    · have ha : ∀ j, uses a j → j < table.length := h table.length a (by simp)
      rw [List.getElem?_concat_length, Option.map_some, hsubst a ha, expandTable_append_singleton,
        ← hlen, List.getElem?_concat_length]
    · rw [List.getElem?_eq_none (by simp; omega), List.getElem?_eq_none (by simp; omega)]
      rfl

/-- What every entry has as soon as the entries that it uses have it is true of the whole expanded
table. -/
theorem expandTable_induction {p : α → Prop} (h : Descends uses table)
    (hsubst : ∀ a T, (∀ j, uses a j → ∀ b, T[j]? = some b → p b) →
      (∀ j, uses a j → j < T.length) → p (subst T a)) :
    ∀ a ∈ expandTable subst table, p a := by
  induction table using List.reverseRecOn with
  | nil => exact List.forall_mem_nil _
  | append_singleton table a ih =>
    rw [expandTable_append_singleton]
    refine List.forall_mem_append.2 ⟨ih h.of_append, List.forall_mem_singleton.2 ?_⟩
    have ha : ∀ j, uses a j → j < (expandTable subst table).length := by
      rw [length_expandTable]
      exact h table.length a (by simp)
    exact hsubst a _ (fun j _ b hb => ih h.of_append b (List.mem_of_getElem? hb)) ha

end Expansion
