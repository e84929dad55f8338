import DamlBindings.Lib.Forall2
import Mathlib.Data.List.Induction
import Mathlib.Data.List.Sort

/-!
# Association lists as maps

A hash map with an unspecified iteration order is a list of key-value pairs with pairwise
distinct keys, listed in its iteration order; `List.lookup` reads it.  A map that keeps its
keys sorted is the same list with the keys in ascending order.  This file has the operations
of both kinds of map (insertion, collection from a sequence, sorting by the key) and what they
do to `List.lookup`, to the keys and to the order.
-/

namespace AssocMap

variable {κ ν μ : Type*}

/-- The keys, in iteration order. -/
abbrev keys (m : List (κ × ν)) : List κ := m.map Prod.fst

/-- Apply a function to every value. -/
def mapValues (f : ν → μ) (m : List (κ × ν)) : List (κ × μ) := m.map fun p => (p.1, f p.2)

@[simp] lemma keys_mapValues (f : ν → μ) (m : List (κ × ν)) : keys (mapValues f m) = keys m := by
  simp [mapValues, keys, Function.comp_def]

lemma keys_eq_of_forall₂ {m : List (κ × ν)} {m' : List (κ × μ)}
    (h : List.Forall₂ (fun p q => p.1 = q.1) m m') : keys m = keys m' := by
  rwa [← List.forall₂_eq_eq_eq, List.forall₂_map_left_iff, List.forall₂_map_right_iff]

section Lookup

variable [DecidableEq κ]

lemma lookup_cons (p : κ × ν) (m : List (κ × ν)) (k : κ) :
    (p :: m).lookup k = if k = p.1 then some p.2 else m.lookup k := by
  show (match k == p.1 with
    | true => some p.2
    | false => m.lookup k) = _
  by_cases h : k = p.1
  · simp [h]
  · simp [h, beq_false_of_ne h]

@[simp] lemma lookup_mapValues (f : ν → μ) (m : List (κ × ν)) (k : κ) :
    (mapValues f m).lookup k = (m.lookup k).map f := by
  induction m with
  | nil => rfl
  | cons p m ih =>
    have hcons : mapValues f (p :: m) = (p.1, f p.2) :: mapValues f m := rfl
    rw [hcons, lookup_cons, lookup_cons, ih]
    by_cases h : k = p.1 <;> simp [h]

lemma mem_of_lookup {m : List (κ × ν)} {k : κ} {v : ν} (h : m.lookup k = some v) :
    (k, v) ∈ m := by
  obtain ⟨l₁, l₂, rfl, -⟩ := List.lookup_eq_some_iff.1 h
  simp

lemma lookup_eq_some_iff {m : List (κ × ν)} (hm : (keys m).Nodup) {k : κ} {v : ν} :
    m.lookup k = some v ↔ (k, v) ∈ m := by
  refine ⟨mem_of_lookup, fun h => ?_⟩
  induction m with
  | nil => simp at h
  | cons p m ih =>
    simp only [keys, List.map_cons, List.nodup_cons] at hm
    rw [lookup_cons]
    rcases List.mem_cons.1 h with rfl | hmem
    · simp
    · have hne : k ≠ p.1 := fun he => hm.1 (he ▸ List.mem_map_of_mem hmem)
      simp [hne, ih hm.2 hmem]

lemma lookup_eq_none {m : List (κ × ν)} {k : κ} : m.lookup k = none ↔ k ∉ keys m := by
  simp only [List.lookup_eq_none_iff, keys, List.mem_map, not_exists, not_and, bne_iff_ne]
  exact ⟨fun h p hp he => h p hp he.symm, fun h p hp he => h p hp he.symm⟩

lemma exists_lookup {m : List (κ × ν)} {k : κ} : (∃ v, m.lookup k = some v) ↔ k ∈ keys m := by
  rw [← not_iff_not, ← lookup_eq_none, Option.eq_none_iff_forall_ne_some]
  exact not_exists

/-- A map with as many entries as a map with distinct keys, and all of these keys, has just
these keys. -/
lemma perm_keys_of_lookups {m : List (κ × ν)} {m' : List (κ × μ)} (hm : (keys m).Nodup)
    (hlen : m.length = m'.length) (h : ∀ p ∈ m, ∃ w, m'.lookup p.1 = some w) :
    (keys m).Perm (keys m') := by
  have hsub : keys m ⊆ keys m' := fun k hk => by
    obtain ⟨p, hp, rfl⟩ := List.mem_map.1 hk
    exact exists_lookup.1 (h p hp)
  exact (List.subperm_of_subset hm hsub).perm_of_length_le (by simp [hlen])

end Lookup

/-! ### Insertion and collection -/

section Insert

variable [DecidableEq κ]

/-- Insert a pair; the value of a key that is there is replaced. -/
def insert (k : κ) (v : ν) : List (κ × ν) → List (κ × ν)
  | [] => [(k, v)]
  | p :: m => if k = p.1 then (k, v) :: m else p :: insert k v m

lemma lookup_insert (k : κ) (v : ν) (m : List (κ × ν)) (k' : κ) :
    (insert k v m).lookup k' = if k' = k then some v else m.lookup k' := by
  induction m with
  | nil => rw [insert, lookup_cons]
  | cons p m ih =>
    by_cases hp : k = p.1
    · rw [insert, if_pos hp, lookup_cons, lookup_cons]
      by_cases h : k' = k <;> simp [h, ← hp]
    · rw [insert, if_neg hp, lookup_cons, lookup_cons, ih]
      by_cases h : k' = p.1
      · have hk : k' ≠ k := fun he => hp (he.symm.trans h)
        simp [h, Ne.symm hp]
      · simp [h]

@[simp] lemma lookup_insert_self (k : κ) (v : ν) (m : List (κ × ν)) :
    (insert k v m).lookup k = some v := by
  simp [lookup_insert]

@[simp] lemma insert_insert (k : κ) (v v' : ν) (m : List (κ × ν)) :
    insert k v' (insert k v m) = insert k v' m := by
  induction m with
  | nil => simp [insert]
  | cons p m ih =>
    by_cases hp : k = p.1
    · simp [insert, hp]
    · simp [insert, hp, ih]

lemma mem_keys_insert {k k' : κ} {v : ν} {m : List (κ × ν)} :
    k' ∈ keys (insert k v m) ↔ k' = k ∨ k' ∈ keys m := by
  rw [← exists_lookup, ← exists_lookup, lookup_insert]
  by_cases h : k' = k <;> simp [h]

lemma eq_or_mem_of_mem_insert {k : κ} {v : ν} {m : List (κ × ν)} {p : κ × ν}
    (h : p ∈ insert k v m) : p = (k, v) ∨ p ∈ m := by
  induction m with
  | nil => exact Or.inl (List.mem_singleton.1 h)
  | cons e m ih =>
    rw [insert] at h
    split_ifs at h with he
    · exact (List.mem_cons.1 h).imp_right (List.mem_cons_of_mem e)
    · rcases List.mem_cons.1 h with rfl | hmem
      · exact Or.inr List.mem_cons_self
      · exact (ih hmem).imp_right (List.mem_cons_of_mem e)

lemma insert_of_notMem {k : κ} {v : ν} {m : List (κ × ν)} (h : k ∉ keys m) :
    insert k v m = m ++ [(k, v)] := by
  induction m with
  | nil => rfl
  | cons p m ih =>
    simp only [keys, List.map_cons, List.mem_cons, not_or] at h
    simp [insert, h.1, ih h.2]

lemma nodup_keys_insert {k : κ} {v : ν} {m : List (κ × ν)} (hm : (keys m).Nodup) :
    (keys (insert k v m)).Nodup := by
  induction m with
  | nil => simp [insert]
  | cons p m ih =>
    simp only [keys, List.map_cons, List.nodup_cons] at hm
    by_cases hp : k = p.1
    · simpa [insert, hp] using hm
    · simp only [insert, hp, if_false, keys, List.map_cons, List.nodup_cons]
      exact ⟨fun h => (mem_keys_insert.1 h).elim (fun he => hp he.symm) hm.1, ih hm.2⟩

/-- Collect a sequence of pairs; a later pair replaces an earlier one with its key. -/
def ofList (l : List (κ × ν)) : List (κ × ν) := l.foldl (fun m p => insert p.1 p.2 m) []

private lemma foldl_insert_eq_append (l m : List (κ × ν)) (h : (keys (m ++ l)).Nodup) :
    l.foldl (fun m p => insert p.1 p.2 m) m = m ++ l := by
  induction l generalizing m with
  | nil => simp
  | cons p l ih =>
    have hp : p.1 ∉ keys m := by
      simp only [keys, List.map_append, List.map_cons, List.nodup_append] at h
      exact fun hmem => h.2.2 p.1 hmem p.1 List.mem_cons_self rfl
    rw [List.foldl_cons, insert_of_notMem hp, ih _ (by simpa [keys] using h)]
    simp

/-- Collecting pairs with distinct keys keeps them all, in their order. -/
lemma ofList_eq_self {l : List (κ × ν)} (h : (keys l).Nodup) : ofList l = l := by
  simpa [ofList] using foldl_insert_eq_append l [] (by simpa using h)

private lemma nodup_foldl_insert (l m : List (κ × ν)) (hm : (keys m).Nodup) :
    (keys (l.foldl (fun m p => insert p.1 p.2 m) m)).Nodup := by
  induction l generalizing m with
  | nil => exact hm
  | cons p l ih => exact ih _ (nodup_keys_insert hm)

lemma nodup_keys_ofList (l : List (κ × ν)) : (keys (ofList l)).Nodup :=
  nodup_foldl_insert l [] (by simp)

lemma mem_keys_foldl_insert {l m : List (κ × ν)} {k : κ} :
    k ∈ keys (l.foldl (fun m p => insert p.1 p.2 m) m) ↔ k ∈ keys l ∨ k ∈ keys m := by
  induction l generalizing m with
  | nil => simp
  | cons p l ih =>
    have hkeys : keys (p :: l) = p.1 :: keys l := rfl
    rw [List.foldl_cons, ih, mem_keys_insert, hkeys, List.mem_cons]
    tauto

@[simp] lemma mem_keys_ofList {l : List (κ × ν)} {k : κ} : k ∈ keys (ofList l) ↔ k ∈ keys l := by
  simp [ofList, mem_keys_foldl_insert]

/-- What is found in a collected map is one of the pairs. -/
lemma mem_of_lookup_ofList {l : List (κ × ν)} {k : κ} {v : ν}
    (h : (ofList l).lookup k = some v) : (k, v) ∈ l := by
  have hfold : ∀ (l m : List (κ × ν)),
      (l.foldl (fun m p => insert p.1 p.2 m) m).lookup k = some v →
        (k, v) ∈ l ∨ m.lookup k = some v := by
    intro l
    induction l with
    | nil => exact fun m h => .inr h
    | cons p l ih =>
      intro m h
      rcases ih _ h with hmem | hm
      · exact .inl (List.mem_cons_of_mem _ hmem)
      rw [lookup_insert] at hm
      split_ifs at hm with hk
      · subst hk
        cases hm
        exact .inl List.mem_cons_self
      · exact .inr hm
  simpa using hfold l [] h

/-- Of the pairs with a key, the last one is kept. -/
lemma lookup_ofList_map {α : Type*} (f : α → κ) (g : α → ν) (as : List α) (k : κ) :
    (ofList (as.map fun a => (f a, g a))).lookup k =
      (as.filter fun a => f a = k).getLast?.map g := by
  induction as using List.reverseRecOn with
  | nil => rfl
  | append_singleton as a ih =>
    have hconcat : ofList ((as ++ [a]).map fun a => (f a, g a)) =
        insert (f a) (g a) (ofList (as.map fun a => (f a, g a))) := by
      simp [ofList]
    rw [hconcat, lookup_insert, ih, List.filter_append]
    by_cases hk : f a = k
    · simp [hk]
    · simp [hk, Ne.symm hk]

/-- A map of values under their own names: of the values with a name, the last one is kept. -/
lemma lookup_ofList_of_forall₂ {α : Type*} {R : α → ν → Prop} {f : α → Option κ} {g : ν → κ}
    {as : List α} {vs : List ν} (h : List.Forall₂ R as vs) (hfg : ∀ a v, R a v → f a = some (g v))
    (hR : Relator.RightUnique R) {k : κ} {v : ν} :
    (ofList (vs.map fun v => (g v, v))).lookup k = some v ↔
      ∃ a, (as.filter fun a => f a = some k).getLast? = some a ∧ R a v := by
  have hnamed : List.Forall₂ R (as.filter fun a => f a = some k) (vs.filter fun v => g v = k) := by
    induction h with
    | nil => exact .nil
    | @cons a v _ _ hav _ ih =>
      rw [List.filter_cons, List.filter_cons, hfg a v hav]
      by_cases hk : g v = k
      · simpa [hk] using List.Forall₂.cons hav ih
      · simpa [hk] using ih
  rw [lookup_ofList_map, Option.map_id']
  constructor
  · intro hv
    obtain ⟨a, ha, hav⟩ := (List.Forall₂.flip (R := flip R) hnamed).exists_getLast? hv
    exact ⟨a, ha, hav⟩
  · rintro ⟨a, ha, hav⟩
    obtain ⟨v', hv', hav'⟩ := hnamed.exists_getLast? ha
    rw [hv', hR hav' hav]

/-- The search for a name in a map of values under their own names. -/
lemma find?_map_snd {g : ν → κ} {m : List (κ × ν)} (h : ∀ e ∈ m, g e.2 = e.1) (k : κ) :
    (m.map Prod.snd).find? (fun v => g v = k) = m.lookup k := by
  induction m with
  | nil => rfl
  | cons e m ih =>
    rw [List.forall_mem_cons] at h
    rw [List.map_cons, List.find?_cons, lookup_cons, ih h.2, h.1]
    by_cases hk : e.1 = k
    · simp [hk]
    · simp [hk, Ne.symm hk]

lemma mem_of_mem_ofList {l : List (κ × ν)} {p : κ × ν} (h : p ∈ ofList l) : p ∈ l :=
  mem_of_lookup_ofList ((lookup_eq_some_iff (nodup_keys_ofList l)).2 h)

lemma subperm_ofList (l : List (κ × ν)) : (ofList l).Subperm l :=
  List.subperm_of_subset (List.Nodup.of_map _ (nodup_keys_ofList l)) fun _ hp =>
    mem_of_mem_ofList hp

end Insert

/-! ### Sorting by the key -/

section Sorting

variable {cmp : κ → κ → Ordering}

/-- Sort by the key; pairs whose keys are equal keep their order. -/
def sortByKey (cmp : κ → κ → Ordering) (m : List (κ × ν)) : List (κ × ν) :=
  m.insertionSort fun p q => (cmp p.1 q.1).isLE

lemma perm_sortByKey (cmp : κ → κ → Ordering) (m : List (κ × ν)) : (sortByKey cmp m).Perm m :=
  List.perm_insertionSort _ m

@[simp] lemma mem_sortByKey {m : List (κ × ν)} {p : κ × ν} : p ∈ sortByKey cmp m ↔ p ∈ m :=
  (perm_sortByKey cmp m).mem_iff

@[simp] lemma length_sortByKey (m : List (κ × ν)) : (sortByKey cmp m).length = m.length :=
  (perm_sortByKey cmp m).length_eq

lemma perm_keys_sortByKey (cmp : κ → κ → Ordering) (m : List (κ × ν)) :
    (keys (sortByKey cmp m)).Perm (keys m) :=
  (perm_sortByKey cmp m).map Prod.fst

/-- Sorting does not look at the values. -/
lemma sortByKey_mapValues (f : ν → μ) (m : List (κ × ν)) :
    sortByKey cmp (mapValues f m) = mapValues f (sortByKey cmp m) := by
  simp only [sortByKey, mapValues]
  exact (List.map_insertionSort (fun p q : κ × ν => (cmp p.1 q.1).isLE)
    (fun p q : κ × μ => (cmp p.1 q.1).isLE) _ m fun _ _ _ _ => Iff.rfl).symm

lemma sortByKey_eq_self {m : List (κ × ν)} (h : (keys m).Pairwise fun a b => (cmp a b).isLE) :
    sortByKey cmp m = m :=
  List.Pairwise.insertionSort_eq (List.pairwise_map.1 h)

private lemma forall₂_insertByKey {R : ν → μ → Prop} {p : κ × ν} {q : κ × μ}
    (hpq : p.1 = q.1 ∧ R p.2 q.2) {m : List (κ × ν)} {m' : List (κ × μ)}
    (h : List.Forall₂ (fun p q => p.1 = q.1 ∧ R p.2 q.2) m m') :
    List.Forall₂ (fun p q => p.1 = q.1 ∧ R p.2 q.2)
      (m.orderedInsert (fun p q => (cmp p.1 q.1).isLE) p)
      (m'.orderedInsert (fun p q => (cmp p.1 q.1).isLE) q) := by
  induction h with
  | nil => exact .cons hpq .nil
  | @cons p' q' m m' hpq' htail ih =>
    rw [List.orderedInsert_cons, List.orderedInsert_cons, ← hpq.1, ← hpq'.1]
    split
    · exact .cons hpq (.cons hpq' htail)
    · exact .cons hpq' ih

variable (cmp) in
/-- Sorting keeps two maps with the same keys in the same places related. -/
lemma forall₂_sortByKey {R : ν → μ → Prop} {m : List (κ × ν)} {m' : List (κ × μ)}
    (h : List.Forall₂ (fun p q => p.1 = q.1 ∧ R p.2 q.2) m m') :
    List.Forall₂ (fun p q => p.1 = q.1 ∧ R p.2 q.2) (sortByKey cmp m) (sortByKey cmp m') := by
  induction h with
  | nil => exact .nil
  | cons hpq _ ih => exact forall₂_insertByKey hpq ih

variable [Std.TransCmp cmp]

variable (cmp) in
lemma pairwise_keys_sortByKey (m : List (κ × ν)) :
    (keys (sortByKey cmp m)).Pairwise fun a b => (cmp a b).isLE := by
  have : Std.Total fun p q : κ × ν => (cmp p.1 q.1).isLE := ⟨fun p q => by
    have hswap : cmp q.1 p.1 = (cmp p.1 q.1).swap := Std.OrientedCmp.eq_swap
    rw [hswap]
    cases cmp p.1 q.1 <;> simp⟩
  have : IsTrans (κ × ν) fun p q => (cmp p.1 q.1).isLE :=
    ⟨fun _ _ _ => Std.TransCmp.isLE_trans⟩
  exact List.pairwise_map.2 (List.pairwise_insertionSort _ m)

/-- Two maps with the same keys have them in the same places once they are sorted. -/
lemma keys_sortByKey_congr [Std.LawfulEqCmp cmp] {m : List (κ × ν)} {m' : List (κ × μ)}
    (h : (keys m).Perm (keys m')) : keys (sortByKey cmp m) = keys (sortByKey cmp m') := by
  refine List.Perm.eq_of_pairwise (fun a b _ _ hab hba => ?_) (pairwise_keys_sortByKey cmp m)
    (pairwise_keys_sortByKey cmp m') ?_
  · exact Std.LawfulEqCmp.eq_of_compare (Std.OrientedCmp.isLE_antisymm hab hba)
  · exact (perm_keys_sortByKey cmp m).trans (h.trans (perm_keys_sortByKey cmp m').symm)

variable (cmp) in
/-- Two maps are related entry by entry after sorting exactly when they have as many entries
and every key of the first one has a related value in the second. -/
lemma forall₂_sortByKey_iff [Std.LawfulEqCmp cmp] [DecidableEq κ] {R : ν → μ → Prop}
    {m : List (κ × ν)} {m' : List (κ × μ)} (hm : (keys m).Nodup) (hm' : (keys m').Nodup) :
    List.Forall₂ (fun p q => p.1 = q.1 ∧ R p.2 q.2) (sortByKey cmp m) (sortByKey cmp m') ↔
      m.length = m'.length ∧ ∀ p ∈ m, ∃ w, m'.lookup p.1 = some w ∧ R p.2 w := by
  constructor
  · intro h
    refine ⟨by simpa using h.length_eq, fun p hp => ?_⟩
    obtain ⟨q, hq, hkey, hR⟩ := h.exists_right (mem_sortByKey.2 hp)
    refine ⟨q.2, (lookup_eq_some_iff hm').2 ?_, hR⟩
    rw [hkey]
    exact mem_sortByKey.1 hq
  · rintro ⟨hlen, h⟩
    have hperm : (keys m).Perm (keys m') :=
      perm_keys_of_lookups hm hlen fun p hp => (h p hp).imp fun _ h => h.1
    refine List.forall₂_of_map_eq (keys_sortByKey_congr hperm) fun p hp q hq hkey => ⟨hkey, ?_⟩
    obtain ⟨w, hw, hR⟩ := h p (mem_sortByKey.1 hp)
    have hq' : m'.lookup p.1 = some q.2 :=
      (lookup_eq_some_iff hm').2 (hkey ▸ mem_sortByKey.1 hq)
    rw [hw, Option.some.injEq] at hq'
    exact hq' ▸ hR

end Sorting

/-! ### Maps with sorted keys -/

section Sorted

variable {cmp : κ → κ → Ordering}

/-- Keep the last one of adjacent pairs with equal keys. -/
def dedupKeys (cmp : κ → κ → Ordering) : List (κ × ν) → List (κ × ν)
  | [] => []
  | [p] => [p]
  | p :: q :: m =>
    if cmp p.1 q.1 = .eq then dedupKeys cmp (q :: m) else p :: dedupKeys cmp (q :: m)

/-- Collect a sequence of pairs into a map with sorted keys: sort by the key, keeping the order
of equal keys, and let the last of these win. -/
def ofListSorted (cmp : κ → κ → Ordering) (l : List (κ × ν)) : List (κ × ν) :=
  dedupKeys cmp (sortByKey cmp l)

lemma dedupKeys_sublist (cmp : κ → κ → Ordering) :
    ∀ m : List (κ × ν), (dedupKeys cmp m).Sublist m
  | [] => .slnil
  | [p] => .refl _
  | p :: q :: m => by
    have ih := dedupKeys_sublist cmp (q :: m)
    by_cases h : cmp p.1 q.1 = .eq
    · simpa [dedupKeys, h] using ih.cons p
    · simpa [dedupKeys, h] using ih.cons_cons p

lemma dedupKeys_eq_self : ∀ {m : List (κ × ν)},
    (keys m).Pairwise (fun a b => cmp a b ≠ .eq) → dedupKeys cmp m = m
  | [], _ => rfl
  | [_], _ => rfl
  | p :: q :: m, h => by
    simp only [keys, List.map_cons, List.pairwise_cons] at h
    have hpq : cmp p.1 q.1 ≠ .eq := h.1 q.1 List.mem_cons_self
    rw [dedupKeys, if_neg hpq, dedupKeys_eq_self (by simpa [keys] using h.2)]

/-- The entries of a collected map are among those of the sequence. -/
lemma subperm_ofListSorted (cmp : κ → κ → Ordering) (l : List (κ × ν)) :
    (ofListSorted cmp l).Subperm l :=
  (dedupKeys_sublist cmp _).subperm.trans (perm_sortByKey cmp l).subperm

/-- Collecting pairs in strictly ascending order changes nothing. -/
lemma ofListSorted_eq_self {l : List (κ × ν)}
    (hlt : (keys l).Pairwise fun a b => cmp a b = .lt) : ofListSorted cmp l = l := by
  rw [ofListSorted, sortByKey_eq_self (hlt.imp fun h => by simp [h])]
  exact dedupKeys_eq_self (hlt.imp fun h => by simp [h])

/-- Collecting pairs whose keys are all different keeps them all. -/
lemma perm_ofListSorted [Std.OrientedCmp cmp] {l : List (κ × ν)}
    (h : (keys l).Pairwise fun a b => cmp a b ≠ .eq) : (ofListSorted cmp l).Perm l := by
  have hsorted : (keys (sortByKey cmp l)).Pairwise fun a b => cmp a b ≠ .eq :=
    (perm_keys_sortByKey cmp l).symm.pairwise h fun hab hba => hab (Std.OrientedCmp.eq_symm hba)
  rw [ofListSorted, dedupKeys_eq_self hsorted]
  exact perm_sortByKey cmp l

/-- Keeping the last of equal keys leaves strictly ascending keys. -/
lemma pairwise_keys_dedupKeys [Std.TransCmp cmp] : ∀ {m : List (κ × ν)},
    (keys m).Pairwise (fun a b => (cmp a b).isLE) →
      (keys (dedupKeys cmp m)).Pairwise fun a b => cmp a b = .lt
  | [], _ => .nil
  | [_], _ => List.pairwise_singleton _ _
  | p :: q :: m, h => by
    simp only [keys, List.map_cons, List.pairwise_cons, List.mem_cons, forall_eq_or_imp] at h
    obtain ⟨⟨hpq, -⟩, hq, hm⟩ := h
    have ih := pairwise_keys_dedupKeys (m := q :: m) (List.pairwise_cons.2 ⟨hq, hm⟩)
    by_cases heq : cmp p.1 q.1 = .eq
    · rwa [dedupKeys, if_pos heq]
    have hlt : cmp p.1 q.1 = .lt := by cases hcmp : cmp p.1 q.1 <;> simp_all
    rw [dedupKeys, if_neg heq]
    refine List.pairwise_cons.2 ⟨fun k hk => ?_, ih⟩
    obtain rfl | hk := List.mem_cons.1 (((dedupKeys_sublist cmp _).map _).subset hk)
    · exact hlt
    · exact Std.TransCmp.lt_of_lt_of_isLE hlt (hq k hk)

/-- The keys of a collected map are strictly ascending. -/
lemma pairwise_keys_ofListSorted [Std.TransCmp cmp] (l : List (κ × ν)) :
    (keys (ofListSorted cmp l)).Pairwise fun a b => cmp a b = .lt :=
  pairwise_keys_dedupKeys (pairwise_keys_sortByKey cmp l)

/-- A map with sorted keys is determined by its entries. -/
lemma eq_of_perm_of_pairwise_lt [Std.OrientedCmp cmp] {m m' : List (κ × ν)} (h : m.Perm m')
    (hm : (keys m).Pairwise fun a b => cmp a b = .lt)
    (hm' : (keys m').Pairwise fun a b => cmp a b = .lt) : m = m' :=
  h.eq_of_pairwise (fun a b _ _ hab hba => by
      have hswap : cmp b.1 a.1 = (cmp a.1 b.1).swap := Std.OrientedCmp.eq_swap
      rw [hab, hba] at hswap
      exact absurd hswap (by simp))
    (List.pairwise_map.1 hm) (List.pairwise_map.1 hm')

/-- Collecting the entries of a map in any order gives the map back. -/
lemma ofListSorted_of_perm [Std.TransCmp cmp] {l m : List (κ × ν)} (h : l.Perm m)
    (hm : (keys m).Pairwise fun a b => cmp a b = .lt) : ofListSorted cmp l = m := by
  have hne : (keys l).Pairwise fun a b => cmp a b ≠ .eq :=
    (h.symm.map Prod.fst).pairwise (hm.imp fun hlt => by simp [hlt])
      fun hab hba => hab (Std.OrientedCmp.eq_symm hba)
  exact eq_of_perm_of_pairwise_lt ((perm_ofListSorted hne).trans h)
    (pairwise_keys_ofListSorted l) hm

end Sorted

end AssocMap
