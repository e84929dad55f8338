import Mathlib.Algebra.Order.BigOperators.Group.List
import Mathlib.Algebra.Order.Group.Nat
import Mathlib.Algebra.Ring.Nat
import Mathlib.Data.List.Flatten
import Mathlib.Data.List.Forall2
import Mathlib.Data.List.Perm.Basic
import Mathlib.Data.List.Perm.Subperm
import Mathlib.Tactic.Lemma

/-!
# Lists related element by element

What `List.Forall₂` says about the members of the two lists, and how a relation between the
members is changed.
-/

namespace List

variable {α β γ : Type*} {R S : α → β → Prop}

lemma Forall₂.exists_right {as : List α} {bs : List β} (h : Forall₂ R as bs) {a : α}
    (ha : a ∈ as) : ∃ b ∈ bs, R a b := by
  induction h with
  | nil => simp at ha
  | cons hab _ ih =>
    rcases mem_cons.1 ha with rfl | ha
    · exact ⟨_, mem_cons_self, hab⟩
    · obtain ⟨b, hb, hR⟩ := ih ha
      exact ⟨b, mem_cons_of_mem _ hb, hR⟩

lemma Forall₂.exists_left {as : List α} {bs : List β} (h : Forall₂ R as bs) {b : β}
    (hb : b ∈ bs) : ∃ a ∈ as, R a b := by
  induction h with
  | nil => simp at hb
  | cons hab _ ih =>
    rcases mem_cons.1 hb with rfl | hb
    · exact ⟨_, mem_cons_self, hab⟩
    · obtain ⟨a, ha, hR⟩ := ih hb
      exact ⟨a, mem_cons_of_mem _ ha, hR⟩

/-- Two relations that hold side by side hold together. -/
lemma Forall₂.and {as : List α} {bs : List β} (h : Forall₂ R as bs) (h' : Forall₂ S as bs) :
    Forall₂ (fun a b => R a b ∧ S a b) as bs := by
  induction h with
  | nil => exact .nil
  | cons hab _ ih =>
    rcases h' with _ | ⟨hab', h'⟩
    exact .cons ⟨hab, hab'⟩ (ih h')

lemma Forall₂.any_eq {f : α → Bool} {g : β → Bool} {as : List α} {bs : List β}
    (h : Forall₂ R as bs) (hfg : ∀ a b, R a b → f a = g b) : as.any f = bs.any g := by
  induction h with
  | nil => rfl
  | cons hab _ ih => rw [any_cons, any_cons, hfg _ _ hab, ih]

/-- The first elements with related properties are related. -/
lemma Forall₂.any_find? {f u : α → Bool} {g v : β → Bool} {as : List α} {bs : List β}
    (h : Forall₂ R as bs) (hfg : ∀ a b, R a b → f a = g b) (huv : ∀ a b, R a b → u a = v b) :
    (as.find? f).any u = (bs.find? g).any v := by
  induction h with
  | nil => rfl
  | @cons a b _ _ hab _ ih =>
    rw [find?_cons, find?_cons, hfg _ _ hab]
    cases g b with
    | true => exact huv _ _ hab
    | false => exact ih

lemma Forall₂.flatMap_eq {f : α → List γ} {g : β → List γ} {as : List α} {bs : List β}
    (h : Forall₂ R as bs) (hfg : ∀ a b, R a b → f a = g b) : as.flatMap f = bs.flatMap g := by
  induction h with
  | nil => rfl
  | cons hab _ ih => rw [flatMap_cons, flatMap_cons, hfg _ _ hab, ih]

lemma Forall₂.map_eq {f : α → γ} {g : β → γ} {as : List α} {bs : List β}
    (h : Forall₂ (fun a b => f a = g b) as bs) : as.map f = bs.map g := by
  induction h with
  | nil => rfl
  | cons hab _ ih => rw [map_cons, map_cons, hab, ih]

/-- The elements that a function has a value at, and their values. -/
lemma forall₂_filter_filterMap {f : α → Option β} {p : α → Bool} {as : List α}
    (hp : ∀ a ∈ as, p a = (f a).isSome) (h : ∀ a ∈ as, ∀ b, f a = some b → R a b) :
    Forall₂ R (as.filter p) (as.filterMap f) := by
  induction as with
  | nil => exact .nil
  | cons a as ih =>
    have ih := ih (fun a' ha' => hp a' (List.mem_cons_of_mem a ha'))
      fun a' ha' => h a' (List.mem_cons_of_mem a ha')
    have hpa := hp a List.mem_cons_self
    rcases hf : f a with - | b
    · rw [hf] at hpa
      rwa [List.filter_cons_of_neg (by simp [hpa]), List.filterMap_cons_none hf]
    · rw [hf] at hpa
      rw [List.filter_cons_of_pos (by simp [hpa]), List.filterMap_cons_some hf]
      exact .cons (h a List.mem_cons_self b hf) ih

lemma Forall₂.imp_of_mem {as : List α} {bs : List β} (h : Forall₂ R as bs)
    (hRS : ∀ a ∈ as, ∀ b ∈ bs, R a b → S a b) : Forall₂ S as bs := by
  induction h with
  | nil => exact .nil
  | cons hab _ ih =>
    exact .cons (hRS _ mem_cons_self _ mem_cons_self hab)
      (ih fun a ha b hb => hRS a (mem_cons_of_mem _ ha) b (mem_cons_of_mem _ hb))

lemma Forall₂.rel_of_mem_zip {as : List α} {bs : List β} (h : Forall₂ R as bs) {p : α × β}
    (hp : p ∈ as.zip bs) : p.1 ∈ as ∧ p.2 ∈ bs ∧ R p.1 p.2 := by
  obtain ⟨a, b⟩ := p
  obtain ⟨ha, hb⟩ := of_mem_zip hp
  exact ⟨ha, hb, (forall₂_iff_zip.1 h).2 hp⟩

lemma forall₂_of_zip {as : List α} {bs : List β} (hlen : as.length = bs.length)
    (h : ∀ p ∈ as.zip bs, R p.1 p.2) : Forall₂ R as bs :=
  forall₂_iff_zip.2 ⟨hlen, fun hp => h _ hp⟩

lemma forall₂_congr_of_mem {as : List α} {bs : List β}
    (h : ∀ a ∈ as, ∀ b ∈ bs, R a b ↔ S a b) : Forall₂ R as bs ↔ Forall₂ S as bs :=
  ⟨fun hR => hR.imp_of_mem fun a ha b hb => (h a ha b hb).1,
    fun hS => hS.imp_of_mem fun a ha b hb => (h a ha b hb).2⟩

/-- Two lists whose members agree on a key in every place are related as soon as members with
the same key are. -/
lemma forall₂_of_map_eq {κ : Type*} {f : α → κ} {g : β → κ} {as : List α} {bs : List β}
    (hmap : as.map f = bs.map g) (h : ∀ a ∈ as, ∀ b ∈ bs, f a = g b → R a b) :
    Forall₂ R as bs := by
  have hkeys : Forall₂ (· = ·) (as.map f) (bs.map g) := by rw [forall₂_eq_eq_eq, hmap]
  exact (forall₂_map_left_iff.1 (forall₂_map_right_iff.1 hkeys)).imp_of_mem h

lemma exists_forall₂ {as : List α} (h : ∀ a ∈ as, ∃ b, R a b) : ∃ bs, Forall₂ R as bs := by
  induction as with
  | nil => exact ⟨[], .nil⟩
  | cons a as ih =>
    obtain ⟨b, hb⟩ := h a mem_cons_self
    obtain ⟨bs, hbs⟩ := ih fun a ha => h a (mem_cons_of_mem _ ha)
    exact ⟨b :: bs, .cons hb hbs⟩

lemma exists_forall₂_iff {as : List α} :
    (∃ bs, Forall₂ R as bs) ↔ ∀ a ∈ as, ∃ b, R a b :=
  ⟨fun ⟨_, h⟩ _ ha => (h.exists_right ha).imp fun _ hb => hb.2, exists_forall₂⟩

lemma exists_forall₂_and_iff {as : List α} :
    (∃ bs, Forall₂ R as bs ∧ Forall₂ S as bs) ↔ ∀ a ∈ as, ∃ b, R a b ∧ S a b := by
  rw [← exists_forall₂_iff]
  constructor
  · rintro ⟨bs, hR, hS⟩
    exact ⟨bs, hR.and hS⟩
  · rintro ⟨bs, h⟩
    exact ⟨bs, h.imp fun _ _ h => h.1, h.imp fun _ _ h => h.2⟩

lemma Forall₂.pairwise {S : α → α → Prop} {S' : β → β → Prop} {as : List α} {bs : List β}
    (h : Forall₂ R as bs) (hS : as.Pairwise S)
    (hRS : ∀ a a' b b', R a b → R a' b' → S a a' → S' b b') : bs.Pairwise S' := by
  induction h with
  | nil => exact .nil
  | cons hab hrest ih =>
    rw [pairwise_cons] at hS
    refine pairwise_cons.2 ⟨fun b' hb' => ?_, ih hS.2⟩
    obtain ⟨a', ha', hR⟩ := hrest.exists_left hb'
    exact hRS _ _ _ _ hab hR (hS.1 a' ha')

/-- Two lists whose images are related are related themselves. -/
lemma Forall₂.zigzag {δ : Type*} {S : γ → δ → Prop} {E : β → δ → Prop} {E' : α → γ → Prop}
    {as : List α} {bs : List β} {cs : List γ} {ds : List δ} (hab : Forall₂ R as bs)
    (hcd : Forall₂ S cs ds) (hbd : Forall₂ E bs ds)
    (h : ∀ a ∈ as, ∀ c ∈ cs, ∀ b d, R a b → S c d → E b d → E' a c) : Forall₂ E' as cs := by
  induction hab generalizing cs ds with
  | nil =>
    cases hbd
    cases hcd
    exact .nil
  | cons hR hab ih =>
    obtain _ | ⟨hE, hbd⟩ := hbd
    obtain _ | ⟨hS, hcd⟩ := hcd
    exact .cons (h _ mem_cons_self _ mem_cons_self _ _ hR hS hE)
      (ih hcd hbd fun a ha c hc => h a (mem_cons_of_mem _ ha) c (mem_cons_of_mem _ hc))

lemma Forall₂.trans_of_mem {S : β → γ → Prop} {T : α → γ → Prop} {as : List α} {bs : List β}
    {cs : List γ} (hab : Forall₂ R as bs) (hbc : Forall₂ S bs cs)
    (h : ∀ a ∈ as, ∀ b c, R a b → S b c → T a c) : Forall₂ T as cs := by
  induction hab generalizing cs with
  | nil =>
    cases hbc
    exact .nil
  | cons hR _ ih =>
    obtain _ | ⟨hS, hbc⟩ := hbc
    exact .cons (h _ mem_cons_self _ _ hR hS) (ih hbc fun a ha => h a (mem_cons_of_mem _ ha))

lemma exists_forall₂_trans_iff {S : β → γ → Prop} {as : List α} {cs : List γ} :
    (∃ bs, Forall₂ R as bs ∧ Forall₂ S bs cs) ↔
      Forall₂ (fun a c => ∃ b, R a b ∧ S b c) as cs := by
  constructor
  · rintro ⟨bs, hab, hbc⟩
    exact hab.trans_of_mem hbc fun _ _ b _ hb hc => ⟨b, hb, hc⟩
  · intro h
    induction h with
    | nil => exact ⟨[], .nil, .nil⟩
    | cons hac _ ih =>
      obtain ⟨b, hab, hbc⟩ := hac
      obtain ⟨bs, habs, hbcs⟩ := ih
      exact ⟨b :: bs, .cons hab habs, .cons hbc hbcs⟩

/-- Where every step of one list to the next can be answered, the whole list can. -/
lemma Forall₂.exists_answer {δ : Type*} {S : β → γ → Prop} {C : γ → δ → Prop} {E : α → δ → Prop}
    {as : List α} {bs : List β} {cs : List γ} (hab : Forall₂ R as bs) (hbc : Forall₂ S bs cs)
    (h : ∀ a ∈ as, ∀ b, ∀ c ∈ cs, R a b → S b c → ∃ d, C c d ∧ E a d) :
    ∃ ds, Forall₂ C cs ds ∧ Forall₂ E as ds := by
  induction hab generalizing cs with
  | nil =>
    cases hbc
    exact ⟨[], .nil, .nil⟩
  | @cons a b as bs hab _ ih =>
    obtain _ | @⟨_, c, _, cs, hbc, hbcs⟩ := hbc
    obtain ⟨d, hcd, had⟩ := h a mem_cons_self b c mem_cons_self hab hbc
    obtain ⟨ds, hcds, hads⟩ := ih hbcs fun a ha b c hc =>
      h a (mem_cons_of_mem _ ha) b c (mem_cons_of_mem _ hc)
    exact ⟨d :: ds, .cons hcd hcds, .cons had hads⟩

/-- The last elements are related. -/
lemma Forall₂.exists_getLast? {as : List α} {bs : List β} (h : Forall₂ R as bs) {a : α}
    (ha : as.getLast? = some a) : ∃ b, bs.getLast? = some b ∧ R a b := by
  obtain ⟨as', rfl⟩ := getLast?_eq_some_iff.1 ha
  rw [← forall₂_reverse_iff, reverse_append] at h
  obtain ⟨b, bs', hab, -, hbs⟩ := forall₂_cons_left_iff.1 h
  refine ⟨b, ?_, hab⟩
  rw [getLast?_eq_head?_reverse, hbs, head?_cons]

/-- A list related to one with a marked element has a marked element in the same place. -/
lemma Forall₂.exists_append_cons {as as' : List α} {a : α} {bs : List β}
    (h : Forall₂ R (as ++ a :: as') bs) :
    ∃ cs b cs', bs = cs ++ b :: cs' ∧ Forall₂ R as cs ∧ R a b ∧ Forall₂ R as' cs' := by
  induction as generalizing bs with
  | nil =>
    obtain ⟨b, cs', hab, hrest, rfl⟩ := forall₂_cons_left_iff.1 h
    exact ⟨[], b, cs', rfl, .nil, hab, hrest⟩
  | cons c as ih =>
    obtain ⟨d, ds, hcd, hrest, rfl⟩ := forall₂_cons_left_iff.1 h
    obtain ⟨cs, b, cs', rfl, has, hab, has'⟩ := ih hrest
    exact ⟨d :: cs, b, cs', rfl, .cons hcd has, hab, has'⟩

lemma Forall₂.exists_perm_left {as : List α} {bs bs' : List β} (h : Forall₂ R as bs)
    (hp : bs.Perm bs') : ∃ as', as.Perm as' ∧ Forall₂ R as' bs' := by
  have hcomp : Relation.Comp (Forall₂ R) Perm as bs' := ⟨bs, h, hp⟩
  rwa [forall₂_comp_perm_eq_perm_comp_forall₂] at hcomp

lemma Forall₂.exists_perm_right {as as' : List α} {bs : List β} (hp : as'.Perm as)
    (h : Forall₂ R as bs) : ∃ bs', Forall₂ R as' bs' ∧ bs'.Perm bs :=
  perm_comp_forall₂ hp h

lemma Forall₂.flatMap {δ : Type*} {f : γ → List α} {g : δ → List β} {cs : List γ} {ds : List δ}
    (h : Forall₂ (fun c d => Forall₂ R (f c) (g d)) cs ds) :
    Forall₂ R (cs.flatMap f) (ds.flatMap g) := by
  induction h with
  | nil => exact .nil
  | cons hcd _ ih => exact rel_append hcd ih

/-- What follows after two parts of the same length is related too. -/
lemma Forall₂.of_append {as as' : List α} {bs bs' : List β} (h : Forall₂ R (as ++ as') (bs ++ bs'))
    (hlen : as.length = bs.length) : Forall₂ R as bs ∧ Forall₂ R as' bs' := by
  induction as generalizing bs with
  | nil =>
    cases List.length_eq_zero_iff.1 hlen.symm
    exact ⟨.nil, h⟩
  | cons a as ih =>
    rcases bs with _ | ⟨b, bs⟩
    · cases hlen
    · obtain _ | ⟨hab, hrest⟩ := h
      obtain ⟨has, hrest⟩ := ih hrest (Nat.succ.inj hlen)
      exact ⟨.cons hab has, hrest⟩

/-- Lists put together from related parts of the same lengths. -/
lemma forall₂_of_flatMap {f : γ → List α} {g : γ → List β} {xs : List γ}
    (hlen : ∀ x ∈ xs, (f x).length = (g x).length) (h : Forall₂ R (xs.flatMap f) (xs.flatMap g)) :
    ∀ x ∈ xs, Forall₂ R (f x) (g x) := by
  induction xs with
  | nil => exact forall_mem_nil _
  | cons x xs ih =>
    rw [flatMap_cons, flatMap_cons] at h
    rw [forall_mem_cons] at hlen ⊢
    obtain ⟨hx, hxs⟩ := h.of_append hlen.1
    exact ⟨hx, ih hlen.2 hxs⟩

/-- Two different members of a list can be put at its head. -/
lemma exists_perm_pair {as : List α} {a b : α} (ha : a ∈ as) (hb : b ∈ as) (hne : a ≠ b) :
    ∃ rest, as.Perm (a :: b :: rest) := by
  obtain ⟨l, r, rfl⟩ := append_of_mem ha
  have hb' : b ∈ l ++ r := by
    rw [mem_append, mem_cons] at hb
    rw [mem_append]
    tauto
  obtain ⟨l', r', hlr⟩ := append_of_mem hb'
  refine ⟨l' ++ r', perm_middle.trans (.cons a ?_)⟩
  rw [hlr]
  exact perm_middle

/-! ### Sums of sizes -/

/-- Where no member grows the sum does not grow; where the sum keeps, every member keeps. -/
lemma Forall₂.sum_le {f : α → ℕ} {g : β → ℕ} {P : α → Prop} {as : List α} {bs : List β}
    (h : Forall₂ (fun a b => g b ≤ f a ∧ (g b = f a → P a)) as bs) :
    (bs.map g).sum ≤ (as.map f).sum ∧ ((bs.map g).sum = (as.map f).sum → ∀ a ∈ as, P a) := by
  induction h with
  | nil => simp
  | cons hab _ ih =>
    simp only [map_cons, sum_cons, forall_mem_cons]
    refine ⟨by omega, fun he => ⟨hab.2 (by omega), ih.2 (by omega)⟩⟩

/-- A list takes the place of one that it is related to. -/
lemma Forall₂.congr_left {S : β → γ → Prop} {T : α → γ → Prop} {as : List α} {bs : List β}
    (h : Forall₂ R as bs) (hST : ∀ a b, R a b → ∀ c, S b c ↔ T a c) {cs : List γ} :
    Forall₂ S bs cs ↔ Forall₂ T as cs := by
  induction h generalizing cs with
  | nil => rw [forall₂_nil_left_iff, forall₂_nil_left_iff]
  | cons hab _ ih =>
    cases cs with
    | nil => simp
    | cons c cs => rw [forall₂_cons, forall₂_cons, hST _ _ hab, ih]

lemma Forall₂.sum_eq {f : α → ℕ} {g : β → ℕ} {as : List α} {bs : List β}
    (h : Forall₂ (fun a b => f a = g b) as bs) : (as.map f).sum = (bs.map g).sum := by
  induction h with
  | nil => rfl
  | cons hab _ ih => simp [hab, ih]

lemma sum_map_flatMap (f : β → ℕ) (g : α → List β) (as : List α) :
    ((as.flatMap g).map f).sum = (as.map fun a => ((g a).map f).sum).sum := by
  induction as with
  | nil => rfl
  | cons a as ih => simp [ih]

lemma Subperm.sum_map_le (f : α → ℕ) {as bs : List α} (h : as.Subperm bs) :
    (as.map f).sum ≤ (bs.map f).sum := by
  obtain ⟨cs, hperm, hsub⟩ := h
  rw [← (hperm.map f).sum_eq]
  exact (hsub.map f).sum_le_sum fun _ _ => Nat.zero_le _

/-! ### What is collected from a part of a list -/

lemma Subperm.flatMap {as bs : List α} (h : as.Subperm bs) (f : α → List β) :
    (as.flatMap f).Subperm (bs.flatMap f) := by
  obtain ⟨cs, hperm, hsub⟩ := h
  exact ⟨cs.flatMap f, hperm.flatMap_right f, hsub.flatMap f⟩

lemma Forall₂.subperm_flatMap {f : α → List γ} {g : β → List γ} {as : List α} {bs : List β}
    (h : Forall₂ (fun a b => (g b).Subperm (f a)) as bs) :
    (bs.flatMap g).Subperm (as.flatMap f) := by
  induction h with
  | nil => exact nil_subperm
  | cons hab _ ih =>
    rw [flatMap_cons, flatMap_cons]
    exact hab.append ih

lemma Forall₂.perm_flatMap {f : α → List γ} {g : β → List γ} {as : List α} {bs : List β}
    (h : Forall₂ (fun a b => (g b).Perm (f a)) as bs) : (bs.flatMap g).Perm (as.flatMap f) := by
  induction h with
  | nil => exact .nil
  | cons hab _ ih =>
    rw [flatMap_cons, flatMap_cons]
    exact hab.append ih

end List
