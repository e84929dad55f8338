import Mathlib.Data.List.Forall2
import Mathlib.Tactic.Lemma

/-!
# Comparators that may fail to compare

A derived or hand-written partial order of a program is a function into `Option Ordering`.
This file has the combinators such functions are assembled from (chaining, options, lists)
and the notion `OrdersAt S cmp a`: as seen from the element `a`, and among the elements of
`S`, the comparator `cmp` always answers, is antisymmetric and is transitive.  The notion is
stated *at one element* so that the laws of a comparator on a recursive data type can be
proved by induction on that element: the closure lemmas below only ask for the laws at the
components of `a`.
-/

namespace PartialCmp

variable {α β γ κ : Type*}

/-- Run the second comparison when the first one answers `Equal`. -/
def andThen : Option Ordering → Option Ordering → Option Ordering
  | some .eq, r => r
  | r, _ => r

@[simp] lemma andThen_eq (r : Option Ordering) : andThen (some .eq) r = r := rfl
@[simp] lemma andThen_lt (r : Option Ordering) : andThen (some .lt) r = some .lt := rfl
@[simp] lemma andThen_gt (r : Option Ordering) : andThen (some .gt) r = some .gt := rfl
@[simp] lemma andThen_none (r : Option Ordering) : andThen none r = none := rfl

lemma andThen_of_ne_eq {o : Ordering} (h : o ≠ .eq) (r : Option Ordering) :
    andThen (some o) r = some o := by
  cases o <;> simp_all

lemma andThen_eq_some_eq {x y : Option Ordering} :
    andThen x y = some .eq ↔ x = some .eq ∧ y = some .eq := by
  rcases x with _ | _ | _ | _ <;> simp

/-- The comparison of two options: `none` comes first. -/
def option (cmp : α → β → Option Ordering) : Option α → Option β → Option Ordering
  | none, none => some .eq
  | none, some _ => some .lt
  | some _, none => some .gt
  | some a, some b => cmp a b

/-- The lexicographic comparison of two lists; a proper prefix comes first. -/
def list (cmp : α → β → Option Ordering) : List α → List β → Option Ordering
  | [], [] => some .eq
  | [], _ :: _ => some .lt
  | _ :: _, [] => some .gt
  | a :: as, b :: bs => andThen (cmp a b) (list cmp as bs)

/-- The comparison of two pairs, component by component. -/
def pair (cmp₁ : α → γ → Option Ordering) (cmp₂ : β → κ → Option Ordering)
    (p : α × β) (q : γ × κ) : Option Ordering :=
  andThen (cmp₁ p.1 q.1) (cmp₂ p.2 q.2)

/-- An order that always answers. -/
def ofOrd [Ord α] (a b : α) : Option Ordering := some (compare a b)

/-! ### The laws at one element -/

/-- As seen from `a` and among the elements of `S`, `cmp` always answers, swaps with its
arguments and is transitive. -/
structure OrdersAt (S : α → Prop) (cmp : α → α → Option Ordering) (a : α) : Prop where
  total : ∀ b, S b → (cmp a b).isSome
  swap : ∀ b, S b → cmp b a = (cmp a b).map Ordering.swap
  trans : ∀ {b c o₁ o₂}, S b → S c → cmp a b = some o₁ → cmp b c = some o₂ →
    o₁.isLE → o₂.isLE → cmp a c = some (o₁.then o₂)

/-- The laws at `a` among all elements. -/
abbrev Orders (cmp : α → α → Option Ordering) (a : α) : Prop := OrdersAt (fun _ => True) cmp a

lemma OrdersAt.mono {S S' : α → Prop} {cmp : α → α → Option Ordering} {a : α}
    (h : OrdersAt S cmp a) (hS : ∀ b, S' b → S b) : OrdersAt S' cmp a where
  total b hb := h.total b (hS b hb)
  swap b hb := h.swap b (hS b hb)
  trans hb hc := h.trans (hS _ hb) (hS _ hc)

lemma orders_ofOrd [Ord α] [Std.TransOrd α] (a : α) : Orders ofOrd a where
  total _ _ := rfl
  swap b _ := by simp [ofOrd, Std.OrientedOrd.eq_swap (a := b) (b := a)]
  trans {b c o₁ o₂} _ _ h₁ h₂ hle₁ hle₂ := by
    simp only [ofOrd, Option.some.injEq] at h₁ h₂ ⊢
    subst h₁ h₂
    rcases hab : compare a b with _ | _ | _
    · exact Std.TransCmp.lt_of_lt_of_isLE hab hle₂
    · exact Std.TransCmp.congr_left hab
    · simp [hab] at hle₁

/-- The chain of two comparators, each on its own projection. -/
lemma OrdersAt.andThen {S : α → Prop} {f : α → β} {g : α → γ}
    {cmp₁ : β → β → Option Ordering} {cmp₂ : γ → γ → Option Ordering} {a : α}
    (h₁ : Orders cmp₁ (f a)) (h₂ : Orders cmp₂ (g a)) :
    OrdersAt S (fun x y => PartialCmp.andThen (cmp₁ (f x) (f y)) (cmp₂ (g x) (g y))) a where
  total b _ := by
    obtain ⟨o, ho⟩ := Option.isSome_iff_exists.1 (h₁.total (f b) trivial)
    cases o <;> simp [ho, h₂.total (g b) trivial]
  swap b _ := by
    obtain ⟨o, ho⟩ := Option.isSome_iff_exists.1 (h₁.total (f b) trivial)
    cases o <;> simp [ho, h₁.swap (f b) trivial, h₂.swap (g b) trivial]
  trans {b c o₁ o₂} _ _ hab hbc hle₁ hle₂ := by
    -- the first comparator decides unless it answers `Equal` on both legs
    rcases hx : cmp₁ (f a) (f b) with _ | _ | _ | _ <;> simp only [hx, andThen_none,
      andThen_lt, andThen_eq, andThen_gt, reduceCtorEq, Option.some.injEq] at hab
    · subst hab
      rcases hy : cmp₁ (f b) (f c) with _ | _ | _ | _ <;> simp only [hy, andThen_none,
        andThen_lt, andThen_eq, andThen_gt, reduceCtorEq, Option.some.injEq] at hbc
      · rw [h₁.trans trivial trivial hx hy rfl rfl]; rfl
      · rw [h₁.trans trivial trivial hx hy rfl rfl]; rfl
      · subst hbc; simp at hle₂
    · rcases hy : cmp₁ (f b) (f c) with _ | _ | _ | _ <;> simp only [hy, andThen_none,
        andThen_lt, andThen_eq, andThen_gt, reduceCtorEq, Option.some.injEq] at hbc
      · subst hbc
        rw [h₁.trans trivial trivial hx hy rfl rfl]
        cases o₁ <;> simp_all
      · rw [h₁.trans trivial trivial hx hy rfl rfl]
        exact h₂.trans trivial trivial hab hbc hle₁ hle₂
      · subst hbc; simp at hle₂
    · subst hab; simp at hle₁

lemma orders_pair {cmp₁ : α → α → Option Ordering} {cmp₂ : β → β → Option Ordering}
    {p : α × β} (h₁ : Orders cmp₁ p.1) (h₂ : Orders cmp₂ p.2) : Orders (pair cmp₁ cmp₂) p :=
  OrdersAt.andThen (f := Prod.fst) (g := Prod.snd) h₁ h₂

lemma orders_option {cmp : α → α → Option Ordering} :
    ∀ {o : Option α}, (∀ a ∈ o, Orders cmp a) → Orders (option cmp) o
  | none, _ =>
    { total := by rintro (_ | b) - <;> rfl
      swap := by rintro (_ | b) - <;> rfl
      trans := by
        rintro (_ | b) (_ | c) o₁ o₂ - - h₁ h₂ - hle₂ <;>
          simp only [option, Option.some.injEq] at h₁ h₂ ⊢ <;>
          subst h₁ <;> cases o₂ <;> simp_all }
  | some a, h =>
    { total := by
        rintro (_ | b) -
        · rfl
        · exact (h a rfl).total b trivial
      swap := by
        rintro (_ | b) -
        · rfl
        · exact (h a rfl).swap b trivial
      trans := by
        rintro (_ | b) (_ | c) o₁ o₂ - - h₁ h₂ hle₁ hle₂
        · simp only [option, Option.some.injEq] at h₁; subst h₁; simp at hle₁
        · simp only [option, Option.some.injEq] at h₁; subst h₁; simp at hle₁
        · simp only [option, Option.some.injEq] at h₂; subst h₂; simp at hle₂
        · exact (h a rfl).trans trivial trivial h₁ h₂ hle₁ hle₂ }

lemma orders_list {cmp : α → α → Option Ordering} :
    ∀ {as : List α}, (∀ a ∈ as, Orders cmp a) → Orders (list cmp) as
  | [], _ =>
    { total := by rintro (_ | ⟨b, bs⟩) - <;> rfl
      swap := by rintro (_ | ⟨b, bs⟩) - <;> rfl
      trans := by
        rintro (_ | ⟨b, bs⟩) (_ | ⟨c, cs⟩) o₁ o₂ - - h₁ h₂ - hle₂ <;>
          simp only [list, Option.some.injEq] at h₁ h₂ ⊢ <;>
          subst h₁ <;> cases o₂ <;> simp_all }
  | a :: as, h => by
    have hhead : Orders cmp a := h a List.mem_cons_self
    have htail : Orders (list cmp) as := orders_list fun b hb => h b (List.mem_cons_of_mem _ hb)
    -- on two nonempty lists the comparison is the chain of the heads and the tails
    have hcons : Orders (fun p q : α × List α =>
        PartialCmp.andThen (cmp p.1 q.1) (list cmp p.2 q.2)) (a, as) :=
      OrdersAt.andThen (f := Prod.fst) (g := Prod.snd) hhead htail
    refine ⟨?_, ?_, ?_⟩
    · rintro (_ | ⟨b, bs⟩) -
      · rfl
      · exact hcons.total (b, bs) trivial
    · rintro (_ | ⟨b, bs⟩) -
      · rfl
      · exact hcons.swap (b, bs) trivial
    · rintro (_ | ⟨b, bs⟩) (_ | ⟨c, cs⟩) o₁ o₂ - - h₁ h₂ hle₁ hle₂
      · simp only [list, Option.some.injEq] at h₁; subst h₁; simp at hle₁
      · simp only [list, Option.some.injEq] at h₁; subst h₁; simp at hle₁
      · simp only [list, Option.some.injEq] at h₂; subst h₂; simp at hle₂
      · exact hcons.trans (b := (b, bs)) (c := (c, cs)) trivial trivial h₁ h₂ hle₁ hle₂

/-- Compare by a projection. -/
lemma OrdersAt.comap {f : α → β} {cmp : β → β → Option Ordering} {a : α}
    (h : Orders cmp (f a)) : Orders (fun x y => cmp (f x) (f y)) a where
  total b _ := h.total (f b) trivial
  swap b _ := h.swap (f b) trivial
  trans _ _ := h.trans trivial trivial

/-- Restrict the laws of a comparator along an injection: `cmp` orders the values `f b` as
`cmp'` orders the `b`. -/
lemma OrdersAt.map {f : β → α} {cmp : α → α → Option Ordering}
    {cmp' : β → β → Option Ordering} (hf : ∀ x y, cmp (f x) (f y) = cmp' x y) {b : β}
    (h : Orders cmp' b) : OrdersAt (fun a => ∃ x, f x = a) cmp (f b) where
  total := by
    rintro _ ⟨x, rfl⟩
    rw [hf]
    exact h.total x trivial
  swap := by
    rintro _ ⟨x, rfl⟩
    rw [hf, hf]
    exact h.swap x trivial
  trans := by
    rintro _ _ o₁ o₂ ⟨x, rfl⟩ ⟨y, rfl⟩ h₁ h₂ hle₁ hle₂
    rw [hf] at h₁ h₂ ⊢
    exact h.trans trivial trivial h₁ h₂ hle₁ hle₂

/-- A comparator that looks at a key first: where the keys differ they decide, and among the
elements with the key of `a` the laws are known. -/
lemma OrdersAt.ofKey [Ord κ] [Std.TransOrd κ] [Std.LawfulEqOrd κ] (key : α → κ)
    {cmp : α → α → Option Ordering}
    (hne : ∀ x y, key x ≠ key y → cmp x y = some (compare (key x) (key y))) {a : α}
    (h : OrdersAt (fun b => key b = key a) cmp a) : Orders cmp a where
  total b _ := by
    by_cases hb : key b = key a
    · exact h.total b hb
    · simp [hne a b (Ne.symm hb)]
  swap b _ := by
    by_cases hb : key b = key a
    · exact h.swap b hb
    · simp [hne a b (Ne.symm hb), hne b a hb, Std.OrientedOrd.eq_swap (a := key b)]
  trans {b c o₁ o₂} _ _ h₁ h₂ hle₁ hle₂ := by
    have hkey : ∀ {x y o}, cmp x y = some o → o.isLE → key x ≠ key y →
        compare (key x) (key y) = .lt ∧ o = .lt := by
      intro x y o hxy hle hk
      rw [hne x y hk, Option.some.injEq] at hxy
      subst hxy
      have hne' : compare (key x) (key y) ≠ .eq := fun he => hk (Std.LawfulEqOrd.eq_of_compare he)
      cases hc : compare (key x) (key y) <;> simp_all
    by_cases hb : key b = key a
    · by_cases hc : key c = key a
      · exact h.trans hb hc h₁ h₂ hle₁ hle₂
      · obtain ⟨hlt, rfl⟩ := hkey h₂ hle₂ (fun he => hc (he.symm.trans hb))
        rw [hne a c (Ne.symm hc), ← hb, hlt]
        cases o₁ <;> simp_all
    · obtain ⟨hlt, rfl⟩ := hkey h₁ hle₁ (Ne.symm hb)
      have hlt' : compare (key a) (key c) = .lt := by
        by_cases hbc : key b = key c
        · rwa [← hbc]
        · exact Std.TransCmp.lt_trans hlt (hkey h₂ hle₂ hbc).1
      have hac : key a ≠ key c := fun he => by
        rw [he, Std.ReflOrd.compare_self] at hlt'
        exact absurd hlt' (by simp)
      rw [hne a c hac, hlt']
      rfl

/-! ### When the answer is `Equal` -/

lemma option_eq_some_eq {cmp : α → β → Option Ordering} {o : Option α} {p : Option β} :
    option cmp o p = some .eq ↔ Option.Rel (fun a b => cmp a b = some .eq) o p := by
  cases o <;> cases p <;> simp [option]

lemma list_eq_some_eq {cmp : α → β → Option Ordering} {as : List α} {bs : List β} :
    list cmp as bs = some .eq ↔ List.Forall₂ (fun a b => cmp a b = some .eq) as bs := by
  induction as generalizing bs with
  | nil => cases bs <;> simp [list]
  | cons a as ih => cases bs <;> simp [list, andThen_eq_some_eq, ih]

end PartialCmp
