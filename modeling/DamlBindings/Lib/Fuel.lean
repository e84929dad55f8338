import DamlBindings.Lib.Result

/-!
# Recursion on fuel

A recursive computation that need not terminate is written as a function of the fuel it may
burn.  It stops because the fuel ran out, because it failed with an error, or with a result, and
what it does with enough fuel does not depend on the fuel.
-/

/-- Why a computation stopped without a result. -/
inductive Stop (ε : Type*) where
  | outOfFuel
  | err (e : ε)
deriving DecidableEq, Repr

/-- A computation that may run out of fuel. -/
abbrev Run (ε α : Type*) := Except (Stop ε) α

namespace Run

universe u v

variable {ε : Type u} {α β : Type v} {γ : Type*}

/-- A computation that needs no fuel. -/
def lift : Except ε α → Run ε α
  | .ok a => .ok a
  | .error e => .error (.err e)

@[simp] lemma lift_ok (a : α) : lift (.ok a : Except ε α) = .ok a := rfl

@[simp] lemma lift_error (e : ε) : lift (.error e : Except ε α) = .error (.err e) := rfl

@[simp] lemma lift_eq_ok {x : Except ε α} {a : α} : lift x = .ok a ↔ x = .ok a := by
  cases x <;> simp [lift]

@[simp] lemma lift_ne_outOfFuel (x : Except ε α) : lift x ≠ .error .outOfFuel := by
  cases x <;> simp [lift]

lemma exists_lift {x : Run ε α} (h : x ≠ .error .outOfFuel) : ∃ r, x = lift r := by
  match x with
  | .error .outOfFuel => exact absurd rfl h
  | .error (.err e) => exact ⟨.error e, rfl⟩
  | .ok a => exact ⟨.ok a, rfl⟩

/-! ### More fuel -/

/-- `y` does what `x` does, unless `x` ran out of fuel. -/
def Refines (x y : Run ε α) : Prop := x = .error .outOfFuel ∨ x = y

namespace Refines

variable {x y z : Run ε α}

@[refl] lemma refl (x : Run ε α) : Refines x x := .inr rfl

lemma outOfFuel (x : Run ε α) : Refines (.error .outOfFuel) x := .inl rfl

lemma trans (h : Refines x y) (h' : Refines y z) : Refines x z := by
  rcases h with rfl | rfl
  · exact .outOfFuel z
  · exact h'

lemma eq_of_ne (h : Refines x y) (hx : x ≠ .error .outOfFuel) : y = x :=
  (h.resolve_left hx).symm

lemma eq_ok (h : Refines x y) {a : α} (hx : x = .ok a) : y = .ok a :=
  (h.eq_of_ne (by simp [hx])).trans hx

lemma bind {x y : Run ε α} {f g : α → Run ε β} (h : Refines x y)
    (hf : ∀ a, Refines (f a) (g a)) : Refines (x >>= f) (y >>= g) := by
  rcases h with rfl | rfl
  · exact .outOfFuel _
  · match x with
    | .error s => exact .refl _
    | .ok a => exact hf a

lemma map {x y : Run ε α} (f : α → β) (h : Refines x y) : Refines (f <$> x) (f <$> y) := by
  rcases h with rfl | rfl
  · exact .outOfFuel _
  · exact .refl _

lemma seq {x y : Run ε (α → β)} {a b : Run ε α} (h : Refines x y) (h' : Refines a b) :
    Refines (x <*> a) (y <*> b) := by
  rcases h with rfl | rfl
  · exact .outOfFuel _
  · match x with
    | .error s => exact .refl _
    | .ok f => exact h'.map f

lemma mapM {f g : γ → Run ε β} (as : List γ) (h : ∀ a ∈ as, Refines (f a) (g a)) :
    Refines (as.mapM f) (as.mapM g) := by
  induction as with
  | nil => exact .refl _
  | cons a as ih =>
    rw [List.mapM_cons, List.mapM_cons]
    rw [List.forall_mem_cons] at h
    exact h.1.bind fun _ => (ih h.2).bind fun _ => .refl _

end Refines

/-- A family of computations in which more fuel changes nothing but the running out of it. -/
def Monotone (f : Nat → Run ε α) : Prop := ∀ n, Refines (f n) (f (n + 1))

lemma Monotone.refines {f : Nat → Run ε α} (h : Monotone f) {m n : Nat} (hmn : m ≤ n) :
    Refines (f m) (f n) := by
  induction n, hmn using Nat.le_induction with
  | base => exact .refl _
  | succ n _ ih => exact ih.trans (h n)

/-- The computation returns `r`, with enough fuel. -/
def Returns (f : Nat → Run ε α) (r : Except ε α) : Prop := ∃ n, f n = lift r

/-- The computation stops, with enough fuel. -/
def Terminates (f : Nat → Run ε α) : Prop := ∃ n, f n ≠ .error .outOfFuel

end Run
