import Mathlib.Logic.Relation
import DamlBindings.Lib.Result

/-!
# Walks with a stack of nodes that are still to be visited

A walk takes a node from the top of the stack, checks it, and puts its successors on the stack.
Where the successors of a node are smaller than the node, it ends, and it succeeds if and only
if the check succeeds at every node that can be reached.
-/

namespace Worklist

variable {ν ε : Type*}

/-- `m` is among the successors of `n`, the successors of these, and so on, or `n` itself. -/
abbrev Reaches (next : ν → List ν) : ν → ν → Prop := Relation.ReflTransGen fun n m => m ∈ next n

/-- The successors of a node are smaller than the node, all together. -/
def Shrinks (next : ν → List ν) : Prop :=
  ∃ size : ν → Nat, ∀ n, ((next n).map size).sum < size n

/-- There is no endless descent along the successors. -/
lemma Shrinks.wellFounded {next : ν → List ν} (h : Shrinks next) :
    WellFounded fun m n => m ∈ next n := by
  obtain ⟨size, hsize⟩ := h
  refine Subrelation.wf (fun {m n} hm => ?_) (measure size).wf
  exact Nat.lt_of_le_of_lt (List.le_sum_of_mem (List.mem_map_of_mem hm)) (hsize n)

lemma reaches_iff {next : ν → List ν} {n m : ν} :
    Reaches next n m ↔ m = n ∨ ∃ c ∈ next n, Reaches next c m :=
  Relation.ReflTransGen.cases_head_iff.trans (or_congr_left eq_comm)

lemma forall_reaches_iff {next : ν → List ν} {P : ν → Prop} {n : ν} :
    (∀ m, Reaches next n m → P m) ↔ P n ∧ ∀ c ∈ next n, ∀ m, Reaches next c m → P m := by
  constructor
  · intro h
    exact ⟨h n .refl, fun c hc m hm => h m (reaches_iff.2 (.inr ⟨c, hc, hm⟩))⟩
  · rintro ⟨hn, hnext⟩ m hm
    obtain rfl | ⟨c, hc, hm⟩ := reaches_iff.1 hm
    · exact hn
    · exact hnext c hc m hm

/-- The walk; the head of the list is the top of the stack. -/
def walk (next : ν → List ν) (hnext : Shrinks next) (check : ν → Except ε Unit) :
    List ν → Except ε Unit
  | [] => .ok ()
  | n :: stack => do
    check n
    walk next hnext check ((next n).reverse ++ stack)
termination_by stack => (stack.map hnext.choose).sum
decreasing_by
  have hlt := hnext.choose_spec n
  simp only [List.map_append, List.map_reverse, List.sum_append, List.sum_reverse, List.map_cons,
    List.sum_cons]
  omega

theorem walk_eq_ok {next : ν → List ν} (hnext : Shrinks next) {check : ν → Except ε Unit}
    {stack : List ν} :
    walk next hnext check stack = .ok () ↔
      ∀ n ∈ stack, ∀ m, Reaches next n m → check m = .ok () := by
  induction stack using walk.induct next hnext with
  | case1 => simp [walk]
  | case2 n stack ih =>
    rw [walk, Except.check_bind_eq_ok, List.forall_mem_cons, forall_reaches_iff, and_assoc]
    have hstack : (∀ c ∈ (next n).reverse ++ stack, ∀ m, Reaches next c m → check m = .ok ()) ↔
        (∀ c ∈ next n, ∀ m, Reaches next c m → check m = .ok ()) ∧
          ∀ c ∈ stack, ∀ m, Reaches next c m → check m = .ok () := by
      simp only [List.forall_mem_append, List.mem_reverse]
    rw [ih, hstack]

/-! ### The walk, turn by turn -/

/-- The loop of a walk, for a number of turns: `none` is a loop that is still running. -/
def loop (next : ν → List ν) (check : ν → Except ε Unit) :
    Nat → List ν → Option (Except ε Unit)
  | _, [] => some (.ok ())
  | 0, _ :: _ => none
  | turns + 1, n :: stack =>
    match check n with
    | .error e => some (.error e)
    | .ok () => loop next check turns ((next n).reverse ++ stack)

section Turns

variable {next : ν → List ν} {check : ν → Except ε Unit} {turns : Nat} {n : ν} {stack : List ν}

@[simp] lemma loop_nil : loop next check turns [] = some (.ok ()) := by
  cases turns <;> rfl

lemma loop_of_error {e : ε} (h : check n = .error e) :
    loop next check (turns + 1) (n :: stack) = some (.error e) := by
  rw [loop, h]

lemma loop_of_ok (h : check n = .ok ()) :
    loop next check (turns + 1) (n :: stack) =
      loop next check turns ((next n).reverse ++ stack) := by
  rw [loop, h]

/-- A loop that has ended has the result of the walk. -/
theorem eq_walk_of_loop (hnext : Shrinks next) {result : Except ε Unit}
    (h : loop next check turns stack = some result) : result = walk next hnext check stack := by
  induction turns generalizing stack with
  | zero =>
    cases stack with
    | nil =>
      cases h
      rw [walk]
    | cons n stack => cases h
  | succ turns ih =>
    cases stack with
    | nil =>
      cases h
      rw [walk]
    | cons n stack =>
      rw [walk]
      rcases hcheck : check n with e | ⟨⟩
      · rw [loop_of_error hcheck] at h
        cases h
        rfl
      · rw [loop_of_ok hcheck] at h
        exact ih h

/-- The loop ends within as many turns as the nodes on the stack have size. -/
theorem loop_ne_none {size : ν → Nat} (hsize : ∀ n, ((next n).map size).sum < size n)
    (hturns : (stack.map size).sum ≤ turns) : loop next check turns stack ≠ none := by
  induction turns generalizing stack with
  | zero =>
    cases stack with
    | nil => simp
    | cons n stack =>
      have hlt := hsize n
      rw [List.map_cons, List.sum_cons] at hturns
      omega
  | succ turns ih =>
    cases stack with
    | nil => simp
    | cons n stack =>
      rcases hcheck : check n with e | ⟨⟩
      · simp [loop_of_error hcheck]
      · rw [loop_of_ok hcheck]
        -- the node goes off the stack, and what comes on is smaller, all together
        refine ih ?_
        have hlt := hsize n
        rw [List.map_cons, List.sum_cons] at hturns
        rw [List.map_append, List.sum_append, List.map_reverse, List.sum_reverse]
        omega

end Turns

end Worklist
