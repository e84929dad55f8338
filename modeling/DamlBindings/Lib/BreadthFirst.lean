import Mathlib.Data.List.Dedup
import DamlBindings.Lib.Worklist

/-!
# Breadth-first search

A search that keeps the nodes it has visited and a queue of nodes to look at.  A node may be in
the queue more than once, and what follows a node is computed, which may fail.  Where only
finitely many nodes have successors the search ends, and if it does not fail it has visited what
can be reached from the nodes it started with.
-/

namespace BreadthFirst

open Worklist (Reaches)

variable {ν ε : Type*} [DecidableEq ν]

/-- The loop, for a number of turns: `none` is a loop that is still running. -/
def loop (next : ν → Except ε (List ν)) : Nat → List ν → List ν → Option (Except ε (List ν))
  | _, visited, [] => some (.ok visited)
  | 0, _, _ :: _ => none
  | turns + 1, visited, n :: queue =>
    if n ∈ visited then
      loop next turns visited queue
    else
      match next n with
      | .error e => some (.error e)
      | .ok ms => loop next turns (n :: visited) (queue ++ ms.filter (· ∉ n :: visited))

/-- The successors of a node, as far as they can be computed. -/
def successors (next : ν → Except ε (List ν)) (n : ν) : List ν :=
  match next n with
  | .ok ms => ms
  | .error _ => []

omit [DecidableEq ν] in
lemma successors_of_ok {next : ν → Except ε (List ν)} {n : ν} {ms : List ν} (h : next n = .ok ms) :
    successors next n = ms := by
  rw [successors, h]

section Turns

variable {next : ν → Except ε (List ν)} {turns : Nat} {n : ν} {visited queue : List ν}

@[simp] lemma loop_nil : loop next turns visited [] = some (.ok visited) := by
  cases turns <;> rfl

lemma loop_of_mem (h : n ∈ visited) :
    loop next (turns + 1) visited (n :: queue) = loop next turns visited queue :=
  if_pos h

lemma loop_of_error (h : n ∉ visited) {e : ε} (he : next n = .error e) :
    loop next (turns + 1) visited (n :: queue) = some (.error e) := by
  rw [loop, if_neg h, he]

lemma loop_of_ok (h : n ∉ visited) {ms : List ν} (hms : next n = .ok ms) :
    loop next (turns + 1) visited (n :: queue) =
      loop next turns (n :: visited) (queue ++ ms.filter (· ∉ n :: visited)) := by
  rw [loop, if_neg h, hms]

end Turns

/-- A search that succeeds has computed the successors of everything it has visited. -/
lemma exists_next_of_loop {next : ν → Except ε (List ν)} {turns : Nat}
    {visited queue visited' : List ν} (h : loop next turns visited queue = some (.ok visited'))
    (hvisited : ∀ n ∈ visited, ∃ ms, next n = .ok ms) : ∀ n ∈ visited', ∃ ms, next n = .ok ms := by
  induction turns generalizing visited queue with
  | zero =>
    cases queue with
    | nil =>
      rw [loop_nil] at h
      cases h
      exact hvisited
    | cons n queue => cases h
  | succ turns ih =>
    cases queue with
    | nil =>
      rw [loop_nil] at h
      cases h
      exact hvisited
    | cons n queue =>
      by_cases hmem : n ∈ visited
      · rw [loop_of_mem hmem] at h
        exact ih h hvisited
      · rcases hnext : next n with e | ms
        · rw [loop_of_error hmem hnext] at h
          cases h
        · rw [loop_of_ok hmem hnext] at h
          exact ih h (List.forall_mem_cons.2 ⟨⟨ms, hnext⟩, hvisited⟩)

/-! ### The search ends -/

section Termination

/-- Only the listed nodes have successors. -/
def HasInner (next : ν → Except ε (List ν)) (inner : List ν) : Prop :=
  ∀ n, n ∉ inner → next n = .ok []

/-- The listed nodes that are still to be visited. -/
def unvisited (inner visited : List ν) : List ν := inner.filter (· ∉ visited)

lemma unvisited_cons (inner visited : List ν) (n : ν) :
    unvisited inner (n :: visited) = (unvisited inner visited).filter (· ≠ n) := by
  unfold unvisited
  rw [List.filter_filter]
  refine List.filter_congr fun m _ => ?_
  simp [not_or]

lemma length_unvisited_cons_lt {inner visited : List ν} {n : ν} (hn : n ∈ inner)
    (h : n ∉ visited) :
    (unvisited inner (n :: visited)).length < (unvisited inner visited).length := by
  rw [unvisited_cons]
  have hmem : n ∈ unvisited inner visited := List.mem_filter.2 ⟨hn, by simpa using h⟩
  exact List.length_filter_lt_length_iff_exists.2 ⟨n, hmem, by simp⟩

variable {next : ν → Except ε (List ν)} {inner : List ν}

/-- Each turn either visits a listed node for the first time or takes a node off the queue and
puts none on it. -/
theorem terminates (hinner : HasInner next inner) (visited queue : List ν) :
    ∃ turns, loop next turns visited queue ≠ none := by
  generalize hfresh : (unvisited inner visited).length = fresh
  induction fresh using Nat.strong_induction_on generalizing visited queue with | _ fresh ih => ?_
  induction queue generalizing visited with
  | nil => exact ⟨0, by simp⟩
  | cons n queue ihqueue =>
    by_cases hmem : n ∈ visited
    · obtain ⟨turns, hturns⟩ := ihqueue visited hfresh
      exact ⟨turns + 1, by rwa [loop_of_mem hmem]⟩
    · rcases hnext : next n with e | ms
      · exact ⟨1, by simp [loop_of_error hmem hnext]⟩
      by_cases hn : n ∈ inner
      · obtain ⟨turns, hturns⟩ := ih _ (hfresh ▸ length_unvisited_cons_lt hn hmem) (n :: visited)
          (queue ++ ms.filter (· ∉ n :: visited)) rfl
        exact ⟨turns + 1, by rwa [loop_of_ok hmem hnext]⟩
      · obtain rfl : [] = ms := Except.ok.inj ((hinner n hn).symm.trans hnext)
        have hsame : unvisited inner (n :: visited) = unvisited inner visited := by
          rw [unvisited_cons, List.filter_eq_self]
          intro m hm
          rw [decide_eq_true_eq]
          rintro rfl
          exact hn (List.mem_filter.1 hm).1
        obtain ⟨turns, hturns⟩ := ihqueue (n :: visited) (by rw [hsame, hfresh])
        refine ⟨turns + 1, ?_⟩
        rw [loop_of_ok hmem hnext, List.filter_nil, List.append_nil]
        exact hturns

end Termination

/-! ### What it has visited -/

section Closure

variable {next : ν → Except ε (List ν)} {roots visited queue : List ν}

/-- The invariant of the loop of a search from `roots`. -/
structure Invariant (next : ν → Except ε (List ν)) (roots visited queue : List ν) : Prop where
  nodup : visited.Nodup
  started : ∀ n ∈ roots, n ∈ visited ∨ n ∈ queue
  reached : ∀ n, n ∈ visited ∨ n ∈ queue → ∃ root ∈ roots, Reaches (successors next) root n
  closed : ∀ n ∈ visited, ∀ m ∈ successors next n, m ∈ visited ∨ m ∈ queue

omit [DecidableEq ν] in
lemma Invariant.init (next : ν → Except ε (List ν)) (roots : List ν) :
    Invariant next roots [] roots where
  nodup := .nil
  started := fun _ hn => .inr hn
  reached := by
    rintro n (hn | hn)
    · cases hn
    · exact ⟨n, hn, .refl⟩
  closed := fun _ hn => by cases hn

omit [DecidableEq ν] in
lemma Invariant.skip {n : ν} (h : Invariant next roots visited (n :: queue)) (hn : n ∈ visited) :
    Invariant next roots visited queue := by
  have hmem : ∀ m, m ∈ visited ∨ m ∈ n :: queue → m ∈ visited ∨ m ∈ queue := by
    rintro m (hm | hm)
    · exact .inl hm
    · rcases List.mem_cons.1 hm with rfl | hm
      · exact .inl hn
      · exact .inr hm
  exact ⟨h.nodup, fun m hm => hmem m (h.started m hm),
    fun m hm => h.reached m (hm.imp_right (List.mem_cons_of_mem n)),
    fun m hm m' hm' => hmem m' (h.closed m hm m' hm')⟩

lemma Invariant.visit {n : ν} {ms : List ν} (h : Invariant next roots visited (n :: queue))
    (hn : n ∉ visited) (hms : next n = .ok ms) :
    Invariant next roots (n :: visited) (queue ++ ms.filter (· ∉ n :: visited)) := by
  -- nothing leaves the nodes that are visited or wait
  have hmem : ∀ m, m ∈ visited ∨ m ∈ n :: queue →
      m ∈ n :: visited ∨ m ∈ queue ++ ms.filter (· ∉ n :: visited) := by
    rintro m (hm | hm)
    · exact .inl (List.mem_cons_of_mem n hm)
    · rcases List.mem_cons.1 hm with rfl | hm
      · exact .inl List.mem_cons_self
      · exact .inr (List.mem_append_left _ hm)
  obtain ⟨root, hroot, hreach⟩ := h.reached n (.inr List.mem_cons_self)
  refine ⟨List.nodup_cons.2 ⟨hn, h.nodup⟩, fun m hm => hmem m (h.started m hm), ?_, ?_⟩
  · rintro m (hm | hm)
    · rcases List.mem_cons.1 hm with rfl | hm
      · exact ⟨root, hroot, hreach⟩
      · exact h.reached m (.inl hm)
    · rcases List.mem_append.1 hm with hm | hm
      · exact h.reached m (.inr (List.mem_cons_of_mem n hm))
      · refine ⟨root, hroot, hreach.tail ?_⟩
        rw [successors_of_ok hms]
        exact (List.mem_filter.1 hm).1
  · intro m hm m' hm'
    rcases List.mem_cons.1 hm with rfl | hm
    · rw [successors_of_ok hms] at hm'
      -- a successor that is not queued has been visited or is the node itself
      by_cases hseen : m' ∈ m :: visited
      · exact .inl hseen
      · exact .inr (List.mem_append_right _ (List.mem_filter.2 ⟨hm', by simpa using hseen⟩))
    · exact hmem m' (h.closed m hm m' hm')

/-- A search that ends has kept the invariant, or it has reached a node whose successors cannot
be computed. -/
theorem Invariant.loop {turns : Nat} {result : Except ε (List ν)}
    (h : Invariant next roots visited queue)
    (hloop : BreadthFirst.loop next turns visited queue = some result) :
    (∃ visited', result = .ok visited' ∧ Invariant next roots visited' []) ∨
      ∃ n e, result = .error e ∧ next n = .error e ∧
        ∃ root ∈ roots, Reaches (successors next) root n := by
  induction turns generalizing visited queue with
  | zero =>
    cases queue with
    | nil =>
      rw [loop_nil, Option.some.injEq] at hloop
      exact .inl ⟨visited, hloop.symm, h⟩
    | cons n queue => cases hloop
  | succ turns ih =>
    cases queue with
    | nil =>
      rw [loop_nil, Option.some.injEq] at hloop
      exact .inl ⟨visited, hloop.symm, h⟩
    | cons n queue =>
      by_cases hmem : n ∈ visited
      · rw [loop_of_mem hmem] at hloop
        exact ih (h.skip hmem) hloop
      · rcases hnext : next n with e | ms
        · rw [loop_of_error hmem hnext, Option.some.injEq] at hloop
          exact .inr ⟨n, e, hloop.symm, hnext, h.reached n (.inr List.mem_cons_self)⟩
        · rw [loop_of_ok hmem hnext] at hloop
          exact ih (h.visit hmem hnext) hloop

omit [DecidableEq ν] in
/-- The nodes visited at the end are those that can be reached. -/
theorem Invariant.mem_iff (h : Invariant next roots visited []) (n : ν) :
    n ∈ visited ↔ ∃ root ∈ roots, Reaches (successors next) root n := by
  have hnil : ∀ m, m ∈ visited ∨ m ∈ ([] : List ν) → m ∈ visited := fun m hm =>
    hm.resolve_right (List.not_mem_nil)
  constructor
  · intro hn
    exact h.reached n (.inl hn)
  · rintro ⟨root, hroot, hreach⟩
    induction hreach with
    | refl => exact hnil root (h.started root hroot)
    | tail _ hm ih => exact hnil _ (h.closed _ ih _ hm)

end Closure

end BreadthFirst
