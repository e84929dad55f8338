import DamlBindings.Lib.BreadthFirst

/-!
# The layers of a breadth-first search

A breadth-first search visits the nodes in the order of the number of steps from the root.  If it
fails, then at a node to which no node whose successors cannot be computed is nearer to the root,
and any of these can be the one, by the order in which successors are listed.
-/

namespace BreadthFirst

variable {ν ε : Type*}

/-- `n` is reached from `root` in at most `d` steps. -/
inductive Within (r : ν → ν → Prop) (root : ν) : Nat → ν → Prop where
  | root {d : Nat} : Within r root d root
  | step {d : Nat} {n m : ν} (reached : Within r root d n) (next : r n m) : Within r root (d + 1) m

namespace Within

variable {r : ν → ν → Prop} {root n m : ν} {d d' : Nat}

lemma mono (h : Within r root d n) (hle : d ≤ d') : Within r root d' n := by
  induction h generalizing d' with
  | root => exact .root
  | step _ hnext ih =>
    obtain ⟨k, rfl⟩ : ∃ k, d' = k + 1 := ⟨d' - 1, by omega⟩
    exact (ih (by omega)).step hnext

lemma imp {r' : ν → ν → Prop} (h : Within r root d n) (hr : ∀ a b, r a b → r' a b) :
    Within r' root d n := by
  induction h with
  | root => exact .root
  | step _ hnext ih => exact ih.step (hr _ _ hnext)

/-- A path of `d` steps to a node that is not reached in fewer. -/
lemma exists_path (h : Within r root d n) (hmin : ∀ k < d, ¬ Within r root k n) :
    ∃ p : Nat → ν, p 0 = root ∧ p d = n ∧ ∀ k < d, r (p k) (p (k + 1)) := by
  induction h with
  | @root d =>
    obtain rfl : d = 0 := by
      by_contra hd
      exact hmin 0 (by omega) .root
    exact ⟨fun _ => root, rfl, rfl, fun k hk => absurd hk (by omega)⟩
  | @step d n m _ hnext ih =>
    obtain ⟨p, hp0, hpd, hp⟩ := ih fun k hk hn => hmin (k + 1) (by omega) (hn.step hnext)
    refine ⟨Function.update p (d + 1) m, ?_, ?_, fun k hk => ?_⟩
    · rw [Function.update_of_ne (by omega), hp0]
    · rw [Function.update_self]
    · rw [Function.update_of_ne (by omega)]
      rcases Nat.lt_succ_iff_lt_or_eq.1 hk with hlt | rfl
      · rw [Function.update_of_ne (by omega)]
        exact hp k hlt
      · rwa [Function.update_self, hpd]

lemma of_path {p : Nat → ν} (hp : ∀ k < d, r (p k) (p (k + 1))) : Within r (p 0) d (p d) := by
  induction d with
  | zero => exact .root
  | succ d ih => exact (ih fun k hk => hp k (by omega)).step (hp d (Nat.lt_succ_self d))

lemma along {p : Nat → ν} {j k : Nat} (h : Within r root j (p k)) (i : Nat)
    (hp : ∀ l, k ≤ l → l < k + i → r (p l) (p (l + 1))) : Within r root (j + i) (p (k + i)) := by
  induction i with
  | zero => exact h
  | succ i ih => exact (ih fun l hkl hl => hp l hkl (by omega)).step (hp _ (by omega) (by omega))

end Within

variable [DecidableEq ν] {next : ν → Except ε (List ν)} {root : ν}

/-! ### A failure is at a node that is nearest to the root -/

/-- One node follows the other as far as the successors can be computed. -/
def Follows (next : ν → Except ε (List ν)) (n m : ν) : Prop := m ∈ successors next n

/-- The queue holds what is left of the nodes at `d` steps, and then nodes at one more step. -/
structure Layers (next : ν → Except ε (List ν)) (root : ν) (d : Nat) (visited now later : List ν) :
    Prop where
  near : ∀ k < d, ∀ n, Within (Follows next) root k n → n ∈ visited
  here : ∀ n, Within (Follows next) root d n → n ∈ visited ∨ n ∈ now
  inNow : ∀ n ∈ now, Within (Follows next) root d n
  inLater : ∀ n ∈ later, Within (Follows next) root (d + 1) n
  closed : ∀ n ∈ visited, ∀ m, Follows next n m → m ∈ visited ∨ m ∈ now ∨ m ∈ later
  computed : ∀ n ∈ visited, ∃ ms, next n = .ok ms

namespace Layers

variable {d : Nat} {visited now later : List ν} {n : ν}

omit [DecidableEq ν] in
lemma init (next : ν → Except ε (List ν)) (root : ν) : Layers next root 0 [] [root] [] where
  near := fun k hk => absurd hk (Nat.not_lt_zero k)
  here := by
    rintro n ⟨⟩
    exact .inr (List.mem_singleton_self _)
  inNow := List.forall_mem_singleton.2 .root
  inLater := List.forall_mem_nil _
  closed := List.forall_mem_nil _
  computed := List.forall_mem_nil _

omit [DecidableEq ν] in
/-- Once a layer is done the next one begins. -/
lemma shift (h : Layers next root d visited [] later) :
    Layers next root (d + 1) visited later [] := by
  have hvisited : ∀ n, Within (Follows next) root d n → n ∈ visited := fun n hn =>
    (h.here n hn).resolve_right List.not_mem_nil
  refine ⟨fun k hk n hn => hvisited n (hn.mono (Nat.le_of_lt_succ hk)), ?_, h.inLater,
    List.forall_mem_nil _, fun n hn m hm => ?_, h.computed⟩
  · rintro n (_ | ⟨hn, hnext⟩)
    · exact .inl (hvisited _ .root)
    · simpa using h.closed _ (hvisited _ hn) _ hnext
  · simpa using h.closed n hn m hm

omit [DecidableEq ν] in
lemma skip (h : Layers next root d visited (n :: now) later) (hn : n ∈ visited) :
    Layers next root d visited now later := by
  refine ⟨h.near, fun m hm => ?_, (List.forall_mem_cons.1 h.inNow).2, h.inLater,
    fun m hm m' hm' => ?_, h.computed⟩
  · rcases h.here m hm with hm | hm
    · exact .inl hm
    · rcases List.mem_cons.1 hm with rfl | hm
      · exact .inl hn
      · exact .inr hm
  · rcases h.closed m hm m' hm' with hm' | hm' | hm'
    · exact .inl hm'
    · rcases List.mem_cons.1 hm' with rfl | hm'
      · exact .inl hn
      · exact .inr (.inl hm')
    · exact .inr (.inr hm')

lemma visit {ms : List ν} (h : Layers next root d visited (n :: now) later)
    (hms : next n = .ok ms) :
    Layers next root d (n :: visited) now (later ++ ms.filter (· ∉ n :: visited)) := by
  have hfollows : ∀ m, Follows next n m ↔ m ∈ ms := fun m => by
    rw [Follows, successors_of_ok hms]
  obtain ⟨hn, hnow⟩ := List.forall_mem_cons.1 h.inNow
  refine ⟨fun k hk m hm => List.mem_cons_of_mem n (h.near k hk m hm), fun m hm => ?_, hnow, ?_, ?_,
    List.forall_mem_cons.2 ⟨⟨ms, hms⟩, h.computed⟩⟩
  · rcases h.here m hm with hm | hm
    · exact .inl (List.mem_cons_of_mem n hm)
    · rcases List.mem_cons.1 hm with rfl | hm
      · exact .inl List.mem_cons_self
      · exact .inr hm
  · refine List.forall_mem_append.2 ⟨h.inLater, fun m hm => ?_⟩
    exact hn.step ((hfollows m).2 (List.mem_filter.1 hm).1)
  · intro m hm m' hm'
    rcases List.mem_cons.1 hm with rfl | hm
    · -- a successor is queued unless it has been visited
      by_cases hseen : m' ∈ m :: visited
      · exact .inl hseen
      · exact .inr (.inr (List.mem_append_right _
          (List.mem_filter.2 ⟨(hfollows m').1 hm', by simpa using hseen⟩)))
    · rcases h.closed m hm m' hm' with hm' | hm' | hm'
      · exact .inl (List.mem_cons_of_mem n hm')
      · rcases List.mem_cons.1 hm' with rfl | hm'
        · exact .inl List.mem_cons_self
        · exact .inr (.inl hm')
      · exact .inr (.inr (List.mem_append_left _ hm'))

omit [DecidableEq ν] in
/-- The node at the head of the queue is in the layer that the search is at. -/
lemma exists_head {queue : List ν} (h : Layers next root d visited now later)
    (hqueue : now ++ later = n :: queue) :
    ∃ d now later, queue = now ++ later ∧ Layers next root d visited (n :: now) later := by
  rcases now with _ | ⟨n', now⟩
  · obtain rfl : later = n :: queue := hqueue
    exact ⟨d + 1, queue, [], (List.append_nil queue).symm, h.shift⟩
  · cases hqueue
    exact ⟨d, now, later, rfl, h⟩

/-- Where the search fails, the successors of everything nearer to the root can be computed. -/
theorem nearest_of_loop {turns : Nat} {e : ε} {queue : List ν}
    (h : Layers next root d visited now later) (hqueue : queue = now ++ later)
    (hloop : loop next turns visited queue = some (.error e)) :
    ∃ d n, Within (Follows next) root d n ∧ next n = .error e ∧
      ∀ k < d, ∀ m, Within (Follows next) root k m → ∃ ms, next m = .ok ms := by
  induction turns generalizing d visited now later queue with
  | zero =>
    cases queue with
    | nil =>
      rw [loop_nil] at hloop
      cases hloop
    | cons n queue => cases hloop
  | succ turns ih =>
    cases queue with
    | nil =>
      rw [loop_nil] at hloop
      cases hloop
    | cons n queue =>
      obtain ⟨d, now, later, rfl, h⟩ := h.exists_head hqueue.symm
      by_cases hmem : n ∈ visited
      · rw [loop_of_mem hmem] at hloop
        exact ih (h.skip hmem) rfl hloop
      · rcases hnext : next n with e' | ms
        · rw [loop_of_error hmem hnext] at hloop
          cases hloop
          exact ⟨d, n, (List.forall_mem_cons.1 h.inNow).1, hnext, fun k hk m hm =>
            h.computed m (h.near k hk m hm)⟩
        · rw [loop_of_ok hmem hnext] at hloop
          exact ih (h.visit hnext) (List.append_assoc _ _ _) hloop

end Layers

/-! ### Any failure that is nearest to the root can be the one -/

/-- A shortest path to a node where the search fails, every node of which is listed as a successor
of the one before it with nodes of the path in front only; all nodes nearer to the root fail in
the same way if they fail. -/
structure Leads (next : ν → Except ε (List ν)) (r : ν → ν → Prop) (p : Nat → ν) (d : Nat) (e : ε) :
    Prop where
  sound : ∀ {n ms}, next n = .ok ms → ∀ m ∈ ms, r n m
  near : ∀ k < d, ∀ n e', Within r (p 0) k n → next n = .error e' → e' = e
  last : next (p d) = .error e
  first : ∀ k < d, ∀ ms, next (p k) = .ok ms →
    ∃ pre post, ms = pre ++ p (k + 1) :: post ∧ ∀ m ∈ pre, ∃ j ≤ k, p j = m
  path : ∀ k < d, r (p k) (p (k + 1))
  shortest : ∀ k ≤ d, ∀ j < k, ¬ Within r (p 0) j (p k)

namespace Leads

variable {r : ν → ν → Prop} {p : Nat → ν} {d : Nat} {e : ε}

omit [DecidableEq ν] in
lemma within (h : Leads next r p d e) {k : Nat} (hk : k ≤ d) : Within r (p 0) k (p k) :=
  .of_path fun l hl => h.path l (by omega)

/-- The node of the path at `k` steps waits in the queue, behind nodes that are nearer to the root
and in front of nodes that are at most as far from it. -/
structure Waits (r : ν → ν → Prop) (p : Nat → ν) (k : Nat) (visited before after : List ν) :
    Prop where
  visited : ∀ n ∈ visited, ∃ j < k, Within r (p 0) j n
  before : ∀ n ∈ before, ∃ j < k, Within r (p 0) j n
  after : ∀ n ∈ after, Within r (p 0) k n

omit [DecidableEq ν] in
lemma Waits.fresh (h : Leads next r p d e) {k : Nat} {visited before after : List ν} (hk : k ≤ d)
    (hw : Waits r p k visited before after) : p k ∉ visited := by
  intro hmem
  obtain ⟨j, hj, hwithin⟩ := hw.visited _ hmem
  exact h.shortest k hk j hj hwithin

omit [DecidableEq ν] in
lemma Waits.skip {k : Nat} {n : ν} {visited before after : List ν}
    (hw : Waits r p k visited (n :: before) after) : Waits r p k visited before after :=
  ⟨hw.visited, (List.forall_mem_cons.1 hw.before).2, hw.after⟩

lemma Waits.visit (h : Leads next r p d e) {k : Nat} {n : ν} {visited before after ms : List ν}
    (hw : Waits r p k visited (n :: before) after) (hms : next n = .ok ms) :
    Waits r p k (n :: visited) before (after ++ ms.filter (· ∉ n :: visited)) := by
  obtain ⟨⟨j, hj, hn⟩, hbefore⟩ := List.forall_mem_cons.1 hw.before
  refine ⟨List.forall_mem_cons.2 ⟨⟨j, hj, hn⟩, hw.visited⟩, hbefore, ?_⟩
  refine List.forall_mem_append.2 ⟨hw.after, fun m hm => ?_⟩
  exact (hn.step (h.sound hms m (List.mem_filter.1 hm).1)).mono hj

/-- Once the node of the path is at the head of the queue the next one waits. -/
lemma Waits.advance (h : Leads next r p d e) {k : Nat} {visited after ms : List ν} (hk : k < d)
    (hw : Waits r p k visited [] after) (hms : next (p k) = .ok ms) :
    ∃ before after', after ++ ms.filter (· ∉ p k :: visited) = before ++ p (k + 1) :: after' ∧
      Waits r p (k + 1) (p k :: visited) before after' := by
  obtain ⟨pre, post, rfl, hpre⟩ := h.first k hk ms hms
  have hvisited : ∀ n ∈ p k :: visited, ∃ j < k + 1, Within r (p 0) j n := by
    refine List.forall_mem_cons.2 ⟨⟨k, Nat.lt_succ_self k, h.within hk.le⟩, fun n hn => ?_⟩
    obtain ⟨j, hj, hwithin⟩ := hw.visited n hn
    exact ⟨j, by omega, hwithin⟩
  have hnew : p (k + 1) ∉ p k :: visited := fun hmem => by
    obtain ⟨j, hj, hwithin⟩ := hvisited _ hmem
    exact h.shortest (k + 1) hk j hj hwithin
  refine ⟨after ++ pre.filter (· ∉ p k :: visited), post.filter (· ∉ p k :: visited), ?_,
    hvisited, ?_, fun n hn => ?_⟩
  · rw [List.filter_append, List.filter_cons_of_pos (by simpa using hnew), List.append_assoc]
  · refine List.forall_mem_append.2 ⟨fun n hn => ⟨k, Nat.lt_succ_self k, hw.after n hn⟩,
      fun n hn => ?_⟩
    -- what is listed in front of the next node is of the path up to here
    obtain ⟨j, hj, rfl⟩ := hpre n (List.mem_filter.1 hn).1
    exact ⟨j, by omega, h.within (by omega)⟩
  · refine (h.within hk.le).step (h.sound hms n ?_)
    exact List.mem_append_right _ (List.mem_cons_of_mem _ (List.mem_filter.1 hn).1)

/-- The search gets to the end of the path, unless it has failed before in the same way. -/
theorem eq_error_of_loop (h : Leads next r p d e) {turns k : Nat} {visited before after : List ν}
    {result : Except ε (List ν)} (hk : k ≤ d) (hw : Waits r p k visited before after)
    (hloop : loop next turns visited (before ++ p k :: after) = some result) :
    result = .error e := by
  induction turns generalizing k visited before after with
  | zero => cases before <;> cases hloop
  | succ turns ih =>
    cases before with
    | nil =>
      have hfresh := hw.fresh h hk
      rw [List.nil_append] at hloop
      rcases hnext : next (p k) with e' | ms
      · rw [loop_of_error hfresh hnext] at hloop
        obtain rfl := Option.some.inj hloop
        rcases Nat.lt_or_eq_of_le hk with hlt | rfl
        · rw [h.near k hlt _ e' (h.within hk) hnext]
        · rw [← hnext, h.last]
      · have hlt : k < d := by
          refine Nat.lt_of_le_of_ne hk ?_
          rintro rfl
          cases h.last.symm.trans hnext
        obtain ⟨before, after', hqueue, hw'⟩ := hw.advance h hlt hnext
        rw [loop_of_ok hfresh hnext, hqueue] at hloop
        exact ih hlt hw' hloop
    | cons n before =>
      rw [List.cons_append] at hloop
      by_cases hmem : n ∈ visited
      · rw [loop_of_mem hmem] at hloop
        exact ih hk hw.skip hloop
      rcases hnext : next n with e' | ms
      · rw [loop_of_error hmem hnext] at hloop
        obtain rfl := Option.some.inj hloop
        obtain ⟨j, hj, hn⟩ := hw.before n List.mem_cons_self
        rw [h.near j (by omega) n e' hn hnext]
      · rw [loop_of_ok hmem hnext, List.append_assoc, List.cons_append] at hloop
        exact ih hk (hw.visit h hnext) hloop

theorem eq_error (h : Leads next r p d e) {turns : Nat} {result : Except ε (List ν)}
    (hloop : loop next turns [] [p 0] = some result) : result = .error e := by
  have hw : Waits r p 0 [] [] [] :=
    ⟨List.forall_mem_nil _, List.forall_mem_nil _, List.forall_mem_nil _⟩
  exact h.eq_error_of_loop (Nat.zero_le d) hw hloop

end Leads

end BreadthFirst
