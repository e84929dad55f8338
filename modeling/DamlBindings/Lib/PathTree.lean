import DamlBindings.Lib.AssocMap

/-!
# Trees addressed by paths

A tree of values whose children are kept in a map, so that a node is addressed by the path of
keys that leads to it.  Descending along a path and creating the missing nodes on the way is
described by what it does to the function that gives the value at every path.
-/

/-- A tree with a value at every node and a map of children. -/
inductive PathTree (κ α : Type*) where
  | node (val : α) (children : List (κ × PathTree κ α))

namespace PathTree

variable {κ α : Type*}

/-- The value at the root. -/
def val : PathTree κ α → α
  | node v _ => v

def children : PathTree κ α → List (κ × PathTree κ α)
  | node _ cs => cs

@[simp] lemma val_node (v : α) (cs : List (κ × PathTree κ α)) : (node v cs).val = v := rfl

@[simp] lemma children_node (v : α) (cs : List (κ × PathTree κ α)) :
    (node v cs).children = cs := rfl

/-- Change the value at the root. -/
def modifyVal (f : α → α) : PathTree κ α → PathTree κ α
  | node v cs => node (f v) cs

@[simp] lemma val_modifyVal (f : α → α) (t : PathTree κ α) : (t.modifyVal f).val = f t.val := by
  cases t
  rfl

@[simp] lemma children_modifyVal (f : α → α) (t : PathTree κ α) :
    (t.modifyVal f).children = t.children := by
  cases t
  rfl

section Induction

variable {P : PathTree κ α → Prop}

/-- Induction on a tree, with a hypothesis for every child. -/
@[elab_as_elim, induction_eliminator]
theorem induction (node : ∀ v cs, (∀ c ∈ cs, P c.2) → P (node v cs)) (t : PathTree κ α) : P t :=
  @PathTree.rec κ α P (fun cs => ∀ c ∈ cs, P c.2) (fun c => P c.2) node
    (List.forall_mem_nil _) (fun _ _ h hs => List.forall_mem_cons.2 ⟨h, hs⟩) (fun _ _ h => h) t

end Induction

variable [DecidableEq κ]

/-- The node at a path. -/
def get? : List κ → PathTree κ α → Option (PathTree κ α)
  | [], t => some t
  | k :: p, t => (t.children.lookup k).bind (get? p)

@[simp] lemma get?_nil (t : PathTree κ α) : get? [] t = some t := rfl

lemma get?_cons (k : κ) (p : List κ) (t : PathTree κ α) :
    get? (k :: p) t = (t.children.lookup k).bind (get? p) := rfl

lemma get?_append (p q : List κ) (t : PathTree κ α) :
    get? (p ++ q) t = (get? p t).bind (get? q) := by
  induction p generalizing t with
  | nil => rfl
  | cons k p ih =>
    rw [List.cons_append, get?_cons, get?_cons, Option.bind_assoc]
    exact congrArg _ (funext ih)

/-- The value at a path. -/
def valAt (t : PathTree κ α) (p : List κ) : Option α := (get? p t).map val

@[simp] lemma valAt_nil (t : PathTree κ α) : valAt t [] = some t.val := rfl

lemma valAt_cons (t : PathTree κ α) (k : κ) (p : List κ) :
    valAt t (k :: p) = (t.children.lookup k).bind fun c => valAt c p := by
  cases h : t.children.lookup k <;> simp [valAt, get?_cons, h]

lemma valAt_append (t : PathTree κ α) (p q : List κ) :
    valAt t (p ++ q) = (get? p t).bind fun c => valAt c q := by
  unfold valAt
  rw [get?_append, Option.map_bind]
  rfl

lemma valAt_modifyVal (f : α → α) (t : PathTree κ α) (p : List κ) :
    valAt (t.modifyVal f) p = if p = [] then some (f t.val) else valAt t p := by
  cases p with
  | nil => simp
  | cons k p => simp [valAt_cons]

/-- The nodes of a tree are closed under prefixes. -/
lemma valAt_on_way {t : PathTree κ α} {p q : List κ} (h : p <+: q) (hq : valAt t q ≠ none) :
    valAt t p ≠ none := by
  obtain ⟨r, rfl⟩ := h
  intro hp
  rw [valAt_append] at hq
  rw [valAt, Option.map_eq_none_iff] at hp
  exact hq (by rw [hp, Option.bind_none])

/-! ### Descending and creating -/

/-- Go down a path, creating the nodes that are missing, and change the tree found there.  The
value of a new node is computed from the value of its parent and its key. -/
def alter (new : α → κ → α) (f : PathTree κ α → PathTree κ α) :
    List κ → PathTree κ α → PathTree κ α
  | [], t => f t
  | k :: p, t =>
    node t.val
      (AssocMap.insert k (alter new f p ((t.children.lookup k).getD (node (new t.val k) [])))
        t.children)

section Alter

variable {new : α → κ → α} {f : PathTree κ α → PathTree κ α}

@[simp] lemma alter_nil (t : PathTree κ α) : alter new f [] t = f t := rfl

@[simp] lemma val_alter_cons (k : κ) (p : List κ) (t : PathTree κ α) :
    (alter new f (k :: p) t).val = t.val := rfl

lemma lookup_alter_cons (k : κ) (p : List κ) (t : PathTree κ α) (k' : κ) :
    (alter new f (k :: p) t).children.lookup k' =
      if k' = k then
        some (alter new f p ((t.children.lookup k).getD (node (new t.val k) [])))
      else t.children.lookup k' := by
  rw [alter, children_node, AssocMap.lookup_insert]

/-- Two descents from the root, the second one below the end of the first one, are one. -/
lemma alter_append (p q : List κ) (t : PathTree κ α) :
    alter new f (p ++ q) t = alter new (alter new f q) p t := by
  induction p generalizing t with
  | nil => rfl
  | cons k p ih => simp only [List.cons_append, alter, ih]

end Alter

section ValAlter

variable {new : α → κ → α}

lemma get?_node_nil (v : α) (p : List κ) :
    get? p (node v []) = if p = [] then some (node v []) else none := by
  cases p <;> rfl

lemma valAt_node_nil (v : α) (p : List κ) :
    valAt (node v []) p = if p = [] then some v else none := by
  rw [valAt, get?_node_nil]
  split_ifs <;> rfl

/-- What a descent does to the value at every path, where `newAt` gives the value of a new node
at a path: it changes what is at the end of its path and below, and fills the way to it. -/
theorem valAt_alter {f : PathTree κ α → PathTree κ α} {newAt : List κ → α} (p : List κ)
    (t : PathTree κ α)
    (hnew : ∀ q k, q ++ [k] <+: p → ∀ v ∈ valAt t q, new v k = newAt (q ++ [k]))
    (hnewAt : ∀ q k, q ≠ [] → q ++ [k] <+: p → new (newAt q) k = newAt (q ++ [k]))
    (q : List κ) :
    valAt (alter new f p t) q =
      if p <+: q then valAt (f ((get? p t).getD (node (newAt p) []))) (q.drop p.length)
      else if q <+: p then some ((valAt t q).getD (newAt q))
      else valAt t q := by
  induction p generalizing t newAt q with
  | nil => simp
  | cons k p ih =>
    rcases q with _ | ⟨k', q⟩
    · simp
    by_cases hk : k' = k
    swap
    · have hk' : k ≠ k' := fun h => hk h.symm
      simp [valAt_cons, lookup_alter_cons, List.cons_prefix_cons, hk, hk']
    subst hk
    have hfirst : new t.val k' = newAt [k'] := hnew [] k' ⟨p, rfl⟩ _ rfl
    rw [valAt_cons, lookup_alter_cons, if_pos rfl, Option.bind_some]
    have hnewAt' : ∀ q k, q ≠ [] → q ++ [k] <+: p →
        new (newAt (k' :: q)) k = newAt (k' :: (q ++ [k])) := fun q k _ hq =>
      hnewAt (k' :: q) k (by simp) (List.cons_prefix_cons.2 ⟨rfl, hq⟩)
    rcases hc : t.children.lookup k' with _ | c
    · -- The child is missing, so it is created, and everything below it with it.
      rw [Option.getD_none, @ih (fun r => newAt (k' :: r)) _ ?_ hnewAt']
      · simp only [List.cons_prefix_cons, true_and, valAt_cons, get?_cons, hc, Option.bind_none,
          Option.getD_none, List.length_cons, List.drop_succ_cons]
        split_ifs with h₁ h₂
        · rcases p with _ | ⟨k₁, p⟩
          · simp [hfirst]
          · simp [get?_node_nil]
        · rcases q with _ | ⟨k₁, q⟩
          · simp [hfirst]
          · simp [valAt_node_nil]
        · have hq : q ≠ [] := by
            rintro rfl
            exact h₂ List.nil_prefix
          rw [valAt_node_nil, if_neg hq]
      · intro q k hq v hv
        rw [valAt_node_nil] at hv
        split_ifs at hv with hnil
        · subst hnil
          cases hv
          rw [hfirst]
          exact hnewAt [k'] k (by simp) (List.cons_prefix_cons.2 ⟨rfl, hq⟩)
        · nomatch hv
    · rw [Option.getD_some, @ih (fun r => newAt (k' :: r)) _ ?_ hnewAt']
      · simp only [List.cons_prefix_cons, true_and, valAt_cons, get?_cons, hc, Option.bind_some,
          List.length_cons, List.drop_succ_cons]
      · intro q k hq v hv
        refine hnew (k' :: q) k (List.cons_prefix_cons.2 ⟨rfl, hq⟩) v ?_
        rw [valAt_cons, hc]
        exact hv

end ValAlter

/-! ### Touching nodes

A descent that changes the value of a single node acts on the value at every path separately, so
that a sequence of descents can be followed at one path at a time. -/

/-- Go down a path, creating the nodes that are missing, and change the value there.  `newAt` is
the value of a new node, as a function of its path. -/
structure Touch (κ α : Type*) where
  path : List κ
  newChild : α → κ → α
  newAt : List κ → α
  change : α → α

namespace Touch

variable (op : Touch κ α)

def apply (t : PathTree κ α) : PathTree κ α := alter op.newChild (modifyVal op.change) op.path t

/-- What a touch does to the value at `q`. -/
def step (q : List κ) (o : Option α) : Option α :=
  if q = op.path then some (op.change (o.getD (op.newAt q)))
  else if q <+: op.path then some (o.getD (op.newAt q))
  else o

/-- The touch keeps an invariant of the values at their paths, under which `newAt` is right. -/
structure Respects (I : List κ → α → Prop) : Prop where
  newChild : ∀ {q v}, I q v → ∀ k, op.newChild v k = op.newAt (q ++ [k])
  newAt : ∀ q, I q (op.newAt q)
  change : ∀ {v}, I op.path v → I op.path (op.change v)

variable {op} {I : List κ → α → Prop}

lemma step_of_eq {q : List κ} (h : q = op.path) (o : Option α) :
    op.step q o = some (op.change (o.getD (op.newAt q))) := if_pos h

lemma step_of_ne {q : List κ} (hne : q ≠ op.path) (h : q <+: op.path) (o : Option α) :
    op.step q o = some (o.getD (op.newAt q)) := by
  rw [step, if_neg hne, if_pos h]

lemma step_off_path {q : List κ} (h : ¬ q <+: op.path) (o : Option α) :
    op.step q o = o := by
  have hne : q ≠ op.path := by
    rintro rfl
    exact h List.prefix_rfl
  rw [step, if_neg hne, if_neg h]

/-- A property of the value at `q` that new values have and changes keep. -/
lemma forall_step {Q : α → Prop} {q : List κ} {o : Option α}
    (hnew : o = none → q <+: op.path → Q (op.newAt q))
    (hchange : q = op.path → ∀ v, Q v → Q (op.change v)) (ho : ∀ v ∈ o, Q v) :
    ∀ v ∈ op.step q o, Q v := by
  have hget : q <+: op.path → Q (o.getD (op.newAt q)) := by
    intro hpre
    rcases o with _ | v
    · exact hnew rfl hpre
    · exact ho v rfl
  intro v hv
  by_cases heq : q = op.path
  · rw [step_of_eq heq] at hv
    cases hv
    exact hchange heq _ (hget (heq ▸ List.prefix_rfl))
  by_cases hpre : q <+: op.path
  · rw [step_of_ne heq hpre] at hv
    cases hv
    exact hget hpre
  · rw [step_off_path hpre] at hv
    exact ho v hv

lemma isSome_step {q : List κ} {o : Option α} :
    (op.step q o).isSome ↔ o.isSome ∨ q <+: op.path := by
  by_cases heq : q = op.path
  · rw [step_of_eq heq]
    simp [heq]
  by_cases hpre : q <+: op.path
  · simp [step_of_ne heq hpre, hpre]
  · simp [step_off_path hpre, hpre]

lemma Respects.step (hop : op.Respects I) {q : List κ} {o : Option α} (ho : ∀ v ∈ o, I q v) :
    ∀ v ∈ op.step q o, I q v := by
  refine forall_step (fun _ _ => hop.newAt q) (fun heq v hv => ?_) ho
  subst heq
  exact hop.change hv

theorem valAt_apply (hop : op.Respects I) {t : PathTree κ α} (ht : ∀ q, ∀ v ∈ valAt t q, I q v)
    (q : List κ) : valAt (op.apply t) q = op.step q (valAt t q) := by
  rw [apply, valAt_alter op.path t (fun q k _ v hv => hop.newChild (ht q v hv) k)
    (fun q k _ _ => hop.newChild (hop.newAt q) k), step]
  by_cases hpq : op.path <+: q
  · obtain ⟨r, rfl⟩ := hpq
    rw [if_pos (List.prefix_append op.path r), List.drop_left, valAt_modifyVal, valAt_append]
    rcases r with _ | ⟨k, r⟩
    · rcases hget : get? op.path t with _ | c <;> simp [valAt]
    · have hlong : ¬ op.path ++ k :: r <+: op.path := by
        intro h
        have hlen := h.length_le
        simp at hlen
      rcases get? op.path t with _ | c <;> simp [valAt_node_nil, hlong]
  · have hne : q ≠ op.path := by
      rintro rfl
      exact hpq List.prefix_rfl
    simp only [if_neg hpq, if_neg hne]

end Touch

section Touches

variable {I : List κ → α → Prop} {ops : List (Touch κ α)}

/-- A sequence of touches, followed at one path. -/
theorem valAt_foldl_apply (hops : ∀ op ∈ ops, op.Respects I) {t : PathTree κ α}
    (ht : ∀ q, ∀ v ∈ valAt t q, I q v) (q : List κ) :
    valAt (ops.foldl (fun t op => op.apply t) t) q =
      ops.foldl (fun o op => op.step q o) (valAt t q) := by
  induction ops generalizing t with
  | nil => rfl
  | cons op ops ih =>
    rw [List.forall_mem_cons] at hops
    have hval := Touch.valAt_apply hops.1 ht
    rw [List.foldl_cons, List.foldl_cons, ih hops.2, hval]
    intro q v hv
    rw [hval] at hv
    exact hops.1.step (ht q) v hv

/-- A property of the value at `q` that new values have and changes keep. -/
lemma forall_foldl_step {Q : α → Prop} {q : List κ}
    (hnew : ∀ op ∈ ops, q <+: op.path → Q (op.newAt q))
    (hchange : ∀ op ∈ ops, q = op.path → ∀ v, Q v → Q (op.change v)) {o : Option α}
    (ho : ∀ v ∈ o, Q v) : ∀ v ∈ ops.foldl (fun o op => op.step q o) o, Q v := by
  induction ops generalizing o with
  | nil => exact ho
  | cons op ops ih =>
    rw [List.forall_mem_cons] at hnew hchange
    exact ih hnew.2 hchange.2 (Touch.forall_step (fun _ => hnew.1) hchange.1 ho)

lemma isSome_foldl_step {q : List κ} {o : Option α} :
    (ops.foldl (fun o op => op.step q o) o).isSome ↔ o.isSome ∨ ∃ op ∈ ops, q <+: op.path := by
  induction ops generalizing o with
  | nil => simp
  | cons op ops ih => simp [ih, Touch.isSome_step, or_assoc]

/-- A property that the value at `q` has and the changes of it keep. -/
lemma forall_foldl_step_some {Q : α → Prop} {q : List κ}
    (hchange : ∀ op ∈ ops, q = op.path → ∀ v, Q v → Q (op.change v)) {v : α} (hv : Q v) :
    ∀ w ∈ ops.foldl (fun o op => op.step q o) (some v), Q w := by
  induction ops generalizing v with
  | nil =>
    rintro _ ⟨⟩
    exact hv
  | cons op ops ih =>
    rw [List.forall_mem_cons] at hchange
    have hsome : (op.step q (some v)).isSome := Touch.isSome_step.2 (.inl rfl)
    obtain ⟨w, hw⟩ := Option.isSome_iff_exists.1 hsome
    rw [List.foldl_cons, hw]
    refine ih hchange.2 (Touch.forall_step nofun hchange.1 ?_ w hw)
    rintro _ ⟨⟩
    exact hv

/-- A property that one of the touches of `q` establishes and all of them keep. -/
lemma forall_foldl_step_of_mem {Q : α → Prop} {op : Touch κ α} (hop : op ∈ ops)
    (hQ : ∀ v, Q (op.change v))
    (hchange : ∀ op' ∈ ops, op.path = op'.path → ∀ v, Q v → Q (op'.change v)) (o : Option α) :
    ∀ v ∈ ops.foldl (fun o op' => op'.step op.path o) o, Q v := by
  obtain ⟨pre, post, rfl⟩ := List.append_of_mem hop
  rw [List.foldl_append, List.foldl_cons, Touch.step_of_eq rfl]
  -- From here on the node is there, so that nothing is created at it.
  exact forall_foldl_step_some (fun op' h => hchange op' (by simp [h])) (hQ _)

lemma foldl_step_off_path {q : List κ} (h : ∀ op ∈ ops, ¬ q <+: op.path) (o : Option α) :
    ops.foldl (fun o op => op.step q o) o = o := by
  induction ops generalizing o with
  | nil => rfl
  | cons op ops ih =>
    rw [List.forall_mem_cons] at h
    rw [List.foldl_cons, Touch.step_off_path h.1, ih h.2]

end Touches

section Below

variable {new new' : α → κ → α}

/-- A second descent along the same path finds every node there. -/
lemma alter_alter (f g : PathTree κ α → PathTree κ α) (p : List κ) (t : PathTree κ α) :
    alter new' g p (alter new f p t) = alter new (g ∘ f) p t := by
  induction p generalizing t with
  | nil => rfl
  | cons k p ih => simp [alter, ih]

/-- Touches below the end of a descent are touches from the root. -/
lemma alter_foldl_apply (f : PathTree κ α → PathTree κ α) (p : List κ) (ops : List (Touch κ α))
    (t : PathTree κ α) :
    alter new (fun c => ops.foldl (fun c op => op.apply c) (f c)) p t =
      (ops.map fun op => { op with path := p ++ op.path }).foldl (fun t op => op.apply t)
        (alter new f p t) := by
  induction ops generalizing f with
  | nil => rfl
  | cons op ops ih =>
    have hop : Touch.apply { op with path := p ++ op.path } (alter new f p t) =
        alter new (op.apply ∘ f) p t := by
      show alter op.newChild (modifyVal op.change) (p ++ op.path) (alter new f p t) = _
      rw [alter_append, alter_alter]
      rfl
    rw [List.map_cons, List.foldl_cons, hop]
    exact ih (op.apply ∘ f)

end Below

end PathTree
