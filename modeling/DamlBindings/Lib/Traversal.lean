import DamlBindings.Lib.Fuel
import Mathlib.Data.Set.Card
import Mathlib.Data.Set.Finite.Basic
import Mathlib.Data.Fintype.EquivFin

/-!
# Traversals through tables of shared nodes

A recursive descent through a tree whose nodes may also refer to the entries of a table.  The
parts of a node are taken in order and the first one that fails ends the descent.  The descent
stops, with enough fuel, if and only if no entry that it reaches is reached again from itself.
-/

/-- How a descent ends. -/
inductive Outcome where
  | pass
  | fail
  | outOfFuel
deriving DecidableEq, Repr

namespace Outcome

/-- One descent after the other: the second one starts when the first one passes. -/
def andThen : Outcome → Outcome → Outcome
  | .pass, o => o
  | o, _ => o

@[simp] lemma pass_andThen (o : Outcome) : andThen .pass o = o := rfl

@[simp] lemma andThen_pass (o : Outcome) : andThen o .pass = o := by
  cases o <;> rfl

lemma andThen_assoc (a b c : Outcome) : (a.andThen b).andThen c = a.andThen (b.andThen c) := by
  cases a <;> rfl

@[simp] lemma andThen_eq_pass {a b : Outcome} : a.andThen b = .pass ↔ a = .pass ∧ b = .pass := by
  cases a <;> simp [andThen]

/-- A test that needs no fuel. -/
def ofBool (b : Bool) : Outcome := if b then .pass else .fail

@[simp] lemma ofBool_true : ofBool true = .pass := rfl

@[simp] lemma ofBool_false : ofBool false = .fail := rfl

@[simp] lemma ofBool_eq_pass {b : Bool} : ofBool b = .pass ↔ b = true := by
  cases b <;> simp [ofBool]

@[simp] lemma ofBool_ne_outOfFuel (b : Bool) : ofBool b ≠ .outOfFuel := by
  cases b <;> simp [ofBool]

/-- A list of descents, in order. -/
def all : List Outcome → Outcome
  | [] => .pass
  | o :: os => o.andThen (all os)

@[simp] lemma all_nil : all [] = .pass := rfl

@[simp] lemma all_cons (o : Outcome) (os : List Outcome) : all (o :: os) = o.andThen (all os) := rfl

@[simp] lemma all_append (os os' : List Outcome) :
    all (os ++ os') = (all os).andThen (all os') := by
  induction os with
  | nil => rfl
  | cons o os ih => simp [ih, andThen_assoc]

lemma all_eq_pass {os : List Outcome} : all os = .pass ↔ ∀ o ∈ os, o = .pass := by
  induction os with
  | nil => simp
  | cons o os ih => simp [ih]

lemma all_ne_fail {os : List Outcome} (h : ∀ o ∈ os, o ≠ .fail) : all os ≠ .fail := by
  induction os with
  | nil => simp
  | cons o os ih =>
    rw [List.forall_mem_cons] at h
    rcases o with _ | _ | _
    · exact ih h.2
    · exact absurd rfl h.1
    · simp [andThen]

end Outcome

namespace Run

universe u v

variable {ε : Type u} {α β : Type v} {γ : Type*}

/-- How a computation ends, without its result and its error. -/
def outcome : Run ε α → Outcome
  | .ok _ => .pass
  | .error (.err _) => .fail
  | .error .outOfFuel => .outOfFuel

@[simp] lemma outcome_ok (a : α) : outcome (.ok a : Run ε α) = .pass := rfl

@[simp] lemma outcome_pure (a : α) : outcome (pure a : Run ε α) = .pass := rfl

@[simp] lemma outcome_lift (x : Except ε α) : outcome (lift x) = .ofBool x.isOk := by
  cases x <;> rfl

@[simp] lemma outcome_err (e : ε) : outcome (.error (.err e) : Run ε α) = .fail := rfl

@[simp] lemma outcome_outOfFuel : outcome (.error .outOfFuel : Run ε α) = .outOfFuel := rfl

lemma outcome_eq_outOfFuel {x : Run ε α} : outcome x = .outOfFuel ↔ x = .error .outOfFuel := by
  rcases x with (_ | _) | _ <;> simp [outcome]

@[simp] lemma outcome_map (f : α → β) (x : Run ε α) : outcome (f <$> x) = outcome x := by
  rcases x with (_ | _) | _ <;> rfl

@[simp] lemma outcome_seq (f : Run ε (α → β)) (x : Run ε α) :
    outcome (f <*> x) = (outcome f).andThen (outcome x) := by
  rcases f with (_ | _) | _ <;> rcases x with (_ | _) | _ <;> rfl

lemma outcome_bind {x : Run ε α} {f : α → Run ε β} {o : Outcome}
    (h : ∀ a, outcome (f a) = o) : outcome (x >>= f) = (outcome x).andThen o := by
  match x with
  | .ok a => exact h a
  | .error (.err _) => rfl
  | .error .outOfFuel => rfl

@[simp] lemma outcome_mapM (f : γ → Run ε β) (as : List γ) :
    outcome (as.mapM f) = .all (as.map fun a => outcome (f a)) := by
  induction as with
  | nil => rfl
  | cons a as ih =>
    rw [List.mapM_cons, outcome_bind (o := .all (as.map fun a => outcome (f a)))]
    · rfl
    · intro b
      rw [outcome_bind (o := .pass), ih, Outcome.andThen_pass]
      exact fun _ => rfl

end Run

namespace Traversal

/-- A part of a node: a test, a node inside it, or a reference to an entry of the table. -/
inductive Part (N R : Type*) where
  | check (ok : Bool)
  | sub (n : N)
  | ref (r : R)

/-- The parts of every node, in the order in which the descent takes them, and the table. -/
structure Grammar (N R : Type*) where
  parts : N → List (Part N R)
  entry : R → N
  size : N → Nat
  size_lt : ∀ {n m}, Part.sub m ∈ parts n → size m < size n

variable {N R : Type*} (G : Grammar N R)

namespace Grammar

/-- The node that the descent goes to at a part. -/
def target : Part N R → Option N
  | .check _ => none
  | .sub n => some n
  | .ref r => some (G.entry r)

/-- The outcome at a part, from the outcomes at nodes. -/
def runPart (f : N → Outcome) : Part N R → Outcome
  | .check ok => .ofBool ok
  | .sub n => f n
  | .ref r => f (G.entry r)

/-- The descent. -/
def run : Nat → N → Outcome
  | 0, _ => .outOfFuel
  | fuel + 1, n => .all ((G.parts n).map (G.runPart (run fuel)))

lemma run_succ (fuel : Nat) (n : N) :
    G.run (fuel + 1) n = .all ((G.parts n).map (G.runPart (G.run fuel))) := rfl

/-- The descent stops at `n`, with enough fuel. -/
def Halts (n : N) : Prop := ∃ fuel, G.run fuel n ≠ .outOfFuel

/-- Every test below `n` holds, whatever the number of references followed. -/
inductive Passes : N → Prop where
  | intro {n : N} (check : ∀ p ∈ G.parts n, p ≠ .check false)
      (sub : ∀ p ∈ G.parts n, ∀ m ∈ G.target p, Passes m) : Passes n

/-- Every test at a part or below it holds. -/
def PassesPart (p : Part N R) : Prop := p ≠ .check false ∧ ∀ m ∈ G.target p, G.Passes m

/-- The descent from `n` gets to the reference `r`: everything before it passes. -/
inductive Gets : N → R → Prop where
  | ref {n : N} {pre post : List (Part N R)} {r : R} (parts : G.parts n = pre ++ .ref r :: post)
      (passes : ∀ p ∈ pre, G.PassesPart p) : Gets n r
  | step {n m : N} {pre post : List (Part N R)} {p : Part N R} {r : R}
      (parts : G.parts n = pre ++ p :: post) (passes : ∀ p ∈ pre, G.PassesPart p)
      (target : m ∈ G.target p) (gets : Gets m r) : Gets n r

/-- An entry that the descent from `n` gets to is reached again from itself. -/
def ReachesCycle (n : N) : Prop := ∃ r, G.Gets n r ∧ G.Gets (G.entry r) r

/-- An entry that the descent through the parts gets to is reached again from itself. -/
def ReachesCycleIn (ps : List (Part N R)) : Prop :=
  ∃ pre p post, ps = pre ++ p :: post ∧ (∀ q ∈ pre, G.PassesPart q) ∧
    ∃ m ∈ G.target p, G.ReachesCycle m

variable {G}

lemma Gets.head {n : N} {r : R} {post : List (Part N R)} (h : G.parts n = .ref r :: post) :
    G.Gets n r := by
  have hparts : G.parts n = [] ++ .ref r :: post := h
  exact .ref hparts (List.forall_mem_nil _)

lemma passes_iff {n : N} : G.Passes n ↔ ∀ p ∈ G.parts n, G.PassesPart p := by
  constructor
  · rintro ⟨check, sub⟩ p hp
    exact ⟨check p hp, sub p hp⟩
  · intro h
    exact .intro (fun p hp => (h p hp).1) fun p hp => (h p hp).2

/-- Where the rank falls from every node to what it refers to, the descent gets to references of a
smaller rank only. -/
lemma Gets.rank_lt (Below : ℕ → N → Prop) (rank : R → ℕ)
    (hsub : ∀ {b n m}, Part.sub m ∈ G.parts n → Below b n → Below b m)
    (href : ∀ {b n r}, Part.ref r ∈ G.parts n → Below b n →
      rank r < b ∧ Below (rank r) (G.entry r)) {n : N} {r : R} (h : G.Gets n r) {b : ℕ}
    (hn : Below b n) : rank r < b ∧ Below (rank r) (G.entry r) := by
  induction h generalizing b with
  | ref hparts _ => exact href (by simp [hparts]) hn
  | @step n m pre post p r hparts _ htarget _ ih =>
    have hp : p ∈ G.parts n := by simp [hparts]
    cases p with
    | check ok => cases htarget
    | sub k =>
      cases htarget
      exact ih (hsub hp hn)
    | ref s =>
      cases htarget
      obtain ⟨hs, hentry⟩ := href hp hn
      obtain ⟨hlt, hr⟩ := ih hentry
      exact ⟨hlt.trans hs, hr⟩

/-- Where the rank falls from every node to what it refers to, no cycle is reached. -/
lemma not_reachesCycle_of_rank (Below : ℕ → N → Prop) (rank : R → ℕ)
    (hsub : ∀ {b n m}, Part.sub m ∈ G.parts n → Below b n → Below b m)
    (href : ∀ {b n r}, Part.ref r ∈ G.parts n → Below b n →
      rank r < b ∧ Below (rank r) (G.entry r)) {b : ℕ} {n : N} (hn : Below b n) :
    ¬ G.ReachesCycle n := by
  rintro ⟨r, hget, hcycle⟩
  obtain ⟨-, hr⟩ := hget.rank_lt Below rank hsub href hn
  exact (hcycle.rank_lt Below rank hsub href hr).1.false

/-! ### The descent and its fuel -/

section Part

variable {f g : N → Outcome} {p : Part N R}

lemma runPart_eq_pass :
    G.runPart f p = .pass ↔ p ≠ .check false ∧ ∀ m ∈ G.target p, f m = .pass := by
  rcases p with ok | m | r <;> simp [runPart, target]

lemma runPart_ne_fail (hp : p ≠ .check false) (h : ∀ m ∈ G.target p, f m ≠ .fail) :
    G.runPart f p ≠ .fail := by
  rcases p with ok | m | r
  · cases ok <;> simp_all [runPart]
  · exact h m rfl
  · exact h _ rfl

lemma runPart_congr (h : ∀ m ∈ G.target p, f m ≠ .outOfFuel → g m = f m)
    (hp : G.runPart f p ≠ .outOfFuel) : G.runPart g p = G.runPart f p := by
  rcases p with ok | m | r
  · rfl
  · exact h m rfl hp
  · exact h _ rfl hp

end Part

lemma all_congr {f g : N → Outcome} {ps : List (Part N R)}
    (h : ∀ m, f m ≠ .outOfFuel → g m = f m)
    (hps : Outcome.all (ps.map (G.runPart f)) ≠ .outOfFuel) :
    Outcome.all (ps.map (G.runPart g)) = Outcome.all (ps.map (G.runPart f)) := by
  induction ps with
  | nil => rfl
  | cons p ps ih =>
    simp only [List.map_cons, Outcome.all_cons] at hps ⊢
    have hp : G.runPart f p ≠ .outOfFuel := by
      intro hp
      simp [hp, Outcome.andThen] at hps
    rw [runPart_congr (fun m _ => h m) hp]
    rcases hf : G.runPart f p with _ | _ | _
    · rw [hf] at hps
      exact ih hps
    · rfl
    · exact absurd hf hp

lemma run_succ_eq {fuel : Nat} {n : N} (h : G.run fuel n ≠ .outOfFuel) :
    G.run (fuel + 1) n = G.run fuel n := by
  induction fuel generalizing n with
  | zero => exact absurd rfl h
  | succ fuel ih => exact all_congr (fun m hm => ih hm) h

/-- More fuel changes nothing once the descent has stopped. -/
lemma run_eq_of_le {fuel fuel' : Nat} {n : N} (hle : fuel ≤ fuel')
    (h : G.run fuel n ≠ .outOfFuel) : G.run fuel' n = G.run fuel n := by
  induction fuel', hle using Nat.le_induction with
  | base => rfl
  | succ fuel' _ ih => rw [run_succ_eq (ih ▸ h), ih]

lemma all_eq_of_le {fuel fuel' : Nat} {ps : List (Part N R)} (hle : fuel ≤ fuel')
    (h : Outcome.all (ps.map (G.runPart (G.run fuel))) ≠ .outOfFuel) :
    Outcome.all (ps.map (G.runPart (G.run fuel'))) =
      Outcome.all (ps.map (G.runPart (G.run fuel))) :=
  all_congr (fun _ hm => run_eq_of_le hle hm) h

lemma passes_of_run {fuel : Nat} {n : N} (h : G.run fuel n = .pass) : G.Passes n := by
  induction fuel generalizing n with
  | zero => nomatch h
  | succ fuel ih =>
    rw [run_succ, Outcome.all_eq_pass, List.forall_mem_map] at h
    refine passes_iff.2 fun p hp => ?_
    obtain ⟨hcheck, hsub⟩ := runPart_eq_pass.1 (h p hp)
    exact ⟨hcheck, fun m hm => ih (hsub m hm)⟩

lemma Passes.run_ne_fail {n : N} (h : G.Passes n) (fuel : Nat) : G.run fuel n ≠ .fail := by
  induction fuel generalizing n with
  | zero => nofun
  | succ fuel ih =>
    rw [run_succ]
    refine Outcome.all_ne_fail (List.forall_mem_map.2 fun p hp => ?_)
    obtain ⟨hcheck, hsub⟩ := passes_iff.1 h p hp
    exact runPart_ne_fail hcheck fun m hm => ih (hsub m hm)

lemma PassesPart.runPart_ne_fail {p : Part N R} (h : G.PassesPart p) (fuel : Nat) :
    G.runPart (G.run fuel) p ≠ .fail :=
  Grammar.runPart_ne_fail h.1 fun m hm => (h.2 m hm).run_ne_fail fuel

/-! ### The references reached -/

/-- What is in front of a part passes within the fuel, and the part itself does not run out. -/
lemma part_of_all {fuel : Nat} {pre post : List (Part N R)} {p : Part N R}
    (hpre : ∀ q ∈ pre, G.PassesPart q)
    (h : Outcome.all ((pre ++ p :: post).map (G.runPart (G.run fuel))) ≠ .outOfFuel) :
    G.runPart (G.run fuel) p ≠ .outOfFuel := by
  intro hp
  simp only [List.map_append, List.map_cons, Outcome.all_append, Outcome.all_cons, hp] at h
  have hfail : Outcome.all (pre.map (G.runPart (G.run fuel))) ≠ .fail :=
    Outcome.all_ne_fail (List.forall_mem_map.2 fun q hq => (hpre q hq).runPart_ne_fail fuel)
  rcases hall : Outcome.all (pre.map (G.runPart (G.run fuel))) with _ | _ | _
  · simp [hall, Outcome.andThen] at h
  · exact hfail hall
  · simp [hall, Outcome.andThen] at h

lemma run_target {f : N → Outcome} {p : Part N R} {m : N} (hm : m ∈ G.target p)
    (h : G.runPart f p ≠ .outOfFuel) : f m ≠ .outOfFuel := by
  rcases p with ok | m' | r
  · nomatch hm
  · cases hm
    exact h
  · cases hm
    exact h

/-- The entry of a reference that the descent gets to is left with less fuel. -/
lemma Gets.run_entry {n : N} {r : R} (hr : G.Gets n r) {fuel : Nat}
    (h : G.run fuel n ≠ .outOfFuel) : ∃ fuel' < fuel, G.run fuel' (G.entry r) ≠ .outOfFuel := by
  induction hr generalizing fuel with
  | ref hparts hpre =>
    match fuel, h with
    | 0, h => exact absurd rfl h
    | fuel + 1, h =>
      rw [run_succ, hparts] at h
      exact ⟨fuel, Nat.lt_succ_self _, part_of_all hpre h⟩
  | @step n m pre post p r hparts hpre htarget _ ih =>
    match fuel, h with
    | 0, h => exact absurd rfl h
    | fuel + 1, h =>
      rw [run_succ, hparts] at h
      have hm : G.run fuel m ≠ .outOfFuel := run_target htarget (part_of_all hpre h)
      obtain ⟨fuel', hlt, hfuel'⟩ := ih hm
      exact ⟨fuel', by omega, hfuel'⟩

lemma run_entry_of_cycle {r : R} (h : G.Gets (G.entry r) r) (fuel : Nat) :
    G.run fuel (G.entry r) = .outOfFuel := by
  induction fuel using Nat.strong_induction_on with
  | _ fuel ih =>
    by_contra hfuel
    obtain ⟨fuel', hlt, hfuel'⟩ := h.run_entry hfuel
    exact hfuel' (ih fuel' hlt)

/-! ### Termination -/

/-- If the descent stops at the targets of the parts that it gets to, it stops after them. -/
lemma halts_parts (pre post : List (Part N R)) (hpre : ∀ p ∈ pre, G.PassesPart p)
    (h : ∀ {pre' p post'}, pre ++ post = pre' ++ p :: post' → (∀ q ∈ pre', G.PassesPart q) →
      ∀ m ∈ G.target p, G.Halts m) :
    ∃ fuel, Outcome.all (post.map (G.runPart (G.run fuel))) ≠ .outOfFuel := by
  induction post generalizing pre with
  | nil => exact ⟨0, by simp⟩
  | cons p post ih =>
    have hp : ∃ fuel, G.runPart (G.run fuel) p ≠ .outOfFuel := by
      rcases p with ok | m | r
      · exact ⟨0, Outcome.ofBool_ne_outOfFuel ok⟩
      · exact h rfl hpre m rfl
      · exact h rfl hpre _ rfl
    obtain ⟨fuel, hfuel⟩ := hp
    -- the parts after `p` are only visited if `p` passes
    rcases hrun : G.runPart (G.run fuel) p with _ | _ | _
    · have hpass : G.PassesPart p := by
        obtain ⟨hcheck, hsub⟩ := runPart_eq_pass.1 hrun
        exact ⟨hcheck, fun m hm => passes_of_run (hsub m hm)⟩
      obtain ⟨fuel', hfuel'⟩ := ih (pre ++ [p])
        (List.forall_mem_append.2 ⟨hpre, List.forall_mem_singleton.2 hpass⟩)
        (fun hsplit => h (by rw [← hsplit, List.append_assoc, List.singleton_append]))
      refine ⟨max fuel fuel', ?_⟩
      have h₁ : G.runPart (G.run (max fuel fuel')) p = G.runPart (G.run fuel) p :=
        runPart_congr (fun m _ hm => run_eq_of_le (Nat.le_max_left _ _) hm) hfuel
      have h₂ := all_eq_of_le (Nat.le_max_right fuel fuel') hfuel'
      rw [List.map_cons, Outcome.all_cons, h₁, h₂, hrun]
      exact hfuel'
    · refine ⟨fuel, ?_⟩
      rw [List.map_cons, Outcome.all_cons, hrun]
      nofun
    · exact absurd hrun hfuel

lemma halts_of_targets {n : N}
    (h : ∀ {pre p post}, G.parts n = pre ++ p :: post → (∀ q ∈ pre, G.PassesPart q) →
      ∀ m ∈ G.target p, G.Halts m) : G.Halts n := by
  obtain ⟨fuel, hfuel⟩ := halts_parts [] (G.parts n) (by simp) h
  exact ⟨fuel + 1, hfuel⟩

/-- With no cycle in reach, every step goes to fewer references or to a smaller node. -/
lemma halts_of_not_reachesCycle [Finite R] {n : N} (h : ¬ G.ReachesCycle n) : G.Halts n := by
  induction hc : ({r | G.Gets n r} : Set R).ncard using Nat.strong_induction_on generalizing n with
  | _ c ihc =>
    induction hs : G.size n using Nat.strong_induction_on generalizing n with
    | _ s ihs =>
      refine halts_of_targets fun {pre p post} hparts hpre m hm => ?_
      have hsub : ∀ r, G.Gets m r → G.Gets n r := fun r hr => .step hparts hpre hm hr
      have hcycle : ¬ G.ReachesCycle m := fun ⟨r, hr, hrr⟩ => h ⟨r, hsub r hr, hrr⟩
      have hle : ({r | G.Gets m r} : Set R).ncard ≤ c :=
        hc ▸ Set.ncard_le_ncard hsub (Set.toFinite _)
      rcases hle.lt_or_eq with hlt | heq
      · exact ihc _ hlt hcycle rfl
      rcases p with ok | m' | r
      · nomatch hm
      · cases hm
        have hlt : G.size m < G.size n := G.size_lt (by simp [hparts])
        exact ihs _ (hs ▸ hlt) hcycle heq rfl
      · -- The entry of `r` does not reach `r` again, so it reaches fewer references.
        cases hm
        have hr : G.Gets n r := .ref hparts hpre
        have hlt : ({r' | G.Gets (G.entry r) r'} : Set R).ncard < c := by
          rw [← hc]
          refine Set.ncard_lt_ncard ⟨hsub, fun hsup => ?_⟩ (Set.toFinite _)
          exact h ⟨r, hr, hsup hr⟩
        exact ihc _ hlt hcycle rfl

/-- The descent stops exactly when no entry in reach is reached again from itself. -/
theorem halts_iff [Finite R] {n : N} : G.Halts n ↔ ¬ G.ReachesCycle n := by
  refine ⟨?_, halts_of_not_reachesCycle⟩
  rintro ⟨fuel, hfuel⟩ ⟨r, hr, hrr⟩
  obtain ⟨fuel', -, hfuel'⟩ := hr.run_entry hfuel
  exact hfuel' (run_entry_of_cycle hrr fuel')

/-- The same for the parts of a message that is no node itself. -/
theorem exists_all_iff [Finite R] {ps : List (Part N R)} :
    (∃ fuel, Outcome.all (ps.map (G.runPart (G.run fuel))) ≠ .outOfFuel) ↔
      ¬ G.ReachesCycleIn ps := by
  constructor
  · rintro ⟨fuel, hfuel⟩ ⟨pre, p, post, rfl, hpre, m, hm, hcycle⟩
    exact halts_iff.1 ⟨fuel, run_target hm (part_of_all hpre hfuel)⟩ hcycle
  · intro h
    refine halts_parts [] ps (List.forall_mem_nil _) fun {pre p post} hsplit hpre m hm => ?_
    exact halts_iff.2 fun hcycle => h ⟨pre, p, post, hsplit, hpre, m, hm, hcycle⟩

end Grammar

end Traversal
