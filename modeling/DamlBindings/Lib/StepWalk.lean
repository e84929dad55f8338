import DamlBindings.Lib.Result

/-!
# Walks of fallible steps

A step leads from a point to another one or reports why it does not.  A walk takes steps one after
the other and ends at the first that leads nowhere.
-/

namespace StepWalk

universe u v

variable {σ : Type v} {ε : Type u} {α : Type u}

/-- Take the steps one after the other. -/
def walk (step : σ → α → Except ε α) (steps : List σ) (a : α) : Except ε α :=
  steps.foldlM (fun a s => step s a) a

/-- What the steps do, where `Goes` says where each leads and `report` what it says otherwise. -/
structure Spec (step : σ → α → Except ε α) (Goes : σ → α → α → Prop) (report : σ → α → ε) :
    Prop where
  ok_iff : ∀ {s a b}, step s a = .ok b ↔ Goes s a b
  error_iff : ∀ {s a e}, step s a = .error e ↔ (∀ b, ¬ Goes s a b) ∧ e = report s a

variable (Goes : σ → α → α → Prop) (report : σ → α → ε)

/-- The steps lead from a point to another one. -/
inductive Leads : List σ → α → α → Prop
  | refl (a : α) : Leads [] a a
  | head {s : σ} {steps : List σ} {a b c : α} :
      Goes s a b → Leads steps b c → Leads (s :: steps) a c

/-- Some step leads nowhere from where the steps before it lead. -/
def Refuses (steps : List σ) (a : α) (e : ε) : Prop :=
  ∃ front s back b, steps = front ++ s :: back ∧ Leads Goes front a b ∧ (∀ c, ¬ Goes s b c) ∧
    e = report s b

variable {Goes report} {step : σ → α → Except ε α} {s : σ} {steps front back : List σ} {a b c : α}
  {e : ε}

@[simp] lemma walk_nil : walk step [] a = .ok a := rfl

lemma walk_cons : walk step (s :: steps) a = step s a >>= walk step steps :=
  List.foldlM_cons

@[simp] lemma bind_walk_nil (x : Except ε α) : (x >>= walk step []) = x := bind_pure x

@[simp] lemma ok_bind_walk : (.ok a >>= walk step steps) = walk step steps a := rfl

lemma walk_append :
    walk step (front ++ back) a = walk step front a >>= walk step back :=
  List.foldlM_append

@[simp] lemma leads_nil : Leads Goes [] a b ↔ a = b :=
  ⟨fun h => by cases h; rfl, fun h => h ▸ .refl a⟩

lemma leads_cons : Leads Goes (s :: steps) a c ↔ ∃ b, Goes s a b ∧ Leads Goes steps b c :=
  ⟨fun h => by cases h with | head hs hb => exact ⟨_, hs, hb⟩, fun ⟨_, hs, hb⟩ => .head hs hb⟩

/-- A walk succeeds with the point its steps lead to. -/
theorem walk_eq_ok (h : Spec step Goes report) :
    walk step steps a = .ok b ↔ Leads Goes steps a b := by
  induction steps generalizing a with
  | nil => simp
  | cons s steps ih =>
    rw [walk_cons, Except.bind_eq_ok, leads_cons]
    simp only [ih, h.ok_iff]

/-- A walk fails with the report of the first step that leads nowhere. -/
theorem walk_eq_error (h : Spec step Goes report) :
    walk step steps a = .error e ↔ Refuses Goes report steps a e := by
  induction steps generalizing a with
  | nil =>
    constructor
    · intro hw
      cases hw
    · rintro ⟨front, s, back, b, hw, -⟩
      exact absurd hw (by simp)
  | cons s steps ih =>
    rw [walk_cons, Except.bind_eq_error]
    constructor
    · rintro (hs | ⟨b, hs, hw⟩)
      · exact ⟨[], s, steps, a, rfl, .refl a, h.error_iff.1 hs⟩
      · obtain ⟨front, t, back, c, rfl, hlead, ht⟩ := ih.1 hw
        exact ⟨s :: front, t, back, c, rfl, .head (h.ok_iff.1 hs) hlead, ht⟩
    · rintro ⟨front, t, back, c, hw, hlead, ht⟩
      cases front with
      | nil =>
        obtain ⟨rfl, rfl⟩ := List.cons.inj hw
        cases leads_nil.1 hlead
        exact .inl (h.error_iff.2 ht)
      | cons s' front =>
        obtain ⟨rfl, rfl⟩ := List.cons.inj hw
        obtain ⟨b, hs, hlead⟩ := leads_cons.1 hlead
        exact .inr ⟨b, h.ok_iff.2 hs, ih.2 ⟨front, t, back, c, rfl, hlead, ht⟩⟩

end StepWalk
