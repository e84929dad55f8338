import DamlBindings.Lib.Forall2

/-!
# Computations that succeed or fail

When a sequence of fallible computations succeeds, and with which results.
-/

namespace Except

universe u v

variable {ε : Type u} {α β : Type v} {γ : Type*}

@[simp] lemma bind_eq_ok {x : Except ε α} {f : α → Except ε β} {b : β} :
    (x >>= f) = .ok b ↔ ∃ a, x = .ok a ∧ f a = .ok b := by
  cases x <;> simp [bind, Except.bind]

@[simp] lemma pure_eq_ok {a b : α} : (pure a : Except ε α) = .ok b ↔ a = b := by
  simp [pure, Except.pure]

@[simp] lemma map_eq_ok {x : Except ε α} {f : α → β} {b : β} :
    f <$> x = .ok b ↔ ∃ a, x = .ok a ∧ f a = b := by
  cases x <;> simp [Functor.map, Except.map]

@[simp] lemma seq_eq_ok {f : Except ε (α → β)} {x : Except ε α} {b : β} :
    (f <*> x) = .ok b ↔ ∃ g, f = .ok g ∧ ∃ a, x = .ok a ∧ g a = b := by
  cases f <;> cases x <;> simp [Seq.seq, Except.bind, Except.map]

@[simp] lemma toOption_ok (a : α) : (.ok a : Except ε α).toOption = some a := rfl

@[simp] lemma toOption_eq_some {x : Except ε α} {a : α} : x.toOption = some a ↔ x = .ok a := by
  cases x with
  | ok b => simp
  | error e => simp [Except.toOption]

/-- A computation fails or succeeds. -/
lemma exists_error_iff {x : Except ε γ} : (∃ e, x = .error e) ↔ ¬ ∃ a, x = .ok a := by
  cases x <;> simp

lemma bind_eq_error {x : Except ε α} {f : α → Except ε β} {e : ε} :
    (x >>= f) = .error e ↔ x = .error e ∨ ∃ a, x = .ok a ∧ f a = .error e := by
  cases x <;> simp [bind, Except.bind]

/-- A computation whose errors are turned into others succeeds as before. -/
lemma mapError_eq_ok {ε' : Type*} {f : ε → ε'} {x : Except ε γ} {a : γ} :
    x.mapError f = .ok a ↔ x = .ok a := by
  cases x <;> simp [Except.mapError]

lemma map_eq_error {x : Except ε α} {f : α → β} {e : ε} : f <$> x = .error e ↔ x = .error e := by
  cases x <;> simp [Functor.map, Except.map]

/-- What goes wrong in a list of computations goes wrong in one of them. -/
lemma exists_error_of_mapM {f : γ → Except ε β} {as : List γ} {e : ε}
    (h : as.mapM f = .error e) : ∃ a ∈ as, f a = .error e := by
  induction as with
  | nil => cases h
  | cons a as ih =>
    rw [List.mapM_cons] at h
    obtain ha | ⟨b, -, h⟩ := bind_eq_error.1 h
    · exact ⟨a, List.mem_cons_self, ha⟩
    · obtain has | ⟨bs, -, h⟩ := bind_eq_error.1 h
      · obtain ⟨a', ha', he⟩ := ih has
        exact ⟨a', List.mem_cons_of_mem a ha', he⟩
      · cases h

/-- A computation for a value that may be missing. -/
lemma optionMapM_eq_ok {f : γ → Except ε β} {o : Option γ} {r : Option β} :
    o.mapM f = .ok r ↔ Option.Rel (fun a b => f a = .ok b) o r := by
  rcases o with _ | a
  · rw [Option.mapM_none, pure_eq_ok]
    rcases r with _ | b <;> simp
  · rw [Option.mapM_some, map_eq_ok]
    rcases r with _ | b <;> simp

lemma exists_optionMapM_iff {f : γ → Except ε β} {o : Option γ} :
    (∃ r, o.mapM f = .ok r) ↔ ∀ a ∈ o, ∃ b, f a = .ok b := by
  simp only [optionMapM_eq_ok]
  rcases o with _ | a
  · simpa using ⟨none, .none⟩
  · constructor
    · rintro ⟨_, h⟩ _ ⟨⟩
      cases h with
      | some hb => exact ⟨_, hb⟩
    · intro h
      obtain ⟨b, hb⟩ := h a rfl
      exact ⟨some b, .some hb⟩

/-- A list of computations succeeds with the list of their results. -/
lemma mapM_eq_ok {f : γ → Except ε β} {as : List γ} {bs : List β} :
    as.mapM f = .ok bs ↔ List.Forall₂ (fun a b => f a = .ok b) as bs := by
  induction as generalizing bs with
  | nil =>
    rw [List.mapM_nil, pure_eq_ok, List.forall₂_nil_left_iff]
    exact eq_comm
  | cons a as ih =>
    rw [List.mapM_cons]
    constructor
    · intro h
      obtain ⟨b, hb, h⟩ := bind_eq_ok.1 h
      obtain ⟨bs', hbs, h⟩ := bind_eq_ok.1 h
      cases pure_eq_ok.1 h
      exact .cons hb (ih.1 hbs)
    · rintro (_ | ⟨hb, hbs⟩)
      exact bind_eq_ok.2 ⟨_, hb, bind_eq_ok.2 ⟨_, ih.2 hbs, rfl⟩⟩

/-- What a list of computations succeeds with is what those of them that succeed give. -/
lemma filterMap_toOption_of_mapM {f : γ → Except ε β} {as : List γ} {bs : List β}
    (h : as.mapM f = .ok bs) : as.filterMap (fun a => (f a).toOption) = bs := by
  have hall := mapM_eq_ok.1 h
  clear h
  induction hall with
  | nil => rfl
  | cons hb _ ih => rw [List.filterMap_cons, hb, ih]; rfl

/-- What is in the results of a sequence is in the result of one of its members. -/
lemma mem_flatMap_of_mapM {δ : Type*} {f : γ → Except ε β} {get : β → List δ} {x : δ}
    {Q : γ → Prop} {as : List γ} {bs : List β} (h : as.mapM f = .ok bs)
    (hf : ∀ a b, f a = .ok b → (x ∈ get b ↔ Q a)) : x ∈ bs.flatMap get ↔ ∃ a ∈ as, Q a := by
  have hall := mapM_eq_ok.1 h
  rw [List.mem_flatMap]
  constructor
  · rintro ⟨b, hb, hmem⟩
    obtain ⟨a, ha, hab⟩ := hall.exists_left hb
    exact ⟨a, ha, (hf a b hab).1 hmem⟩
  · rintro ⟨a, ha, hq⟩
    obtain ⟨b, hb, hab⟩ := hall.exists_right ha
    exact ⟨b, hb, (hf a b hab).2 hq⟩

/-- What the results of a sequence have of its members. -/
lemma map_eq_of_mapM {δ : Type*} {f : γ → Except ε β} {g : β → δ} {k : γ → δ} {as : List γ}
    {bs : List β} (h : as.mapM f = .ok bs) (hf : ∀ a b, f a = .ok b → g b = k a) :
    bs.map g = as.map k :=
  ((mapM_eq_ok.1 h).imp fun a b hab => (hf a b hab).symm).map_eq.symm

/-- A check before a computation. -/
lemma check_bind_eq_ok {x : Except ε PUnit} {f : PUnit → Except ε β} {b : β} :
    (x >>= f) = .ok b ↔ x = .ok ⟨⟩ ∧ f ⟨⟩ = .ok b := by
  rw [bind_eq_ok]
  constructor
  · rintro ⟨⟨⟩, hx, hf⟩
    exact ⟨hx, hf⟩
  · rintro ⟨hx, hf⟩
    exact ⟨⟨⟩, hx, hf⟩

/-- A loop of checks succeeds if every check does. -/
lemma forM_eq_ok {f : γ → Except ε PUnit} {as : List γ} :
    as.forM f = .ok ⟨⟩ ↔ ∀ a ∈ as, f a = .ok ⟨⟩ := by
  induction as with
  | nil => simp [List.forM]
  | cons a as ih =>
    have hcons : (a :: as).forM f = (f a >>= fun _ => as.forM f) := rfl
    rw [hcons, check_bind_eq_ok, List.forall_mem_cons, ih]

/-- A loop that updates a state with the result of each computation runs the computations in order
and then folds their results. -/
lemma foldlM_map {σ : Type v} (f : γ → Except ε β) (g : σ → β → σ) (as : List γ) (s : σ) :
    as.foldlM (fun s a => g s <$> f a) s = List.foldl g s <$> as.mapM f := by
  induction as generalizing s with
  | nil => rfl
  | cons a as ih =>
    rw [List.foldlM_cons, List.mapM_cons]
    rcases f a with e | b
    · rfl
    · show as.foldlM _ (g s b) = _
      rw [ih]
      rcases as.mapM f with e | bs <;> rfl

end Except
