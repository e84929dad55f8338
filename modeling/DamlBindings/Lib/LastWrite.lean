import Mathlib.Data.List.Induction
import Mathlib.Data.List.Infix
import Mathlib.Data.List.Nodup
import Mathlib.Tactic.Lemma

/-!
# Writes to named places

Objects are written one after the other, each to its own target, and the last one written to a
target stays there.  Where the targets are paths whose segments are named, two paths get one target
only if the names of two siblings coincide.
-/

namespace LastWrite

variable {τ α κ β : Type*} [DecidableEq τ]

/-- Write an object to its target. -/
def write (target : α → τ) (store : τ → Option α) (a : α) : τ → Option α :=
  Function.update store (target a) (some a)

/-- Write objects in order. -/
def writeAll (target : α → τ) (store : τ → Option α) (as : List α) : τ → Option α :=
  as.foldl (write target) store

variable {target : α → τ} {store : τ → Option α} {as : List α} {a : α} {t : τ}

lemma writeAll_append (bs : List α) :
    writeAll target store (as ++ bs) = writeAll target (writeAll target store as) bs :=
  List.foldl_append

lemma writeAll_concat : writeAll target store (as ++ [a]) =
    Function.update (writeAll target store as) (target a) (some a) :=
  writeAll_append [a]

/-- What is at a target that was written to is one of the objects. -/
lemma exists_of_mem (store : τ → Option α) (h : t ∈ as.map target) :
    ∃ a ∈ as, target a = t ∧ writeAll target store as t = some a := by
  induction as using List.reverseRecOn with
  | nil => cases h
  | append_singleton as b ih =>
    rw [writeAll_concat]
    by_cases hb : t = target b
    · subst hb
      exact ⟨b, by simp, rfl, Function.update_self ..⟩
    · have hmem : t ∈ as.map target := by simpa [hb] using h
      obtain ⟨a, ha, htarget, hlast⟩ := ih hmem
      exact ⟨a, by simp [ha], htarget, by rw [Function.update_of_ne hb, hlast]⟩

/-- With a target of its own every object stays. -/
lemma writeAll_of_nodup (h : (as.map target).Nodup) (ha : a ∈ as) :
    writeAll target store as (target a) = some a := by
  obtain ⟨b, hb, htarget, hlast⟩ := exists_of_mem store (List.mem_map_of_mem ha)
  rw [hlast, List.inj_on_of_nodup_map h hb ha htarget]

/-- The names along a path tell it from the other paths of a set that has the ways to its paths, if
the names of siblings tell these apart. -/
lemma eq_of_map_eq {W : List κ → Prop} {name : κ → β} (hway : ∀ p k, W (p ++ [k]) → p = [] ∨ W p)
    (hsibling : ∀ p k k', W (p ++ [k]) → W (p ++ [k']) → name k = name k' → k = k')
    {p q : List κ} (hp : W p) (hq : W q) (h : p.map name = q.map name) : p = q := by
  induction p using List.reverseRecOn generalizing q with
  | nil => simpa [eq_comm] using h
  | append_singleton p k ih =>
    obtain rfl | ⟨q, k', rfl⟩ := q.eq_nil_or_concat'
    · simp at h
    · rw [List.map_append, List.map_append] at h
      obtain ⟨hmap, hname⟩ := List.append_inj' h rfl
      have hpq : p = q := by
        rcases hway p k hp with rfl | hp'
        · simpa [eq_comm] using hmap
        · rcases hway q k' hq with rfl | hq'
          · simpa using hmap
          · exact ih hp' hq' hmap
      subst hpq
      rw [hsibling p k k' hp hq (List.cons.inj hname).1]

end LastWrite
