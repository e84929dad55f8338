import DamlBindings.Lf.Integrity

/-!
# The validation of a type

`DamlArchive::validate_type` looks at a type with a stack of its own in the place of a recursion.
Here is its loop, turn by turn, with what each kind of type puts on the stack, and the recursion
over types that it stands for.
-/

namespace DamlBindings.Lf

open Worklist

/-! ### The recursion -/

namespace DamlType

mutual

/-- The names of the type constructors and boxed type constructors in a type, at any depth. -/
def constructorNames : DamlType → List DamlTyConName
  | .tyCon tycon args => tycon :: constructorNamesAll args
  | .boxedTyCon tycon args => tycon :: constructorNamesAll args
  | .contractId inner => constructorNamesInner inner
  | .numeric args => constructorNamesAll args
  | .list args => constructorNamesAll args
  | .textMap args => constructorNamesAll args
  | .genMap args => constructorNamesAll args
  | .optional args => constructorNamesAll args
  | .var _ args => constructorNamesAll args
  | .forAll _ body => constructorNames body
  | .struct fields => constructorNamesFields fields
  | .syn _ args => constructorNamesAll args
  | .text | .int64 | .timestamp | .party | .bool | .unit | .date | .nat _ | .arrow | .any
  | .typeRep | .bignumeric | .roundingMode | .anyException | .update | .failureCategory => []
termination_by structural t => t

def constructorNamesAll : List DamlType → List DamlTyConName
  | [] => []
  | t :: ts => constructorNames t ++ constructorNamesAll ts
termination_by structural ts => ts

def constructorNamesInner : Option DamlType → List DamlTyConName
  | none => []
  | some t => constructorNames t
termination_by structural o => o

def constructorNamesFields : List (DamlField DamlType) → List DamlTyConName
  | [] => []
  | ⟨_, t⟩ :: fields => constructorNames t ++ constructorNamesFields fields
termination_by structural fields => fields

end

lemma constructorNamesAll_eq (ts : List DamlType) :
    constructorNamesAll ts = ts.flatMap constructorNames := by
  induction ts with
  | nil => rfl
  | cons t ts ih => exact congrArg (constructorNames t ++ ·) ih

lemma constructorNamesFields_eq (fields : List (DamlField DamlType)) :
    constructorNamesFields fields = (fields.map DamlField.ty).flatMap constructorNames := by
  induction fields with
  | nil => rfl
  | cons f fields ih => exact congrArg (constructorNames f.ty ++ ·) ih

/-- The recursion finds the name at the top, and then those in the immediate parts. -/
lemma constructorNames_eq (t : DamlType) :
    t.constructorNames = t.head?.toList ++ t.components.flatMap constructorNames := by
  cases t with
  | tyCon tycon args => exact congrArg (tycon :: ·) (constructorNamesAll_eq args)
  | boxedTyCon tycon args => exact congrArg (tycon :: ·) (constructorNamesAll_eq args)
  | contractId inner =>
    rcases inner with _ | inner
    · rfl
    · exact (List.append_nil _).symm
  | numeric args => exact constructorNamesAll_eq args
  | list args => exact constructorNamesAll_eq args
  | textMap args => exact constructorNamesAll_eq args
  | genMap args => exact constructorNamesAll_eq args
  | optional args => exact constructorNamesAll_eq args
  | var v args => exact constructorNamesAll_eq args
  | forAll vars body => exact (List.append_nil _).symm
  | struct fields => exact constructorNamesFields_eq fields
  | syn tysyn args => exact constructorNamesAll_eq args
  | _ => rfl

/-- The names that the recursion finds are those that occur in the type. -/
lemma mem_constructorNames_iff {t : DamlType} {n : DamlTyConName} :
    n ∈ t.constructorNames ↔ t.Mentions n := by
  constructor
  · intro h
    induction t using shrinks_components.wellFounded.induction with
    | _ t ih =>
      rw [constructorNames_eq, List.mem_append, Option.mem_toList, List.mem_flatMap] at h
      rcases h with h | ⟨c, hc, h⟩
      · exact .head h
      · exact .inside hc (ih c hc h)
  · intro h
    induction h with
    | head h =>
      rw [constructorNames_eq]
      exact List.mem_append_left _ (Option.mem_toList.2 h)
    | inside hc _ ih =>
      rw [constructorNames_eq]
      exact List.mem_append_right _ (List.mem_flatMap.2 ⟨_, hc, ih⟩)

end DamlType

/-! ### The loop -/

namespace DamlArchive

variable (A : DamlArchive)

/-- The loop of `validate_type`, for a number of turns: `none` is a loop that is still running.  The
head of the list is the top of the stack. -/
def validateTypeLoop : Nat → List DamlType → Option (DamlLfConvertResult Unit)
  | _, [] => some (.ok ())
  | 0, _ :: _ => none
  | turns + 1, t :: stack =>
    match t with
    | .tyCon tycon args | .boxedTyCon tycon args =>
      match A.validateTyconName tycon with
      | .error e => some (.error e)
      | .ok () => validateTypeLoop turns (args.reverse ++ stack)
    | .contractId (some boxed) => validateTypeLoop turns (boxed :: stack)
    | .contractId none => validateTypeLoop turns stack
    | .numeric args | .list args | .textMap args | .genMap args | .optional args =>
      validateTypeLoop turns (args.reverse ++ stack)
    | .var _ args => validateTypeLoop turns (args.reverse ++ stack)
    | .forAll _ body => validateTypeLoop turns (body :: stack)
    | .struct fields => validateTypeLoop turns ((fields.map DamlField.ty).reverse ++ stack)
    | .syn _ args => validateTypeLoop turns (args.reverse ++ stack)
    | .text | .int64 | .timestamp | .party | .bool | .unit | .date | .nat _ | .arrow | .any
    | .typeRep | .bignumeric | .roundingMode | .anyException | .update | .failureCategory =>
      validateTypeLoop turns stack

variable {A}

/-- The loop is that of a walk over the immediate parts of types. -/
lemma validateTypeLoop_eq (turns : Nat) (stack : List DamlType) :
    A.validateTypeLoop turns stack = loop DamlType.components A.validateTypeNode turns stack := by
  induction turns generalizing stack with
  | zero => cases stack <;> rfl
  | succ turns ih =>
    cases stack with
    | nil => rfl
    | cons t stack =>
      cases t with
      | tyCon tycon args =>
        rw [loop, validateTypeLoop, validateTypeNode]
        rcases A.validateTyconName tycon with e | ⟨⟩
        · rfl
        · exact ih _
      | boxedTyCon tycon args =>
        rw [loop, validateTypeLoop, validateTypeNode]
        rcases A.validateTyconName tycon with e | ⟨⟩
        · rfl
        · exact ih _
      | contractId inner =>
        rcases inner with _ | boxed
        · exact ih _
        · exact ih _
      | _ => exact ih _

/-- A loop that has ended has the result of `validate_type`. -/
lemma eq_validateType_of_loop {turns : Nat} {ty : DamlType} {result : DamlLfConvertResult Unit}
    (h : A.validateTypeLoop turns [ty] = some result) : result = A.validateType ty := by
  rw [validateTypeLoop_eq] at h
  exact eq_walk_of_loop DamlType.shrinks_components h

/-- The loop of `validate_type` ends, and where it has ended it has succeeded if and only if every
name of a type constructor in the type, at any depth, is that of a data type or an interface of the
archive. -/
theorem validateTypeLoop_terminates_and_exact (A : DamlArchive) (ty : DamlType) :
    (∃ turns, A.validateTypeLoop turns [ty] ≠ none) ∧
      ∀ turns result, A.validateTypeLoop turns [ty] = some result →
        (result = .ok () ↔ ∀ n ∈ ty.constructorNames,
          (∃ d, A.dataByTyconName n = some d) ∨ ∃ i, A.interfaceByTyconName n = some i) := by
  obtain ⟨size, hsize⟩ := DamlType.shrinks_components
  refine ⟨⟨([ty].map size).sum, ?_⟩, fun turns result h => ?_⟩
  · rw [validateTypeLoop_eq]
    exact loop_ne_none hsize (Nat.le_refl _)
  · rw [eq_validateType_of_loop h, validateType_eq_ok]
    refine forall_congr' fun n => ?_
    rw [DamlType.mem_constructorNames_iff, Resolves, Option.isSome_iff_exists,
      Option.isSome_iff_exists]

/-- The argument of a variable in the field of a structure is looked at. -/
example : validateTypeLoop ⟨"empty", "pkg", []⟩ 3
    [.struct [⟨"field", .var "f" [.boxedTyCon (.localTyCon ⟨"T", "pkg", "", []⟩) []]⟩]] =
      some (.error (.unknownPackage "pkg")) := rfl

end DamlArchive

end DamlBindings.Lf
