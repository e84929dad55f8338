import DamlBindings.Macro.DamlPath
import Mathlib.Data.List.Basic

/-!
# What `daml_path!` accepts

The documentation of `daml_path!` gives its syntax as elements `field{=>variant}[index]?` with `/`
between them and a type specifier at the end.  The macro expands these inputs and no others, each
to the code of its elements one inside the other.
-/

namespace DamlBindings.Macro

/-! ### The syntax -/

namespace PathElement

variable (e : PathElement)

/-- What follows the field. -/
def suffix : List TokenTree :=
  e.variant.toList.map (fun v => .braces [.fatArrow, .ident v]) ++
    e.index.toList.map (fun i => .brackets (some i)) ++ if e.optional then [.question] else []

def tokens : List TokenTree := .ident e.field :: e.suffix

end PathElement

/-- The tokens of the type specifier at the end. -/
def typeTokens : Option String → List TokenTree
  | some type => [.pathSep, .ident type]
  | none => []

/-- A path expression: elements in front of the last one, and the type of what it reads. -/
structure DamlPath where
  init : List PathElement
  last : PathElement
  type : Option TypeSpecifier
deriving DecidableEq

namespace DamlPath

variable (p : DamlPath)

def tokens : List TokenTree :=
  (p.init.flatMap fun e => e.tokens ++ [.slash]) ++ p.last.tokens ++
    typeTokens (p.type.map TypeSpecifier.code)

/-- The code of the elements, one inside the other. -/
def body : Expansion := p.init.foldr .nonFinal (.final p.last (.leaf p.type))

def expansion : Expansion := .closure p.body

variable {e last : PathElement} {init : List PathElement} {type : Option TypeSpecifier}

lemma tokens_nil : (⟨[], last, type⟩ : DamlPath).tokens =
    last.tokens ++ typeTokens (type.map TypeSpecifier.code) := by
  simp [tokens]

lemma tokens_cons : (⟨e :: init, last, type⟩ : DamlPath).tokens =
    e.tokens ++ .slash :: (⟨init, last, type⟩ : DamlPath).tokens := by
  simp [tokens]

end DamlPath

/-! ### What the rules take -/

section Rules

variable {path variant : String} {ts rest : List TokenTree} {index : Nat} {type : Option String}
  {a : Arm}

lemma of_matchVariant {variant : Option String} (h : matchVariant ts = (variant, rest)) :
    ts = variant.toList.map (fun v => .braces [.fatArrow, .ident v]) ++ rest := by
  unfold matchVariant at h
  split at h <;> cases h <;> rfl

lemma of_matchIndex (h : matchIndex ts = some (index, rest)) :
    ts = .brackets (some index) :: rest := by
  unfold matchIndex at h
  split at h <;> cases h
  rfl

lemma of_matchQuestion (h : matchQuestion ts = some rest) : ts = .question :: rest := by
  unfold matchQuestion at h
  split at h <;> cases h
  rfl

lemma of_matchType (h : matchType ts = some type) : ts = typeTokens type := by
  unfold matchType at h
  split at h <;> cases h <;> rfl

@[simp] lemma matchType_typeTokens : matchType (typeTokens type) = some type := by
  cases type <;> rfl

/-- What a rule for a path element matched is what stands in the input. -/
def Reads (path : String) (ts : List TokenTree) : Arm → Prop
  | .final e type => e.field = path ∧ ts = e.suffix ++ typeTokens type
  | .nonFinal e rest => e.field = path ∧ ts = e.suffix ++ rest
  | _ => False

lemma reads_final (h : finalListOptional path ts = some a ∨ finalList path ts = some a ∨
    finalPlain path ts = some a ∨ finalOptional path ts = some a) : Reads path ts a := by
  rcases hv : matchVariant ts with ⟨variant, us⟩
  rw [finalListOptional, finalList, finalPlain, finalOptional, hv] at h
  obtain rfl := of_matchVariant hv
  rcases h with h | h | h | h
  · obtain ⟨⟨index, rest⟩, hi, h⟩ := Option.bind_eq_some_iff.1 h
    obtain ⟨rest', hq, h⟩ := Option.bind_eq_some_iff.1 h
    obtain ⟨type, ht, h⟩ := Option.bind_eq_some_iff.1 h
    cases h
    refine ⟨rfl, ?_⟩
    rw [of_matchIndex hi, of_matchQuestion hq, of_matchType ht]
    simp [PathElement.suffix]
  · obtain ⟨⟨index, rest⟩, hi, h⟩ := Option.bind_eq_some_iff.1 h
    obtain ⟨type, ht, h⟩ := Option.bind_eq_some_iff.1 h
    cases h
    refine ⟨rfl, ?_⟩
    rw [of_matchIndex hi, of_matchType ht]
    simp [PathElement.suffix]
  · obtain ⟨type, ht, h⟩ := Option.bind_eq_some_iff.1 h
    cases h
    refine ⟨rfl, ?_⟩
    rw [of_matchType ht]
    simp [PathElement.suffix]
  · obtain ⟨rest, hq, h⟩ := Option.bind_eq_some_iff.1 h
    obtain ⟨type, ht, h⟩ := Option.bind_eq_some_iff.1 h
    cases h
    refine ⟨rfl, ?_⟩
    rw [of_matchQuestion hq, of_matchType ht]
    simp [PathElement.suffix]

lemma reads_nonFinal (h : nonFinalListOptional path ts = some a ∨ nonFinalList path ts = some a ∨
    nonFinalOptional path ts = some a ∨ nonFinalVariant path ts = some a ∨
    nonFinalPlain path ts = some a) : Reads path ts a := by
  rcases hv : matchVariant ts with ⟨variant, us⟩
  rw [nonFinalListOptional, nonFinalList, nonFinalOptional, hv] at h
  have hts := of_matchVariant hv
  rcases h with h | h | h | h | h
  · obtain ⟨⟨index, rest⟩, hi, h⟩ := Option.bind_eq_some_iff.1 h
    obtain ⟨rest', hq, h⟩ := Option.bind_eq_some_iff.1 h
    cases h
    refine ⟨rfl, ?_⟩
    rw [hts, of_matchIndex hi, of_matchQuestion hq]
    simp [PathElement.suffix]
  · obtain ⟨⟨index, rest⟩, hi, h⟩ := Option.bind_eq_some_iff.1 h
    cases h
    refine ⟨rfl, ?_⟩
    rw [hts, of_matchIndex hi]
    simp [PathElement.suffix]
  · obtain ⟨rest, hq, h⟩ := Option.bind_eq_some_iff.1 h
    cases h
    refine ⟨rfl, ?_⟩
    rw [hts, of_matchQuestion hq]
    simp [PathElement.suffix]
  · unfold nonFinalVariant at h
    split at h <;> cases h
    exact ⟨rfl, by simp [PathElement.suffix]⟩
  · unfold nonFinalPlain at h
    split at h <;> cases h
    exact ⟨rfl, by simp [PathElement.suffix]⟩

lemma reads_of_pathArm (h : pathArm path ts = some a) : Reads path ts a := by
  simp only [pathArm, Option.orElse_eq_orElse, Option.orElse_eq_or, Option.or_eq_some_iff] at h
  by_cases hf : finalListOptional path ts = some a ∨ finalList path ts = some a ∨
      finalPlain path ts = some a ∨ finalOptional path ts = some a
  · exact reads_final hf
  · refine reads_nonFinal ?_
    tauto

/-- The last element of a path, with nothing behind it but the type. -/
lemma pathArm_final (e : PathElement) (type : Option String) :
    pathArm e.field (e.suffix ++ typeTokens type) = some (.final e type) := by
  obtain ⟨field, _ | variant, _ | index, _ | _⟩ := e <;> cases type <;> rfl

/-- An element with another one behind it. -/
lemma pathArm_nonFinal (e : PathElement) (rest : List TokenTree) :
    pathArm e.field (e.suffix ++ .slash :: rest) = some (.nonFinal e (.slash :: rest)) := by
  obtain ⟨field, _ | variant, _ | index, _ | _⟩ := e <;> rfl

/-- The rules for a non-final element leave something of the input. -/
lemma pathArm_ne_nil {e : PathElement} (h : pathArm path ts = some (.nonFinal e rest)) :
    rest ≠ [] := by
  rintro rfl
  obtain ⟨rfl, rfl⟩ := reads_of_pathArm h
  have hfinal := pathArm_final e none
  rw [typeTokens, h] at hfinal
  cases hfinal

end Rules

/-! ### What expands -/

section Expand

variable {limit : Nat} {r : String} {ts : List TokenTree} {code : Expansion}

lemma expand_of_arm {a : Arm} (h : arm ts = some a) :
    expand (limit + 1) ts = a.transcribe (expand limit) := by
  rw [expand, h]
  rfl

/-- A private input that the public rule has taken is never taken by another one. -/
lemma expand_entryCall_at : expand limit (entryCall (.at :: ts)) = none := by
  induction limit generalizing ts with
  | zero => rfl
  | succ limit ih =>
    have harm : arm (entryCall (.at :: ts)) = some (.entry (entryCall (.at :: ts))) := rfl
    have hnone : expand limit (entryCall (entryCall (.at :: ts))) = none := ih
    rw [expand_of_arm harm, Arm.transcribe, hnone, Option.map_none]

/-- What the public rule takes does not expand if it begins as a private input. -/
lemma expand_of_entry (h : arm (.at :: ts) = some (.entry (.at :: ts))) :
    expand limit (.at :: ts) = none := by
  cases limit with
  | zero => rfl
  | succ limit =>
    rw [expand_of_arm h, Arm.transcribe, expand_entryCall_at, Option.map_none]

/-- A type specifier expands to its accessor. -/
lemma expand_leafCall {type : Option String} : expand limit (leafCall type) = some code ↔
    0 < limit ∧ ∃ t : Option TypeSpecifier, t.map TypeSpecifier.code = type ∧ code = .leaf t := by
  obtain _ | limit := limit
  · simp [expand]
  · rcases type with _ | name
    · have harm : arm (leafCall none) = some (.leaf none) := rfl
      rw [expand_of_arm harm]
      simp [Arm.transcribe, eq_comm]
    · rcases ht : TypeSpecifier.ofCode name with _ | t
      · have harm : arm (leafCall (some name)) = some (.entry (leafCall (some name))) := by
          show arm [.at, .ident "priv", .ident name, .ident "value"] = _
          rw [arm, ht]
          rfl
        have hnone : expand (limit + 1) (leafCall (some name)) = none := expand_of_entry harm
        rw [hnone]
        constructor
        · intro h
          cases h
        · rintro ⟨-, _ | t, hcode, -⟩
          · cases hcode
          · obtain rfl := Option.some.inj hcode
            rw [TypeSpecifier.ofCode_code] at ht
            cases ht
      · have harm : arm (leafCall (some name)) = some (.leaf (some t)) := by
          show arm [.at, .ident "priv", .ident name, .ident "value"] = _
          rw [arm, ht]
        rw [expand_of_arm harm]
        obtain rfl := TypeSpecifier.code_of_ofCode ht
        constructor
        · rintro ⟨⟩
          exact ⟨Nat.succ_pos _, some t, rfl, rfl⟩
        · rintro ⟨-, t', hcode, rfl⟩
          cases t' with
          | none => cases hcode
          | some t' =>
            have ht' := TypeSpecifier.ofCode_code t'
            rw [Option.some.inj hcode, ht] at ht'
            rw [ht', Arm.transcribe]

/-- What follows a non-final element is an element behind a `/`, or it does not expand. -/
lemma expand_restCall {rest : List TokenTree} (hne : rest ≠ [])
    (h : expand limit (restCall rest) = some code) :
    ∃ field ts, rest = .slash :: .ident field :: ts := by
  by_contra hshape
  have harm : arm (restCall rest) = some (.entry (restCall rest)) := by
    unfold restCall arm
    split
    · next heq =>
      simp only [List.cons.injEq, TokenTree.ident.injEq, true_and] at heq
      exact absurd ⟨_, _, heq.2⟩ hshape
    · next heq =>
      simp only [List.cons.injEq, TokenTree.ident.injEq, true_and] at heq
      exact absurd heq.2 hne
    · next type value heq =>
      simp only [List.cons.injEq, TokenTree.ident.injEq, true_and] at heq
      obtain ⟨rfl, rfl⟩ := heq
      rfl
    · rfl
  rw [restCall, expand_of_entry harm] at h
  cases h

/-- `daml_path!( @priv $record / $($ts)* )` -/
def pathCall (r : String) (ts : List TokenTree) : List TokenTree :=
  .at :: .ident "priv" :: .ident r :: .slash :: ts

lemma arm_pathCall {path : String} : arm (pathCall r (.ident path :: ts)) = pathArm path ts := rfl

/-- A private input that expands begins with a field. -/
lemma expand_pathCall_head (h : expand limit (pathCall r ts) = some code) :
    ∃ path us, ts = .ident path :: us := by
  by_contra hshape
  have harm : arm (pathCall r ts) = some (.entry (pathCall r ts)) := by
    unfold pathCall arm
    split
    · next heq =>
      simp only [List.cons.injEq, TokenTree.ident.injEq, true_and] at heq
      exact absurd ⟨_, _, heq.2⟩ hshape
    · next heq => cases heq
    · next heq => cases heq
    · rfl
  rw [pathCall, expand_of_entry harm] at h
  cases h

/-- By induction on the limit: each element takes one call. -/
lemma expand_pathCall : expand limit (pathCall r ts) = some code ↔
    ∃ p : DamlPath, p.tokens = ts ∧ p.body = code ∧ p.init.length + 2 ≤ limit := by
  induction limit generalizing r ts code with
  | zero => simp [expand]
  | succ limit ih =>
    constructor
    · intro h
      obtain ⟨path, us, rfl⟩ := expand_pathCall_head h
      rw [expand, arm_pathCall] at h
      obtain ⟨a, ha, hcode⟩ := Option.bind_eq_some_iff.1 h
      have hreads := reads_of_pathArm ha
      cases a with
      | final e type =>
        obtain ⟨rfl, rfl⟩ := hreads
        obtain ⟨leaf, hleaf, rfl⟩ := Option.map_eq_some_iff.1 hcode
        obtain ⟨hlimit, t, rfl, rfl⟩ := expand_leafCall.1 hleaf
        refine ⟨⟨[], e, t⟩, DamlPath.tokens_nil, rfl, ?_⟩
        show 0 + 2 ≤ limit + 1
        omega
      | nonFinal e rest =>
        obtain ⟨rfl, rfl⟩ := hreads
        obtain ⟨code, hrest, rfl⟩ := Option.map_eq_some_iff.1 hcode
        obtain ⟨field, ts, rfl⟩ := expand_restCall (pathArm_ne_nil ha) hrest
        obtain ⟨p, htokens, rfl, hlimit⟩ := ih.1 hrest
        refine ⟨⟨e :: p.init, p.last, p.type⟩, ?_, rfl, ?_⟩
        · rw [DamlPath.tokens_cons, htokens]
          rfl
        · rw [List.length_cons]
          omega
      | leaf type => exact hreads.elim
      | entry tokens => exact hreads.elim
    · rintro ⟨⟨init, last, type⟩, rfl, rfl, hlimit⟩
      cases init with
      | nil =>
        have harm : arm (pathCall r (last.tokens ++ typeTokens (type.map TypeSpecifier.code))) =
            some (.final last (type.map TypeSpecifier.code)) := pathArm_final last _
        have hleaf : expand limit (leafCall (type.map TypeSpecifier.code)) = some (.leaf type) := by
          rw [List.length_nil] at hlimit
          exact expand_leafCall.2 ⟨by omega, type, rfl, rfl⟩
        rw [DamlPath.tokens_nil, expand_of_arm harm, Arm.transcribe, hleaf]
        rfl
      | cons e init =>
        have harm : arm
          (pathCall r (e.tokens ++ .slash :: (⟨init, last, type⟩ : DamlPath).tokens)) =
            some (.nonFinal e (.slash :: (⟨init, last, type⟩ : DamlPath).tokens)) :=
          pathArm_nonFinal e _
        have hrest : expand limit (restCall (.slash :: (⟨init, last, type⟩ : DamlPath).tokens)) =
            some (⟨init, last, type⟩ : DamlPath).body := by
          rw [List.length_cons] at hlimit
          exact ih.2 ⟨⟨init, last, type⟩, rfl, rfl, Nat.le_of_succ_le_succ hlimit⟩
        rw [DamlPath.tokens_cons, expand_of_arm harm, Arm.transcribe, hrest]
        rfl

end Expand

/-- `daml_path!` expands exactly the path expressions that its documentation describes and whose
elements the recursion limit lets it reach, each to the code of that path: no order of its rules, no
ambiguity between them and no fallback to its public rule accepts another input or expands a path
to other code.  The inputs are those of a user, which do not begin with the `@` of the private
rules. -/
theorem expand_eq_some_iff {limit : Nat} {ts : List TokenTree} {code : Expansion}
    (huser : ∀ us, ts ≠ .at :: us) : expand limit ts = some code ↔
      ∃ p : DamlPath, p.tokens = ts ∧ p.expansion = code ∧ p.init.length + 3 ≤ limit := by
  have harm : arm ts = some (.entry ts) := by
    unfold arm
    split
    · exact absurd rfl (huser _)
    · exact absurd rfl (huser _)
    · exact absurd rfl (huser _)
    · rfl
  cases limit with
  | zero => simp [expand]
  | succ limit =>
    rw [expand_of_arm harm, Arm.transcribe, Option.map_eq_some_iff]
    constructor
    · rintro ⟨body, hbody, rfl⟩
      obtain ⟨p, htokens, rfl, hlimit⟩ := expand_pathCall.1 hbody
      exact ⟨p, htokens, rfl, by omega⟩
    · rintro ⟨p, htokens, rfl, hlimit⟩
      exact ⟨p.body, expand_pathCall.2 ⟨p, htokens, rfl, by omega⟩, rfl⟩

/-- `items[0] / a::t` -/
theorem expand_items : expand 128 [.ident "items", .brackets (some 0), .slash, .ident "a", .pathSep,
    .ident "t"] = some (DamlPath.expansion
      ⟨[⟨"items", none, some 0, false⟩], ⟨"a", none, none, false⟩, some .text⟩) :=
  (expand_eq_some_iff fun us h => by cases h).2 ⟨_, rfl, rfl, by decide⟩

end DamlBindings.Macro
