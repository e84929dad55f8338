import DamlBindings.Lf.Element

/-!
# The identity of data types

A data type, its variants and the name of a type constructor are compared by their package id,
their module path and their name (`element/daml_data.rs`).  The comparison of two module paths ends
with the shorter one.
-/

namespace DamlBindings.Lf

namespace DamlTyConName

/-- `module_path` -/
def modulePath : DamlTyConName → List String
  | .localTyCon c => c.modulePath
  | .nonLocal c => c.targetModulePath
  | .absolute c => c.modulePath

/-- `data_name` -/
def dataName : DamlTyConName → String
  | .localTyCon c => c.dataName
  | .nonLocal c => c.dataName
  | .absolute c => c.dataName

end DamlTyConName

/-- The trait `DataIdentity`. -/
class DataIdentity (α : Type) where
  packageId : α → String
  modulePath : α → List String
  identityName : α → String

instance : DataIdentity DamlData := ⟨DamlData.packageId, DamlData.modulePath, DamlData.name⟩

instance : DataIdentity DamlTemplate :=
  ⟨DamlTemplate.packageId, DamlTemplate.modulePath, DamlTemplate.name⟩

instance : DataIdentity DamlRecord := ⟨DamlRecord.packageId, DamlRecord.modulePath, DamlRecord.name⟩

instance : DataIdentity DamlVariant :=
  ⟨DamlVariant.packageId, DamlVariant.modulePath, DamlVariant.name⟩

instance : DataIdentity DamlEnum := ⟨DamlEnum.packageId, DamlEnum.modulePath, DamlEnum.name⟩

instance : DataIdentity DamlTyConName :=
  ⟨DamlTyConName.packageId, DamlTyConName.modulePath, DamlTyConName.dataName⟩

/-- `cmp_all`: the paths are compared as far as both go. -/
def cmpAll (left right : List String) : Bool := (left.zip right).all fun p => p.1 == p.2

open DataIdentity in
/-- `data_identity_eq` -/
def dataIdentityEq {α β : Type} [DataIdentity α] [DataIdentity β] (a : α) (b : β) : Bool :=
  packageId a == packageId b && cmpAll (modulePath a) (modulePath b) &&
    identityName a == identityName b

/-! ### The implementations of `PartialEq` -/

/-- The trait `PartialEq<β> for α`. -/
class PartialEq (α β : Type) where
  eq : α → β → Bool

instance : PartialEq DamlTemplate DamlTemplate := ⟨dataIdentityEq⟩
instance : PartialEq DamlTemplate DamlData := ⟨dataIdentityEq⟩
instance : PartialEq DamlRecord DamlRecord := ⟨dataIdentityEq⟩
instance : PartialEq DamlRecord DamlData := ⟨dataIdentityEq⟩
instance : PartialEq DamlVariant DamlVariant := ⟨dataIdentityEq⟩
instance : PartialEq DamlVariant DamlData := ⟨dataIdentityEq⟩
instance : PartialEq DamlEnum DamlEnum := ⟨dataIdentityEq⟩
instance : PartialEq DamlEnum DamlData := ⟨dataIdentityEq⟩
instance : PartialEq DamlData DamlTyConName := ⟨dataIdentityEq⟩
instance : PartialEq DamlData DamlTemplate := ⟨dataIdentityEq⟩
instance : PartialEq DamlData DamlRecord := ⟨dataIdentityEq⟩
instance : PartialEq DamlData DamlVariant := ⟨dataIdentityEq⟩
instance : PartialEq DamlData DamlEnum := ⟨dataIdentityEq⟩

/-- A name is compared with data the other way round. -/
instance : PartialEq DamlTyConName DamlData := ⟨fun name data => PartialEq.eq data name⟩

/-- A comparison of data with something that has its identity, or of two of one kind. -/
inductive IdentityComparison where
  | dataTyConName (a : DamlData) (b : DamlTyConName)
  | tyConNameData (a : DamlTyConName) (b : DamlData)
  | dataTemplate (a : DamlData) (b : DamlTemplate)
  | templateData (a : DamlTemplate) (b : DamlData)
  | dataRecord (a : DamlData) (b : DamlRecord)
  | recordData (a : DamlRecord) (b : DamlData)
  | dataVariant (a : DamlData) (b : DamlVariant)
  | variantData (a : DamlVariant) (b : DamlData)
  | dataEnum (a : DamlData) (b : DamlEnum)
  | enumData (a : DamlEnum) (b : DamlData)
  | templates (a b : DamlTemplate)
  | records (a b : DamlRecord)
  | variants (a b : DamlVariant)
  | enums (a b : DamlEnum)

/-- A qualified name. -/
structure QualifiedName where
  packageId : String
  modulePath : List String
  name : String
deriving DecidableEq

/-- The qualified name of what has an identity. -/
def qualifiedName {α : Type} [DataIdentity α] (a : α) : QualifiedName :=
  ⟨DataIdentity.packageId a, DataIdentity.modulePath a, DataIdentity.identityName a⟩

namespace IdentityComparison

/-- The result of `==`. -/
def result : IdentityComparison → Bool
  | .dataTyConName a b => PartialEq.eq a b
  | .tyConNameData a b => PartialEq.eq a b
  | .dataTemplate a b => PartialEq.eq a b
  | .templateData a b => PartialEq.eq a b
  | .dataRecord a b => PartialEq.eq a b
  | .recordData a b => PartialEq.eq a b
  | .dataVariant a b => PartialEq.eq a b
  | .variantData a b => PartialEq.eq a b
  | .dataEnum a b => PartialEq.eq a b
  | .enumData a b => PartialEq.eq a b
  | .templates a b => PartialEq.eq a b
  | .records a b => PartialEq.eq a b
  | .variants a b => PartialEq.eq a b
  | .enums a b => PartialEq.eq a b

/-- The qualified names of the two sides. -/
def names : IdentityComparison → QualifiedName × QualifiedName
  | .dataTyConName a b => (qualifiedName a, qualifiedName b)
  | .tyConNameData a b => (qualifiedName a, qualifiedName b)
  | .dataTemplate a b => (qualifiedName a, qualifiedName b)
  | .templateData a b => (qualifiedName a, qualifiedName b)
  | .dataRecord a b => (qualifiedName a, qualifiedName b)
  | .recordData a b => (qualifiedName a, qualifiedName b)
  | .dataVariant a b => (qualifiedName a, qualifiedName b)
  | .variantData a b => (qualifiedName a, qualifiedName b)
  | .dataEnum a b => (qualifiedName a, qualifiedName b)
  | .enumData a b => (qualifiedName a, qualifiedName b)
  | .templates a b => (qualifiedName a, qualifiedName b)
  | .records a b => (qualifiedName a, qualifiedName b)
  | .variants a b => (qualifiedName a, qualifiedName b)
  | .enums a b => (qualifiedName a, qualifiedName b)

end IdentityComparison

/-! ### What is compared -/

/-- The paths compare as equal if one begins with the other. -/
lemma cmpAll_iff {left right : List String} :
    cmpAll left right = true ↔ left <+: right ∨ right <+: left := by
  induction left generalizing right with
  | nil => simp [cmpAll]
  | cons a left ih =>
    rcases right with _ | ⟨b, right⟩
    · simp [cmpAll]
    · have hcons : cmpAll (a :: left) (b :: right) = (a == b && cmpAll left right) := rfl
      rw [hcons, Bool.and_eq_true, beq_iff_eq, ih, List.cons_prefix_cons, List.cons_prefix_cons,
        eq_comm (a := b), and_or_left]

/-- Two qualified names compare as equal. -/
def QualifiedName.Agrees (a b : QualifiedName) : Prop :=
  a.packageId = b.packageId ∧ a.name = b.name ∧
    (a.modulePath <+: b.modulePath ∨ b.modulePath <+: a.modulePath)

lemma QualifiedName.Agrees.symm {a b : QualifiedName} (h : a.Agrees b) : b.Agrees a :=
  ⟨h.1.symm, h.2.1.symm, h.2.2.symm⟩

lemma dataIdentityEq_iff {α β : Type} [DataIdentity α] [DataIdentity β] {a : α} {b : β} :
    dataIdentityEq a b = true ↔ (qualifiedName a).Agrees (qualifiedName b) := by
  rw [dataIdentityEq, Bool.and_eq_true, Bool.and_eq_true, beq_iff_eq, beq_iff_eq, cmpAll_iff]
  exact ⟨fun ⟨⟨hpackage, hpath⟩, hname⟩ => ⟨hpackage, hname, hpath⟩,
    fun ⟨hpackage, hname, hpath⟩ => ⟨⟨hpackage, hpath⟩, hname⟩⟩

/-- All implementations compare the same. -/
lemma IdentityComparison.result_iff (c : IdentityComparison) :
    c.result = true ↔ c.names.1.Agrees c.names.2 := by
  cases c with
  | tyConNameData a b =>
    have hswap : (tyConNameData a b).result = dataIdentityEq b a := rfl
    rw [hswap, dataIdentityEq_iff]
    exact ⟨QualifiedName.Agrees.symm, QualifiedName.Agrees.symm⟩
  | _ => exact dataIdentityEq_iff

/-- A comparison says whether the qualified names are equal, unless they differ only in that one
module path goes on where the other ends. -/
theorem IdentityComparison.result_eq_true_iff_names_eq (c : IdentityComparison) :
    (c.result = true ↔ c.names.1 = c.names.2) ↔
      ¬ (c.names.1.packageId = c.names.2.packageId ∧ c.names.1.name = c.names.2.name ∧
        c.names.1.modulePath ≠ c.names.2.modulePath ∧
        (c.names.1.modulePath <+: c.names.2.modulePath ∨
          c.names.2.modulePath <+: c.names.1.modulePath)) := by
  rw [c.result_iff]
  generalize c.names.1 = a
  generalize c.names.2 = b
  have hpaths : a = b ↔ a.packageId = b.packageId ∧ a.modulePath = b.modulePath ∧
      a.name = b.name := by
    rcases a with ⟨_, _, _⟩
    rcases b with ⟨_, _, _⟩
    exact QualifiedName.mk.injEq .. ▸ Iff.rfl
  rw [hpaths]
  constructor
  · rintro h ⟨hpackage, hname, hne, hprefix⟩
    exact hne (h.1 ⟨hpackage, hname, hprefix⟩).2.1
  · intro h
    constructor
    · rintro ⟨hpackage, hname, hprefix⟩
      refine ⟨hpackage, ?_, hname⟩
      by_contra hne
      exact h ⟨hpackage, hname, hne, hprefix⟩
    · rintro ⟨hpackage, hpath, hname⟩
      exact ⟨hpackage, hname, .inl (hpath ▸ List.prefix_refl _)⟩

/-- The record `A:T` is equal to the name `A.B:T`. -/
theorem IdentityComparison.result_prefix :
    ¬ ∀ c : IdentityComparison, c.result = true ↔ c.names.1 = c.names.2 := by
  intro hall
  have heq := (hall (.dataTyConName (.record ⟨"T", "pkg", ["A"], [], [], true⟩)
    (.absolute ⟨"T", "pkg", "p", ["A", "B"]⟩))).1 rfl
  have hpath := congrArg (fun n => n.modulePath.length) heq
  cases hpath

end DamlBindings.Lf
