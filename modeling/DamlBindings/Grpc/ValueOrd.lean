import DamlBindings.Grpc.Value
import DamlBindings.Lib.PartialCmp

/-!
# The equality and the order of ledger values

`PartialEq` and `PartialOrd` of `DamlValue` (`data/value/values.rs`), with the derived orders of
the records, variants, enums and identifiers they go through.
-/

namespace DamlBindings.Grpc

open PartialCmp (andThen ofOrd)

/-! ### Identifiers and enums: derived implementations -/

def DamlIdentifier.partialCmp (a b : DamlIdentifier) : Option Ordering :=
  andThen (ofOrd a.packageRef b.packageRef)
    (andThen (ofOrd a.moduleName b.moduleName) (ofOrd a.entityName b.entityName))

def DamlEnum.partialCmp (a b : DamlEnum) : Option Ordering :=
  andThen (PartialCmp.option DamlIdentifier.partialCmp a.enumId b.enumId)
    (ofOrd a.constructor b.constructor)

namespace DamlValue

variable {N D T : Type}

section Eq

variable [BEq N] [BEq D] [BEq T]

mutual

/-- The derived equality of `DamlValue`. -/
def beq : DamlValue N D T → DamlValue N D T → Bool
  | .record ⟨id₁, fs₁⟩, .record ⟨id₂, fs₂⟩ => id₁ == id₂ && beqFields fs₁ fs₂
  | .variant ⟨id₁, c₁, v₁⟩, .variant ⟨id₂, c₂, v₂⟩ => id₁ == id₂ && c₁ == c₂ && beq v₁ v₂
  | .enum e₁, .enum e₂ => e₁ == e₂
  | .contractId c₁, .contractId c₂ => c₁ == c₂
  | .list vs₁, .list vs₂ => beqList vs₁ vs₂
  | .int64 i₁, .int64 i₂ => i₁ == i₂
  | .numeric n₁, .numeric n₂ => n₁ == n₂
  | .text s₁, .text s₂ => s₁ == s₂
  | .timestamp t₁, .timestamp t₂ => t₁ == t₂
  | .party p₁, .party p₂ => p₁ == p₂
  | .bool b₁, .bool b₂ => b₁ == b₂
  | .unit, .unit => true
  | .date d₁, .date d₂ => d₁ == d₂
  | .optional none, .optional none => true
  | .optional (some v₁), .optional (some v₂) => beq v₁ v₂
  | .textMap m₁, .textMap m₂ => m₁.length == m₂.length && beqLookups m₁ m₂
  | .genMap m₁, .genMap m₂ => beqPairs m₁ m₂
  | _, _ => false
termination_by structural v => v

def beqFields : List (DamlRecordField (DamlValue N D T)) →
    List (DamlRecordField (DamlValue N D T)) → Bool
  | [], [] => true
  | ⟨l₁, v₁⟩ :: fs₁, ⟨l₂, v₂⟩ :: fs₂ => l₁ == l₂ && beq v₁ v₂ && beqFields fs₁ fs₂
  | _, _ => false
termination_by structural fs => fs

def beqList : List (DamlValue N D T) → List (DamlValue N D T) → Bool
  | [], [] => true
  | v₁ :: vs₁, v₂ :: vs₂ => beq v₁ v₂ && beqList vs₁ vs₂
  | _, _ => false
termination_by structural vs => vs

/-- Every entry of the first hash map has its key and an equal value in the second. -/
def beqLookups : List (String × DamlValue N D T) → List (String × DamlValue N D T) → Bool
  | [], _ => true
  | (k, v) :: m₁, m₂ =>
    (match m₂.lookup k with
      | some w => beq v w
      | none => false) && beqLookups m₁ m₂
termination_by structural m => m

def beqPairs : List (DamlValue N D T × DamlValue N D T) →
    List (DamlValue N D T × DamlValue N D T) → Bool
  | [], [] => true
  | (k₁, v₁) :: m₁, (k₂, v₂) :: m₂ => beq k₁ k₂ && beq v₁ v₂ && beqPairs m₁ m₂
  | _, _ => false
termination_by structural m => m

end

instance : BEq (DamlValue N D T) := ⟨beq⟩

end Eq

section Ord

variable [Ord N] [Ord D] [Ord T]

mutual

/-- `PartialOrd for DamlValue`: values of one constructor by their contents, others by their
ordinals. -/
def partialCmp : DamlValue N D T → DamlValue N D T → Option Ordering
  | .record ⟨id₁, fs₁⟩, .record ⟨id₂, fs₂⟩ =>
    andThen (PartialCmp.option DamlIdentifier.partialCmp id₁ id₂) (partialCmpFields fs₁ fs₂)
  | .variant ⟨id₁, c₁, v₁⟩, .variant ⟨id₂, c₂, v₂⟩ =>
    andThen (PartialCmp.option DamlIdentifier.partialCmp id₁ id₂)
      (andThen (ofOrd c₁ c₂) (partialCmp v₁ v₂))
  | .enum e₁, .enum e₂ => e₁.partialCmp e₂
  | .list vs₁, .list vs₂ => partialCmpList vs₁ vs₂
  | .int64 i₁, .int64 i₂ => ofOrd i₁ i₂
  | .numeric n₁, .numeric n₂ => ofOrd n₁ n₂
  | .text s₁, .text s₂ => ofOrd s₁ s₂
  | .party p₁, .party p₂ => ofOrd p₁.party p₂.party
  | .contractId c₁, .contractId c₂ => ofOrd c₁.contractId c₂.contractId
  | .timestamp t₁, .timestamp t₂ => ofOrd t₁ t₂
  | .bool b₁, .bool b₂ => ofOrd b₁ b₂
  | .unit, .unit => some .eq
  | .date d₁, .date d₂ => ofOrd d₁ d₂
  | .optional none, .optional none => some .eq
  | .optional none, .optional (some _) => some .lt
  | .optional (some _), .optional none => some .gt
  | .optional (some v₁), .optional (some v₂) => partialCmp v₁ v₂
  | .textMap m₁, .textMap m₂ =>
    if m₁.length = m₂.length then
      PartialCmp.list (PartialCmp.pair ofOrd fun c v => c v)
        (AssocMap.sortByKey compare (comparators m₁)) (AssocMap.sortByKey compare m₂)
    else ofOrd m₁.length m₂.length
  | .genMap m₁, .genMap m₂ =>
    if m₁.length = m₂.length then partialCmpPairs m₁ m₂ else ofOrd m₁.length m₂.length
  | a, b => ofOrd a.ordinal b.ordinal
termination_by structural v => v

def partialCmpFields : List (DamlRecordField (DamlValue N D T)) →
    List (DamlRecordField (DamlValue N D T)) → Option Ordering
  | [], [] => some .eq
  | [], _ :: _ => some .lt
  | _ :: _, [] => some .gt
  | ⟨l₁, v₁⟩ :: fs₁, ⟨l₂, v₂⟩ :: fs₂ =>
    andThen (andThen (PartialCmp.option ofOrd l₁ l₂) (partialCmp v₁ v₂)) (partialCmpFields fs₁ fs₂)
termination_by structural fs => fs

def partialCmpList : List (DamlValue N D T) → List (DamlValue N D T) → Option Ordering
  | [], [] => some .eq
  | [], _ :: _ => some .lt
  | _ :: _, [] => some .gt
  | v₁ :: vs₁, v₂ :: vs₂ => andThen (partialCmp v₁ v₂) (partialCmpList vs₁ vs₂)
termination_by structural vs => vs

/-- The entries of a text map with each value replaced by the comparison with it, which is
what is left to do once the entries are sorted by their keys. -/
def comparators : List (String × DamlValue N D T) →
    List (String × (DamlValue N D T → Option Ordering))
  | [] => []
  | (k, v) :: m => (k, partialCmp v) :: comparators m
termination_by structural m => m

def partialCmpPairs : List (DamlValue N D T × DamlValue N D T) →
    List (DamlValue N D T × DamlValue N D T) → Option Ordering
  | [], [] => some .eq
  | [], _ :: _ => some .lt
  | _ :: _, [] => some .gt
  | (k₁, v₁) :: m₁, (k₂, v₂) :: m₂ =>
    andThen (andThen (partialCmp k₁ k₂) (partialCmp v₁ v₂)) (partialCmpPairs m₁ m₂)
termination_by structural m => m

end

/-- `Ord for DamlValue`.  The `expect` of the source never fails (`partialCmp_isSome`); its
panic is the default here. -/
def cmp (a b : DamlValue N D T) : Ordering := (partialCmp a b).getD .eq

/-- The values the bindings can build: the keys of a text map are distinct and those of a gen
map strictly ascending, at every depth. -/
inductive Valid : DamlValue N D T → Prop
  | record {r} : (∀ f ∈ r.fields, Valid f.value) → Valid (.record r)
  | variant {x} : Valid x.value → Valid (.variant x)
  | enum (e) : Valid (.enum e)
  | contractId (c) : Valid (.contractId c)
  | list {vs} : (∀ v ∈ vs, Valid v) → Valid (.list vs)
  | int64 (i) : Valid (.int64 i)
  | numeric (n) : Valid (.numeric n)
  | text (s) : Valid (.text s)
  | timestamp (t) : Valid (.timestamp t)
  | party (p) : Valid (.party p)
  | bool (b) : Valid (.bool b)
  | unit : Valid .unit
  | date (d) : Valid (.date d)
  | optional {o} : (∀ v ∈ o, Valid v) → Valid (.optional o)
  | textMap {m} : (AssocMap.keys m).Nodup → (∀ p ∈ m, Valid p.2) → Valid (.textMap m)
  | genMap {m} : (AssocMap.keys m).Pairwise (fun k₁ k₂ => partialCmp k₁ k₂ = some .lt) →
      (∀ p ∈ m, Valid p.1) → (∀ p ∈ m, Valid p.2) → Valid (.genMap m)

end Ord

end DamlValue

end DamlBindings.Grpc
