import DamlBindings.Lib.BreadthFirst
import DamlBindings.Lf.ConvertModule
import DamlBindings.Lf.VisitTree

/-!
# The packages that a package needs

`DamlPackages::reachable_from` follows the package ids that the packages refer to, which
`collect_referenced_package_ids` reads off a visit of the converted package.  A hash set is listed
in its iteration order, which is any order.
-/

namespace DamlBindings.Util

open Lf Worklist

/-! ### The packages that a package refers to -/

/-- `DamlLfArchivePayload`. -/
structure DamlLfArchivePayload where
  languageVersion : LanguageVersion
  package : Proto.Package

/-- `apply_dalf`, with the package that the function is applied to as the result. -/
def applyDalf (fuel : Nat) (dalf : DamlLfArchive) : ConvertRun DamlPackage := do
  let packagePayload ← .lift
    (DamlPackagePayload.tryFrom dalf.hash dalf.languageVersion dalf.package)
  let archive ← (DamlArchivePayload.fromSinglePackage packagePayload).buildArchive fuel
  match archive.packages.head? with
  | some package => pure package.2
  | none => .error (.err (.internalError "single-package archive must have one package"))

/-- `apply_payload`: the archive of a payload is unnamed and has no hash. -/
def applyPayload (fuel : Nat) (payload : DamlLfArchivePayload) : ConvertRun DamlPackage :=
  applyDalf fuel ⟨"unnamed", "", payload.languageVersion, payload.package⟩

/-- What `ReferencedPackagesVisitor` records of an element. -/
def referencedPackage? : Element → Option String
  | .absoluteTycon c => some c.packageId
  | .nonLocalTycon c => some c.targetPackageId
  | .nonLocalValueName c => some c.targetPackageId
  | _ => none

/-- `ReferencedPackagesVisitor::record`. -/
def record (selfPackageId : String) (referenced : List String) (pkg : String) : List String :=
  if pkg ≠ "" ∧ pkg ≠ selfPackageId then referenced.insert pkg else referenced

/-- The packages that a `ReferencedPackagesVisitor` has recorded after a visit of the package. -/
def referencedPackages (package : DamlPackage) : List String :=
  (visited referencedPackage? (package.accept ⟨fun _ => false⟩ [])).foldl
    (record package.packageId) []

/-- `collect_referenced_package_ids`. -/
def collectReferencedPackageIds (fuel : Nat) (payload : DamlLfArchivePayload) :
    ConvertRun (List String) :=
  referencedPackages <$> applyPayload fuel payload

/-! ### The search -/

/-- The order in which a hash set is iterated over. -/
structure IterationOrder (α : Type) where
  list : List α → List α
  perm : ∀ xs, (list xs).Perm xs

variable (order : IterationOrder String) (fuel : Nat)
  (payloads : List (String × DamlLfArchivePayload))

/-- The ids that the search puts in its queue after a package, if it has not seen them; what is
not in the payload map has none. -/
def references (id : String) : ConvertRun (List String) :=
  match payloads.lookup id with
  | none => .ok []
  | some payload => order.list <$> collectReferencedPackageIds fuel payload

/-- `reachable_from`, for a number of turns of its loop. -/
def reachableFrom (root : String) (turns : Nat) : Option (ConvertRun (List String)) :=
  BreadthFirst.loop (references order fuel payloads) turns [] [root]

/-- The package of the first id is in the payload map and refers to the second id. -/
def Refers (id id' : String) : Prop :=
  ∃ payload refs, payloads.lookup id = some payload ∧
    collectReferencedPackageIds fuel payload = .ok refs ∧ id' ∈ refs

/-- If the package is in the payload map, its references can be collected. -/
def Walkable (id : String) : Prop :=
  ∀ payload, payloads.lookup id = some payload →
    ∃ refs, collectReferencedPackageIds fuel payload = .ok refs

variable {order fuel payloads}

lemma references_of_lookup {id : String} {payload : DamlLfArchivePayload} {refs : List String}
    (hpayload : payloads.lookup id = some payload)
    (hrefs : collectReferencedPackageIds fuel payload = .ok refs) :
    references order fuel payloads id = .ok (order.list refs) := by
  rw [references, hpayload]
  show order.list <$> collectReferencedPackageIds fuel payload = _
  rw [hrefs]
  rfl

lemma references_of_absent {id : String} (h : payloads.lookup id = none) :
    references order fuel payloads id = .ok [] := by
  rw [references, h]

lemma references_eq_error {id : String} {stop : Stop DamlLfConvertError} :
    references order fuel payloads id = .error stop ↔
      ∃ payload, payloads.lookup id = some payload ∧
        collectReferencedPackageIds fuel payload = .error stop := by
  rcases hpayload : payloads.lookup id with _ | payload
  · simp [references_of_absent hpayload]
  rcases hrefs : collectReferencedPackageIds fuel payload with s | refs
  · rw [references, hpayload]
    show order.list <$> collectReferencedPackageIds fuel payload = _ ↔ _
    rw [hrefs]
    simp [hrefs]
  · simp [references_of_lookup hpayload hrefs, hrefs]

lemma exists_references_eq_ok {id : String} :
    (∃ ids, references order fuel payloads id = .ok ids) ↔ Walkable fuel payloads id := by
  constructor
  · rintro ⟨ids, hids⟩ payload hpayload
    rcases hrefs : collectReferencedPackageIds fuel payload with s | refs
    · have herror : references order fuel payloads id = .error s :=
        references_eq_error.2 ⟨payload, hpayload, hrefs⟩
      cases hids.symm.trans herror
    · exact ⟨refs, rfl⟩
  · intro hwalk
    rcases hpayload : payloads.lookup id with _ | payload
    · exact ⟨[], references_of_absent hpayload⟩
    · obtain ⟨refs, hrefs⟩ := hwalk payload hpayload
      exact ⟨order.list refs, references_of_lookup hpayload hrefs⟩

lemma hasInner_references :
    BreadthFirst.HasInner (references order fuel payloads) (AssocMap.keys payloads) :=
  fun _ hid => references_of_absent (AssocMap.lookup_eq_none.2 hid)

lemma mem_successors {id id' : String} :
    id' ∈ BreadthFirst.successors (references order fuel payloads) id ↔
      Refers fuel payloads id id' := by
  rcases hpayload : payloads.lookup id with _ | payload
  · rw [BreadthFirst.successors_of_ok (references_of_absent hpayload)]
    simp [Refers, hpayload]
  rcases hrefs : collectReferencedPackageIds fuel payload with e | refs
  · have herror : references order fuel payloads id = .error e :=
      references_eq_error.2 ⟨payload, hpayload, hrefs⟩
    simp [BreadthFirst.successors, herror, Refers, hpayload, hrefs]
  · rw [BreadthFirst.successors_of_ok (references_of_lookup hpayload hrefs),
      (order.perm refs).mem_iff]
    simp [Refers, hpayload, hrefs]

lemma reaches_iff_refers {root id : String} :
    Reaches (BreadthFirst.successors (references order fuel payloads)) root id ↔
      Relation.ReflTransGen (Refers fuel payloads) root id := by
  have heq : (fun n m => m ∈ BreadthFirst.successors (references order fuel payloads) n) =
      Refers fuel payloads :=
    funext fun n => funext fun m => propext mem_successors
  rw [Reaches, heq]

/-- A search that succeeds returns what can be reached, and has collected the references of all of
it. -/
lemma reachableFrom_eq_ok {root : String} {turns : Nat} {ids : List String}
    (h : reachableFrom order fuel payloads root turns = some (.ok ids)) :
    ids.Nodup ∧ (∀ id, id ∈ ids ↔ Relation.ReflTransGen (Refers fuel payloads) root id) ∧
      ∀ id ∈ ids, Walkable fuel payloads id := by
  obtain ⟨ids', hids, hinv⟩ | ⟨_, e, he, -⟩ :=
    (BreadthFirst.Invariant.init (references order fuel payloads) [root]).loop h
  · cases hids
    refine ⟨hinv.nodup, fun id => ?_, fun id hid => ?_⟩
    · rw [hinv.mem_iff]
      simp only [List.mem_singleton, exists_eq_left, reaches_iff_refers]
    · exact exists_references_eq_ok.1
        (BreadthFirst.exists_next_of_loop h (List.forall_mem_nil _) id hid)
  · cases he

/-- A search that fails has reached a package whose references it could not collect. -/
lemma reachableFrom_eq_error {root : String} {turns : Nat} {stop : Stop DamlLfConvertError}
    (h : reachableFrom order fuel payloads root turns = some (.error stop)) :
    ∃ id, Relation.ReflTransGen (Refers fuel payloads) root id ∧
      ∃ payload, payloads.lookup id = some payload ∧
        collectReferencedPackageIds fuel payload = .error stop := by
  obtain ⟨ids', hids, -⟩ | ⟨id, e, he, hnext, root', hroot, hreach⟩ :=
    (BreadthFirst.Invariant.init (references order fuel payloads) [root]).loop h
  · cases hids
  · cases he
    obtain rfl := List.mem_singleton.1 hroot
    exact ⟨id, reaches_iff_refers.1 hreach, references_eq_error.1 hnext⟩

/-- The type `B:T` of the package `b`. -/
def importedType : Proto.Ty :=
  .con (some ⟨some ⟨some (.importedPackageIdInternedStr 3), 0⟩, 1⟩) []

/-- A package with one record, whose field has that type. -/
def referringPayload : DamlLfArchivePayload where
  languageVersion := .lv2 .v1
  package :=
    { modules := [
        { nameInternedDname := 0
          flags := some ⟨true, true, true⟩
          synonyms := []
          dataTypes := [⟨1, [], true, .record [⟨2, some importedType⟩]⟩]
          values := []
          templates := []
          exceptions := []
          interfaces := [] }]
      internedStrings := ["B", "T", "f", "b", "pkg", "1.0.0"]
      internedDottedNames := [[0], [1]]
      metadata := some ⟨4, 5⟩
      internedTypes := []
      internedKinds := []
      internedExprs := [] }

end DamlBindings.Util
