import DamlBindings.Lib.SwapRemove
import DamlBindings.Lf.Manifest
import DamlBindings.Util.ReachableFrom

/-!
# Packages put together to a DAR

`DamlPackages::into_dar` and the decoding of a payload (`payload.rs`).  The packages come from a
ledger, so two of them may have one id and a payload need not decode.
-/

/-- A package as a ledger returns it. -/
structure DamlBindings.Grpc.DamlPackage where
  payload : List UInt8
  hash : String
deriving DecidableEq

namespace DamlBindings.Util

open Lf Worklist SwapRemove

/-! ### Payloads -/

/-- The payload in the envelope of a package. -/
inductive ArchivePayloadSum where
  | damlLf1 (bytes : List UInt8)
  | damlLf2 (bytes : List UInt8)

/-- The envelope of a package. -/
structure ArchivePayload where
  minor : String
  sum : Option ArchivePayloadSum

/-- `Message::decode` of the two messages, each with the text of its error. -/
structure MessageDecoder where
  archivePayload : List UInt8 → Except String ArchivePayload
  package : List UInt8 → Except String Proto.Package

/-- `DamlLfError`, as far as the errors arise here. -/
inductive DamlLfError where
  | damlLfParseError (error : String)
  | damlLfConvertError (error : DamlLfConvertError)
  | unknownVersion (version : String)

/-- `LanguageV2MinorVersion::try_from` -/
def minorVersion (minor : String) : Except DamlLfError LanguageV2MinorVersion :=
  if minor = "1" then .ok .v1
  else if minor = "dev" then .ok .dev
  else .error (.unknownVersion minor)

/-- The errors of `Message::decode` as they are converted by `?`. -/
def decoded {α : Type} (x : Except String α) : Except DamlLfError α :=
  x.mapError .damlLfParseError

variable (decoder : MessageDecoder)

/-- `DamlLfArchivePayload::from_bytes` -/
def fromBytes (payloadBuffer : List UInt8) : Except DamlLfError DamlLfArchivePayload := do
  let envelope ← decoded (decoder.archivePayload payloadBuffer)
  let minor ← minorVersion envelope.minor
  match envelope.sum with
  | some (.damlLf2 bytes) => do
    let package ← decoded (decoder.package bytes)
    pure ⟨.lv2 minor, package⟩
  | some (.damlLf1 _) => .error (.unknownVersion "v1 (LF1 is no longer supported)")
  | none => .error (.unknownVersion "none")

/-! ### Errors -/

/-- `Display for DamlLfConvertError` -/
def convertErrorText : DamlLfConvertError → String
  | .unexpectedContractIdTypeArguments => "unexpected contract id type arguments"
  | .missingRequiredField => "required field was not supplied"
  | .unexpectedChoiceData => "choice argument was not a record"
  | .unsupportedFeatureUsed version feature requires =>
    "Daml LF version " ++ version ++ " does not support feature " ++ feature ++
      " (requires version " ++ requires ++ ")"
  | .unexpectedType expected found =>
    "expected type " ++ expected ++ " but found type " ++ found
  | .unknownPackage id => "failed to lookup a DamlPackagePayload with id " ++ id
  | .unknownModule id => "failed to lookup a DamlModulePayload with id " ++ id
  | .unknownData id => "failed to lookup a DamlDataPayload with id " ++ id
  | .unknownPrimCon code => "unknown PrimCon enum variant " ++ toString code
  | .unknownBuiltinFunction code => "unknown BuiltinFunction enum variant " ++ toString code
  | .unknownRoundingMode code => "unknown RoundingMode enum variant " ++ toString code
  | .natOutOfRange n => "Nat " ++ toString n ++ " out of range (0..37 inclusive)"
  | .internalError message => "Internal error: " ++ message

/-- `Display for DamlLfError` -/
def DamlLfError.toString : DamlLfError → String
  | .damlLfParseError error => "failed to parse Daml LF: " ++ error
  | .damlLfConvertError error => "failed to convert Daml LF: " ++ convertErrorText error
  | .unknownVersion version => "unknown Daml LF version: " ++ version

/-- `DamlError`, as far as the errors arise here. -/
inductive DamlError where
  | other (message : String)

abbrev DamlResult := Except DamlError

/-- `.map_err(|e| DamlError::Other(e.to_string()))` -/
def otherError {α : Type} (x : Except DamlLfError α) : DamlResult α :=
  x.mapError fun e => .other e.toString

/-- The same for a conversion. -/
def otherConvertError {α : Type} : ConvertRun α → Run DamlError α
  | .ok a => .ok a
  | .error .outOfFuel => .error .outOfFuel
  | .error (.err e) => .error (.err (.other (DamlLfError.damlLfConvertError e).toString))

/-! ### Archives -/

/-- `DamlLfArchive::payload` -/
def payloadOf (dalf : DamlLfArchive) : DamlLfArchivePayload := ⟨dalf.languageVersion, dalf.package⟩

/-- `DarFile` with its manifest. -/
structure DarFile extends Lf.DarFile where
  manifest : DarManifest

/-- `DarManifest::new_implied` -/
def newImplied (dalfMain : String) (dalfDependencies : List String) : DarManifest :=
  ⟨.unknown, "implied", dalfMain, dalfDependencies, .unknown, .unknown⟩

inductive ArchiveAutoNamingStyle where
  | empty
  | hash
  | uuid
deriving DecidableEq

/-- `package_into_payload` -/
def packageIntoPayload (package : Grpc.DamlPackage) : DamlResult DamlLfArchivePayload :=
  otherError (fromBytes decoder package.payload)

/-- The archive of a package, where `uuid` is the identifier drawn for it. -/
def packageToArchive (uuid : String) (style : ArchiveAutoNamingStyle) (p : Grpc.DamlPackage) :
    DamlResult DamlLfArchive := do
  let payload ← packageIntoPayload decoder p
  let name := match style with
    | .empty => ""
    | .hash => p.hash
    | .uuid => uuid
  pure ⟨name, p.hash, payload.languageVersion, payload.package⟩

/-- `packages_to_archives`, where `newV4` gives the random identifiers in turn. -/
def packagesToArchives (newV4 : Nat → String) (style : ArchiveAutoNamingStyle)
    (packages : List Grpc.DamlPackage) : DamlResult (List DamlLfArchive) :=
  packages.zipIdx.mapM fun p => packageToArchive decoder (newV4 p.2) style p.1

/-- `archives_to_dar` -/
def archivesToDar (allPackages : List DamlLfArchive) (mainId : String) : DamlResult DarFile :=
  if allPackages.isEmpty then .error (.other "expected at least one archive")
  else
    match allPackages.findFinIdx? fun a => a.hash = mainId with
    | none => .error (.other ("main package " ++ mainId ++ " not present in archive set"))
    | some mainIdx =>
      let (first, rest) := swapRemove allPackages mainIdx
      .ok ⟨⟨first, rest⟩, newImplied first.name (rest.map (·.name))⟩

/-! ### The packages of a DAR -/

/-- `resolve_main_id` -/
def resolveMainId (packages : List Grpc.DamlPackage) : Option String → DamlResult String
  | some id =>
    if packages.any fun p => p.hash = id then .ok id
    else .error (.other ("main package " ++ id ++ " not present in package set"))
  | none =>
    match packages.head? with
    | some p => .ok p.hash
    | none => .error (.other "expected at least one package")

/-- `payloads_by_id` -/
def payloadsById (packages : List Grpc.DamlPackage) :
    DamlResult (List (String × DamlLfArchivePayload)) :=
  AssocMap.ofList <$> packages.mapM fun p => (p.hash, ·) <$> packageIntoPayload decoder p

section IntoDar

variable (order : IterationOrder String) (fuel turns : Nat)

/-- The packages that `into_dar` keeps for the main package, within the turns of the search. -/
def keptPackages (packages : List Grpc.DamlPackage) (filterDeps : Bool) (mainId : String) :
    Option (Run DamlError (List Grpc.DamlPackage)) :=
  if filterDeps then
    match payloadsById decoder packages with
    | .error e => some (.error (.err e))
    | .ok payloads =>
      (reachableFrom order fuel payloads mainId turns).map fun reachable =>
        (fun ids => packages.filter fun p => p.hash ∈ ids) <$> otherConvertError reachable
  else some (.ok packages)

/-- `into_dar` -/
def intoDar (newV4 : Nat → String) (packages : List Grpc.DamlPackage)
    (mainPackageId : Option String) (filterDeps : Bool) (style : ArchiveAutoNamingStyle) :
    Option (Run DamlError DarFile) :=
  match resolveMainId packages mainPackageId with
  | .error e => some (.error (.err e))
  | .ok mainId =>
    (keptPackages decoder order fuel turns packages filterDeps mainId).map fun keep => do
      let allArchives ← .lift (packagesToArchives decoder newV4 style (← keep))
      .lift (archivesToDar allArchives mainId)

end IntoDar

/-! ### What becomes of the packages -/

section Steps

variable {decoder} {packages : List Grpc.DamlPackage} {hint : Option String} {id : String}

lemma resolveMainId_eq_ok (h : resolveMainId packages hint = .ok id) :
    hint.or (packages.head?.map (·.hash)) = some id ∧ id ∈ packages.map (·.hash) := by
  rcases hint with _ | hint
  · rcases packages with _ | ⟨p, packages⟩
    · cases h
    · cases h
      exact ⟨rfl, List.mem_cons_self⟩
  · simp only [resolveMainId] at h
    split_ifs at h with hany
    cases h
    obtain ⟨p, hp, hid⟩ := List.any_eq_true.1 hany
    exact ⟨rfl, List.mem_map.2 ⟨p, hp, of_decide_eq_true hid⟩⟩

lemma exists_resolveMainId (hne : packages ≠ [])
    (hhint : ∀ id, hint = some id → id ∈ packages.map (·.hash)) :
    ∃ id, resolveMainId packages hint = .ok id := by
  rcases hint with _ | id
  · obtain ⟨p, packages, rfl⟩ := List.exists_cons_of_ne_nil hne
    exact ⟨p.hash, rfl⟩
  · obtain ⟨p, hp, hid⟩ := List.mem_map.1 (hhint id rfl)
    have hany : (packages.any fun p => p.hash = id) = true :=
      List.any_eq_true.2 ⟨p, hp, decide_eq_true hid⟩
    exact ⟨id, by rw [resolveMainId, if_pos hany]⟩

lemma packageIntoPayload_eq_ok {p : Grpc.DamlPackage} {payload : DamlLfArchivePayload} :
    packageIntoPayload decoder p = .ok payload ↔ fromBytes decoder p.payload = .ok payload := by
  rw [packageIntoPayload, otherError]
  rcases fromBytes decoder p.payload with e | payload' <;> simp [Except.mapError]

lemma packageToArchive_eq_ok {uuid : String} {style : ArchiveAutoNamingStyle}
    {p : Grpc.DamlPackage} {a : DamlLfArchive} (h : packageToArchive decoder uuid style p = .ok a) :
    a.hash = p.hash ∧ packageIntoPayload decoder p = .ok (payloadOf a) := by
  simp only [packageToArchive, Except.bind_eq_ok, Except.pure_eq_ok] at h
  obtain ⟨payload, hpayload, rfl⟩ := h
  exact ⟨rfl, hpayload⟩

variable {newV4 : Nat → String} {style : ArchiveAutoNamingStyle} {archives : List DamlLfArchive}

/-- The archives have the ids and the payloads of the packages, in their order. -/
lemma packagesToArchives_eq_ok
    (h : packagesToArchives decoder newV4 style packages = .ok archives) :
    (archives.map fun a => (a.hash, (.ok (payloadOf a) : DamlResult DamlLfArchivePayload))) =
      packages.map fun p => (p.hash, packageIntoPayload decoder p) := by
  have hall := Except.mapM_eq_ok.1 h
  have heq : List.Forall₂ (fun p a => (p.1.hash, packageIntoPayload decoder p.1) =
      (a.hash, (.ok (payloadOf a) : DamlResult DamlLfArchivePayload))) packages.zipIdx
        archives := by
    refine hall.imp fun p a hpa => ?_
    obtain ⟨hhash, hpayload⟩ := packageToArchive_eq_ok hpa
    rw [hhash, hpayload]
  have hmap : packages = packages.zipIdx.map Prod.fst := (List.zipIdx_map_fst 0 packages).symm
  conv_rhs => rw [hmap, List.map_map]
  exact heq.map_eq.symm

lemma exists_packagesToArchives
    (h : ∀ p ∈ packages, ∃ payload, fromBytes decoder p.payload = .ok payload) :
    ∃ archives, packagesToArchives decoder newV4 style packages = .ok archives := by
  have hall : ∀ p ∈ packages.zipIdx, ∃ a,
      packageToArchive decoder (newV4 p.2) style p.1 = .ok a := by
    intro p hp
    obtain ⟨payload, hpayload⟩ := h p.1 (List.fst_mem_of_mem_zipIdx hp)
    exact ⟨_, Except.bind_eq_ok.2 ⟨payload, packageIntoPayload_eq_ok.2 hpayload, rfl⟩⟩
  obtain ⟨archives, harchives⟩ := List.exists_forall₂ hall
  exact ⟨archives, Except.mapM_eq_ok.2 harchives⟩

lemma archivesToDar_eq_ok {dar : DarFile} (h : archivesToDar archives id = .ok dar) :
    dar.main.hash = id ∧ (dar.main :: dar.dependencies).Perm archives ∧
      dar.manifest.dalfMain = dar.main.name ∧
      dar.manifest.dalfDependencies = dar.dependencies.map (·.name) := by
  rw [archivesToDar] at h
  split_ifs at h
  rcases hfind : archives.findFinIdx? fun a => a.hash = id with _ | i
  · rw [hfind] at h
    cases h
  · rw [hfind] at h
    obtain rfl : ⟨⟨(swapRemove archives i).1, (swapRemove archives i).2⟩,
        newImplied (swapRemove archives i).1.name
          ((swapRemove archives i).2.map (·.name))⟩ = dar := Except.ok.inj h
    refine ⟨?_, swapRemove_perm archives i, rfl, rfl⟩
    have hid := (List.findFinIdx?_eq_some_iff.1 hfind).1
    show (swapRemove archives i).1.hash = id
    rw [fst_swapRemove]
    exact of_decide_eq_true hid

lemma exists_archivesToDar (h : id ∈ archives.map (·.hash)) :
    ∃ dar, archivesToDar archives id = .ok dar := by
  obtain ⟨a, ha, hid⟩ := List.mem_map.1 h
  have hne : archives.isEmpty = false := by
    rw [List.isEmpty_eq_false_iff]
    exact List.ne_nil_of_mem ha
  rw [archivesToDar, hne, if_neg Bool.false_ne_true]
  rcases hfind : archives.findFinIdx? fun a => a.hash = id with _ | i
  · have hnone := List.findFinIdx?_eq_none_iff.1 hfind a ha
    exact absurd hid (of_decide_eq_false (by simpa using hnone))
  · rw [hfind]
    exact ⟨_, rfl⟩

variable {order : IterationOrder String} {fuel turns : Nat} {filterDeps : Bool}

lemma intoDar_eq_ok {dar : DarFile}
    (h : intoDar decoder order fuel turns newV4 packages hint filterDeps style = some (.ok dar)) :
    ∃ mainId kept archives, resolveMainId packages hint = .ok mainId ∧
      keptPackages decoder order fuel turns packages filterDeps mainId = some (.ok kept) ∧
      packagesToArchives decoder newV4 style kept = .ok archives ∧
      archivesToDar archives mainId = .ok dar := by
  rw [intoDar] at h
  rcases hmain : resolveMainId packages hint with e | mainId
  · rw [hmain] at h
    cases h
  · rw [hmain] at h
    obtain ⟨keep, hkept, hrun⟩ := Option.map_eq_some_iff.1 h
    obtain ⟨kept, hkeep, hpack⟩ := Except.bind_eq_ok.1 hrun
    obtain ⟨archives, harchives, hdar⟩ := Except.bind_eq_ok.1 hpack
    exact ⟨mainId, kept, archives, rfl, hkeep ▸ hkept, Run.lift_eq_ok.1 harchives,
      Run.lift_eq_ok.1 hdar⟩

/-- `into_dar` without a filter, which does not search. -/
def intoDarUnfiltered (decoder : MessageDecoder) (newV4 : Nat → String)
    (packages : List Grpc.DamlPackage) (hint : Option String) (style : ArchiveAutoNamingStyle) :
    DamlResult DarFile := do
  let mainId ← resolveMainId packages hint
  let archives ← packagesToArchives decoder newV4 style packages
  archivesToDar archives mainId

lemma intoDar_of_no_filter :
    intoDar decoder order fuel turns newV4 packages hint false style =
      some (.lift (intoDarUnfiltered decoder newV4 packages hint style)) := by
  rw [intoDar, intoDarUnfiltered]
  rcases resolveMainId packages hint with e | mainId
  · rfl
  rcases harchives : packagesToArchives decoder newV4 style packages with e | archives
  · simp [keptPackages, harchives, bind, Except.bind]
  · simp [keptPackages, harchives, bind, Except.bind]

/-- The packages that are kept: all of them, or those that the search from the main package
returns. -/
lemma keptPackages_eq_ok_iff {kept : List Grpc.DamlPackage} {mainId : String} :
    keptPackages decoder order fuel turns packages filterDeps mainId = some (.ok kept) ↔
      filterDeps = false ∧ kept = packages ∨
        filterDeps = true ∧ ∃ payloads ids, payloadsById decoder packages = .ok payloads ∧
          reachableFrom order fuel payloads mainId turns = some (.ok ids) ∧
          kept = packages.filter fun p => p.hash ∈ ids := by
  cases filterDeps with
  | false => simp [keptPackages, eq_comm]
  | true =>
    rw [keptPackages, if_pos rfl]
    rcases hpayloads : payloadsById decoder packages with e | payloads
    · simp
    · simp only [Option.map_eq_some_iff, Except.map_eq_ok]
      constructor
      · rintro ⟨reachable, hreachable, ids, hids, rfl⟩
        obtain rfl : reachable = .ok ids := by
          rcases reachable with (e | _) | ids'
          · cases hids
          · cases hids
          · cases hids
            rfl
        exact .inr ⟨trivial, payloads, ids, rfl, hreachable, rfl⟩
      · rintro (⟨⟨⟩, -⟩ | ⟨-, payloads', ids, heq, hreachable, rfl⟩)
        cases heq
        exact ⟨_, hreachable, ids, rfl, rfl⟩

/-- When it succeeds: there is a package, the id that was asked for is among them, and every
payload decodes. -/
lemma exists_intoDarUnfiltered_iff :
    (∃ dar, intoDarUnfiltered decoder newV4 packages hint style = .ok dar) ↔
      packages ≠ [] ∧ (∀ id, hint = some id → id ∈ packages.map (·.hash)) ∧
        ∀ p ∈ packages, ∃ payload, fromBytes decoder p.payload = .ok payload := by
  constructor
  · rintro ⟨dar, h⟩
    obtain ⟨mainId, hmain, h⟩ := Except.bind_eq_ok.1 h
    obtain ⟨archives, harchives, -⟩ := Except.bind_eq_ok.1 h
    obtain ⟨hhint, hmem⟩ := resolveMainId_eq_ok hmain
    refine ⟨?_, ?_, ?_⟩
    · rintro rfl
      cases hmem
    · rintro id rfl
      cases hhint
      exact hmem
    · intro p hp
      have heq := packagesToArchives_eq_ok harchives
      obtain ⟨a, -, ha⟩ := List.mem_map.1 (heq ▸ List.mem_map.2 ⟨p, hp, rfl⟩)
      exact ⟨payloadOf a, packageIntoPayload_eq_ok.1 (Prod.ext_iff.1 ha).2.symm⟩
  · rintro ⟨hne, hhint, hdecode⟩
    obtain ⟨mainId, hmain⟩ := exists_resolveMainId hne hhint
    obtain ⟨archives, harchives⟩ :
        ∃ archives, packagesToArchives decoder newV4 style packages = .ok archives :=
      exists_packagesToArchives hdecode
    have hhashes : archives.map (·.hash) = packages.map (·.hash) := by
      have heq := congrArg (List.map Prod.fst) (packagesToArchives_eq_ok harchives)
      simpa [List.map_map, Function.comp_def] using heq
    -- the hashes are unchanged, so the main archive is found by the id that was resolved
    obtain ⟨dar, hdar⟩ := exists_archivesToDar (hhashes ▸ (resolveMainId_eq_ok hmain).2)
    exact ⟨dar,
      Except.bind_eq_ok.2 ⟨mainId, hmain, Except.bind_eq_ok.2 ⟨archives, harchives, hdar⟩⟩⟩

end Steps

/-- A DAR is put together from the packages that are kept, which are all of them, or with a filter
those that the search from its main package returns.  None of them is lost or repeated, the main has
the id that was asked for, or that of the first package, and the manifest names the archives in
their order.  Without a filter, it fails exactly if there is no package, if none has the id that was
asked for, or if a payload does not decode. -/
theorem intoDar_conserves (order : IterationOrder String) (fuel turns : Nat)
    (newV4 : Nat → String) (packages : List Grpc.DamlPackage) (hint : Option String)
    (filterDeps : Bool) (style : ArchiveAutoNamingStyle) :
    (∀ dar, intoDar decoder order fuel turns newV4 packages hint filterDeps style =
        some (.ok dar) →
      hint.or (packages.head?.map (·.hash)) = some dar.main.hash ∧
      (∃ kept, (filterDeps = false ∧ kept = packages ∨
          filterDeps = true ∧ ∃ payloads ids, payloadsById decoder packages = .ok payloads ∧
            reachableFrom order fuel payloads dar.main.hash turns = some (.ok ids) ∧
            kept = packages.filter fun p => p.hash ∈ ids) ∧
        ((dar.main :: dar.dependencies).map fun a =>
          (a.hash, (.ok (payloadOf a) : DamlResult DamlLfArchivePayload))).Perm
            (kept.map fun p => (p.hash, packageIntoPayload decoder p))) ∧
      dar.manifest.dalfMain = dar.main.name ∧
      dar.manifest.dalfDependencies = dar.dependencies.map (·.name)) ∧
    (filterDeps = false →
      ∃ result, intoDar decoder order fuel turns newV4 packages hint filterDeps style =
          some (.lift result) ∧
        ((∃ e, result = .error e) ↔ packages = [] ∨
          (∃ id, hint = some id ∧ id ∉ packages.map (·.hash)) ∨
          ∃ p ∈ packages, ∃ e, fromBytes decoder p.payload = .error e)) := by
  refine ⟨fun dar h => ?_, ?_⟩
  · obtain ⟨mainId, kept, archives, hmain, hkept, harchives, hdar⟩ := intoDar_eq_ok h
    obtain ⟨hhash, hperm, hname, hnames⟩ := archivesToDar_eq_ok hdar
    subst hhash
    refine ⟨(resolveMainId_eq_ok hmain).1, ⟨kept, keptPackages_eq_ok_iff.1 hkept, ?_⟩,
      hname, hnames⟩
    rw [← packagesToArchives_eq_ok harchives]
    exact hperm.map _
  · rintro rfl
    refine ⟨_, intoDar_of_no_filter, ?_⟩
    rw [Except.exists_error_iff, exists_intoDarUnfiltered_iff]
    simp only [not_and_or, not_forall, Except.exists_error_iff, not_not, exists_prop, ne_eq]

/-- Of two packages the second is asked for. -/
example : ∃ dar, intoDar
    ⟨fun _ => .ok ⟨"1", some (.damlLf2 [])⟩, fun _ => .ok referringPayload.package⟩
    ⟨id, fun _ => .refl _⟩ 0 0 toString [⟨[], "a"⟩, ⟨[], "b"⟩] (some "b") false .hash =
      some (.ok dar) ∧ dar.main.hash = "b" ∧ dar.manifest.dalfDependencies = ["a"] :=
  ⟨_, rfl, rfl, rfl⟩

end DamlBindings.Util
