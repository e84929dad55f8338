import DamlBindings.Lib.Fuel
import DamlBindings.Lf.Proto

/-!
# Package payloads

The view of an LF2 package that the conversion reads (`convert/package_payload.rs`), and the
resolution of indices into its interning tables (`convert/interned.rs`).
-/

namespace DamlBindings.Lf

/-- The errors of the conversion layer that the modelled code raises. -/
inductive DamlLfConvertError where
  | unexpectedContractIdTypeArguments
  | missingRequiredField
  | unexpectedChoiceData
  | unsupportedFeatureUsed (version feature requires : String)
  | unexpectedType (expected found : String)
  | unknownPackage (packageId : String)
  | unknownModule (module : String)
  | unknownData (data : String)
  | unknownPrimCon (code : Int)
  | unknownBuiltinFunction (code : Int)
  | unknownRoundingMode (code : Int)
  | natOutOfRange (n : Int)
  | internalError (message : String)
deriving DecidableEq, Repr

abbrev DamlLfConvertResult := Except DamlLfConvertError

/-- A conversion that recurses through the interning tables. -/
abbrev ConvertRun := Run DamlLfConvertError

/-- `Required::req`. -/
def req {α : Type} : Option α → DamlLfConvertResult α
  | some a => .ok a
  | none => .error .missingRequiredField

@[simp] lemma req_eq_ok {α : Type} {o : Option α} {a : α} : req o = .ok a ↔ o = some a := by
  cases o <;> simp [req]

/-- `f(field.as_ref().req()?)` for a conversion `f` that recurses. -/
def required {α β : Type} (o : Option α) (f : α → ConvertRun β) : ConvertRun β :=
  match o with
  | some a => f a
  | none => .error (.err .missingRequiredField)

@[simp] lemma required_eq_ok {α β : Type} {o : Option α} {f : α → ConvertRun β} {b : β} :
    required o f = .ok b ↔ ∃ a, o = some a ∧ f a = .ok b := by
  cases o <;> simp [required]

lemma required_refines {α β : Type} {o : Option α} {f g : α → ConvertRun β}
    (h : ∀ a ∈ o, Run.Refines (f a) (g a)) : Run.Refines (required o f) (required o g) := by
  cases o with
  | none => exact .refl _
  | some a => exact h a rfl

/-- The LF2 minor version. -/
inductive LanguageV2MinorVersion where
  | v1
  | dev
deriving DecidableEq, Repr

inductive LanguageVersion where
  | lv2 (minor : LanguageV2MinorVersion)
deriving DecidableEq, Repr

/-- `Display for LanguageVersion`. -/
def LanguageVersion.toString : LanguageVersion → String
  | .lv2 .v1 => "v2.1"
  | .lv2 .dev => "v2.dev"

/-- The flags of a module, all present. -/
abbrev ModuleFlags := Proto.FeatureFlags

/-- `DamlModulePayload`: a module with its name and its flags read out. -/
structure DamlModulePayload where
  nameIndex : Int
  flags : ModuleFlags
  module : Proto.Module

/-- `DamlModulePayload::new`. -/
def DamlModulePayload.new (module : Proto.Module) : DamlLfConvertResult DamlModulePayload := do
  let flags ← req module.flags
  pure ⟨module.nameInternedDname, flags, module⟩

/-- What the conversions read of a package payload: its identity and its interning tables. -/
structure DamlPackageTables where
  name : String
  languageVersion : LanguageVersion
  packageId : String
  internedStrings : List String
  internedDottedNames : List (List Int)
  internedTypes : List Proto.Ty
  internedKinds : List Proto.Kind
  internedExprs : List Proto.Expr
  pkgNames : List (String × String)

/-- `DamlPackagePayload`. -/
structure DamlPackagePayload extends DamlPackageTables where
  version : Option String
  modules : List DamlModulePayload

/-- An entry of an interning table.  The index comes from the wire and may be anything. -/
def tableGet {α : Type} (what : String) (table : List α) (index : Int) : DamlLfConvertResult α :=
  if index < 0 then
    .error (.internalError ("negative " ++ what ++ " index " ++ toString index))
  else
    match table[index.toNat]? with
    | some a => .ok a
    | none =>
      .error (.internalError (what ++ " index " ++ toString index.toNat ++ " out of range"))

lemma tableGet_eq_ok {α : Type} {what : String} {table : List α} {index : Int} {a : α} :
    tableGet what table index = .ok a ↔ 0 ≤ index ∧ table[index.toNat]? = some a := by
  unfold tableGet
  split_ifs with h
  · simp
    omega
  · split
    · rename_i b hb
      simp [hb, Int.not_lt.1 h]
    · rename_i hb
      simp [hb]

namespace DamlPackageTables

variable (P : DamlPackageTables)

/-- `resolve_string`. -/
def resolveString (index : Int) : DamlLfConvertResult String :=
  tableGet "interned-string" P.internedStrings index

/-- `resolve_strings`. -/
def resolveStrings (indices : List Int) : DamlLfConvertResult (List String) :=
  indices.mapM P.resolveString

/-- `resolve_dotted_to_indices`. -/
def resolveDottedToIndices (index : Int) : DamlLfConvertResult (List Int) :=
  tableGet "interned-dotted-name" P.internedDottedNames index

/-- `resolve_dotted`. -/
def resolveDotted (index : Int) : DamlLfConvertResult (List String) := do
  P.resolveStrings (← P.resolveDottedToIndices index)

/-- `cross_pkg_name`. -/
def crossPkgName (packageId : String) : Option String :=
  P.pkgNames.lookup packageId

end DamlPackageTables

namespace DamlPackagePayload

/-- `DamlPackagePayload::try_from` for the archive with hash `hash`. -/
def tryFrom (hash : String) (languageVersion : LanguageVersion) (package : Proto.Package) :
    DamlLfConvertResult DamlPackagePayload := do
  let metadata ← req package.metadata
  let name ← metadataString package "name_interned_str" metadata.nameInternedStr
  let version ← metadataString package "version_interned_str" metadata.versionInternedStr
  let modules ← package.modules.mapM DamlModulePayload.new
  pure {
    name := name
    version := some version
    languageVersion := languageVersion
    packageId := hash
    internedStrings := package.internedStrings
    internedDottedNames := package.internedDottedNames
    internedTypes := package.internedTypes
    internedKinds := package.internedKinds
    internedExprs := package.internedExprs
    modules := modules
    -- only its own name; those of the other packages come with the archive
    pkgNames := [(hash, name)]
  }
where
  /-- A string of the package's metadata. -/
  metadataString (package : Proto.Package) (field : String) (index : Int) :
      DamlLfConvertResult String :=
    if index < 0 then
      .error (.internalError
        ("package metadata " ++ field ++ " " ++ toString index ++ " is negative"))
    else
      match package.internedStrings[index.toNat]? with
      | some s => .ok s
      | none => .error (.internalError
          ("package metadata " ++ field ++ " " ++ toString index.toNat ++ " out of range"))

end DamlPackagePayload

end DamlBindings.Lf
