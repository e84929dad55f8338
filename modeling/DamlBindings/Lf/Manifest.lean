import DamlBindings.Lf.Yaml
import DamlBindings.Lib.Utf8Lossy

/-!
# The manifest of a dar file

`DarManifest::render` writes a manifest as lines of at most 71 bytes, and `DarManifest::parse`
reads it back through the YAML reader.
-/

namespace DamlBindings.Lf

open Utf8Lossy

def manifestVersionKey : String := "Manifest-Version"
def createdByKey : String := "Created-By"
def dalfMainKey : String := "Main-Dalf"
def dalfsKey : String := "Dalfs"
def formatKey : String := "Format"
def encryptionKey : String := "Encryption"
def version1Value : String := "1.0"
def nonEncryptedValue : String := "non-encrypted"
def damlLfValue : String := "daml-lf"

/-- `DarManifestVersion` -/
inductive DarManifestVersion
  | unknown
  | v1
deriving DecidableEq

/-- `DarManifestFormat` -/
inductive DarManifestFormat
  | unknown
  | damlLf
deriving DecidableEq

/-- `DarEncryptionType` -/
inductive DarEncryptionType
  | unknown
  | notEncrypted
deriving DecidableEq

def DarManifestVersion.toString : DarManifestVersion → String
  | .v1 | .unknown => version1Value

def DarManifestFormat.toString : DarManifestFormat → String
  | .damlLf | .unknown => damlLfValue

def DarEncryptionType.toString : DarEncryptionType → String
  | .notEncrypted | .unknown => nonEncryptedValue

/-- `DarManifest` -/
structure DarManifest where
  version : DarManifestVersion
  createdBy : String
  dalfMain : String
  dalfDependencies : List String
  format : DarManifestFormat
  encryption : DarEncryptionType
deriving DecidableEq

/-- `DamlLfError`, of which a manifest only gives this. -/
inductive DamlLfError
  | darParseError (error : String)

/-- `strip_string` -/
def stripString (s : String) : String := String.ofList (s.toList.filter fun c => !isWhitespace c)

/-- `str::split`, at every comma. -/
def splitCommas (s : String) : List String := (s.toList.splitOn ',').map String.ofList

/-- The lines of `split_manifest_string`. -/
def splitLines (s : String) : List String :=
  ((chunks 71 (bytes s.toList)).map fromUtf8Lossy).map String.ofList

/-- `split_manifest_string` -/
def splitManifestString (s : String) : String :=
  match splitLines s with
  | [] => ""
  | [head] => head
  | head :: tail => head ++ "\n" ++ "\n".intercalate (tail.map (" " ++ ·))

/-- `make_manifest_entry` -/
def makeManifestEntry (key value : String) : String := splitManifestString (key ++ ": " ++ value)

/-- `as_f64`, formatted with one decimal place. -/
def normalisedFloat (yaml : YamlLoader) : Yaml → Option String
  | .real text => yaml.formatFloat text
  | _ => none

/-- `str::to_lowercase`, which matters for the letters of the format and of the encryption type
only: no other character has one of these as its lower case. -/
def toLowercase (s : String) : String := String.ofList (s.toList.map Char.toLower)

/-- The version of a manifest, from the value under its key. -/
def versionOfYaml (yaml : YamlLoader) (raw : Yaml) : Except DamlLfError DarManifestVersion :=
  match raw.asStr.or (normalisedFloat yaml raw) with
  | some other =>
    if other = version1Value then .ok .v1
    else .error (.darParseError s!"unexpected value for {manifestVersionKey}, found {other}")
  | none =>
    if raw.isBadvalue then .ok .unknown
    else .error (.darParseError s!"unexpected value for {manifestVersionKey}")

/-- The string under a key that has to be there. -/
def requiredStr (doc : Yaml) (key : String) : Except DamlLfError String :=
  match (doc.index key).asStr with
  | some s => .ok s
  | none => .error (.darParseError s!"key {key} not found")

/-- What stands for the only value that the string under a key may have. -/
def expectedStr {α : Type} (doc : Yaml) (key expected : String) (value : α) :
    Except DamlLfError α := do
  let s ← requiredStr doc key
  if toLowercase s = expected then .ok value
  else .error (.darParseError s!"unexpected value for {key}, found {s}")

namespace DarManifest

/-- `DarManifest::render` -/
def render (manifest : DarManifest) : String :=
  "\n".intercalate [
    makeManifestEntry manifestVersionKey manifest.version.toString,
    makeManifestEntry createdByKey manifest.createdBy,
    makeManifestEntry dalfMainKey manifest.dalfMain,
    makeManifestEntry dalfsKey (", ".intercalate manifest.dalfDependencies),
    makeManifestEntry formatKey manifest.format.toString,
    makeManifestEntry encryptionKey manifest.encryption.toString]

/-- What `DarManifest::parse` reads off the document. -/
def ofYaml (yaml : YamlLoader) (doc : Yaml) : Except DamlLfError DarManifest := do
  let manifestVersion ← versionOfYaml yaml (doc.index manifestVersionKey)
  let createdBy := (doc.index createdByKey).asStr.getD ""
  let main ← requiredStr doc dalfMainKey
  let dalfMain := stripString main
  let dalfs ← requiredStr doc dalfsKey
  let dalfDependencies := ((splitCommas dalfs).map stripString).filter (· ≠ dalfMain)
  let format ← expectedStr doc formatKey damlLfValue .damlLf
  let encryption ← expectedStr doc encryptionKey nonEncryptedValue .notEncrypted
  .ok ⟨manifestVersion, createdBy, dalfMain, dalfDependencies, format, encryption⟩

/-- `DarManifest::parse` -/
def parse (yaml : YamlLoader) (manifest : String) : Except DamlLfError DarManifest :=
  match yaml.loadFromStr manifest with
  | .error e => .error (.darParseError e)
  | .ok docs =>
    match docs.head? with
    | none => .error (.darParseError "unexpected manifest format")
    | some doc => ofYaml yaml doc

end DarManifest

end DamlBindings.Lf
