import DamlBindings.Lf.ArchiveName
import DamlBindings.Lf.LegacyDar
import DamlBindings.Lf.ManifestRoundTrip
import DamlBindings.Lib.Result

/-!
# Reading a dar file

`DarFile::from_file` (`dar.rs`) finds the manifest of a dar file, in the file or from the names of
its entries, and reads the archives that the manifest names.  The zip file is opened already; what
its entries are is a parameter.  The main result says when a file that was packed under a manifest
is read as it was packed.
-/

namespace DamlBindings.Lf

open DarManifest Utf8Lossy

variable {E Payload : Type}

/-! ### The file -/

/-- A zip file: the names of its entries, and what is read of an entry by its name. -/
structure ZipArchive (E : Type) where
  paths : List String
  readToEnd : String → Except E (List UInt8)
  readToString : String → Except E String
  /-- The error as it is shown. -/
  display : E → String

/-- `DarFile`, over the type of the payloads. -/
structure NamedDarFile (Payload : Type) where
  manifest : DarManifest
  main : NamedArchive Payload
  dependencies : List (NamedArchive Payload)

def manifestFilePath : String := "META-INF/MANIFEST.MF"
def defaultArchiveName : String := "Unnamed"

/-- `Display for DamlLfError` -/
def DamlLfError.display : DamlLfError → String
  | .darParseError error => s!"failed to parse dar file: {error}"

/-- The name of the archive at a location. -/
def archiveNameStem (location : String) : String :=
  ((fileStem location.toList).map String.ofList).getD defaultArchiveName

section Read

variable (yaml : YamlLoader) (decoder : ArchiveDecoder E Payload) (zip : ZipArchive E)

/-- `DarFile::parse_dar_manifest_from_file` -/
def parseDarManifestFromFile : Except (E ⊕ DamlLfError) DarManifest := do
  let contents ← (zip.readToString manifestFilePath).mapError .inl
  (DarManifest.parse yaml contents).mapError .inr

/-- `DarFile::parse_dalf_from_archive` -/
def parseDalfFromArchive (location : String) :
    Except (ArchiveFailure E) (NamedArchive Payload) := do
  let buf ← (zip.readToEnd location).mapError .decoding
  fromBytesNamed decoder (archiveNameStem location) buf

/-- `DarFile::parse_dalfs_from_archive` -/
def parseDalfsFromArchive (paths : List String) :
    Except (ArchiveFailure E) (List (NamedArchive Payload)) :=
  paths.mapM (parseDalfFromArchive decoder zip)

/-- The manifest in the file or, if it cannot be read, the one made up from the entries. -/
def findManifest : Except DamlLfError DarManifest :=
  match parseDarManifestFromFile yaml zip with
  | .ok manifest => .ok manifest
  | .error fatErr =>
    match makeManifestFromArchive zip.paths with
    | .ok manifest => .ok manifest
    | .error legacyErr =>
      .error (.darParseError s!"failed to parse dar as either fat ({fatErr.elim zip.display
        DamlLfError.display}) or legacy ({legacyErr.display})")

/-- `DarFile::from_file` -/
def fromFile : Except (ArchiveFailure E) (NamedDarFile Payload) := do
  let manifest ← (findManifest yaml zip).mapError .error
  let dalfMain ← parseDalfFromArchive decoder zip manifest.dalfMain
  let dalfDependencies ← parseDalfsFromArchive decoder zip manifest.dalfDependencies
  .ok ⟨manifest, dalfMain, dalfDependencies⟩

end Read

/-! ### What is read -/

/-- Where the archives of a manifest are, the main one first. -/
def DarManifest.locations (m : DarManifest) : List String := m.dalfMain :: m.dalfDependencies

/-- The archives of a dar file, the main one first. -/
def NamedDarFile.archives (dar : NamedDarFile Payload) : List (NamedArchive Payload) :=
  dar.main :: dar.dependencies

/-- A file has a manifest, and at each of its locations an archive that can be decoded. -/
structure Packs (decoder : ArchiveDecoder E Payload) (zip : ZipArchive E) (m : DarManifest)
    (dalf : String → Proto.Archive × Payload) : Prop where
  manifest : zip.readToString manifestFilePath = .ok m.render
  dalfs : ∀ location ∈ m.locations, ∃ bytes, zip.readToEnd location = .ok bytes ∧
    Decodes decoder bytes (dalf location).1 (dalf location).2

/-- The archive at a location, under the name of its file without the hash at the end. -/
def unpacked (dalf : String → Proto.Archive × Payload) (location : String) :
    NamedArchive Payload :=
  let hash := (dalf location).1.hash
  ⟨String.ofList (strippedName (archiveNameStem location).toList hash.toList),
    (dalf location).2, hash⟩

/-- The locations are kept: no character of a name is broken off in the manifest.  A manifest
without dependencies is not read, so that its main file has to be the only dalf. -/
def KeepsLocations (zip : ZipArchive E) (m : DarManifest) : Prop :=
  if m.dalfDependencies = [] then zip.paths.filter isDalf = [m.dalfMain]
  else Unbroken dalfMainKey m.dalfMain.toList ∧
    Unbroken dalfsKey (", ".intercalate m.dalfDependencies).toList

/-- The name ends in a `-` and the hash, or the hash is nowhere in it. -/
def KeepsName (name hash : List Char) : Prop :=
  (hash ≠ [] ∧ '-' :: hash <:+ name) ∨ ¬ hash <:+: name

section Packed

variable {yaml : YamlLoader} {decoder : ArchiveDecoder E Payload} {zip : ZipArchive E}
  {m : DarManifest} {dalf : String → Proto.Archive × Payload}

/-- The archives are read one by one, from where the manifest has them. -/
lemma fromFile_eq_ok {dar : NamedDarFile Payload} :
    fromFile yaml decoder zip = .ok dar ↔ findManifest yaml zip = .ok dar.manifest ∧
      List.Forall₂ (fun location a => parseDalfFromArchive decoder zip location = .ok a)
        dar.manifest.locations dar.archives := by
  simp only [fromFile, parseDalfsFromArchive, Except.bind_eq_ok, Except.mapM_eq_ok,
    Except.mapError_eq_ok, locations, NamedDarFile.archives, List.forall₂_cons]
  constructor
  · rintro ⟨m, hm, main, hmain, deps, hdeps, h⟩
    cases h
    exact ⟨hm, hmain, hdeps⟩
  · rintro ⟨hm, hmain, hdeps⟩
    exact ⟨_, hm, _, hmain, _, hdeps, rfl⟩

/-- An archive that can be decoded is read under the name that is left of its file's. -/
lemma parseDalfFromArchive_eq_ok {location : String} {bytes : List UInt8}
    {archive : Proto.Archive} {payload : Payload} (hread : zip.readToEnd location = .ok bytes)
    (h : Decodes decoder bytes archive payload) {a : NamedArchive Payload} :
    parseDalfFromArchive decoder zip location = .ok a ↔ ∃ name,
      sanitizedName (archiveNameStem location).toList archive.hash.toList = some name ∧
        a = ⟨String.ofList name, payload, archive.hash⟩ := by
  have hread' : parseDalfFromArchive decoder zip location =
      fromBytesNamed decoder (archiveNameStem location) bytes := by
    rw [parseDalfFromArchive, hread]
    rfl
  rw [hread', fromBytesNamed, h.archive_eq]
  show (if archive.hashFunction = 0 then _ else _) = _ ↔ _
  rw [if_pos h.hashFunction_eq, h.payload_eq]
  -- the envelope and the payload decode, so the name decides alone
  rcases hname : sanitizedName (archiveNameStem location).toList archive.hash.toList with - | name
  · simp [Except.mapError, bind, Except.bind]
  · simp [Except.mapError, bind, Except.bind, eq_comm]

/-- What is at the locations of a packed file is read as it was packed where the names are kept. -/
lemma forall₂_parseDalfFromArchive_iff (h : Packs decoder zip m dalf)
    {locations : List String} (hlocations : ∀ location ∈ locations, location ∈ m.locations) :
    List.Forall₂ (fun location a => parseDalfFromArchive decoder zip location = .ok a) locations
        (locations.map (unpacked dalf)) ↔
      ∀ location ∈ locations,
        KeepsName (archiveNameStem location).toList (dalf location).1.hash.toList := by
  rw [List.forall₂_map_right_iff, List.forall₂_same]
  refine forall₂_congr fun location hlocation => ?_
  obtain ⟨bytes, hread, hdecodes⟩ := h.dalfs location (hlocations location hlocation)
  rw [parseDalfFromArchive_eq_ok hread hdecodes, KeepsName, ← sanitizedName_eq_iff]
  constructor
  · rintro ⟨name, hname, hunpacked⟩
    have hlist : strippedName (archiveNameStem location).toList (dalf location).1.hash.toList =
        name := by
      simpa [unpacked] using congrArg (fun a => a.name.toList) hunpacked
    rw [hname, hlist]
  · exact fun hname => ⟨_, hname, rfl⟩

/-- The manifest that is made up has one location if and only if that is the only dalf. -/
lemma exists_makeManifestFromArchive_iff {paths : List String} {location : String} :
    (∃ made, makeManifestFromArchive paths = .ok made ∧ made.locations = [location]) ↔
      paths.filter isDalf = [location] := by
  have hperm := perm_dalfs paths
  constructor
  · rintro ⟨made, hmade, hsame⟩
    rw [← manifest_eq hmade] at hperm
    have hone : [location].Perm (paths.filter isDalf) := by
      rw [← hsame]
      exact hperm
    exact List.perm_singleton.1 hone.symm
  · intro hone
    rw [hone, List.perm_singleton] at hperm
    have hvalid : ValidLegacyDar paths := by
      have hlength := congrArg List.length hperm
      rw [List.length_append, List.length_singleton] at hlength
      rw [ValidLegacyDar]
      omega
    obtain ⟨made, hmade⟩ := exists_manifest_iff.2 hvalid
    exact ⟨made, hmade, by rw [locations, manifest_eq hmade, hperm]⟩

/-- The manifest that is found has the locations of the one that was packed if they are kept. -/
lemma exists_findManifest_iff (hyaml : yaml.Lawful) (hm : m.Plain yaml)
    (hmanifest : zip.readToString manifestFilePath = .ok m.render) :
    (∃ m', findManifest yaml zip = .ok m' ∧ m'.locations = m.locations) ↔
      KeepsLocations zip m := by
  have hparse : parseDarManifestFromFile yaml zip =
      (DarManifest.parse yaml m.render).mapError .inr := by
    rw [parseDarManifestFromFile, hmanifest]
    rfl
  rw [KeepsLocations, findManifest, hparse, parse_render_of_plain hyaml hm]
  split_ifs with hdeps
  · -- the manifest does not parse: it is made up from the names of the entries
    have hlocations : m.locations = [m.dalfMain] := by rw [locations, hdeps]
    rw [hlocations, ← exists_makeManifestFromArchive_iff]
    refine exists_congr fun made => and_congr_left fun _ => ?_
    rcases makeManifestFromArchive zip.paths with e | made' <;> simp [Except.mapError]
  · have hmain := readMain_eq_iff hm
    simp only [Except.mapError, Except.ok.injEq, exists_eq_left', locations, List.cons.injEq]
    rw [hmain]
    refine and_congr_right fun hunbroken => ?_
    rw [hmain.2 hunbroken]
    exact readDependencies_eq_iff hm hdeps

/-- A file that was packed under a rendered manifest is read as it was packed, each archive at its
location and under the name of its file, if and only if the locations and the names are kept. -/
theorem fromFile_packed_iff (yaml : YamlLoader) (hyaml : yaml.Lawful)
    (decoder : ArchiveDecoder E Payload) (zip : ZipArchive E) (m : DarManifest) (hm : m.Plain yaml)
    (dalf : String → Proto.Archive × Payload) (h : Packs decoder zip m dalf) :
    (∃ dar, fromFile yaml decoder zip = .ok dar ∧ dar.manifest.locations = m.locations ∧
        dar.archives = m.locations.map (unpacked dalf)) ↔
      KeepsLocations zip m ∧ ∀ location ∈ m.locations,
        KeepsName (archiveNameStem location).toList (dalf location).1.hash.toList := by
  rw [← exists_findManifest_iff hyaml hm h.manifest,
    ← forall₂_parseDalfFromArchive_iff h fun _ => id]
  constructor
  · rintro ⟨dar, hdar, hlocations, harchives⟩
    obtain ⟨hfound, hread⟩ := fromFile_eq_ok.1 hdar
    rw [hlocations, harchives] at hread
    exact ⟨⟨_, hfound, hlocations⟩, hread⟩
  · rintro ⟨⟨m', hfound, hlocations⟩, hread⟩
    refine ⟨⟨m', unpacked dalf m.dalfMain, m.dalfDependencies.map (unpacked dalf)⟩,
      fromFile_eq_ok.2 ⟨hfound, ?_⟩, hlocations, rfl⟩
    show List.Forall₂ _ m'.locations (m.locations.map (unpacked dalf))
    rw [hlocations]
    exact hread

end Packed

/-- The manifest of a dar file with two archives. -/
def pairManifest : DarManifest :=
  ⟨.v1, "damlc", "Main-1.0.0-ab.dalf", ["lib/Prim.dalf"], .damlLf, .notEncrypted⟩

/-- The dar file, of which every archive has the hash `ab`. -/
def pairZip : ZipArchive Unit where
  paths := [manifestFilePath, "Main-1.0.0-ab.dalf", "lib/Prim.dalf"]
  readToEnd _ := .ok []
  readToString _ := .ok pairManifest.render
  display _ := "no such entry"

/-- The file is read as it was packed: the hash is taken off the name of the main archive. -/
theorem fromFile_packed_pair :
    ∃ dar, fromFile blockLoader smallDecoder pairZip = .ok dar ∧
      dar.manifest.locations = ["Main-1.0.0-ab.dalf", "lib/Prim.dalf"] ∧
        dar.archives = [⟨"Main-1.0.0", (), "ab"⟩, ⟨"Prim", (), "ab"⟩] := by
  have hplain : pairManifest.Plain blockLoader :=
    ⟨rfl, .inr (plainName_of_decide (by decide)), plainName_of_decide (by decide),
      List.forall_mem_singleton.2 (plainName_of_decide (by decide)), by decide, rfl, rfl⟩
  have hpacks : Packs smallDecoder pairZip pairManifest fun _ => (⟨0, [], "ab"⟩, ()) :=
    ⟨rfl, fun _ _ => ⟨[], rfl, rfl, rfl, rfl⟩⟩
  refine (fromFile_packed_iff blockLoader blockLoader_lawful smallDecoder pairZip pairManifest
    hplain _ hpacks).2 ⟨?_, ?_⟩
  · exact ⟨aligned_of_ascii (forall_of_all (by decide)),
      aligned_of_ascii (forall_of_all (by decide))⟩
  · intro location hlocation
    rcases List.mem_cons.1 hlocation with rfl | hlocation
    · exact .inl (by decide)
    · rw [List.mem_singleton.1 hlocation]
      exact .inr (by decide)

end DamlBindings.Lf
