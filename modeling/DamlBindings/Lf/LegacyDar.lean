import DamlBindings.Lf.Manifest

/-!
# The manifest of a legacy dar file

`DarFile::make_manifest_from_archive` makes up the manifest of a dar file from the names of its
entries, where the one in the file cannot be read.  `Path` is that of a Unix system: the names of
the entries are separated by slashes.
-/

namespace DamlBindings.Lf

/-! ### Paths -/

/-- `Path::file_name`: the last component, unless it is `..`.  Empty components and `.` are
skipped. -/
def fileName (path : List Char) : Option (List Char) :=
  ((path.splitOn '/').filter fun c => !c.isEmpty && c != ['.']).getLast?.filter (· != ['.', '.'])

/-- A file name in front of its last dot and after it.  A name that only begins with a dot has
nothing after it. -/
def splitFileAtDot (file : List Char) : Option (List Char) × Option (List Char) :=
  if '.' ∈ file then
    let after := file.rtakeWhile (· != '.')
    let before := file.take (file.length - after.length - 1)
    if before = [] then (some file, none) else (some before, some after)
  else (none, some file)

/-- `Path::extension` -/
def extension (path : List Char) : Option (List Char) :=
  (fileName path).bind fun file =>
    let (before, after) := splitFileAtDot file
    before.bind fun _ => after

/-- `Path::file_stem` -/
def fileStem (path : List Char) : Option (List Char) :=
  (fileName path).bind fun file =>
    let (before, after) := splitFileAtDot file
    before.or after

/-! ### The dalf entries -/

def dalfFileExtension : String := "dalf"
def dalfPrimFileSuffix : String := "-prim"

/-- `DarFile::is_dalf` -/
def isDalf (path : String) : Bool :=
  ((extension path.toList).map fun e => toLowercase (String.ofList e)).any (· == dalfFileExtension)

/-- `DarFile::is_prim_dalf` -/
def isPrimDalf (path : String) : Bool :=
  ((fileStem path.toList).map fun e => toLowercase (String.ofList e)).any fun p =>
    dalfPrimFileSuffix.toList.isSuffixOf p.toList

/-- `DarManifest::new_implied` -/
def DarManifest.newImplied (dalfMain : String) (dalfDependencies : List String) : DarManifest :=
  ⟨.unknown, "implied", dalfMain, dalfDependencies, .unknown, .unknown⟩

/-- The dalf entries that are prim, and the others. -/
def partitionDalfs (paths : List String) : List String × List String :=
  (paths.filter isDalf).partition isPrimDalf

/-- `DarFile::make_manifest_from_archive`, of the names of the entries. -/
def makeManifestFromArchive (paths : List String) : Except DamlLfError DarManifest :=
  match partitionDalfs paths with
  -- the prim dalfs are the first of the two
  | ([p], [m]) => .ok (.newImplied p [m])
  | ([p], []) => .ok (.newImplied p [])
  | ([], [m]) => .ok (.newImplied m [])
  | _ => .error (.darParseError "invalid legacy Dar")

/-! ### The main dalf -/

section Main

variable (paths : List String)

/-- The dalf entries that are not prim. -/
def nonPrimDalfs : List String := paths.filter fun path => isDalf path && !isPrimDalf path

/-- The prim dalf entries. -/
def primDalfs : List String := paths.filter fun path => isDalf path && isPrimDalf path

/-- The combinations that the documentation of `DarFile::from_file` lists: a single dalf that is not
prim, with a single prim one or without, or a single prim one. -/
def ValidLegacyDar : Prop :=
  ((nonPrimDalfs paths).length = 1 ∧ (primDalfs paths).length = 0) ∨
    ((nonPrimDalfs paths).length = 1 ∧ (primDalfs paths).length = 1) ∨
      ((nonPrimDalfs paths).length = 0 ∧ (primDalfs paths).length = 1)

/-- A manifest is made in the valid combinations alone.  Its main dalf is the one that is not prim,
if there is one, and it names every dalf entry exactly once. -/
structure InfersManifest : Prop where
  valid : (∃ m, makeManifestFromArchive paths = .ok m) ↔ ValidLegacyDar paths
  main : ∀ m, makeManifestFromArchive paths = .ok m →
    (∀ path ∈ nonPrimDalfs paths, m.dalfMain = path) ∧
      (nonPrimDalfs paths = [] → ∀ path ∈ primDalfs paths, m.dalfMain = path)
  all : ∀ m, makeManifestFromArchive paths = .ok m →
    (m.dalfMain :: m.dalfDependencies).Perm (paths.filter isDalf)

lemma partitionDalfs_eq : partitionDalfs paths = (primDalfs paths, nonPrimDalfs paths) := by
  rw [partitionDalfs, List.partition_eq_filter_filter, List.filter_filter, List.filter_filter,
    primDalfs, nonPrimDalfs]
  simp only [Function.comp_apply, Bool.and_comm]

variable {paths}

lemma isPrimDalf_of_mem {path : String} (h : path ∈ primDalfs paths) : isPrimDalf path = true :=
  (Bool.and_eq_true_iff.1 (List.mem_filter.1 h).2).2

lemma not_isPrimDalf_of_mem {path : String} (h : path ∈ nonPrimDalfs paths) :
    isPrimDalf path = false := by
  simpa using (Bool.and_eq_true_iff.1 (List.mem_filter.1 h).2).2

lemma perm_dalfs (paths : List String) :
    (primDalfs paths ++ nonPrimDalfs paths).Perm (paths.filter isDalf) := by
  have h := List.filter_append_perm isPrimDalf (paths.filter isDalf)
  rw [List.filter_filter, List.filter_filter] at h
  simpa only [primDalfs, nonPrimDalfs, Bool.and_comm] using h

/-- A manifest is made in the valid combinations. -/
lemma exists_manifest_iff :
    (∃ m, makeManifestFromArchive paths = .ok m) ↔ ValidLegacyDar paths := by
  rw [makeManifestFromArchive, partitionDalfs_eq, ValidLegacyDar]
  rcases primDalfs paths with - | ⟨p, - | ⟨p', ps⟩⟩ <;>
    rcases nonPrimDalfs paths with - | ⟨m, - | ⟨m', ms⟩⟩ <;> simp

/-- The main dalf is the prim one where there is one, and the manifest names what was found. -/
lemma manifest_eq {m : DarManifest} (h : makeManifestFromArchive paths = .ok m) :
    m.dalfMain :: m.dalfDependencies = primDalfs paths ++ nonPrimDalfs paths := by
  rw [makeManifestFromArchive, partitionDalfs_eq] at h
  rcases hprim : primDalfs paths with - | ⟨p, - | ⟨p', ps⟩⟩ <;>
    rcases hmain : nonPrimDalfs paths with - | ⟨q, - | ⟨q', qs⟩⟩ <;>
      rw [hprim, hmain] at h <;> cases h <;> rfl

end Main

/-- The manifest of a legacy dar file is the documented one if and only if there are not both a
single prim dalf and a single other one: then the prim one is taken for the main dalf. -/
theorem infersManifest_iff (paths : List String) :
    InfersManifest paths ↔
      ¬ ((primDalfs paths).length = 1 ∧ (nonPrimDalfs paths).length = 1) := by
  constructor
  · rintro h ⟨hprim, hmain⟩
    obtain ⟨p, hp⟩ := List.length_eq_one_iff.1 hprim
    obtain ⟨q, hq⟩ := List.length_eq_one_iff.1 hmain
    obtain ⟨m, hm⟩ := h.valid.2 (.inr (.inl ⟨hmain, hprim⟩))
    -- the prim dalf comes first in the list, and the main dalf is to be the other one
    have hlist := manifest_eq hm
    rw [hp, hq] at hlist
    have hpq : p = q := by
      rw [← (List.cons.inj hlist).1]
      exact (h.main m hm).1 q (by rw [hq]; exact List.mem_singleton_self q)
    have hpPrim : isPrimDalf p = true :=
      isPrimDalf_of_mem (by rw [hp]; exact List.mem_singleton_self p)
    have hqPrim : isPrimDalf q = false :=
      not_isPrimDalf_of_mem (by rw [hq]; exact List.mem_singleton_self q)
    rw [hpq, hqPrim] at hpPrim
    cases hpPrim
  · intro hnot
    refine ⟨exists_manifest_iff, fun m hm => ?_, fun m hm => ?_⟩
    · have hlist := manifest_eq hm
      constructor
      · -- with a dalf that is not prim there is none that is
        intro path hpath
        have hvalid := exists_manifest_iff.1 ⟨m, hm⟩
        have hone : (nonPrimDalfs paths).length = 1 := by
          rcases hvalid with h | h | h
          · exact h.1
          · exact h.1
          · rw [List.length_eq_zero_iff.1 h.1] at hpath
            cases hpath
        have hnone : primDalfs paths = [] := by
          rcases hvalid with h | h | h
          · exact List.length_eq_zero_iff.1 h.2
          · exact absurd ⟨h.2, h.1⟩ hnot
          · omega
        obtain ⟨q, hq⟩ := List.length_eq_one_iff.1 hone
        rw [hq, List.mem_singleton] at hpath
        rw [hnone, hq, List.nil_append] at hlist
        rw [hpath]
        exact (List.cons.inj hlist).1
      · -- the single prim dalf is all there is
        intro hnone path hpath
        rw [hnone, List.append_nil] at hlist
        have hvalid := exists_manifest_iff.1 ⟨m, hm⟩
        rw [ValidLegacyDar, hnone] at hvalid
        have hone : (primDalfs paths).length = 1 := by simpa using hvalid
        obtain ⟨p, hp⟩ := List.length_eq_one_iff.1 hone
        rw [hp, List.mem_singleton] at hpath
        rw [hp] at hlist
        rw [hpath]
        exact (List.cons.inj hlist).1
    · rw [manifest_eq hm]
      exact perm_dalfs paths

/-- `daml-prim.dalf` is taken for the main dalf of a dar file that has `Main.dalf` too. -/
theorem not_infersManifest_prim :
    ¬ ∀ paths : List String, InfersManifest paths := by
  intro hall
  have h := (hall ["META-INF/MANIFEST.MF", "Main.dalf", "daml-prim.dalf"]).main
    (.newImplied "daml-prim.dalf" ["Main.dalf"]) rfl
  exact absurd (h.1 "Main.dalf" (by decide)) (by decide)

end DamlBindings.Lf
