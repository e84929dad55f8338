import DamlBindings.Codegen.Layouts
import DamlBindings.Lib.LastWrite

/-!
# The files of the generated modules

`generator/separate.rs` creates a file for each package, which declares the modules of its root, and
a file for each module, which declares the modules below it.  `File::create` empties a file that
exists, so that of two modules with one file only the last one written is left.
-/

namespace DamlBindings.Codegen

open Lf PathTree

/-! ### The files that are written -/

/-- The path of a file below the output path. -/
def SourceFile.target (file : SourceFile) : List String := file.dir ++ [file.filename]

section Files

variable (N : Naming) (matcher : ModuleMatcher)

/-- The file of a package in `generate_package_source`. -/
def packageFile (package : DamlPackage) : SourceFile where
  path := []
  dir := []
  filename := toRustIdentifier N package.name ++ ".rs"
  mods := (interestingChildren matcher package.rootModule).map fun e =>
    toRustIdentifier N (localName e.2.val)
  items := []

/-- `generate_archive_separate`, with the files in the order in which they are written. -/
def generateArchiveSeparate (A : DamlArchive) : List SourceFile :=
  A.packages.flatMap fun e => packageFile N matcher e.2 :: generatePackageSource N matcher e.2

/-- The file of a module. -/
def moduleFile (dir : List String) (m : DamlModule) : SourceFile where
  path := m.val.path
  dir := dir ++ m.val.path.dropLast.map (toRustIdentifier N)
  filename := toRustIdentifier N (localName m.val) ++ ".rs"
  mods := (interestingChildren matcher m).map fun e => toRustIdentifier N (localName e.2.val)
  items := quoteAllData m.val.dataTypes

/-- The place where the compiler looks for the file of a module. -/
def fileAt (p : List String) : List String := p.dropLast ++ [p.getLast?.getD "" ++ ".rs"]

/-- The modules of the generated code: those of the packages and, from there, what is declared in
the file of a module and has a file. -/
inductive Reached (store : List String → Option SourceFile) (roots : List String) :
    List String → SourceFile → Prop
  | package {name : String} {file : SourceFile} : name ∈ roots →
      store (fileAt [name]) = some file → Reached store roots [name] file
  | mod {p : List String} {name : String} {file inner : SourceFile} :
      Reached store roots p file → name ∈ file.mods →
        store (fileAt (p ++ [name])) = some inner → Reached store roots (p ++ [name]) inner

/-- No two packages, and no two modules of a package that lie next to each other and are written,
have one Rust identifier. -/
structure IdentifiersApart (A : DamlArchive) : Prop where
  packages : (A.packages.map fun e => toRustIdentifier N e.2.name).Nodup
  modules : ∀ e ∈ A.packages, ∀ p k k', InterestingAt matcher e.2.rootModule (p ++ [k]) →
    InterestingAt matcher e.2.rootModule (p ++ [k']) →
      toRustIdentifier N k = toRustIdentifier N k' → k = k'

end Files

@[simp] lemma fileAt_concat (p : List String) (k : String) :
    fileAt (p ++ [k]) = p ++ [k ++ ".rs"] := by
  simp [fileAt]

lemma fileAt_injective {p q : List String} (hp : p ≠ []) (hq : q ≠ []) (h : fileAt p = fileAt q) :
    p = q := by
  obtain rfl | ⟨p, k, rfl⟩ := p.eq_nil_or_concat'
  · exact absurd rfl hp
  · obtain rfl | ⟨q, k', rfl⟩ := q.eq_nil_or_concat'
    · exact absurd rfl hq
    · rw [fileAt_concat, fileAt_concat] at h
      obtain ⟨rfl, hk⟩ := List.append_inj' h rfl
      rw [(String.append_left_inj _).1 (List.cons.inj hk).1]

/-! ### The file of each module -/

section Modules

variable {N : Naming} {matcher : ModuleMatcher} {m c : DamlModule} {dir : List String}
  {file : SourceFile}

lemma generateModuleSource_eq (body : DamlModuleBody) (childModules : List (String × DamlModule)) :
    generateModuleSource N matcher (.node body childModules) dir =
      moduleFile N matcher dir (.node body childModules) ::
        generateSubModules N matcher childModules dir := rfl

lemma generateSubModules_eq (childModules : List (String × DamlModule)) :
    generateSubModules N matcher childModules dir = childModules.flatMap fun c =>
      if isInterestingModule matcher c.2 then generateModuleSource N matcher c.2 dir else [] := by
  induction childModules with
  | nil => rfl
  | cons c childModules ih =>
    rw [List.flatMap_cons, ← ih]
    rfl

/-- What is written below a module, given what is written for each of its children. -/
lemma mem_generateSubModules_file (h : Placed m)
    (hchild : ∀ c ∈ m.childModules, file ∈ generateModuleSource N matcher c.2 dir ↔
      ∃ p d, get? p c.2 = some d ∧ (p = [] ∨ InterestingAt matcher c.2 p) ∧
        file = moduleFile N matcher dir d) :
    file ∈ generateSubModules N matcher m.childModules dir ↔ ∃ p d, p ≠ [] ∧
      get? p m = some d ∧ InterestingAt matcher m p ∧ file = moduleFile N matcher dir d := by
  have hkeyed := keyed_of_placed h
  rw [generateSubModules_eq, List.mem_flatMap]
  constructor
  · rintro ⟨⟨k, c⟩, hc, hfile⟩
    have hlookup := hkeyed.lookup_iff.2 hc
    split_ifs at hfile with hinteresting
    · obtain ⟨p, d, hd, hp, rfl⟩ := (hchild (k, c) hc).1 hfile
      refine ⟨k :: p, d, by simp, ?_, ?_, rfl⟩
      · rw [get?_cons, hlookup]
        exact hd
      · rw [interestingAt_cons hlookup]
        rcases hp with rfl | hp
        · exact (isInterestingModule_iff (h.child hc)).1 hinteresting
        · exact hp
    · cases hfile
  · rintro ⟨_ | ⟨k, p⟩, d, hp, hd, hinteresting, rfl⟩
    · exact absurd rfl hp
    · obtain ⟨c, hlookup, hd⟩ := Option.bind_eq_some_iff.1 hd
      have hc := hkeyed.lookup_iff.1 hlookup
      have hbelow := (interestingAt_cons hlookup).1 hinteresting
      refine ⟨(k, c), hc, ?_⟩
      rw [if_pos ((isInterestingModule_iff (h.child hc)).2 (hbelow.of_prefix List.nil_prefix))]
      exact (hchild (k, c) hc).2 ⟨p, d, hd, .inr hbelow, rfl⟩

/-- A module is written with the modules below it that are interesting. -/
lemma mem_generateModuleSource_file (h : Placed m) :
    file ∈ generateModuleSource N matcher m dir ↔ ∃ p d, get? p m = some d ∧
      (p = [] ∨ InterestingAt matcher m p) ∧ file = moduleFile N matcher dir d := by
  induction m using PathTree.induction with
  | node body childModules ih =>
    have hbelow := mem_generateSubModules_file h fun c hc => ih c hc (h.child hc)
    rw [generateModuleSource_eq, List.mem_cons]
    refine (or_congr_right hbelow).trans ?_
    constructor
    · rintro (rfl | ⟨p, d, -, hd, hp, hfile⟩)
      · exact ⟨[], _, rfl, .inl rfl, rfl⟩
      · exact ⟨p, d, hd, .inr hp, hfile⟩
    · rintro ⟨p, d, hd, hp, hfile⟩
      by_cases hnil : p = []
      · subst hnil
        cases hd
        exact .inl hfile
      · exact .inr ⟨p, d, hnil, hd, hp.resolve_left hnil, hfile⟩

lemma path_of_get? (h : Placed m) {p : List String} (hp : get? p m = some c) :
    c.val.path = m.val.path ++ p :=
  path_of_placed h (by rw [valAt, hp]; rfl)

lemma placed_of_get? (h : Placed m) {p : List String} (hp : get? p m = some c) : Placed c := by
  induction p generalizing m with
  | nil => exact Option.some.inj hp ▸ h
  | cons k p ih =>
    obtain ⟨d, hlookup, hp⟩ := Option.bind_eq_some_iff.1 hp
    exact ih (h.child ((keyed_of_placed h).lookup_iff.1 hlookup)) hp

/-- A module has one file. -/
lemma nodup_paths (h : Placed m) :
    ((generateModuleSource N matcher m dir).map SourceFile.path).Nodup := by
  induction m using PathTree.induction with
  | node body childModules ih =>
    have hbelow : ∀ c ∈ childModules, ∀ file ∈ (if isInterestingModule matcher c.2 then
        generateModuleSource N matcher c.2 dir else []),
          ∃ p, file.path = body.path ++ c.1 :: p := by
      intro c hc file hfile
      split_ifs at hfile
      · obtain ⟨p, d, hd, -, rfl⟩ := (mem_generateModuleSource_file (h.child hc)).1 hfile
        refine ⟨p, ?_⟩
        have hpath : c.2.val.path = body.path ++ [c.1] := h.path_eq hc
        rw [moduleFile, path_of_get? (h.child hc) hd, hpath]
        simp
      · cases hfile
    rw [generateModuleSource_eq, List.map_cons, List.nodup_cons, generateSubModules_eq,
      List.map_flatMap, List.nodup_flatMap]
    refine ⟨fun hmem => ?_, fun c hc => ?_, ?_⟩
    · obtain ⟨c, hc, hmem⟩ := List.mem_flatMap.1 hmem
      obtain ⟨file, hfile, hpath⟩ := List.mem_map.1 hmem
      obtain ⟨p, hp⟩ := hbelow c hc file hfile
      have hlen := congrArg List.length (hp.symm.trans hpath)
      simp [moduleFile] at hlen
    · split_ifs
      · exact ih c hc (h.child hc)
      · exact List.nodup_nil
    · have hkeys : childModules.Pairwise fun c d => c.1 ≠ d.1 := List.pairwise_map.1 h.nodup
      refine hkeys.imp_of_mem fun {c d} hc hd hne => ?_
      refine List.disjoint_left.2 ?_
      intro path hpath hpath'
      obtain ⟨file, hfile, rfl⟩ := List.mem_map.1 hpath
      obtain ⟨file', hfile', heq⟩ := List.mem_map.1 hpath'
      obtain ⟨p, hp⟩ := hbelow c hc file hfile
      obtain ⟨p', hp'⟩ := hbelow d hd file' hfile'
      rw [hp, hp'] at heq
      exact hne (List.cons.inj (List.append_cancel_left heq)).1.symm

end Modules

/-! ### The place of each file -/

section Places

variable (N : Naming) (matcher : ModuleMatcher)

/-- The files of an archive, each with the place of its module in the generated code. -/
inductive Written (A : DamlArchive) : List String → SourceFile → Prop
  | package {e : String × DamlPackage} : e ∈ A.packages →
      Written A [toRustIdentifier N e.2.name] (packageFile N matcher e.2)
  | module {e : String × DamlPackage} {p : List String} {c : DamlModule} : e ∈ A.packages → p ≠ [] →
      get? p e.2.rootModule = some c → InterestingAt matcher e.2.rootModule p →
        Written A (toRustIdentifier N e.2.name :: p.map (toRustIdentifier N))
          (moduleFile N matcher [toRustIdentifier N e.2.name] c)

variable {N matcher} {A : DamlArchive} {m c : DamlModule} {file : SourceFile} {q : List String}
  {k name : String}

lemma Written.ne_nil (h : Written N matcher A q file) : q ≠ [] := by
  cases h <;> simp

lemma target_packageFile (package : DamlPackage) :
    (packageFile N matcher package).target = fileAt [toRustIdentifier N package.name] := rfl

/-- The file of a module lies where the names of the modules on its way lead. -/
lemma target_moduleFile {p : List String} (hp : p ≠ []) (hpath : c.val.path = p) (x : String) :
    (moduleFile N matcher [x] c).target = fileAt (x :: p.map (toRustIdentifier N)) := by
  obtain rfl | ⟨p, k, rfl⟩ := p.eq_nil_or_concat'
  · exact absurd rfl hp
  · rw [List.map_append, List.map_singleton, ← List.cons_append, fileAt_concat]
    simp [SourceFile.target, moduleFile, localName, hpath]

/-- What a file declares: the children of its module that are interesting. -/
lemma mem_mods (h : Placed m) :
    name ∈ ((interestingChildren matcher m).map fun e => toRustIdentifier N (localName e.2.val)) ↔
      ∃ k, InterestingAt matcher m [k] ∧ get? [k] m ≠ none ∧ name = toRustIdentifier N k := by
  have hkeyed := keyed_of_placed h
  have hlocal : ∀ e ∈ m.childModules, localName e.2.val = e.1 := by
    intro e he
    rw [localName, h.path_eq he, List.getLast?_concat, Option.getD_some]
  simp only [List.mem_map, interestingChildren, List.mem_filter]
  constructor
  · rintro ⟨⟨k, c⟩, ⟨hc, hinteresting⟩, rfl⟩
    have hlookup := hkeyed.lookup_iff.2 hc
    refine ⟨k, ?_, ?_, by rw [hlocal _ hc]⟩
    · rw [interestingAt_cons hlookup]
      exact (isInterestingModule_iff (h.child hc)).1 hinteresting
    · simp [get?_cons, hlookup]
  · rintro ⟨k, hinteresting, hk, rfl⟩
    obtain ⟨d, hd⟩ := Option.ne_none_iff_exists'.1 hk
    obtain ⟨c, hlookup, -⟩ := Option.bind_eq_some_iff.1 hd
    have hc := hkeyed.lookup_iff.1 hlookup
    rw [interestingAt_cons hlookup] at hinteresting
    exact ⟨(k, c), ⟨hc, (isInterestingModule_iff (h.child hc)).2 hinteresting⟩, by rw [hlocal _ hc]⟩

lemma interestingAt_append {p r : List String} (hc : get? p m = some c) :
    InterestingAt matcher m (p ++ r) ↔ InterestingAt matcher c r := by
  induction p generalizing m with
  | nil =>
    cases hc
    rfl
  | cons k p ih =>
    obtain ⟨d, hlookup, hc⟩ := Option.bind_eq_some_iff.1 hc
    rw [List.cons_append, interestingAt_cons hlookup, ih hc]

/-- With identifiers that are apart, two modules do not have one place. -/
lemma IdentifiersApart.path_eq (h : IdentifiersApart N matcher A) {e : String × DamlPackage}
    (he : e ∈ A.packages) {p q : List String} (hp : InterestingAt matcher e.2.rootModule p)
    (hq : InterestingAt matcher e.2.rootModule q)
    (heq : p.map (toRustIdentifier N) = q.map (toRustIdentifier N)) : p = q :=
  LastWrite.eq_of_map_eq (W := InterestingAt matcher e.2.rootModule)
    (fun p k hpk => .inr (hpk.of_prefix (List.prefix_append p [k])))
    (fun p k k' => h.modules e he p k k') hp hq heq

/-- An archive whose modules are in place, with the roots of the packages at the empty path. -/
structure Rooted (A : DamlArchive) : Prop where
  wellPlaced : A.WellPlaced
  roots : ∀ e ∈ A.packages, e.2.rootModule.val.path = []

namespace Rooted

variable (h : Rooted A)

include h

lemma placed {e : String × DamlPackage} (he : e ∈ A.packages) : Placed e.2.rootModule :=
  h.wellPlaced.rootModules e he

lemma path_of_get? {e : String × DamlPackage} (he : e ∈ A.packages) {p : List String}
    (hc : get? p e.2.rootModule = some c) : c.val.path = p := by
  rw [Codegen.path_of_get? (h.placed he) hc, h.roots e he, List.nil_append]

lemma target_eq (hfile : Written N matcher A q file) : file.target = fileAt q := by
  cases hfile with
  | package he => exact target_packageFile _
  | module he hp hc _ => exact target_moduleFile hp (h.path_of_get? he hc) _

/-- The files that are written are those of the packages and of the interesting modules. -/
lemma mem_iff : file ∈ generateArchiveSeparate N matcher A ↔ ∃ q, Written N matcher A q file := by
  simp only [generateArchiveSeparate, List.mem_flatMap, List.mem_cons, generatePackageSource]
  constructor
  · rintro ⟨e, he, rfl | hfile⟩
    · exact ⟨_, .package he⟩
    · obtain ⟨p, c, hp, hc, hinteresting, rfl⟩ := (mem_generateSubModules_file (h.placed he)
        fun c hc => mem_generateModuleSource_file ((h.placed he).child hc)).1 hfile
      exact ⟨_, .module he hp hc hinteresting⟩
  · rintro ⟨q, hfile⟩
    cases hfile with
    | @package e he => exact ⟨e, he, .inl rfl⟩
    | @module e p c he hp hc hinteresting =>
      refine ⟨e, he, .inr ?_⟩
      exact (mem_generateSubModules_file (h.placed he)
        fun c hc => mem_generateModuleSource_file ((h.placed he).child hc)).2
          ⟨p, c, hp, hc, hinteresting, rfl⟩

/-- What a file declares is written. -/
lemma exists_written_mod (hfile : Written N matcher A q file) (hname : name ∈ file.mods) :
    ∃ inner, Written N matcher A (q ++ [name]) inner := by
  cases hfile with
  | @package e he =>
    obtain ⟨k, hinteresting, hk, rfl⟩ := (mem_mods (h.placed he)).1 hname
    obtain ⟨c, hc⟩ := Option.ne_none_iff_exists'.1 hk
    exact ⟨_, .module he (by simp) hc hinteresting⟩
  | @module e p c he hp hc _ =>
    obtain ⟨k, hinteresting, hk, rfl⟩ := (mem_mods (placed_of_get? (h.placed he) hc)).1 hname
    obtain ⟨d, hd⟩ := Option.ne_none_iff_exists'.1 hk
    have hpk : get? (p ++ [k]) e.2.rootModule = some d := by
      rw [get?_append, hc]
      exact hd
    have hwritten :=
      Written.module (N := N) he (by simp) hpk ((interestingAt_append hc).2 hinteresting)
    rw [List.map_append, ← List.cons_append] at hwritten
    exact ⟨_, hwritten⟩

/-- What is written for a module is declared in the file of the module above it. -/
lemma exists_written_parent (hq : q ≠ []) (hfile : Written N matcher A (q ++ [name]) file) :
    ∃ outer, Written N matcher A q outer ∧ name ∈ outer.mods := by
  generalize hplace : q ++ [name] = place at hfile
  cases hfile with
  | package _ =>
    obtain ⟨rfl, -⟩ | ⟨-, hnil⟩ := List.append_eq_singleton_iff.1 hplace
    · exact absurd rfl hq
    · cases hnil
  | @module e p c he hp hc hinteresting =>
    obtain rfl | ⟨p, k, rfl⟩ := p.eq_nil_or_concat'
    · exact absurd rfl hp
    rw [List.map_append, ← List.cons_append] at hplace
    obtain ⟨rfl, hname⟩ := List.append_inj' hplace rfl
    obtain rfl := (List.cons.inj hname).1
    rw [get?_append] at hc
    obtain ⟨d, hd, hk⟩ := Option.bind_eq_some_iff.1 hc
    have hmods := (mem_mods (N := N) (placed_of_get? (h.placed he) hd)).2
      ⟨k, (interestingAt_append hd).1 hinteresting, by simp [hk], rfl⟩
    by_cases hnil : p = []
    · subst hnil
      cases hd
      exact ⟨_, .package he, hmods⟩
    · exact ⟨_, .module he hnil hd (hinteresting.of_prefix (List.prefix_append ..)), hmods⟩

/-- The files of a package have targets of their own. -/
lemma nodup_package {e : String × DamlPackage} (he : e ∈ A.packages)
    (hapart : IdentifiersApart N matcher A) :
    ((packageFile N matcher e.2 :: generatePackageSource N matcher e.2).map
      SourceFile.target).Nodup := by
  have hplaced := h.placed he
  have hmem {file : SourceFile} : file ∈ generatePackageSource N matcher e.2 ↔ _ :=
    mem_generateSubModules_file hplaced fun c hc => mem_generateModuleSource_file (hplaced.child hc)
  have hpaths : ((generatePackageSource N matcher e.2).map SourceFile.path).Nodup := by
    have hall : ((generateModuleSource N matcher e.2.rootModule
        [toRustIdentifier N e.2.name]).map SourceFile.path).Nodup := nodup_paths hplaced
    rcases hroot : e.2.rootModule with ⟨body, childModules⟩
    rw [hroot, generateModuleSource_eq] at hall
    rw [generatePackageSource, hroot]
    exact (List.nodup_cons.1 hall).2
  rw [List.map_cons, List.nodup_cons]
  constructor
  · intro hpackage
    obtain ⟨file, hfile, htarget⟩ := List.mem_map.1 hpackage
    obtain ⟨p, c, hp, hc, -, rfl⟩ := hmem.1 hfile
    rw [target_packageFile, target_moduleFile hp (h.path_of_get? he hc)] at htarget
    have hplace := fileAt_injective (by simp) (by simp) htarget
    exact hp (by simpa using hplace)
  · refine List.Nodup.map_on ?_ (List.Nodup.of_map _ hpaths)
    intro file hfile file' hfile' htarget
    obtain ⟨p, c, hp, hc, hinteresting, rfl⟩ := hmem.1 hfile
    obtain ⟨p', c', hp', hc', hinteresting', rfl⟩ := hmem.1 hfile'
    rw [target_moduleFile hp (h.path_of_get? he hc),
      target_moduleFile hp' (h.path_of_get? he hc')] at htarget
    have hplace := fileAt_injective (by simp) (by simp) htarget
    obtain rfl := hapart.path_eq he hinteresting hinteresting' (List.cons.inj hplace).2
    rw [Option.some.inj (hc.symm.trans hc')]

/-- Modules that lie next to each other have identifiers of their own if the files have targets of
their own. -/
lemma modules_apart (hinj : ∀ ⦃file⦄, file ∈ generateArchiveSeparate N matcher A →
      ∀ ⦃file'⦄, file' ∈ generateArchiveSeparate N matcher A → file.target = file'.target →
        file = file')
    (e : String × DamlPackage) (he : e ∈ A.packages) (p : List String) (k k' : String)
    (hk : InterestingAt matcher e.2.rootModule (p ++ [k]))
    (hk' : InterestingAt matcher e.2.rootModule (p ++ [k']))
    (heq : toRustIdentifier N k = toRustIdentifier N k') : k = k' := by
  have hget : ∀ {r : List String}, InterestingAt matcher e.2.rootModule r →
      ∃ c, get? r e.2.rootModule = some c := by
    rintro r ⟨r', b, hpre, hb, -⟩
    have hr := valAt_on_way hpre (by rw [hb]; simp)
    obtain ⟨b', hb'⟩ := Option.ne_none_iff_exists'.1 hr
    obtain ⟨c, hc, -⟩ := Option.map_eq_some_iff.1 hb'
    exact ⟨c, hc⟩
  obtain ⟨c, hc⟩ := hget hk
  obtain ⟨c', hc'⟩ := hget hk'
  have hfile := h.mem_iff.2 ⟨_, Written.module (N := N) he (by simp) hc hk⟩
  have hfile' := h.mem_iff.2 ⟨_, Written.module (N := N) he (by simp) hc' hk'⟩
  have hsame := hinj hfile hfile' (by
    rw [target_moduleFile (by simp) (h.path_of_get? he hc),
      target_moduleFile (by simp) (h.path_of_get? he hc'), List.map_append, List.map_append,
      List.map_singleton, List.map_singleton, heq])
  have hpath : c.val.path = c'.val.path := congrArg SourceFile.path hsame
  rw [h.path_of_get? he hc, h.path_of_get? he hc'] at hpath
  exact (List.cons.inj (List.append_cancel_left hpath)).1

/-- No file overwrites another one exactly if the identifiers are apart. -/
lemma nodup_targets_iff : ((generateArchiveSeparate N matcher A).map SourceFile.target).Nodup ↔
    IdentifiersApart N matcher A := by
  constructor
  · intro hnodup
    refine ⟨?_, ?_⟩
    · rw [generateArchiveSeparate, List.map_flatMap, List.nodup_flatMap] at hnodup
      have hmem : ∀ e : String × DamlPackage, fileAt [toRustIdentifier N e.2.name] ∈
          (packageFile N matcher e.2 :: generatePackageSource N matcher e.2).map
            SourceFile.target := fun _ => List.mem_cons_self
      refine List.pairwise_map.2 (hnodup.2.imp fun {e e'} hdisjoint heq => ?_)
      exact List.disjoint_left.1 hdisjoint (hmem e) (heq ▸ hmem e')
    · exact h.modules_apart (List.inj_on_of_nodup_map hnodup)
  · intro hapart
    rw [generateArchiveSeparate, List.map_flatMap, List.nodup_flatMap]
    refine ⟨fun e he => h.nodup_package he hapart, ?_⟩
    refine (List.pairwise_map.1 hapart.packages).imp_of_mem fun {e e'} he he' hne => ?_
    refine List.disjoint_left.2 ?_
    -- the first name of the place is that of the package
    have hhead : ∀ {e : String × DamlPackage}, e ∈ A.packages → ∀ {t : List String},
        t ∈ (packageFile N matcher e.2 :: generatePackageSource N matcher e.2).map
          SourceFile.target → ∃ r, t = fileAt (toRustIdentifier N e.2.name :: r) := by
      intro e he t ht
      obtain ⟨file, hfile, rfl⟩ := List.mem_map.1 ht
      rcases List.mem_cons.1 hfile with rfl | hfile
      · exact ⟨[], rfl⟩
      · obtain ⟨p, c, hp, hc, -, rfl⟩ := (mem_generateSubModules_file (h.placed he)
          fun c hc => mem_generateModuleSource_file ((h.placed he).child hc)).1 hfile
        exact ⟨_, target_moduleFile hp (h.path_of_get? he hc) _⟩
    intro t ht ht'
    obtain ⟨r, rfl⟩ := hhead he ht
    obtain ⟨r', hr'⟩ := hhead he' ht'
    exact hne (List.cons.inj (fileAt_injective (by simp) (by simp) hr')).1

end Rooted

/-- Every file is found at the place of its module, where a later file of that place may have
replaced it. -/
lemma Rooted.exists_at (h : Rooted A) (store : List String → Option SourceFile)
    (hfile : Written N matcher A q file) :
    ∃ last, Written N matcher A q last ∧
      LastWrite.writeAll SourceFile.target store (generateArchiveSeparate N matcher A) (fileAt q) =
        some last := by
  have hmem : fileAt q ∈ (generateArchiveSeparate N matcher A).map SourceFile.target :=
    List.mem_map.2 ⟨file, h.mem_iff.2 ⟨q, hfile⟩, h.target_eq hfile⟩
  obtain ⟨last, hlast, htarget, hstore⟩ := LastWrite.exists_of_mem store hmem
  obtain ⟨q', hwritten⟩ := h.mem_iff.1 hlast
  have hplace : q' = q := fileAt_injective hwritten.ne_nil hfile.ne_nil
    ((h.target_eq hwritten).symm.trans htarget)
  exact ⟨last, hplace ▸ hwritten, hstore⟩

/-- What is reached from the packages has been written for the place where it is reached. -/
lemma Rooted.written_of_reached (h : Rooted A) {store : List String → Option SourceFile}
    (hreached : Reached
      (LastWrite.writeAll SourceFile.target store (generateArchiveSeparate N matcher A))
      (A.packages.map fun e => toRustIdentifier N e.2.name) q file) :
    Written N matcher A q file := by
  induction hreached with
  | package hname hstore =>
    obtain ⟨e, he, rfl⟩ := List.mem_map.1 hname
    obtain ⟨last, hlast, heq⟩ := h.exists_at store (.package he : Written N matcher A _ _)
    rwa [Option.some.inj (hstore.symm.trans heq)]
  | mod _ hname hstore ih =>
    obtain ⟨inner, hinner⟩ := h.exists_written_mod ih hname
    obtain ⟨last, hlast, heq⟩ := h.exists_at store hinner
    rwa [Option.some.inj (hstore.symm.trans heq)]

lemma Reached.store_eq {store : List String → Option SourceFile} {roots : List String}
    (h : Reached store roots q file) : store (fileAt q) = some file := by
  cases h <;> assumption

/-- With identifiers that are apart, all files are reached. -/
lemma Rooted.reached_of_written (h : Rooted A) (store : List String → Option SourceFile)
    (hapart : IdentifiersApart N matcher A) (hfile : Written N matcher A q file) :
    Reached (LastWrite.writeAll SourceFile.target store (generateArchiveSeparate N matcher A))
      (A.packages.map fun e => toRustIdentifier N e.2.name) q file := by
  have hnodup := h.nodup_targets_iff.2 hapart
  have hout : ∀ {q : List String} {file : SourceFile}, Written N matcher A q file →
      LastWrite.writeAll SourceFile.target store (generateArchiveSeparate N matcher A) (fileAt q) =
        some file := by
    intro q file hwritten
    rw [← h.target_eq hwritten]
    exact LastWrite.writeAll_of_nodup hnodup (h.mem_iff.2 ⟨q, hwritten⟩)
  -- from the file of a module to that of the module above it
  induction q using List.reverseRecOn generalizing file with
  | nil => exact absurd rfl hfile.ne_nil
  | append_singleton q name ih =>
    by_cases hq : q = []
    · subst hq
      have hroot : name ∈ A.packages.map fun e => toRustIdentifier N e.2.name := by
        generalize hplace : [] ++ [name] = place at hfile
        cases hfile with
        | package he =>
          rw [(List.cons.inj hplace).1]
          exact List.mem_map_of_mem he
        | module _ hp _ _ => simp [hp] at hplace
      exact .package hroot (hout hfile)
    · obtain ⟨outer, houter, hname⟩ := h.exists_written_parent hq hfile
      exact .mod (ih houter) hname (hout hfile)

/-- The compiler finds a file for every package and for every module that a file declares, and what
it finds was written for that place.  The files have targets of their own exactly if no identifiers
coincide.  Given packages with identifiers of their own, the compiler reads all files exactly
then. -/
theorem reached_generateArchiveSeparate (N : Naming) (matcher : ModuleMatcher)
    (store : List String → Option SourceFile) {A : DamlArchive} (h : Rooted A) :
    let files := generateArchiveSeparate N matcher A
    let out := LastWrite.writeAll SourceFile.target store files
    let roots := A.packages.map fun e => toRustIdentifier N e.2.name
    (∀ name ∈ roots, out (fileAt [name]) ≠ none) ∧
      (∀ q file, Reached out roots q file → file ∈ files ∧ file.target = fileAt q ∧
        ∀ name ∈ file.mods, out (fileAt (q ++ [name])) ≠ none) ∧
      ((files.map SourceFile.target).Nodup ↔ IdentifiersApart N matcher A) ∧
      (roots.Nodup → ((∀ file ∈ files, ∃ q, Reached out roots q file) ↔
        IdentifiersApart N matcher A)) := by
  intro files out roots
  refine ⟨?_, ?_, h.nodup_targets_iff, fun hroots => ⟨fun hall => ⟨hroots, ?_⟩, ?_⟩⟩
  · intro name hname
    obtain ⟨e, he, rfl⟩ := List.mem_map.1 hname
    obtain ⟨last, -, hlast⟩ := h.exists_at store (.package he : Written N matcher A _ _)
    exact Option.ne_none_iff_exists'.2 ⟨last, hlast⟩
  · intro q file hreached
    have hwritten := h.written_of_reached hreached
    refine ⟨h.mem_iff.2 ⟨q, hwritten⟩, h.target_eq hwritten, fun name hname => ?_⟩
    obtain ⟨inner, hinner⟩ := h.exists_written_mod hwritten hname
    obtain ⟨last, -, hlast⟩ := h.exists_at store hinner
    exact Option.ne_none_iff_exists'.2 ⟨last, hlast⟩
  · refine h.modules_apart fun file hfile file' hfile' htarget => ?_
    obtain ⟨q, hq⟩ := hall file hfile
    obtain ⟨q', hq'⟩ := hall file' hfile'
    have hat := hq.store_eq
    rw [← h.target_eq (h.written_of_reached hq), htarget,
      h.target_eq (h.written_of_reached hq'), hq'.store_eq] at hat
    exact (Option.some.inj hat).symm
  · intro hapart file hfile
    obtain ⟨q, hwritten⟩ := h.mem_iff.1 hfile
    exact ⟨q, h.reached_of_written store hapart hwritten⟩

lemma rooted_tokenArchive : Rooted tokenArchive where
  wellPlaced := wellPlaced_tokenArchive
  roots := List.forall_mem_singleton.2 rfl

lemma identifiersApart_tokenArchive : IdentifiersApart wordNaming ⟨[]⟩ tokenArchive where
  packages := List.nodup_singleton _
  modules := by
    refine List.forall_mem_singleton.2 ?_
    have hmain : ∀ p k, InterestingAt ⟨[]⟩ (.node (.newEmpty []) [("Main", .node tokenModule [])])
        (p ++ [k]) → k = "Main" := by
      rintro p k ⟨q, b, hpre, hb, -⟩
      obtain ⟨rfl, -⟩ | ⟨rfl, -⟩ := valAt_tokenArchive hb
      · simp at hpre
      · exact List.mem_singleton.1 (hpre.subset (List.mem_append_right p List.mem_cons_self))
    intro p k k' hk hk' _
    rw [hmain p k hk, hmain p k' hk']

/-- The files `tokens.rs` and `tokens/main.rs` are read. -/
theorem reached_tokenArchive :
    (generateArchiveSeparate wordNaming ⟨[]⟩ tokenArchive).map SourceFile.target =
        [["tokens.rs"], ["tokens", "main.rs"]] ∧
      ∀ file ∈ generateArchiveSeparate wordNaming ⟨[]⟩ tokenArchive, ∃ q,
        Reached (LastWrite.writeAll SourceFile.target (fun _ => none)
          (generateArchiveSeparate wordNaming ⟨[]⟩ tokenArchive))
            [toRustIdentifier wordNaming "tokens"] q file :=
  ⟨rfl, ((reached_generateArchiveSeparate wordNaming ⟨[]⟩ (fun _ => none)
    rooted_tokenArchive).2.2.2 identifiersApart_tokenArchive.packages).2
      identifiersApart_tokenArchive⟩

end Places

end DamlBindings.Codegen
