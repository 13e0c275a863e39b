import CompanionBuild.Proofs.Host.ModuleName
import CompanionBuild.Proofs.Host.Steady
import CompanionBuild.Proofs.Path.Packaged

/-! # Names of files in packages

A file in a package is named by the package alone, if it is the typings of the package, or by the package and the path
inside it. Read back from a place where this package is the nearest of its name, the name means the file. The path is
found by what follows the last package folder in a line, so this holds where the directory of the package folder is one
line and the name of the package does not end like a folder itself.
-/

namespace CompanionBuild

/-- The typings of the package in a folder are a given file. -/
def Disk.hasTypings (disk : Disk) (folder file : String) : Bool :=
  (disk.text? (Path.join folder "package.json")).any (Host.isTypings folder file)

theorem Disk.exists_of_hasTypings {disk : Disk} {folder file : String} (typings : disk.hasTypings folder file = true) :
    ∃ text descriptor entry, disk.text? (Path.join folder "package.json") = some text ∧
      Descriptor.parse? text = some descriptor ∧ descriptor.publicTypings? = some entry ∧
      Path.join folder entry = file := by
  rw [hasTypings, Option.any_eq_true] at typings
  obtain ⟨text, read, typings⟩ := typings
  rw [Host.isTypings, Option.any_eq_true] at typings
  obtain ⟨entry, declared, leads⟩ := typings
  obtain ⟨descriptor, parsed, declared⟩ := Option.bind_eq_some_iff.mp declared
  exact ⟨text, descriptor, entry, read, parsed, declared, of_decide_eq_true leads⟩

/-- The name that a file of a package gets on a disk. -/
def Disk.packageName (disk : Disk) (file stem package : String) : String :=
  let deepName := Path.stripPackageFolder stem
  if Path.isDeclaration file && (Text.dropTail? deepName stem).any (fun before => disk.hasTypings (before ++ package) file)
  then package else deepName

theorem Disk.packageName_cases (disk : Disk) (file stem package : String) :
    disk.packageName file stem package = package ∨ disk.packageName file stem package = Path.stripPackageFolder stem := by
  unfold packageName
  dsimp only
  split
  · exact .inl rfl
  · exact .inr rfl

theorem Path.isTypeScript_of_isDeclaration {file : String} (declaration : Path.isDeclaration file = true) :
    Path.isTypeScript file = true := by
  have tail : ".ts".toList <:+ ".d.ts".toList := by decide
  have whole := tail.trans (List.isSuffixOf_iff_suffix.mp declaration)
  rw [isTypeScript, Text.endsWith, List.isSuffixOf_iff_suffix.mpr whole, Bool.true_or]

namespace Host

variable {ω : Type} {host : Host ω} {disk : Disk} {situation : Situation ω}

/-! ## The nearest package of a name -/

section

variable (sees : host.Sees disk)

include sees

/-- The world is of no account for what exists first. -/
theorem FindsFirst.of_same {file : String} {files : List String} {first second : Situation ω}
    (finds : host.FindsFirst file files first) (same : first.caches = second.caches) :
    host.FindsFirst file files second := by
  induction finds generalizing second with
  | found present => exact .found ((steady_fileExists sees file _ _ same).1 ▸ present)
  | passed absent later ih =>
    obtain ⟨answer, kept⟩ := steady_fileExists sees _ _ _ same
    exact .passed (answer ▸ absent) (ih kept)

/-- A file of the disk exists for the compiler. -/
theorem fileExists_of_present (surveyed : situation.caches.Surveyed disk) {file : String}
    (present : disk.present file = true) : ((host.fileExists file).run situation).1 = true := by
  rw [fileExists, HostM.caches_bind]
  split
  · rfl
  · rcases asked : (host.generatable file).run situation with ⟨verdict, middle⟩
    have recalls : middle.caches.Recalls disk.present := by
      have kept := (surveys sees).generatable file situation surveyed
      rw [asked] at kept
      exact kept.recalls
    rw [run_bind asked]
    split
    · rfl
    · rw [exists?_of_recalls sees.fileExists recalls, present]

theorem directoryExists_run (dir : String) (situation : Situation ω) :
    ∃ world, (host.lookup.directoryExists dir).run situation = (disk.hasDirectory dir, { situation with world }) :=
  ⟨_, Prod.ext (sees.directoryExists dir situation.world) rfl⟩

/-- A directory that keeps no such package is passed. -/
theorem resolvePackage_passed {package dir : String}
    (none : disk.hasDirectory (Path.join dir ("node_modules/" ++ package)) = false) (inside : Option String)
    (rest : List String) (situation : Situation ω) :
    ∃ world, (Resolution.resolvePackage host.lookup package inside (dir :: rest)).run situation =
      (Resolution.resolvePackage host.lookup package inside rest).run { situation with world } := by
  rw [Resolution.resolvePackage, Resolution.packageFolder?]
  by_cases folder : Path.basename dir = "node_modules"
  · rw [if_pos folder]
    exact ⟨situation.world, rfl⟩
  · obtain ⟨world, asked⟩ := directoryExists_run sees (Path.join dir ("node_modules/" ++ package)) situation
    rw [none] at asked
    rw [if_neg folder]
    dsimp only
    rw [run_bind asked]
    exact ⟨world, rfl⟩

/-- The package is taken from the first directory that keeps it. -/
theorem resolvePackage_of_nearest {package dir file : String} {inside : Option String} {between above : List String}
    (none : ∀ nearer ∈ between, disk.hasDirectory (Path.join nearer ("node_modules/" ++ package)) = false)
    (inner : Path.basename dir ≠ "node_modules")
    (folder : disk.hasDirectory (Path.join dir ("node_modules/" ++ package)) = true)
    (found : ∀ world, ((Resolution.packageFile host.lookup (Path.join dir ("node_modules/" ++ package)) inside).run
      { situation with world }).1 = some file) :
    ((Resolution.resolvePackage host.lookup package inside (between ++ dir :: above)).run situation).1 = some file := by
  induction between generalizing situation with
  | nil =>
    obtain ⟨world, asked⟩ := directoryExists_run sees (Path.join dir ("node_modules/" ++ package)) situation
    rw [folder] at asked
    rw [List.nil_append, Resolution.resolvePackage, Resolution.packageFolder?, if_neg inner]
    dsimp only
    rw [run_bind asked, if_pos rfl]
    have answer := found world
    rcases ran : (Resolution.packageFile host.lookup (Path.join dir ("node_modules/" ++ package)) inside).run
      { situation with world } with ⟨outcome, next⟩
    rw [ran] at answer
    subst answer
    rw [run_bind ran]
    rfl
  | cons nearer between ih =>
    obtain ⟨world, passed⟩ := resolvePackage_passed sees (none nearer (List.mem_cons_self ..)) inside
      (between ++ dir :: above) situation
    rw [List.cons_append, passed]
    exact ih (fun nearer member => none nearer (List.mem_cons_of_mem _ member)) found

/-! ## The typings of a package -/

/-- The typings that a package on the disk declares are found when the package is asked for. -/
theorem packageMain_of_typings (surveyed : situation.caches.Surveyed disk)
    (unsummarized : ∀ file, situation.caches.summaries.has file = false) {folder file : String}
    (typings : disk.hasTypings folder file = true) (declaration : Path.isDeclaration file = true)
    (present : disk.present file = true) :
    ((Resolution.packageMain host.lookup folder).run situation).1 = some file := by
  obtain ⟨text, descriptor, entry, read, parsed, declared, leads⟩ := Disk.exists_of_hasTypings typings
  have script : Path.isTypeScript file = true := Path.isTypeScript_of_isDeclaration declaration
  obtain ⟨rest, probes⟩ : ∃ rest, Resolution.entryProbes folder entry = file :: rest := by
    rw [Resolution.entryProbes, leads, if_pos script]
    exact ⟨_, rfl⟩
  obtain ⟨world, asked⟩ := readDisk_run sees (Path.join folder "package.json") situation
  have lookup : (host.lookup.read (Path.join folder "package.json")).run situation =
      (some text, { situation with world }) := by
    have fresh := Option.isSome_eq_false_iff.mp (unsummarized (Path.join folder "package.json"))
    rw [Option.isNone_iff_eq_none] at fresh
    change (host.fileText (Path.join folder "package.json")).run situation = _
    rw [fileText, HostM.caches_bind, fresh]
    exact asked.trans (by rw [read])
  have found : (Resolution.descriptor? host.lookup folder).run situation = (some descriptor, { situation with world }) := by
    rw [Resolution.descriptor?, run_bind lookup, Option.bind_some, parsed]
    rfl
  have shown : ((host.fileExists file).run { situation with world }).1 = true :=
    @fileExists_of_present _ _ _ { situation with world } sees surveyed file present
  have candidates : ((Option.map Resolution.entries (some descriptor)).getD []).flatMap (Resolution.entryProbes folder) =
      file :: (rest ++ descriptor.main.toList.flatMap (Resolution.entryProbes folder)) := by
    rw [Option.map_some, Option.getD_some, Resolution.entries, declared, Option.toList_some, List.singleton_append,
      List.flatMap_cons, probes, List.cons_append]
  rw [Resolution.packageMain, run_bind found]
  dsimp only
  rw [candidates, List.cons_append]
  exact (FindsFirst.found shown).firstExisting

/-! ## From a file to its name -/

theorem isPackageTypings_run (file stem deepName package : String) (situation : Situation ω) :
    ∃ world, (host.isPackageTypings file stem deepName package).run situation =
      ((Text.dropTail? deepName stem).any (fun before => disk.hasTypings (before ++ package) file),
        { situation with world }) := by
  unfold isPackageTypings
  cases Text.dropTail? deepName stem with
  | none => exact ⟨situation.world, rfl⟩
  | some before =>
    obtain ⟨world, read⟩ := readDisk_run sees (Path.join (before ++ package) "package.json") situation
    dsimp only
    rw [run_bind read]
    exact ⟨world, rfl⟩

/-- Which name a file in another package gets is decided by the disk. -/
theorem packageName_run (file stem package : String) (situation : Situation ω) :
    ∃ world, (host.packageName file stem package).run situation =
      (disk.packageName file stem package, { situation with world }) := by
  unfold packageName Disk.packageName
  cases Path.isDeclaration file with
  | false => exact ⟨situation.world, rfl⟩
  | true =>
    obtain ⟨world, asked⟩ := isPackageTypings_run sees file stem (Path.stripPackageFolder stem) package situation
    dsimp only
    rw [if_pos rfl, run_bind asked, Bool.true_and]
    refine ⟨world, ?_⟩
    split <;> rfl

/-- A file in a package is named by the disk wherever it is not in the same package and no companion. -/
theorem computeModuleName_of_package {imported containing package : String}
    (packaged : Path.packageOf? (Path.stripExtension imported) = some package)
    (outside : Path.packageOf? containing = none) (original : Path.isCompanion imported = false)
    (situation : Situation ω) :
    ∃ world, (host.computeModuleName imported containing).run.run situation =
      (.ok (disk.packageName imported (Path.stripExtension imported) package), { situation with world }) := by
  obtain ⟨world, named⟩ := packageName_run sees imported (Path.stripExtension imported) package situation
  refine ⟨world, ?_⟩
  rw [computeModuleName, packaged, outside, original]
  exact Attempt.lift_bind named pure

end

/-! ## Files in packages -/

/-- A file in a package, and code outside of packages for which this package is the nearest of its name. -/
structure PackageInSight (disk : Disk) (dir package inside containing : String) : Prop where
  normal : Path.IsNormal (Path.packaged dir package inside)
  stem : Path.normalize (Path.stripExtension (Path.packaged dir package inside)) =
    Path.stripExtension (Path.packaged dir package inside)
  original : Path.isCompanion (Path.packaged dir package inside) = false
  name : Path.Chars.IsPackageName package.toList
  nonempty : inside ≠ ""
  outer : Text.contains (dir ++ "/") "node_modules/" = false
  inner : Text.contains inside "node_modules/" = false
  present : disk.present (Path.packaged dir package inside) = true
  folder : disk.hasDirectory (Path.packageDir dir package) = true
  outside : Path.packageOf? containing = none
  /-- From the directory of the code the way up leads to the directory of the package, and no other package of the name
  is met before. -/
  nearest : ∃ between above, Path.ancestors (Path.dirname (Path.slashes containing)) =
      between ++ Path.directory dir :: above ∧
    ∀ nearer ∈ between, disk.hasDirectory (Path.join nearer ("node_modules/" ++ package)) = false

/-- A module name means a file. -/
def Means (host : Host ω) (name containing file : String) (situation : Situation ω) : Prop :=
  ∃ isExternal, ((host.resolveModule name containing).run situation).1 = some ⟨file, isExternal⟩

/-- The name of a file in a package is that of the package, perhaps with the path of the file, and leads back. -/
structure LeadsBack (host : Host ω) (dir package inside containing name : String) (situation : Situation ω) : Prop where
  named : name = package ∨ name = package ++ "/" ++ Path.stripExtension inside
  means : (name = package ∨ host.FindsFirst (Path.packaged dir package inside)
      (Resolution.probes (Path.stripExtension (Path.packaged dir package inside))) situation) →
    host.Means name containing (Path.packaged dir package inside) situation

namespace PackageInSight

variable {dir package inside containing : String} (sight : PackageInSight disk dir package inside containing)

include sight

theorem exists_isPackaged : ∃ segments, Path.IsPackaged segments dir package (Path.stripExtension inside) := by
  refine Path.IsNormal.exists_isPackaged ⟨?_, ?_⟩
  · rw [← Path.stripExtension_packaged]
    exact Path.isAbsolute_stripExtension sight.normal.absolute
  · rw [← Path.stripExtension_packaged]
    exact sight.stem

theorem free_outer : ¬Path.Chars.packageFolder <:+: dir.toList ++ ['/'] := by
  have free := Text.contains_eq_false_iff.mp sight.outer
  rwa [String.toList_append] at free

theorem packageOf?_stem : Path.packageOf? (Path.stripExtension (Path.packaged dir package inside)) = some package := by
  rw [Path.stripExtension_packaged, Path.packageOf?, Path.packaged_toList,
    Path.Chars.packageOf?_append sight.free_outer sight.name, Option.map_some, String.ofList_toList]

/-- The path inside the last folder is the name in the package just where the directory is one line and the package is
not named like a folder. -/
theorem deepName_eq_iff : Path.stripPackageFolder (Path.stripExtension (Path.packaged dir package inside)) =
    package ++ "/" ++ Path.stripExtension inside ↔
      '\n' ∉ dir.toList ∧ Text.contains (package ++ "/") "node_modules/" = false := by
  obtain ⟨segments, proper⟩ := sight.exists_isPackaged
  have absolute : dir.toList = [] ∨ dir.toList.head? = some '/' := by
    rw [proper.dir, Path.Chars.stem]
    split
    · exact .inl rfl
    · exact .inr rfl
  have inner : ¬Path.Chars.packageFolder <:+: (Path.stripExtension inside).toList := by
    obtain ⟨ending, -, whole⟩ := Path.exists_extension inside
    have text := congrArg String.toList whole
    rw [String.toList_append] at text
    intro found
    exact Text.contains_eq_false_iff.mp sight.inner (text ▸ found.trans (List.prefix_append _ _).isInfix)
  have cut := Path.Chars.stripped_eq_iff sight.free_outer absolute sight.name inner
  have plain : Text.contains (package ++ "/") "node_modules/" = false ↔
      ¬Path.Chars.packageFolder <:+: package.toList ++ ['/'] := by
    rw [Text.contains_eq_false_iff, String.toList_append]
    rfl
  rw [plain, ← cut, Path.stripPackageFolder_eq_iff, Path.stripExtension_packaged, Path.packaged_toList,
    Path.toList_append_slash]

/-- A name that starts with the package is looked up in its folder. -/
theorem means_of_packageFile (sees : host.Sees disk) {name : String} {path : Option String}
    (proper : Path.Chars.AreSegments (Text.split '/' name.toList)) (specifier : packageSpecifier name = (package, path))
    (found : ∀ world, ((Resolution.packageFile host.lookup (Path.packageDir dir package) path).run
      { situation with world }).1 = some (Path.packaged dir package inside)) :
    host.Means name containing (Path.packaged dir package inside) situation := by
  obtain ⟨segments, parts⟩ := sight.exists_isPackaged
  obtain ⟨between, above, way, none⟩ := sight.nearest
  refine resolveModule_of_resolveFile ?_
  rw [Resolution.resolveFile, Path.not_isRelative proper, Path.not_isAbsolute proper, specifier, way]
  refine resolvePackage_of_nearest sees none (parts.basename_directory_ne sight.outer) ?_ ?_
  · rw [parts.join_directory]
    exact sight.folder
  · rw [parts.join_directory]
    exact found

/-- By the package and the path inside it the file is found, if it is the first of those that the path may mean. -/
theorem means_deepName (sees : host.Sees disk) (first : host.FindsFirst (Path.packaged dir package inside)
    (Resolution.probes (Path.stripExtension (Path.packaged dir package inside))) situation) :
    host.Means (package ++ "/" ++ Path.stripExtension inside) containing (Path.packaged dir package inside) situation := by
  obtain ⟨segments, parts⟩ := sight.exists_isPackaged
  have pieces : Path.Chars.AreSegments (Text.split '/' (package ++ "/" ++ Path.stripExtension inside).toList) := by
    rw [Path.toList_append_slash, Text.split_append]
    exact List.forall_mem_append.mpr ⟨parts.package, parts.inside⟩
  refine sight.means_of_packageFile sees pieces (packageSpecifier_append sight.name _) fun world => ?_
  have moved : host.FindsFirst (Path.packaged dir package inside)
      (Resolution.probes (Path.stripExtension (Path.packaged dir package inside))) { situation with world } :=
    first.of_same sees rfl
  rw [Resolution.packageFile, parts.join_packageDir, ← Path.stripExtension_packaged]
  exact moved.firstExisting

/-- By the package alone the file is found, if it is the typings of the package. -/
theorem means_package (sees : host.Sees disk) (surveyed : situation.caches.Surveyed disk)
    (unsummarized : ∀ file, situation.caches.summaries.has file = false)
    (declaration : Path.isDeclaration (Path.packaged dir package inside) = true)
    (typings : disk.hasTypings (Path.packageDir dir package) (Path.packaged dir package inside) = true) :
    host.Means package containing (Path.packaged dir package inside) situation := by
  obtain ⟨segments, parts⟩ := sight.exists_isPackaged
  refine sight.means_of_packageFile sees parts.package (packageSpecifier_name sight.name) fun world => ?_
  exact @packageMain_of_typings _ _ _ { situation with world } sees surveyed unsummarized _ _ typings declaration
    sight.present

omit sight in
theorem deepName_ne : package ++ "/" ++ Path.stripExtension inside ≠ package := by
  intro same
  have lengths := congrArg (fun text => text.toList.length) same
  simp only [Path.toList_append_slash, List.length_append, List.length_cons] at lengths
  omega

/-- Any name that tells the package and the path inside it leads back. -/
theorem leadsBack_iff (sees : host.Sees disk) {name : String} :
    host.LeadsBack dir package inside containing name situation ↔ name = package ++ "/" ++ Path.stripExtension inside ∨
      name = package ∧ host.Means package containing (Path.packaged dir package inside) situation := by
  constructor
  · intro leads
    obtain rfl | deep := leads.named
    · exact .inr ⟨rfl, leads.means (.inl rfl)⟩
    · exact .inl deep
  · rintro (rfl | ⟨rfl, means⟩)
    · exact ⟨.inr rfl, fun first => sight.means_deepName sees (first.resolve_left deepName_ne)⟩
    · exact ⟨.inl rfl, fun _ => means⟩

/-- The name that the disk gives to the file leads back where the path inside the last folder is the name in the package,
or else where the name of the package happens to mean the file. -/
theorem packageName_leadsBack_iff (sees : host.Sees disk) (surveyed : situation.caches.Surveyed disk)
    (unsummarized : ∀ file, situation.caches.summaries.has file = false) {name : String}
    (own : name = disk.packageName (Path.packaged dir package inside)
      (Path.stripExtension (Path.packaged dir package inside)) package) :
    host.LeadsBack dir package inside containing name situation ↔
      Path.stripPackageFolder (Path.stripExtension (Path.packaged dir package inside)) =
        package ++ "/" ++ Path.stripExtension inside ∨
      name = package ∧ host.Means package containing (Path.packaged dir package inside) situation := by
  rw [sight.leadsBack_iff sees]
  constructor
  · rintro (deep | package)
    · obtain same | same := disk.packageName_cases (Path.packaged dir package inside)
        (Path.stripExtension (Path.packaged dir package inside)) package
      · exact (deepName_ne (deep.symm.trans (own.trans same))).elim
      · exact .inl (same.symm.trans (own.symm.trans deep))
    · exact .inr package
  · rintro (deep | package)
    · have dropped : Text.dropTail? (package ++ "/" ++ Path.stripExtension inside)
          (Path.stripExtension (Path.packaged dir package inside)) = some (dir ++ "/" ++ "node_modules/") := by
        rw [Text.dropTail?_eq_some_iff, Path.stripExtension_packaged, Path.packaged, Path.packageDir]
        simp only [String.append_assoc]
      have folder : dir ++ "/" ++ "node_modules/" ++ package = Path.packageDir dir package := by
        rw [Path.packageDir, String.append_assoc]
      unfold Disk.packageName at own
      dsimp only at own
      rw [deep, dropped, Option.any_some, folder] at own
      split at own
      · next typings =>
        obtain ⟨declaration, typings⟩ := Bool.and_eq_true_iff.mp typings
        exact .inr ⟨own, sight.means_package sees surveyed unsummarized declaration typings⟩
      · exact .inl own
    · exact .inr package

end PackageInSight

theorem situationAfter_unsummarized (acts : List (HostAct ω))
    (none : ∀ file, situation.caches.summaries.has file = false) :
    ∀ file, (HostAct.situationAfter host acts situation).caches.summaries.has file = false :=
  HostAct.situationAfter_of_units (P := fun situation => ∀ file, situation.caches.summaries.has file = false) host.lasts
    (fun _ _ lasts none file => (lasts.summaries file).trans (none file)) (fun _ none => none) acts none

/-- In a build without overrides and summaries, code outside of packages names a file in a package by the package, or by
the package and the path without its extension, and the name leads back to the file, just where three things hold: no
name was kept for two other files under the same key, which never happens to names without a colon; the directory of
the package is one line; and the package is not named like a package folder. Else a name leads back by accident only, as
it was kept for other files but is the right one, or is that of the package and means the file. -/
theorem package_names_resolve_iff (sees : host.Sees disk) (unnamed : host.overrides.moduleName = none)
    {dir package inside containing : String} (sight : PackageInSight disk dir package inside containing)
    {acts : List (HostAct ω)} {world : ω} (built : HostAct.situationAfter host acts ⟨world, .ofSummaries []⟩ = situation) :
    (':' ∉ (Path.packaged dir package inside).toList → ':' ∉ containing.toList →
      host.KeepsOwnName (Path.packaged dir package inside) containing situation) ∧
    ∃ name next, (host.moduleName (Path.packaged dir package inside) containing).run.run situation = (.ok name, next) ∧
      ∀ more, host.LeadsBack dir package inside containing name (HostAct.situationAfter host more next) ↔
        (host.KeepsOwnName (Path.packaged dir package inside) containing situation ∧
          '\n' ∉ dir.toList ∧ Text.contains (package ++ "/") "node_modules/" = false) ∨
        (¬host.KeepsOwnName (Path.packaged dir package inside) containing situation ∧
          name = package ++ "/" ++ Path.stripExtension inside) ∨
        (name = package ∧ host.Means package containing (Path.packaged dir package inside)
          (HostAct.situationAfter host more next)) := by
  have named (before : Situation ω) :=
    computeModuleName_of_package sees sight.packageOf?_stem sight.outside sight.original before
  constructor
  · intro plain plainSource
    rw [← built]
    refine keepsOwnName_situationAfter plain plainSource (fun first second => ?_) acts [] world
    obtain ⟨⟨_, computed⟩, ⟨_, again⟩⟩ := And.intro (named first) (named second)
    rw [computed, again]
  by_cases own : host.KeepsOwnName (Path.packaged dir package inside) containing situation
  · obtain ⟨world', computed⟩ := named situation
    obtain ⟨next, answered⟩ := own.moduleName unnamed computed
    refine ⟨_, next, answered, fun more => ?_⟩
    have surveyed : next.caches.Surveyed disk := by
      have kept := (surveys sees).moduleName (Path.packaged dir package inside) containing situation
        (built ▸ situationAfter_surveyed sees acts (Caches.surveyed_ofSummaries disk []))
      rwa [answered] at kept
    have none (file : String) : next.caches.summaries.has file = false := by
      have kept := (host.lasts.moduleName (Path.packaged dir package inside) containing situation).summaries file
      rw [answered, ← built] at kept
      exact kept.trans (situationAfter_unsummarized acts (fun _ => rfl) file)
    rw [sight.packageName_leadsBack_iff sees (situationAfter_surveyed sees more surveyed)
      (situationAfter_unsummarized more none) rfl, sight.deepName_eq_iff]
    simp only [own, true_and, not_true_eq_false, false_and, false_or]
  · obtain ⟨kept, foreign⟩ := not_forall.mp own
    obtain ⟨known, -⟩ := Classical.not_imp.mp foreign
    refine ⟨kept, situation, moduleName_of_some unnamed known, fun more => ?_⟩
    rw [sight.leadsBack_iff sees]
    simp only [own, false_and, not_false_eq_true, true_and, false_or]

def packageFiles : Disk :=
  .ofFiles [("/app/node_modules/@scope/lib/package.json", "\x7b\"typings\": \"./deep/x.d.ts\"\x7d"),
    ("/app/node_modules/@scope/lib/deep/x.d.ts", ""), ("/app/src/main.ts", "")]

theorem packageFiles_inSight : PackageInSight packageFiles "/app" "@scope/lib" "deep/x.d.ts" "/app/src/main.ts" where
  normal := ⟨by decide, by decide⟩
  stem := by decide
  original := by decide
  name := @Path.Chars.IsPackageName.inScope "scope".toList "lib".toList
    ⟨by decide, List.all_eq_true.mp (by decide)⟩ ⟨by decide, List.all_eq_true.mp (by decide)⟩
  nonempty := by decide
  outer := by decide
  inner := by decide
  present := by decide
  folder := by decide
  outside := by decide
  nearest := by
    have directory : Path.dirname (Path.slashes "/app/src/main.ts") = "/app/src" := by decide
    refine ⟨["/app/src"], ["/"], ?_, by decide⟩
    rw [directory, Path.ancestors, Path.Chars.ancestors, if_neg (by decide), Path.Chars.ancestors, if_neg (by decide),
      Path.Chars.ancestors, if_pos (by decide)]
    decide

/-- The typings of a package with a scope, declared by a path that starts with a dot. -/
theorem scoped_typings_resolve :
    ∃ next, (packageFiles.host.moduleName "/app/node_modules/@scope/lib/deep/x.d.ts" "/app/src/main.ts").run.run
        ⟨(), .ofSummaries []⟩ = (.ok "@scope/lib", next) ∧
      packageFiles.host.Means "@scope/lib" "/app/src/main.ts" "/app/node_modules/@scope/lib/deep/x.d.ts" next := by
  have file : Path.packaged "/app" "@scope/lib" "deep/x.d.ts" = "/app/node_modules/@scope/lib/deep/x.d.ts" := by decide
  have given : packageFiles.packageName (Path.packaged "/app" "@scope/lib" "deep/x.d.ts")
      (Path.stripExtension (Path.packaged "/app" "@scope/lib" "deep/x.d.ts")) "@scope/lib" = "@scope/lib" := by
    decide +kernel
  obtain ⟨keeps, name, next, named, leads⟩ := @package_names_resolve_iff _ _ _ _ packageFiles.host_sees rfl _ _ _ _
    packageFiles_inSight [] () rfl
  have own := keeps (by decide) (by decide)
  obtain ⟨_, computed⟩ := computeModuleName_of_package packageFiles.host_sees packageFiles_inSight.packageOf?_stem
    packageFiles_inSight.outside packageFiles_inSight.original ⟨(), .ofSummaries []⟩
  obtain ⟨_, again⟩ := own.moduleName rfl computed
  obtain rfl : "@scope/lib" = name := by
    have same := again.symm.trans named
    rw [given] at same
    exact Except.ok.inj (Prod.mk.inj same).1
  have leads := (leads []).mpr (.inl ⟨own, by decide⟩)
  rw [file] at named
  exact ⟨next, named, file ▸ leads.means (.inl rfl)⟩

end Host

end CompanionBuild
