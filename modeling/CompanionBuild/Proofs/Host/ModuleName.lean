import CompanionBuild.Proofs.Host.Survey
import CompanionBuild.Proofs.Path.Naming
import CompanionBuild.Proofs.Path.Relative

/-! # Module names lead back to their files

The name that code in one file uses for another is read back by the resolver. A relative name is the path between the
two files without an extension, so the resolver is back at that path and finds there what the host says exists. Names
are kept under the two files with a colon between them, so files without a colon always get their own name.
-/

namespace CompanionBuild

namespace Host

variable {ω : Type} {host : Host ω}

/-! ## Reading names back -/

/-- Asked about one after the other, `file` is the first of some files that exists. -/
inductive FindsFirst (host : Host ω) (file : String) : List String → Situation ω → Prop
  | found {rest : List String} {situation : Situation ω} (present : ((host.fileExists file).run situation).1 = true) :
      FindsFirst host file (file :: rest) situation
  | passed {other : String} {rest : List String} {situation : Situation ω}
      (absent : ((host.fileExists other).run situation).1 = false)
      (later : FindsFirst host file rest ((host.fileExists other).run situation).2) :
      FindsFirst host file (other :: rest) situation

theorem FindsFirst.firstExisting {file : String} {files : List String} {situation : Situation ω}
    (first : host.FindsFirst file files situation) : ((host.lookup.firstExisting files).run situation).1 = some file := by
  induction first with
  | found present =>
    rename_i rest situation
    have ran : (host.lookup.fileExists file).run situation = (true, ((host.fileExists file).run situation).2) :=
      Prod.ext present rfl
    rw [FileLookup.firstExisting, run_bind ran]
    rfl
  | passed absent later ih =>
    rename_i other rest situation
    have ran : (host.lookup.fileExists other).run situation = (false, ((host.fileExists other).run situation).2) :=
      Prod.ext absent rfl
    rw [FileLookup.firstExisting, run_bind ran]
    exact ih

/-- The module that a name means is the file that it resolves to. -/
theorem resolveModule_of_resolveFile {name containing file : String} {situation : Situation ω}
    (resolved : ((Resolution.resolveFile host.lookup name (Path.slashes containing)).run situation).1 = some file) :
    ∃ isExternal, ((host.resolveModule name containing).run situation).1 = some ⟨file, isExternal⟩ := by
  rcases found : (Resolution.resolveFile host.lookup name (Path.slashes containing)).run situation with ⟨outcome, middle⟩
  rw [found] at resolved
  subst resolved
  have ran : (Resolution.resolve host.lookup name (Path.slashes containing)).run situation =
      (some ⟨file, Text.contains file "/node_modules/"⟩, middle) := by
    rw [Resolution.resolve, run_bind found]
    rfl
  rw [resolveModule, run_bind ran]
  dsimp only
  split
  · rcases asked : (host.isSource file).run middle with ⟨isSource, next⟩
    rw [run_bind asked]
    cases isSource with
    | true => exact ⟨false, rfl⟩
    | false => exact ⟨_, rfl⟩
  · exact ⟨_, rfl⟩

/-! ## Names that are kept -/

/-- A name that is kept for two files is the one that they get. -/
def KeepsOwnName (host : Host ω) (imported containing : String) (situation : Situation ω) : Prop :=
  ∀ kept, situation.caches.moduleNames.get? (moduleNameKey imported containing) = some kept →
    ((host.computeModuleName imported containing).run.run situation).1 = .ok kept

theorem moduleName_of_some (unnamed : host.overrides.moduleName = none) {imported containing kept : String}
    {situation : Situation ω}
    (known : situation.caches.moduleNames.get? (moduleNameKey imported containing) = some kept) :
    (host.moduleName imported containing).run.run situation = (.ok kept, situation) := by
  unfold moduleName
  rw [unnamed]
  dsimp only
  rw [Attempt.memo, Attempt.caches_bind, known]
  rfl

/-- Files are called by their own name, whether it is computed or was kept. -/
theorem KeepsOwnName.moduleName {imported containing name : String} {situation middle : Situation ω}
    (own : host.KeepsOwnName imported containing situation) (unnamed : host.overrides.moduleName = none)
    (computed : (host.computeModuleName imported containing).run.run situation = (.ok name, middle)) :
    ∃ next, (host.moduleName imported containing).run.run situation = (.ok name, next) := by
  cases known : situation.caches.moduleNames.get? (moduleNameKey imported containing) with
  | some kept =>
    have same := own kept known
    rw [computed] at same
    cases same
    exact ⟨situation, moduleName_of_some unnamed known⟩
  | none =>
    unfold Host.moduleName
    rw [unnamed]
    exact ⟨_, Attempt.memo_of_none known computed⟩

/-- Every name that is kept was computed for two files that have its key. -/
def RecallsNames (host : Host ω) (situation : Situation ω) : Prop :=
  ∀ key kept, situation.caches.moduleNames.get? key = some kept → ∃ imported containing before after,
    moduleNameKey imported containing = key ∧
      (host.computeModuleName imported containing).run.run before = (.ok kept, after)

theorem recallsNames_disk (host : Host ω) : host.AdmitsDisk (Preserving host.RecallsNames) where
  world _ _ recalls := recalls
  exists? _ := .memo (fun _ _ recalls => recalls) (.inWorld (fun _ _ recalls => recalls) _)

/-- Names are kept for the files they were computed for, and for nothing else. -/
theorem recallsNames (host : Host ω) : host.AdmitsUnits (Preserving host.RecallsNames) where
  toAdmitsDisk := host.recallsNames_disk
  writtenUnit := host.recallsNames_disk.writtenUnit fun _ _ recalls => recalls
  isBundled _ := host.recallsNames_disk.isBundled (fun _ _ recalls => recalls) (fun _ _ recalls => recalls)
    (fun _ _ _ _ _ keeps => keeps) _
  moduleNames computed recalls key kept found := by
    rw [Table.get?_put] at found
    split at found
    case isTrue same =>
      cases found
      exact ⟨_, _, _, _, same, computed⟩
    case isFalse => exact recalls key kept found
  metadata _ _ recalls := recalls
  requests _ _ recalls := recalls
  records _ _ recalls := recalls
  summaryUnit file situation recalls := by
    obtain ⟨-, ran⟩ | ⟨u, world, summaries, -, ran, -⟩ := summaryUnit_cases host file situation
    · rwa [ran]
    · rw [ran]
      exact recalls
  companion _ _ _ recalls := recalls
  companionNames _ _ _ _ _ keeps := keeps
  attached _ _ recalls := recalls
  parked _ _ recalls := recalls

/-- Two files whose names have no colon are told by their key. -/
theorem eq_of_moduleNameKey_eq {imported containing other source : String} (plain : ':' ∉ imported.toList)
    (plainSource : ':' ∉ containing.toList) (same : moduleNameKey other source = moduleNameKey imported containing) :
    other = imported ∧ source = containing := by
  have texts : imported.toList ++ ':' :: containing.toList = other.toList ++ ':' :: source.toList := by
    simpa [moduleNameKey] using congrArg String.toList same.symm
  obtain ⟨first, -, second⟩ := (List.append_cons_inj_of_notMem plain plainSource).mp texts
  exact ⟨String.toList_inj.mp first.symm, String.toList_inj.mp second.symm⟩

/-- After every history of a build, two files without a colon in their names are called by their own name, where that is
the same in every situation. -/
theorem keepsOwnName_situationAfter {imported containing : String} (plain : ':' ∉ imported.toList)
    (plainSource : ':' ∉ containing.toList)
    (steady : ∀ first second : Situation ω, ((host.computeModuleName imported containing).run.run first).1 =
      ((host.computeModuleName imported containing).run.run second).1)
    (acts : List (HostAct ω)) (summaries : List LibrarySummary) (world : ω) :
    host.KeepsOwnName imported containing (HostAct.situationAfter host acts ⟨world, .ofSummaries summaries⟩) := by
  have recalls : host.RecallsNames (HostAct.situationAfter host acts ⟨world, .ofSummaries summaries⟩) :=
    HostAct.situationAfter_of_units host.recallsNames (fun _ _ keeps => keeps) (fun _ recalls => recalls) acts nofun
  intro kept known
  obtain ⟨other, source, before, after, same, computed⟩ := recalls _ _ known
  obtain ⟨rfl, rfl⟩ := eq_of_moduleNameKey_eq plain plainSource same
  rw [steady _ before, computed]

/-! ## Relative names -/

/-- Whatever the base directory is, files are named by the path between them. -/
theorem relativeName_eq (unrooted : host.options.rootDirs = none) {stem containing : String} (target : Path.IsNormal stem)
    (source : Path.IsNormal containing) :
    host.relativeName stem containing = Path.dotRelative (Path.dirname containing) stem := by
  obtain ⟨goal, proper, rfl⟩ := target.exists_rooted
  obtain ⟨start, outer, rfl⟩ := source.exists_rooted
  have roots : host.options.resolvedRootDirs = [Path.normalize host.options.base] := by
    rw [Options.resolvedRootDirs, unrooted]
  unfold relativeName
  rw [roots]
  generalize Path.normalize host.options.base = root
  dsimp only
  split
  · next moved =>
    -- Both files lie below the base directory, whose segments they share.
    obtain ⟨_, startRoot, startBelow, startNonempty⟩ := Path.exists_below?_of_ne moved.1
    obtain ⟨_, goalRoot, goalBelow, -⟩ := Path.exists_below?_of_ne moved.2
    rw [List.mem_singleton.mp startRoot] at startBelow
    rw [List.mem_singleton.mp goalRoot] at goalBelow
    obtain ⟨inner, startWhole, startSeen⟩ := Path.exists_of_below? startBelow
    obtain ⟨down, goalWhole, goalSeen⟩ := Path.exists_of_below? goalBelow
    rw [String.toList_ofList, Path.Chars.segments_rooted outer] at startWhole
    rw [String.toList_ofList, Path.Chars.segments_rooted proper] at goalWhole
    generalize Path.Chars.segments root.toList = shared at startWhole goalWhole
    subst startWhole goalWhole
    obtain rfl | ⟨directory, last, rfl⟩ := List.eq_nil_or_concat inner
    · have nothing : String.ofList (Path.Chars.join []) = "" := rfl
      exact (startNonempty (startSeen.trans nothing)).elim
    · rw [List.concat_eq_append] at startSeen outer ⊢
      have file : Path.Chars.IsSegment last := outer last (by simp)
      rw [startSeen, goalSeen, Path.dotRelative_below outer proper, ← List.append_assoc, Path.dirname_rooted file]
  · rfl

/-- From the importing file a relative name leads to the file it was made from, but for the extension. -/
theorem join_relativeName (unrooted : host.options.rootDirs = none) {stem containing : String} (target : Path.IsNormal stem)
    (source : Path.IsNormal containing) :
    Path.join (Path.dirname containing) (host.relativeName stem containing) = stem := by
  rw [relativeName_eq unrooted target source]
  obtain ⟨goal, proper, rfl⟩ := target.exists_rooted
  obtain ⟨start, outer, rfl⟩ := source.exists_rooted
  obtain ⟨directory, inner, same⟩ := Path.exists_dirname_rooted outer
  rw [same, Path.join_dotRelative inner proper]

/-- A file of the same package, or a companion, is known by its relative name. -/
theorem computeModuleName_of_near {imported containing : String}
    (near : Path.packageOf? (Path.stripExtension imported) = Path.packageOf? containing ∨ Path.isCompanion imported = true)
    (situation : Situation ω) : (host.computeModuleName imported containing).run.run situation =
      (.ok (host.relativeName (Path.stripExtension imported) containing), situation) := by
  rw [computeModuleName, if_pos near]
  rfl

/-- Where no names are overridden and there are no root directories, a file of the same package, or a companion, gets a
name that leads back: if the name is relative, it means the file wherever the file is the first to exist of those that
its path without the extension may mean. Only a name that was kept for two other files is left out. -/
theorem relative_names_resolve (unnamed : host.overrides.moduleName = none) (unrooted : host.options.rootDirs = none)
    {imported containing : String} (source : Path.IsNormal containing) (target : Path.IsNormal imported)
    (stem : Path.normalize (Path.stripExtension imported) = Path.stripExtension imported)
    (near : Path.packageOf? (Path.stripExtension imported) = Path.packageOf? containing ∨ Path.isCompanion imported = true)
    {situation : Situation ω} (own : host.KeepsOwnName imported containing situation) :
    ∃ name next, (host.moduleName imported containing).run.run situation = (.ok name, next) ∧
      (Resolution.isRelative name = true → ∀ later,
        host.FindsFirst imported (Resolution.probes (Path.stripExtension imported)) later →
          ∃ isExternal, ((host.resolveModule name containing).run later).1 = some ⟨imported, isExternal⟩) := by
  obtain ⟨next, named⟩ := own.moduleName unnamed (computeModuleName_of_near near situation)
  refine ⟨_, next, named, fun relative later first => resolveModule_of_resolveFile ?_⟩
  have normal : Path.IsNormal (Path.stripExtension imported) := ⟨Path.isAbsolute_stripExtension target.absolute, stem⟩
  have plain : Path.slashes containing = containing := by
    obtain ⟨segments, proper, rfl⟩ := source.exists_rooted
    exact Path.slashes_rooted proper
  rw [Resolution.resolveFile, if_pos relative, plain, join_relativeName unrooted normal source]
  exact first.firstExisting

def projectFiles : Disk :=
  .ofFiles [("/app/lib/x.ts", ""), ("/app/src/main.ts", "")]

/-- A file in the directory beside that of the importing one. -/
theorem neighbour_name_resolves :
    ∃ next isExternal,
      (projectFiles.host.moduleName "/app/lib/x.ts" "/app/src/main.ts").run.run ⟨(), .ofSummaries []⟩ =
        (.ok "../lib/x", next) ∧
      ((projectFiles.host.resolveModule "../lib/x" "/app/src/main.ts").run ⟨(), .ofSummaries []⟩).1 =
        some ⟨"/app/lib/x.ts", isExternal⟩ := by
  obtain ⟨name, next, named, leads⟩ := @relative_names_resolve Unit projectFiles.host rfl rfl "/app/lib/x.ts"
    "/app/src/main.ts" ⟨by decide, by decide⟩ ⟨by decide, by decide⟩ (by decide) (.inl (by decide))
    ⟨(), .ofSummaries []⟩ nofun
  have computed : ((projectFiles.host.moduleName "/app/lib/x.ts" "/app/src/main.ts").run.run ⟨(), .ofSummaries []⟩).1 =
      .ok "../lib/x" := by rfl
  rw [named] at computed
  cases computed
  have first : projectFiles.host.FindsFirst "/app/lib/x.ts" (Resolution.probes (Path.stripExtension "/app/lib/x.ts"))
      ⟨(), .ofSummaries []⟩ := .found rfl
  obtain ⟨isExternal, resolved⟩ := leads (by decide) _ first
  exact ⟨next, isExternal, named, resolved⟩

end Host

end CompanionBuild
