import CompanionBuild.Proofs.Host.ModuleName
import CompanionBuild.Proofs.Path.Packaged

/-! # Relative names that are read as packages

The name of a file nearby is the path to it, and `./` is put before a path that does not start with a dot. The dot may
be the first one of a hidden file or directory, though: the path to what lies in such an entry beside the importing file
is left as it is, and the resolver takes it for the name of a package. All other paths between files are read as paths.
-/

namespace CompanionBuild

/-! ## How the resolver reads a name -/

namespace Resolution

/-- The name is a path from the importing file, on every disk and in every file. -/
structure ReadsAsPath (name : String) : Prop where
  relative : isRelative name = true
  resolves {σ : Type} (files : FileLookup σ) (containing : String) : resolveFile files name containing =
    files.firstExisting (probes (Path.join (Path.dirname containing) name))

/-- The name starts with that of a package, on every disk and in every file. -/
structure ReadsAsPackage (name : String) : Prop where
  notRelative : isRelative name = false
  resolves {σ : Type} (files : FileLookup σ) (containing : String) : resolveFile files name containing =
    resolvePackage files (packageSpecifier name).1 (packageSpecifier name).2 (Path.ancestors (Path.dirname containing))

theorem readsAsPath_iff {name : String} : ReadsAsPath name ↔ isRelative name = true := by
  refine ⟨ReadsAsPath.relative, fun relative => ⟨relative, fun files containing => ?_⟩⟩
  rw [resolveFile, if_pos relative]

theorem readsAsPackage_iff {name : String} (notAbsolute : Path.isAbsolute name = false) :
    ReadsAsPackage name ↔ isRelative name = false := by
  refine ⟨ReadsAsPackage.notRelative, fun notRelative => ⟨notRelative, fun files containing => ?_⟩⟩
  rw [resolveFile, notRelative, notAbsolute]
  rfl

end Resolution

/-! ## Ways into hidden entries -/

namespace Path

open Chars (AreSegments route)

/-- The way from a directory leads down, first into an entry whose name starts with a dot. -/
def EntersHidden (source target : String) : Prop :=
  ∃ name rest, Chars.segments target.toList = Chars.segments source.toList ++ ('.' :: name) :: rest

/-- A dot is put before a path that starts with none. -/
theorem dotRelative_cases (source target : String) :
    (∃ rest, (relative source target).toList = '.' :: rest ∧ dotRelative source target = relative source target) ∨
      (∀ rest, (relative source target).toList ≠ '.' :: rest) ∧
        (dotRelative source target).toList = ['.'] ++ '/' :: (relative source target).toList := by
  unfold dotRelative
  dsimp only
  split
  · next dotted =>
    obtain ⟨rest, whole⟩ := List.isPrefixOf_iff_prefix.mp dotted
    exact .inl ⟨rest, whole.symm, rfl⟩
  · next plain =>
    refine .inr ⟨fun rest whole => plain ?_, by simp⟩
    exact (Text.startsWith_singleton whole).trans (beq_self_eq_true '.')

theorem not_isAbsolute_dotRelative (source target : String) : isAbsolute (dotRelative source target) = false := by
  obtain ⟨rest, dotted, same⟩ | ⟨-, text⟩ := dotRelative_cases source target
  · rw [same, isAbsolute, dotted]
    rfl
  · rw [isAbsolute, text]
    rfl

section

variable {source target : String}

theorem relative_toList : (relative source target).toList =
    Chars.join (route (Chars.segments source.toList) (Chars.segments target.toList)) := by
  rw [relative, String.toList_ofList, Chars.relative_eq_join]

/-- A path that starts with a dot is not empty. -/
theorem route_of_dotted {rest : List Char} (dotted : (relative source target).toList = '.' :: rest) :
    ∃ first more, route (Chars.segments source.toList) (Chars.segments target.toList) = first :: more ∧
      first <+: '.' :: rest := by
  rw [relative_toList] at dotted
  cases pieces : route (Chars.segments source.toList) (Chars.segments target.toList) with
  | nil =>
    rw [pieces] at dotted
    cases dotted
  | cons first more =>
    rw [pieces] at dotted
    exact ⟨first, more, rfl, dotted ▸ Chars.prefix_join first more⟩

/-- The way to a target reads as a path unless it enters something hidden. -/
theorem isRelative_dotRelative_iff (proper : AreSegments (Chars.segments target.toList)) :
    Resolution.isRelative (dotRelative source target) = true ↔ ¬EntersHidden source target := by
  obtain ⟨rest, dotted, same⟩ | ⟨plain, text⟩ := dotRelative_cases source target
  · obtain ⟨first, more, pieces, start⟩ := route_of_dotted dotted
    have parts : Text.split '/' (dotRelative source target).toList = first :: more := by
      rw [same, relative_toList, pieces]
      exact Text.split_intercalate (List.cons_ne_nil _ _) fun piece member =>
        (Chars.route_free proper piece (pieces ▸ member)).1
    obtain down | ⟨outside, rest, up⟩ := Chars.route_cases (Chars.segments source.toList) (Chars.segments target.toList)
    · -- The dot is that of the first entry on the way, and such an entry is none of those that the resolver knows.
      rw [pieces] at down
      have inner : AreSegments (first :: more) := fun segment member =>
        proper segment (down ▸ List.mem_append_right _ member)
      obtain ⟨c, name, rfl⟩ := List.exists_cons_of_ne_nil (inner first (List.mem_cons_self ..)).nonempty
      obtain ⟨rfl, -⟩ := List.cons_prefix_cons.mp start
      have hidden : EntersHidden source target := ⟨name, more, down⟩
      have package : Resolution.isRelative (dotRelative source target) = false := not_isRelative (parts ▸ inner)
      simp [hidden, package]
    · have relative : Resolution.isRelative (dotRelative source target) = true := by
        rw [pieces] at up
        exact isRelative_iff.mpr ⟨first, more, parts, .inr (List.cons.inj up).1⟩
      exact iff_of_true relative fun ⟨_, _, below⟩ => outside (below ▸ List.prefix_append _ _)
  · have relative : Resolution.isRelative (dotRelative source target) = true :=
      isRelative_iff.mpr ⟨_, _, text ▸ Text.split_append ['.'] _, .inl rfl⟩
    refine iff_of_true relative fun ⟨name, rest, below⟩ => ?_
    obtain ⟨more, start⟩ := Chars.prefix_join ('.' :: name) rest
    refine plain (name ++ more) ?_
    rw [relative_toList, below, Chars.route_below, ← start]
    rfl

end

end Path

/-! ## Names of files nearby -/

namespace Host

open Resolution (ReadsAsPath ReadsAsPackage)

variable {ω : Type} {host : Host ω}

/-- The file that imports and the one without its extension, as they are compared: from the root directories, if both
lie there. -/
def compared (host : Host ω) (stem containing : String) : String × String :=
  let roots := host.options.resolvedRootDirs
  if Path.belowRoots containing roots ≠ containing ∧ Path.belowRoots stem roots ≠ stem then
    (Path.belowRoots containing roots, Path.belowRoots stem roots)
  else (containing, stem)

/-- The way from the importing file leads down, first into an entry whose name starts with a dot. -/
def EntersHidden (host : Host ω) (imported containing : String) : Prop :=
  Path.EntersHidden (Path.dirname (host.compared (Path.stripExtension imported) containing).1)
    (host.compared (Path.stripExtension imported) containing).2

theorem relativeName_eq_compared (stem containing : String) : host.relativeName stem containing =
    Path.dotRelative (Path.dirname (host.compared stem containing).1) (host.compared stem containing).2 := by
  unfold relativeName compared
  dsimp only
  split <;> rfl

theorem segments_compared (host : Host ω) {stem : String} (absolute : Path.isAbsolute stem = true) (containing : String) :
    Path.Chars.AreSegments (Path.Chars.segments (host.compared stem containing).2.toList) := by
  have proper := Path.Chars.segments_areSegments absolute
  unfold compared
  dsimp only
  split
  · next moved =>
    obtain ⟨root, -, below, -⟩ := Path.exists_below?_of_ne moved.2
    obtain ⟨inner, whole, seen⟩ := Path.exists_of_below? below
    have innerProper : Path.Chars.AreSegments inner := fun segment member =>
      proper segment (whole ▸ List.mem_append_right _ member)
    rwa [seen, String.toList_ofList, Path.Chars.segments_join innerProper]
  · exact proper

/-- Where no names are overridden, a file of the same package, or a companion, gets a name that the resolver reads as a
path, unless the way there first enters something hidden: then the resolver looks for a package. Only a name that was
kept for two other files is left out. -/
theorem near_names_read_as_paths (unnamed : host.overrides.moduleName = none) {imported containing : String}
    (absolute : Path.isAbsolute imported = true)
    (near : Path.packageOf? (Path.stripExtension imported) = Path.packageOf? containing ∨ Path.isCompanion imported = true)
    {situation : Situation ω} (own : host.KeepsOwnName imported containing situation) :
    ∃ name next, (host.moduleName imported containing).run.run situation = (.ok name, next) ∧
      (ReadsAsPath name ↔ ¬host.EntersHidden imported containing) ∧
      (ReadsAsPackage name ↔ host.EntersHidden imported containing) := by
  obtain ⟨next, named⟩ := own.moduleName unnamed (computeModuleName_of_near near situation)
  have proper := host.segments_compared (Path.isAbsolute_stripExtension absolute) containing
  have reads := @Path.isRelative_dotRelative_iff
    (Path.dirname (host.compared (Path.stripExtension imported) containing).1) _ proper
  rw [relativeName_eq_compared] at named
  refine ⟨_, next, named, Resolution.readsAsPath_iff.trans reads, ?_⟩
  rw [Resolution.readsAsPackage_iff (Path.not_isAbsolute_dotRelative _ _), ← Bool.not_eq_true, reads, not_not,
    EntersHidden]

/-- A file in a hidden directory beside the importing one, and one in a plain directory. -/
theorem hidden_neighbour_reads_as_package :
    (∃ next, (projectFiles.host.moduleName "/app/.storybook/x.ts" "/app/main.ts").run.run ⟨(), .ofSummaries []⟩ =
        (.ok ".storybook/x", next) ∧ ReadsAsPackage ".storybook/x") ∧
    ∃ next, (projectFiles.host.moduleName "/app/lib/.x.ts" "/app/main.ts").run.run ⟨(), .ofSummaries []⟩ =
        (.ok "./lib/.x", next) ∧ ReadsAsPath "./lib/.x" := by
  constructor
  · obtain ⟨name, next, named, -, package⟩ := @near_names_read_as_paths Unit projectFiles.host rfl "/app/.storybook/x.ts"
      "/app/main.ts" (by decide) (.inl (by decide)) ⟨(), .ofSummaries []⟩ nofun
    have computed : ((projectFiles.host.moduleName "/app/.storybook/x.ts" "/app/main.ts").run.run
      ⟨(), .ofSummaries []⟩).1 = .ok ".storybook/x" := by rfl
    rw [named] at computed
    cases computed
    exact ⟨next, named, package.mpr ⟨"storybook".toList, ["x".toList], by decide⟩⟩
  · obtain ⟨name, next, named, path, -⟩ := @near_names_read_as_paths Unit projectFiles.host rfl "/app/lib/.x.ts"
      "/app/main.ts" (by decide) (.inl (by decide)) ⟨(), .ofSummaries []⟩ nofun
    have computed : ((projectFiles.host.moduleName "/app/lib/.x.ts" "/app/main.ts").run.run
      ⟨(), .ofSummaries []⟩).1 = .ok "./lib/.x" := by rfl
    rw [named] at computed
    cases computed
    refine ⟨next, named, path.mpr ?_⟩
    rintro ⟨name, rest, below⟩
    have first : ["app".toList, "lib".toList, ".x".toList] = ["app".toList] ++ ('.' :: name) :: rest := below
    cases first

end Host

end CompanionBuild
