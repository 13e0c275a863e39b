import CompanionBuild.Project.Options
import CompanionBuild.Proofs.Path.Relative

/-! # Files below a root directory

A file lies at or below a directory when the segments of the directory begin those of the file. The program looks at the
text of the relative path instead, and takes two dots at its front for a step up. They are the front of a name where the
path first enters an entry that is called so, and those files are taken for outside; all others are told apart rightly.
-/

namespace CompanionBuild

namespace Path

namespace Chars

/-- Two dots at the front of a path are at the front of its first segment. -/
theorem dots_prefix_join_iff (segment : List Char) (rest : List (List Char)) :
    ['.', '.'] <+: join (segment :: rest) ↔ ['.', '.'] <+: segment := by
  constructor
  · intro dotted
    cases rest with
    | nil => rwa [join_singleton] at dotted
    | cons next rest =>
      rw [join_cons (List.cons_ne_nil _ _)] at dotted
      -- a segment of fewer than two characters would have its slash among the dots
      rcases segment with _ | ⟨c, _ | ⟨d, name⟩⟩
      · simp at dotted
      · simp at dotted
      · simpa using dotted
  · intro dotted
    exact dotted.trans (prefix_join segment rest)

/-- The path to a target does not start with two dots when it leads down and first enters an entry without them. -/
theorem level_route_iff (source target : List (List Char)) :
    ¬['.', '.'] <+: join (route source target) ↔
      source <+: target ∧ ¬∃ name rest, target = source ++ ('.' :: '.' :: name) :: rest := by
  constructor
  · intro level
    have down := eq_append_of_level level
    refine ⟨⟨_, down.symm⟩, ?_⟩
    rintro ⟨name, rest, enters⟩
    apply level
    rw [enters, route_below, dots_prefix_join_iff]
    exact List.prefix_append ['.', '.'] name
  · rintro ⟨⟨inner, rfl⟩, plain⟩ dotted
    rw [route_below] at dotted
    cases inner with
    | nil => simp [join, List.intercalate] at dotted
    | cons segment rest =>
      rw [dots_prefix_join_iff] at dotted
      obtain ⟨name, rfl⟩ := dotted
      exact plain ⟨name, rest, rfl⟩

end Chars

/-- The file lies at the directory or below it. -/
def Contains (root file : String) : Prop :=
  Chars.segments root.toList <+: Chars.segments file.toList

/-- The way from the directory leads down, first into an entry whose name starts with two dots. -/
def EntersDotted (root file : String) : Prop :=
  ∃ name rest, Chars.segments file.toList = Chars.segments root.toList ++ ('.' :: '.' :: name) :: rest

theorem isSome_below?_iff (root file : String) :
    (below? root file).isSome = true ↔ Contains root file ∧ ¬EntersDotted root file := by
  have front : Text.startsWith (relative root file) ".." = true ↔
      ['.', '.'] <+: Chars.join (Chars.route (Chars.segments root.toList) (Chars.segments file.toList)) := by
    rw [Text.startsWith, relative, String.toList_ofList, String.toList_ofList, Chars.relative_eq_join,
      List.isPrefixOf_iff_prefix]
  have found : (below? root file).isSome = true ↔ ¬Text.startsWith (relative root file) ".." = true := by
    unfold below?
    dsimp only
    split
    · next up => simp [up]
    · next level => simp [level]
  rw [found, front, Chars.level_route_iff, Contains, EntersDotted]

/-- The path of a file seen from a directory leads from the directory to the file. -/
theorem resolve_of_below? {root file path : String} (rootAbsolute : isAbsolute root = true)
    (fileAbsolute : isAbsolute file = true) (below : below? root file = some path) :
    resolve root path = normalize file := by
  unfold below? at below
  dsimp only at below
  split at below
  · cases below
  · rw [← Option.some.inj below, resolve_relative rootAbsolute fileAbsolute]

end Path

/-- A file counts as one of the root directory exactly when it lies there and the way to it does not first enter an entry
whose name starts with two dots. The same holds of any two paths, and where both are absolute, the path that is found
leads from one to the other. -/
theorem Options.isInRootDir_iff_contains {options : Options} {root : String} (given : options.rootDir = some root)
    (file : String) :
    (options.isInRootDir file = true ↔
      Path.Contains (Path.resolve options.base root) file ∧
        ¬Path.EntersDotted (Path.resolve options.base root) file) ∧
    ∀ outer full, ((Path.below? outer full).isSome = true ↔ Path.Contains outer full ∧ ¬Path.EntersDotted outer full) ∧
      (Path.isAbsolute outer = true → Path.isAbsolute full = true →
        ∀ path, Path.below? outer full = some path → Path.resolve outer path = Path.normalize full) := by
  constructor
  · rw [isInRootDir, given]
    exact Path.isSome_below?_iff _ _
  · intro outer full
    refine ⟨Path.isSome_below?_iff outer full, ?_⟩
    intro outerAbsolute fullAbsolute path below
    exact Path.resolve_of_below? outerAbsolute fullAbsolute below

/-- A file in a directory called `..lib` lies in the root directory and is taken for outside; one in `lib` is found. -/
theorem Options.dotted_entry_counts_as_outside :
    ({ basePath := some "/app", rootDir := some "src" } : Options).isInRootDir "/app/src/..lib/x.ts" = false ∧
      Path.Contains "/app/src" "/app/src/..lib/x.ts" ∧
      ({ basePath := some "/app", rootDir := some "src" } : Options).isInRootDir "/app/src/lib/x.ts" = true ∧
      Path.below? "/app/src" "/app/src/lib/x.ts" = some "lib/x.ts" ∧
      Path.resolve "/app/src" "lib/x.ts" = "/app/src/lib/x.ts" := by
  have given : ({ basePath := some "/app", rootDir := some "src" } : Options).rootDir = some "src" := rfl
  have root : Path.resolve ({ basePath := some "/app", rootDir := some "src" } : Options).base "src" = "/app/src" := by
    decide
  have dotted : Path.EntersDotted "/app/src" "/app/src/..lib/x.ts" := ⟨"lib".toList, ["x.ts".toList], by decide⟩
  have inside : Path.Contains "/app/src" "/app/src/lib/x.ts" := by
    unfold Path.Contains
    decide
  have plain : ¬Path.EntersDotted "/app/src" "/app/src/lib/x.ts" := by
    rintro ⟨name, rest, enters⟩
    have first : ["app".toList, "src".toList, "lib".toList, "x.ts".toList] =
        ["app".toList, "src".toList] ++ ('.' :: '.' :: name) :: rest := enters
    cases first
  have below : Path.below? "/app/src" "/app/src/lib/x.ts" = some "lib/x.ts" := by decide
  have outside := (isInRootDir_iff_contains given "/app/src/..lib/x.ts").1
  have found := (isInRootDir_iff_contains given "/app/src/lib/x.ts").1
  have leads := ((isInRootDir_iff_contains given "/app/src/lib/x.ts").2 "/app/src" "/app/src/lib/x.ts").2
  rw [root] at outside found
  have normal : Path.normalize "/app/src/lib/x.ts" = "/app/src/lib/x.ts" := by decide
  refine ⟨Bool.eq_false_iff.mpr fun counted => (outside.mp counted).2 dotted, ?_, found.mpr ⟨inside, plain⟩, below, ?_⟩
  · obtain ⟨name, rest, enters⟩ := dotted
    exact ⟨_, enters.symm⟩
  · exact (leads (by decide) (by decide) _ below).trans normal

end CompanionBuild
