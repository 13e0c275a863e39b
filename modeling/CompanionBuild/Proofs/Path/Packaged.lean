import CompanionBuild.Proofs.Path.Package
import CompanionBuild.Resolution

/-! # Files in packages

A package lies in the package folder of some directory, and a file in a package is named by the package and the path
inside it. The resolver takes such a name apart and puts the path together again.
-/

namespace CompanionBuild

/-! ## Module names that start with a package -/

theorem Path.toList_append_slash (first second : String) :
    (first ++ "/" ++ second).toList = first.toList ++ '/' :: second.toList := by
  rw [String.toList_append, String.toList_append, List.append_assoc]
  rfl

theorem Text.startsWith_singleton {text : String} {c d : Char} {rest : List Char} (parts : text.toList = d :: rest) :
    Text.startsWith text (String.ofList [c]) = (c == d) := by
  rw [Text.startsWith, parts, String.toList_ofList, List.isPrefixOf_cons_cons, List.isPrefixOf_nil_left, Bool.and_true]

/-- The first pieces of a name are those of the package. -/
theorem packageSpecifier_eq {package text : String} (proper : Path.Chars.IsPackageName package.toList)
    {pieces : List (List Char)} (start : package.toList <+: text.toList)
    (parts : Text.split '/' text.toList = Text.split '/' package.toList ++ pieces) :
    packageSpecifier text =
      (package, if pieces.isEmpty then none else some (String.ofList (List.intercalate ['/'] pieces))) := by
  obtain ⟨name, rfl⟩ : ∃ name, package = String.ofList name := ⟨package.toList, String.ofList_toList.symm⟩
  obtain ⟨more, whole⟩ := start
  rw [String.toList_ofList] at proper parts whole
  unfold packageSpecifier
  cases proper with
  | plain part =>
    obtain ⟨c, rest, rfl⟩ := List.exists_cons_of_ne_nil part.nonempty
    have different : ('@' == c) = false :=
      beq_false_of_ne fun same => part.not_mem Path.Chars.not_isPackageChar.2.1 (same ▸ List.mem_cons_self ..)
    have start : Text.startsWith text "@" = false := (Text.startsWith_singleton whole.symm).trans different
    rw [parts, Text.split_of_not_mem (part.not_mem Path.Chars.not_isPackageChar.1), start]
    cases pieces <;> rfl
  | inScope outer inner =>
    rename_i scope last
    have start : Text.startsWith text "@" = true := Text.startsWith_singleton whole.symm
    have noSlash : '/' ∉ '@' :: scope := by
      simp [outer.not_mem Path.Chars.not_isPackageChar.1]
    rw [parts, Text.split_append, Text.split_of_not_mem noSlash,
      Text.split_of_not_mem (inner.not_mem Path.Chars.not_isPackageChar.1), start]
    rfl

section

variable {package : String} (proper : Path.Chars.IsPackageName package.toList)

include proper

theorem packageSpecifier_name : packageSpecifier package = (package, none) :=
  packageSpecifier_eq proper (List.prefix_refl _) (List.append_nil _).symm

theorem packageSpecifier_append (inside : String) :
    packageSpecifier (package ++ "/" ++ inside) = (package, some inside) := by
  have whole := Path.toList_append_slash package inside
  have start : package.toList <+: (package ++ "/" ++ inside).toList := whole ▸ List.prefix_append _ _
  obtain ⟨head, tail, pieces⟩ := List.exists_cons_of_ne_nil (Text.split_ne_nil '/' inside.toList)
  rw [packageSpecifier_eq proper start (whole ▸ Text.split_append _ _), Text.intercalate_split, String.ofList_toList,
    pieces]
  rfl

end

namespace Path

open Chars (AreSegments IsSegment IsPackageName packageFolder rooted stem)

/-- A name is a path from a file if its first piece is one or two dots. -/
theorem isRelative_iff {name : String} : Resolution.isRelative name = true ↔
    ∃ piece rest, Text.split '/' name.toList = piece :: rest ∧ (piece = ['.'] ∨ piece = ['.', '.']) := by
  constructor
  · intro relative
    have cases : ((name = "." ∨ name = "..") ∨ Text.startsWith name "./" = true) ∨ Text.startsWith name "../" = true := by
      simpa [Resolution.isRelative] using relative
    obtain ((rfl | rfl) | start) | start := cases
    · exact ⟨_, [], rfl, .inl rfl⟩
    · exact ⟨_, [], rfl, .inr rfl⟩
    · obtain ⟨rest, whole⟩ := List.isPrefixOf_iff_prefix.mp start
      exact ⟨_, _, whole ▸ Text.split_append ['.'] rest, .inl rfl⟩
    · obtain ⟨rest, whole⟩ := List.isPrefixOf_iff_prefix.mp start
      exact ⟨_, _, whole ▸ Text.split_append ['.', '.'] rest, .inr rfl⟩
  · rintro ⟨piece, rest, pieces, dots⟩
    have whole : Chars.join (piece :: rest) = name.toList := by
      rw [← pieces, Chars.join, Text.intercalate_split]
    have starts : name = String.ofList piece ∨ Text.startsWith name (String.ofList (piece ++ ['/'])) = true := by
      cases rest with
      | nil => exact .inl (by rw [← String.ofList_toList (s := name), ← whole, Chars.join_singleton])
      | cons next rest =>
        rw [Chars.join_cons (List.cons_ne_nil _ _), List.append_cons] at whole
        exact .inr (List.isPrefixOf_iff_prefix.mpr ⟨_, by rw [← whole, String.toList_ofList]⟩)
    obtain rfl | rfl := dots <;> obtain rfl | start := starts
    · rfl
    · exact Bool.or_eq_true_iff.mpr (.inl (Bool.or_eq_true_iff.mpr (.inr start)))
    · rfl
    · exact Bool.or_eq_true_iff.mpr (.inr start)

/-- A name made of proper segments is no path from a file. -/
theorem not_isRelative {name : String} (proper : AreSegments (Text.split '/' name.toList)) :
    Resolution.isRelative name = false := by
  rw [Bool.eq_false_iff]
  intro relative
  obtain ⟨piece, rest, pieces, dots⟩ := isRelative_iff.mp relative
  have segment : IsSegment piece := proper piece (pieces ▸ List.mem_cons_self ..)
  exact dots.elim segment.notHere segment.notUp

theorem not_isAbsolute {name : String} (proper : AreSegments (Text.split '/' name.toList)) : isAbsolute name = false := by
  cases text : name.toList with
  | nil => rw [isAbsolute, text]; rfl
  | cons c rest =>
    by_contra absolute
    have slash : c = '/' := by simpa [isAbsolute, text, Chars.isAbsolute] using absolute
    rw [text, slash, Text.split, if_pos rfl] at proper
    exact (proper [] (List.mem_cons_self ..)).nonempty rfl

/-! ## The folder of a package -/

/-- The folder of a package that a directory keeps; the name of the root directory is left out. -/
def packageDir (dir package : String) : String :=
  dir ++ "/" ++ ("node_modules/" ++ package)

/-- A path inside a package that a directory keeps. -/
def packaged (dir package inside : String) : String :=
  packageDir dir package ++ "/" ++ inside

/-- A directory by its own name. -/
def directory (dir : String) : String :=
  if dir = "" then "/" else dir

/-- The segment of a package folder. -/
def Chars.folderName : List Char :=
  "node_modules".toList

theorem Chars.folderName_append (rest : List Char) : packageFolder ++ rest = folderName ++ '/' :: rest :=
  rfl

theorem Chars.isSegment_folderName : IsSegment folderName :=
  ⟨by decide, by decide, by decide, by decide, by decide⟩

theorem stripPackageFolder_eq_iff {file name : String} :
    stripPackageFolder file = name ↔ Chars.stripped file.toList = name.toList := by
  rw [← String.toList_inj, stripPackageFolder, String.toList_ofList, Chars.stripped]

theorem packageDir_toList (dir package : String) :
    (packageDir dir package).toList = dir.toList ++ '/' :: (packageFolder ++ package.toList) := by
  rw [packageDir, toList_append_slash, String.toList_append]
  rfl

theorem packaged_toList (dir package inside : String) : (packaged dir package inside).toList =
    dir.toList ++ '/' :: (packageFolder ++ (package.toList ++ '/' :: inside.toList)) := by
  rw [packaged, toList_append_slash, packageDir_toList, List.append_assoc, List.cons_append, List.append_assoc]

theorem stripExtension_packaged (dir package inside : String) :
    stripExtension (packaged dir package inside) = packaged dir package (stripExtension inside) := by
  rw [packaged, stripExtension_append, packaged]

theorem Chars.rooted_append_split (segments : List (List Char)) (text : List Char) :
    rooted (segments ++ Text.split '/' text) = stem segments ++ '/' :: text := by
  rw [rooted_append (Text.split_ne_nil '/' text), join, Text.intercalate_split]

theorem Chars.AreSegments.not_mem {text : List Char} (proper : AreSegments (Text.split '/' text)) : '\\' ∉ text := by
  have free := proper.not_mem_join
  rwa [join, Text.intercalate_split] at free

/-- The parts of a path inside a package are proper. -/
structure IsPackaged (segments : List (List Char)) (dir package inside : String) : Prop where
  outer : AreSegments segments
  dir : dir.toList = stem segments
  package : AreSegments (Text.split '/' package.toList)
  inside : AreSegments (Text.split '/' inside.toList)

theorem IsNormal.exists_isPackaged {dir package inside : String} (normal : IsNormal (packaged dir package inside)) :
    ∃ segments, IsPackaged segments dir package inside := by
  obtain ⟨segments, proper, whole⟩ := normal.exists_rooted
  have parts := congrArg String.toList whole
  rw [packaged_toList, String.toList_ofList] at parts
  obtain ⟨outer, inner, rfl, directory, rest⟩ := Chars.rooted_eq_append proper parts.symm
  have innerProper : AreSegments inner := fun segment member => proper segment (List.mem_append_right _ member)
  have nonempty : inner ≠ [] := by
    rintro rfl
    cases rest
  have pieces : Text.split '/' (Chars.join inner) = inner := Text.split_intercalate nonempty innerProper.noSlash
  rw [← rest, Chars.folderName_append, Text.split_append, Text.split_append] at pieces
  exact ⟨outer, fun segment member => proper segment (List.mem_append_left _ member), directory,
    fun segment member => innerProper segment (by simp [← pieces, member]),
    fun segment member => innerProper segment (by simp [← pieces, member])⟩

namespace IsPackaged

variable {segments : List (List Char)} {dir package inside : String} (proper : IsPackaged segments dir package inside)

include proper

theorem directory_eq : directory dir = String.ofList (rooted segments) := by
  have named : dir = String.ofList (stem segments) := by
    rw [← proper.dir, String.ofList_toList]
  by_cases root : segments = []
  · subst root
    subst named
    rfl
  · have inner : dir ≠ "" := by
      rw [named, stem, if_neg root]
      intro empty
      have nothing : rooted segments = [] := by simpa using congrArg String.toList empty
      exact List.cons_ne_nil _ _ nothing
    rw [directory, if_neg inner, named, stem, if_neg root]

theorem folder_areSegments : AreSegments (Text.split '/' (packageFolder ++ package.toList)) := by
  rw [Chars.folderName_append, Text.split_append, Text.split_of_not_mem Chars.isSegment_folderName.noSlash]
  exact List.forall_mem_cons.mpr ⟨Chars.isSegment_folderName, proper.package⟩

theorem packageDir_eq : packageDir dir package =
    String.ofList (rooted (segments ++ Text.split '/' (packageFolder ++ package.toList))) := by
  rw [Chars.rooted_append_split, ← proper.dir, ← packageDir_toList, String.ofList_toList]

/-- The package is where the resolver looks for it. -/
theorem join_directory : join (directory dir) ("node_modules/" ++ package) = packageDir dir package := by
  have text : ("node_modules/" ++ package).toList = packageFolder ++ package.toList := String.toList_append
  have pieces := proper.folder_areSegments
  rw [proper.directory_eq, join_rooted proper.outer (text ▸ pieces.not_mem), text, Chars.walk_segments pieces,
    proper.packageDir_eq]

/-- A path inside the package leads to the file. -/
theorem join_packageDir : join (packageDir dir package) inside = packaged dir package inside := by
  have folder : AreSegments (segments ++ Text.split '/' (packageFolder ++ package.toList)) :=
    List.forall_mem_append.mpr ⟨proper.outer, proper.folder_areSegments⟩
  have parts : packageFolder ++ (package.toList ++ '/' :: inside.toList) =
      (packageFolder ++ package.toList) ++ '/' :: inside.toList := (List.append_assoc ..).symm
  rw [proper.packageDir_eq, join_rooted folder proper.inside.not_mem, Chars.walk_segments proper.inside,
    List.append_assoc, ← Text.split_append, ← parts, Chars.rooted_append_split, ← proper.dir, ← packaged_toList,
    String.ofList_toList]

/-- The directory is no package folder itself. -/
theorem basename_directory_ne (free : Text.contains (dir ++ "/") "node_modules/" = false) :
    basename (directory dir) ≠ "node_modules" := by
  rw [proper.directory_eq]
  obtain rfl | ⟨outer, last, rfl⟩ := List.eq_nil_or_concat segments
  · decide
  · rw [List.concat_eq_append] at proper ⊢
    have segment : IsSegment last := proper.outer last (by simp)
    rw [basename, String.toList_ofList, Chars.rooted_concat, Chars.basename_append segment.nonempty segment.noSlash]
    intro same
    have folder : last = Chars.folderName := String.toList_ofList.symm.trans (congrArg String.toList same)
    have whole : dir.toList = stem outer ++ '/' :: Chars.folderName := by
      rw [proper.dir, ← Chars.rooted_eq_stem (List.concat_ne_nil _ _), Chars.rooted_concat, folder]
    refine Text.contains_eq_false_iff.mp free ⟨stem outer ++ ['/'], [], ?_⟩
    rw [String.toList_append, whole, List.append_nil, List.append_assoc, List.append_assoc]
    rfl

end IsPackaged

end Path

end CompanionBuild
