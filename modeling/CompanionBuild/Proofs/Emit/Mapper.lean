import CompanionBuild.Emit.Mapper
import CompanionBuild.Proofs.Path.Relative

/-! # Outputs lie as their sources do

A compiler that keeps the layout puts the output of a source in the same place below the output directory as the source
has below its root. One source with its output then tells where the outputs of all others go, whichever source it is.
-/

namespace CompanionBuild

namespace Path

open Chars (AreSegments IsSegment rooted)

/-! ## Names below a directory -/

/-- A file or a directory can be called so. -/
def IsName (name : String) : Prop :=
  IsSegment name.toList

instance (name : String) : Decidable (IsName name) :=
  decidable_of_iff (name.toList ≠ [] ∧ name.toList ≠ ['.'] ∧ name.toList ≠ ['.', '.'] ∧ '/' ∉ name.toList ∧
      '\\' ∉ name.toList)
    ⟨fun ⟨nonempty, notHere, notUp, noSlash, noBackslash⟩ => ⟨nonempty, notHere, notUp, noSlash, noBackslash⟩,
      fun segment => ⟨segment.nonempty, segment.notHere, segment.notUp, segment.noSlash, segment.noBackslash⟩⟩

/-- The path of a name in a directory. -/
def inside (directory name : String) : String :=
  if directory = "/" then "/" ++ name else directory ++ "/" ++ name

/-- The path through some names below a directory. -/
def under (directory : String) (names : List String) : String :=
  names.foldl inside directory

variable {segments : List (List Char)} (proper : AreSegments segments)

include proper

theorem areSegments_append {names : List String} (ordinary : ∀ name ∈ names, IsName name) :
    AreSegments (segments ++ names.map String.toList) := by
  refine List.forall_mem_append.mpr ⟨proper, fun segment member => ?_⟩
  obtain ⟨name, listed, rfl⟩ := List.mem_map.mp member
  exact ordinary name listed

theorem inside_rooted (name : String) :
    inside (String.ofList (rooted segments)) name = String.ofList (rooted (segments ++ [name.toList])) := by
  rw [Chars.rooted_concat, ← String.toList_inj, String.toList_ofList, inside]
  by_cases empty : segments = []
  · subst empty
    have root : String.ofList (rooted []) = "/" := rfl
    rw [if_pos root]
    simp [Chars.stem]
  · have top : String.ofList (rooted segments) ≠ "/" := by
      intro same
      have text : rooted segments = ['/'] := by simpa using congrArg String.toList same
      exact Chars.join_ne_nil proper empty (List.cons.inj text).2
    rw [if_neg top, ← Chars.rooted_eq_stem empty]
    simp

theorem under_rooted {names : List String} (ordinary : ∀ name ∈ names, IsName name) :
    under (String.ofList (rooted segments)) names =
      String.ofList (rooted (segments ++ names.map String.toList)) := by
  induction names generalizing segments with
  | nil => simp [under]
  | cons name rest ih =>
    have deeper : AreSegments (segments ++ [name.toList]) :=
      areSegments_append proper (List.forall_mem_singleton.mpr (ordinary name (List.mem_cons_self ..)))
    have step : under (String.ofList (rooted segments)) (name :: rest) =
        under (inside (String.ofList (rooted segments)) name) rest := rfl
    rw [step, inside_rooted proper, ih deeper fun name member => ordinary name (List.mem_cons_of_mem _ member)]
    simp

end Path

namespace OutputMapper

open CompanionBuild.Path (IsName IsNormal under)
open CompanionBuild.Path.Chars (AreSegments)

/-! ## The root of a sample -/

theorem withoutSharedEnd_append (source shared : List (List Char)) :
    withoutSharedEnd (source ++ shared) shared = source := by
  have ends : Path.Chars.diverge (shared.reverse ++ source.reverse) shared.reverse = (source.reverse, []) := by
    have same := Path.Chars.diverge_append shared.reverse source.reverse []
    rw [List.append_nil] at same
    rw [same]
    cases source.reverse <;> rfl
  rw [withoutSharedEnd, List.reverse_append, ends, List.reverse_reverse]

/-- A last segment that is not blank is not shared with a blank one. -/
theorem withoutSharedEnd_blank {source : List (List Char)} {last : List Char} (nonempty : last ≠ []) :
    withoutSharedEnd (source ++ [last]) [[]] = source ++ [last] := by
  simp [withoutSharedEnd, Path.Chars.diverge, nonempty]

section

variable {root rel : List (List Char)} (rootProper : AreSegments root) (relProper : AreSegments rel)

include rootProper relProper

/-- What a source directory and the matching output directory share at the end is no part of the root. -/
theorem withoutSharedEnd_layout :
    Path.Chars.segments (Path.Chars.join (withoutSharedEnd (Text.split '/' (Path.Chars.rooted (root ++ rel)))
      (Text.split '/' (Path.Chars.join rel)))) = root := by
  rw [Path.Chars.split_rooted]
  by_cases flat : rel = []
  · subst flat
    rw [List.append_nil]
    obtain rfl | ⟨outer, last, rfl⟩ := List.eq_nil_or_concat root
    · rfl
    · rw [List.concat_eq_append] at rootProper ⊢
      have pieces : Text.split '/' (Path.Chars.join (outer ++ [last])) = outer ++ [last] :=
        Text.split_intercalate (by simp) rootProper.noSlash
      have blank : Text.split '/' (Path.Chars.join []) = [[]] := rfl
      have file : last ≠ [] := (rootProper last (by simp)).nonempty
      rw [pieces, blank, ← List.cons_append, withoutSharedEnd_blank file, List.cons_append,
        Path.Chars.join_blank_cons, Path.Chars.segments_stem rootProper]
  · have whole : AreSegments (root ++ rel) := List.forall_mem_append.mpr ⟨rootProper, relProper⟩
    have pieces : Text.split '/' (Path.Chars.join (root ++ rel)) = root ++ rel :=
      Text.split_intercalate (by simp [flat]) whole.noSlash
    have inner : Text.split '/' (Path.Chars.join rel) = rel := Text.split_intercalate flat relProper.noSlash
    rw [pieces, inner, ← List.cons_append, withoutSharedEnd_append, Path.Chars.join_blank_cons,
      Path.Chars.segments_stem rootProper]

end

/-- A mapper of a root maps what is below the root to the same place below the output directory. -/
theorem map_rooted {root outDir path : List (List Char)} {rootDir : String} (outProper : AreSegments outDir)
    (whole : AreSegments (root ++ path)) (seen : Path.Chars.segments rootDir.toList = root) :
    (OutputMapper.rooted (String.ofList (Path.Chars.rooted outDir)) rootDir).map
      (String.ofList (Path.Chars.rooted (root ++ path))) = String.ofList (Path.Chars.rooted (outDir ++ path)) := by
  have proper : AreSegments path := fun segment member => whole segment (List.mem_append_right _ member)
  have relative : Path.relative rootDir (String.ofList (Path.Chars.rooted (root ++ path))) =
      String.ofList (Path.Chars.join path) := by
    rw [Path.relative, String.toList_ofList, Path.Chars.relative_eq_join, seen, Path.Chars.segments_rooted whole,
      Path.Chars.route_below]
  have unrooted : Path.isAbsolute (String.ofList (Path.Chars.join path)) = false := by
    rw [Path.isAbsolute, String.toList_ofList, Path.Chars.not_isAbsolute_join proper]
  have free : '\\' ∉ (String.ofList (Path.Chars.join path)).toList := by
    rw [String.toList_ofList]
    exact proper.not_mem_join
  unfold map Path.resolve
  dsimp only
  rw [relative, unrooted, if_neg (by decide), Path.join_rooted outProper free, String.toList_ofList,
    Path.Chars.walk_split_join proper.noSlash, Path.Chars.walk_segments proper]

/-! ## Mappers of a layout -/

/-- The source has the same place below the root as its output below the output directory. -/
def IsLaidOut (root outDir : String) (sample : String × String) : Prop :=
  ∃ rel file made, (∀ name ∈ rel, IsName name) ∧ IsName file ∧ IsName made ∧
    sample = (under root (rel ++ [file]), under outDir (rel ++ [made]))

/-- The mapper takes every file below the root to the same place below the output directory. -/
def KeepsLayout (root outDir : String) (mapper : OutputMapper) : Prop :=
  ∀ path, path ≠ [] → (∀ name ∈ path, IsName name) → mapper.map (under root path) = under outDir path

/-- The directory of a file is found through the names that lead to it. -/
theorem dirname_under {segments : List (List Char)} (proper : AreSegments segments) {names : List String} {file : String}
    (ordinary : ∀ name ∈ names, IsName name) (last : IsName file) :
    Path.dirname (Path.slashes (under (String.ofList (Path.Chars.rooted segments)) (names ++ [file]))) =
      String.ofList (Path.Chars.rooted (segments ++ names.map String.toList)) := by
  have all : ∀ name ∈ names ++ [file], IsName name :=
    List.forall_mem_append.mpr ⟨ordinary, List.forall_mem_singleton.mpr last⟩
  have whole := Path.areSegments_append proper all
  rw [Path.under_rooted proper all, Path.slashes_rooted whole, List.map_append, ← List.append_assoc]
  exact Path.dirname_rooted last

/-- Every sample of a layout makes a mapper that keeps the layout. -/
theorem exists_keepsLayout {root outDir : String} (source : IsNormal root) (output : IsNormal outDir)
    {sample : String × String} (laid : IsLaidOut root outDir sample) :
    ∃ mapper, ofSample (some outDir) (some sample) = .ok mapper ∧ KeepsLayout root outDir mapper := by
  obtain ⟨rel, file, made, ordinary, fileName, madeName, rfl⟩ := laid
  obtain ⟨outer, rootProper, rfl⟩ := source.exists_rooted
  obtain ⟨target, outProper, rfl⟩ := output.exists_rooted
  unfold ofSample
  dsimp only
  rw [dirname_under rootProper ordinary fileName, dirname_under outProper ordinary madeName]
  have sourceWhole := Path.areSegments_append rootProper ordinary
  have outputWhole := Path.areSegments_append outProper ordinary
  split
  case isTrue same =>
    -- The directories end alike, so that the output directory is the root itself.
    have segments : outer ++ rel.map String.toList = target ++ rel.map String.toList := by
      rw [← Path.Chars.segments_rooted sourceWhole, String.ofList_injective same, Path.Chars.segments_rooted outputWhole]
    obtain rfl := List.append_cancel_right segments
    exact ⟨.identity, rfl, fun path _ _ => rfl⟩
  case isFalse =>
    refine ⟨_, rfl, fun path _ names => ?_⟩
    have below : Path.relative (String.ofList (Path.Chars.rooted target))
        (String.ofList (Path.Chars.rooted (target ++ rel.map String.toList))) =
          String.ofList (Path.Chars.join (rel.map String.toList)) := by
      rw [Path.relative_rooted outProper outputWhole, Path.Chars.route_below]
    have inner : AreSegments (rel.map String.toList) := fun segment member =>
      outputWhole segment (List.mem_append_right _ member)
    rw [Path.under_rooted rootProper names, Path.under_rooted outProper names, below]
    refine map_rooted outProper (Path.areSegments_append rootProper names) ?_
    rw [rootOf, String.toList_ofList, String.toList_ofList, String.toList_ofList]
    exact withoutSharedEnd_layout rootProper inner

/-- Whichever source a compiler that keeps the layout of the sources emits first, the mapper made of it takes every file
below the root to the same place below the output directory, so that no two samples make mappers that differ there. -/
theorem layout_independent_of_sample {root outDir : String} (source : IsNormal root) (output : IsNormal outDir)
    {sample other : String × String} (laid : IsLaidOut root outDir sample) (otherLaid : IsLaidOut root outDir other) :
    ∃ mapper alternative, ofSample (some outDir) (some sample) = .ok mapper ∧
      ofSample (some outDir) (some other) = .ok alternative ∧ KeepsLayout root outDir mapper ∧
      ∀ path, path ≠ [] → (∀ name ∈ path, IsName name) →
        mapper.map (under root path) = alternative.map (under root path) := by
  obtain ⟨mapper, made, keeps⟩ := exists_keepsLayout source output laid
  obtain ⟨alternative, otherMade, otherKeeps⟩ := exists_keepsLayout source output otherLaid
  refine ⟨mapper, alternative, made, otherMade, keeps, fun path nonempty names => ?_⟩
  rw [keeps path nonempty names, otherKeeps path nonempty names]

/-- Sources below the top directory, one of them in a directory called like that of the outputs. -/
theorem top_layout_independent_of_sample :
    ∃ mapper alternative, ofSample (some "/lib") (some ("/lib/a.ts", "/lib/lib/a.js")) = .ok mapper ∧
      ofSample (some "/lib") (some ("/main.ts", "/lib/main.js")) = .ok alternative ∧
      mapper.map "/lib/b.metadata.json" = "/lib/lib/b.metadata.json" ∧
      alternative.map "/lib/b.metadata.json" = "/lib/lib/b.metadata.json" := by
  have nested : IsLaidOut "/" "/lib" ("/lib/a.ts", "/lib/lib/a.js") :=
    ⟨["lib"], "a.ts", "a.js", by decide, by decide, by decide, by decide⟩
  have flat : IsLaidOut "/" "/lib" ("/main.ts", "/lib/main.js") :=
    ⟨[], "main.ts", "main.js", by decide, by decide, by decide, by decide⟩
  obtain ⟨mapper, alternative, made, otherMade, keeps, agree⟩ :=
    layout_independent_of_sample ⟨by decide, by decide⟩ ⟨by decide, by decide⟩ nested flat
  have mapped : mapper.map "/lib/b.metadata.json" = "/lib/lib/b.metadata.json" :=
    keeps ["lib", "b.metadata.json"] (by decide) (by decide)
  have same : mapper.map "/lib/b.metadata.json" = alternative.map "/lib/b.metadata.json" :=
    agree ["lib", "b.metadata.json"] (by decide) (by decide)
  exact ⟨mapper, alternative, made, otherMade, mapped, same ▸ mapped⟩

end OutputMapper

end CompanionBuild
