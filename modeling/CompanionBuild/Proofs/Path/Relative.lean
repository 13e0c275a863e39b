import CompanionBuild.Proofs.Path.Segments

/-! # Relative paths lead where they were taken from

The relative path between two directories goes up to the last directory they share and down from there. It is the same
seen from any directory that contains both.
-/

namespace CompanionBuild.Path

namespace Chars

theorem diverge_spec (first second : List (List Char)) :
    ∃ common, first = common ++ (diverge first second).1 ∧ second = common ++ (diverge first second).2 := by
  fun_induction diverge first second with
  | case1 first segment second ih =>
    obtain ⟨common, left, right⟩ := ih
    exact ⟨segment :: common, congrArg (segment :: ·) left, congrArg (segment :: ·) right⟩
  | case2 => exact ⟨[], rfl, rfl⟩
  | case3 => exact ⟨[], rfl, rfl⟩

theorem diverge_append (common first second : List (List Char)) :
    diverge (common ++ first) (common ++ second) = diverge first second := by
  induction common with
  | nil => rfl
  | cons segment rest ih => rw [List.cons_append, List.cons_append, diverge, if_pos rfl, ih]

/-- The pieces of the path from one directory to another. -/
def route (source target : List (List Char)) : List (List Char) :=
  (diverge source target).1.map (fun _ => ['.', '.']) ++ (diverge source target).2

theorem relative_eq_join (source target : List Char) :
    relative source target = join (route (segments source) (segments target)) :=
  rfl

theorem route_append (common source target : List (List Char)) :
    route (common ++ source) (common ++ target) = route source target := by
  rw [route, diverge_append, route]

theorem route_below (source target : List (List Char)) : route source (source ++ target) = target := by
  have same := route_append source [] target
  rw [List.append_nil] at same
  rw [same]
  cases target <;> rfl

section

variable {source target : List (List Char)} (inner : AreSegments target)

include inner

/-- No piece of a relative path has a separator in it. -/
theorem route_free : ∀ piece ∈ route source target, '/' ∉ piece ∧ '\\' ∉ piece := by
  obtain ⟨common, -, right⟩ := diverge_spec source target
  intro piece member
  obtain up | down := List.mem_append.mp member
  · obtain ⟨_, -, rfl⟩ := List.mem_map.mp up
    decide
  · have proper : IsSegment piece := inner piece (right ▸ List.mem_append_right _ down)
    exact ⟨proper.noSlash, proper.noBackslash⟩

theorem route_filled : ∀ piece ∈ route source target, piece ≠ [] := by
  obtain ⟨common, -, right⟩ := diverge_spec source target
  intro piece member
  obtain up | down := List.mem_append.mp member
  · obtain ⟨_, -, rfl⟩ := List.mem_map.mp up
    decide
  · exact (inner piece (right ▸ List.mem_append_right _ down)).nonempty

/-- The pieces of a relative path lead to its target. -/
theorem walk_route (outer : AreSegments source) : walk source (route source target) = target := by
  obtain ⟨common, left, right⟩ := diverge_spec source target
  have up : AreSegments (diverge source target).1 := fun segment member =>
    outer segment (left ▸ List.mem_append_right _ member)
  have down : AreSegments (diverge source target).2 := fun segment member =>
    inner segment (right ▸ List.mem_append_right _ member)
  calc walk source (route source target)
      = walk (walk (common ++ (diverge source target).1) ((diverge source target).1.map fun _ => ['.', '.']))
          (diverge source target).2 := by rw [route, walk_append, ← left]
    _ = common ++ (diverge source target).2 := by rw [walk_ups up, walk_segments down]
    _ = target := right.symm

theorem noBackslash_join_route : '\\' ∉ join (route source target) :=
  not_mem_join (by decide) fun piece member => (route_free inner piece member).2

/-- The text of a relative path leads to its target. -/
theorem walk_split_route (outer : AreSegments source) :
    walk source (Text.split '/' (join (route source target))) = target := by
  rw [walk_split_join fun piece member => (route_free inner piece member).1, walk_route inner outer]

end

/-- A path that does not lead down from its source starts by going up. -/
theorem route_cases (source target : List (List Char)) :
    target = source ++ route source target ∨
      ¬source <+: target ∧ ∃ rest, route source target = ['.', '.'] :: rest := by
  obtain ⟨common, left, right⟩ := diverge_spec source target
  cases up : (diverge source target).1 with
  | nil =>
    rw [up, List.append_nil] at left
    rw [← left] at right
    exact .inl (by rw [route, up]; exact right)
  | cons segment rest =>
    refine .inr ⟨?_, _, by rw [route, up]; rfl⟩
    rintro ⟨down, rfl⟩
    have level := diverge_append source [] down
    rw [List.append_nil] at level
    rw [level] at up
    cases down <;> cases up

theorem route_eq_nil_iff {source target : List (List Char)} : route source target = [] ↔ source = target := by
  constructor
  · intro empty
    obtain down | ⟨-, rest, up⟩ := route_cases source target
    · rw [down, empty, List.append_nil]
    · rw [empty] at up
      cases up
  · rintro rfl
    have level := route_below source []
    rwa [List.append_nil] at level

/-- A path that does not start by going up leads down from its source. -/
theorem eq_append_of_level {source target : List (List Char)} (level : ¬['.', '.'] <+: join (route source target)) :
    target = source ++ route source target := by
  obtain down | ⟨-, rest, up⟩ := route_cases source target
  · exact down
  · rw [up] at level
    exact (level (prefix_join _ _)).elim

/-- The directory of a relative file has the segments of the file but the last. -/
theorem segments_dirname_join {segments : List (List Char)} {last : List Char} (proper : AreSegments (segments ++ [last])) :
    Chars.segments (dirname (join (segments ++ [last]))) = segments := by
  have file : IsSegment last := proper last (by simp)
  have outer : AreSegments segments := fun segment member => proper segment (List.mem_append_left _ member)
  by_cases empty : segments = []
  · subst empty
    rw [List.nil_append, join_singleton, dirname_of_not_mem file.noSlash]
    rfl
  · rw [join_concat empty, dirname_append file.nonempty file.noSlash, if_neg (join_ne_nil outer empty), segments_join outer]

end Chars

open Chars

section

variable {source target : List (List Char)} (outer : AreSegments source) (inner : AreSegments target)

include outer inner

theorem relative_rooted : relative (String.ofList (rooted source)) (String.ofList (rooted target)) =
    String.ofList (Chars.join (route source target)) := by
  rw [relative, String.toList_ofList, String.toList_ofList, relative_eq_join, segments_rooted outer, segments_rooted inner]

/-- A relative path leads from its source to its target. -/
theorem join_dotRelative :
    join (String.ofList (rooted source)) (dotRelative (String.ofList (rooted source)) (String.ofList (rooted target))) =
      String.ofList (rooted target) := by
  have plain : '\\' ∉ Chars.join (route source target) := noBackslash_join_route inner
  have leads := walk_split_route inner outer
  unfold dotRelative
  rw [relative_rooted outer inner]
  dsimp only
  split
  · rw [join_rooted outer (by rwa [String.toList_ofList]), String.toList_ofList, leads]
  · -- The leading dot is a piece of its own, which the walk passes over.
    have text : ("./" ++ String.ofList (Chars.join (route source target))).toList =
        ['.'] ++ '/' :: Chars.join (route source target) := by simp
    have free : '\\' ∉ ("./" ++ String.ofList (Chars.join (route source target))).toList := by
      rw [text]
      simpa using plain
    rw [join_rooted outer free, text, Text.split_append]
    exact congrArg (fun there => String.ofList (rooted there)) ((walk_here _).trans leads)

end

/-! ## Between any two absolute paths -/

theorem relative_eq (source target : String) : relative source target =
    String.ofList (Chars.join (route (Chars.segments source.toList) (Chars.segments target.toList))) := by
  rw [relative, relative_eq_join]

/-- A relative path is not absolute, whatever directory it starts from. -/
theorem isAbsolute_relative {target : String} (absolute : isAbsolute target = true) (source : String) :
    isAbsolute (relative source target) = false := by
  have inner := Chars.segments_areSegments absolute
  rw [relative_eq, isAbsolute, String.toList_ofList]
  apply not_isAbsolute_join_of_filled (route_filled inner)
  intro piece member
  exact (route_free inner piece member).1

section

variable {source target : String} (sourceAbsolute : isAbsolute source = true) (targetAbsolute : isAbsolute target = true)

include sourceAbsolute targetAbsolute

/-- Seen from its source, a relative path is its target in normal form. -/
theorem resolve_relative : resolve source (relative source target) = normalize target := by
  have inner := Chars.segments_areSegments targetAbsolute
  have outer := Chars.segments_areSegments sourceAbsolute
  have nonempty : source ≠ "" := by
    rintro rfl
    cases sourceAbsolute
  have text : (source ++ "/" ++ relative source target).toList =
      source.toList ++ '/' :: Chars.join (route (Chars.segments source.toList) (Chars.segments target.toList)) := by
    simp [relative_eq]
  rw [resolve, isAbsolute_relative targetAbsolute, if_neg Bool.false_ne_true, join, if_neg nonempty, normalize, text,
    Chars.normalize_append sourceAbsolute, slashes_of_not_mem (noBackslash_join_route inner), walk_split_route inner outer,
    normalize, Chars.normalize_eq_rooted targetAbsolute]

theorem segments_eq_iff :
    Chars.segments source.toList = Chars.segments target.toList ↔ normalize source = normalize target := by
  rw [normalize, normalize, Chars.normalize_eq_rooted sourceAbsolute, Chars.normalize_eq_rooted targetAbsolute]
  constructor
  · intro same
    rw [same]
  · intro same
    have written := congrArg (fun path => Chars.segments path.toList) same
    simpa only [String.toList_ofList, segments_rooted (Chars.segments_areSegments sourceAbsolute),
      segments_rooted (Chars.segments_areSegments targetAbsolute)] using written

/-- The relative path is empty between two spellings of one path only. -/
theorem relative_eq_empty_iff : relative source target = "" ↔ normalize source = normalize target := by
  have inner := Chars.segments_areSegments targetAbsolute
  rw [← segments_eq_iff sourceAbsolute targetAbsolute, ← route_eq_nil_iff, ← join_eq_nil_iff (route_filled inner),
    relative_eq, ← String.toList_inj, String.toList_ofList]
  rfl

/-- Between any two absolute paths, however they are spelled, the relative path leads from one to the other; it does not
start at the root, and is empty only where the two are the same. -/
theorem relative_path_leads_back : resolve source (relative source target) = normalize target ∧
    isAbsolute (relative source target) = false ∧
    (relative source target = "" ↔ normalize source = normalize target) :=
  ⟨resolve_relative sourceAbsolute targetAbsolute, isAbsolute_relative targetAbsolute source,
    relative_eq_empty_iff sourceAbsolute targetAbsolute⟩

end

/-- Two spellings of one directory, one of which climbs above the root, and a file beside them. -/
theorem unusual_spellings_lead_back :
    resolve "/../a//b/." "../c/d.ts" = "/a/c/d.ts" ∧ relative "/../a//b/." "/a\\x/../c/d.ts" = "../c/d.ts" ∧
      relative "/../a//b/." "//a/b" = "" ∧ normalize "/../a//b/." = normalize "//a/b" := by
  have apart := relative_path_leads_back (by decide : isAbsolute "/../a//b/." = true)
    (by decide : isAbsolute "/a\\x/../c/d.ts" = true)
  have same := relative_path_leads_back (by decide : isAbsolute "/../a//b/." = true)
    (by decide : isAbsolute "//a/b" = true)
  have route : relative "/../a//b/." "/a\\x/../c/d.ts" = "../c/d.ts" := by decide
  have spelled : normalize "/../a//b/." = normalize "//a/b" := by decide
  rw [route] at apart
  exact ⟨apart.1.trans (by decide), route, same.2.2.mpr spelled, spelled⟩

/-! ## Paths below a root -/

/-- A path that does not lead out of a root has the segments of the root before its own. -/
theorem exists_of_below? {root file path : String} (below : below? root file = some path) :
    ∃ inner, Chars.segments file.toList = Chars.segments root.toList ++ inner ∧ path = String.ofList (Chars.join inner) := by
  unfold below? at below
  rw [relative_eq] at below
  dsimp only at below
  split at below
  · cases below
  · next inside =>
    obtain rfl := Option.some.inj below
    refine ⟨_, eq_append_of_level fun up => inside ?_, rfl⟩
    rw [Text.startsWith, String.toList_ofList, String.toList_ofList, List.isPrefixOf_iff_prefix]
    exact up

/-- A file that is seen from the roots lies below one of them. -/
theorem exists_below?_of_ne {file : String} {roots : List String} (moved : belowRoots file roots ≠ file) :
    ∃ root ∈ roots, below? root file = some (belowRoots file roots) ∧ belowRoots file roots ≠ "" := by
  unfold belowRoots at moved ⊢
  cases found : (roots.filterMap (below? · file)).find? (· ≠ "") with
  | none =>
    rw [found] at moved
    exact (moved rfl).elim
  | some path =>
    obtain ⟨root, member, below⟩ := List.mem_filterMap.mp (List.mem_of_find?_eq_some found)
    exact ⟨root, member, below, by simpa using List.find?_some found⟩

/-- Seen from a directory that contains both, the path from one file to another is the same. -/
theorem dotRelative_below {outer source target : List (List Char)} {last : List Char}
    (left : AreSegments (outer ++ (source ++ [last]))) (right : AreSegments (outer ++ target)) :
    dotRelative (dirname (String.ofList (Chars.join (source ++ [last])))) (String.ofList (Chars.join target)) =
      dotRelative (String.ofList (rooted (outer ++ source))) (String.ofList (rooted (outer ++ target))) := by
  have file : AreSegments (source ++ [last]) := fun segment member => left segment (List.mem_append_right _ member)
  have goal : AreSegments target := fun segment member => right segment (List.mem_append_right _ member)
  have directory : AreSegments (outer ++ source) := by
    intro segment member
    rw [← List.append_assoc] at left
    exact left segment (List.mem_append_left _ member)
  have same : relative (dirname (String.ofList (Chars.join (source ++ [last])))) (String.ofList (Chars.join target)) =
      relative (String.ofList (rooted (outer ++ source))) (String.ofList (rooted (outer ++ target))) := by
    rw [relative_rooted directory right, route_append, relative, dirname, String.toList_ofList, String.toList_ofList,
      String.toList_ofList, relative_eq_join, segments_dirname_join file, segments_join goal]
  rw [dotRelative, same, dotRelative]

end CompanionBuild.Path
