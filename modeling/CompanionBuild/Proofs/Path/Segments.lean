import CompanionBuild.Proofs.Path.Stack
import Mathlib.Data.List.TakeWhile

/-! # Absolute paths as lists of segments

An absolute path in normal form is a list of proper segments, each written after a slash. On such lists the operations
on paths are those on lists: a directory is a list without its last segment, and a relative path is a walk.
-/

namespace CompanionBuild

/-! ## Texts in pieces -/

namespace Text

variable {separator : Char}

theorem split_cons_of_ne {c : Char} (different : c ≠ separator) (text : List Char) :
    ∃ piece pieces, split separator text = piece :: pieces ∧ split separator (c :: text) = (c :: piece) :: pieces := by
  obtain ⟨piece, pieces, parts⟩ := List.exists_cons_of_ne_nil (split_ne_nil separator text)
  exact ⟨piece, pieces, parts, by rw [split, if_neg different, parts]⟩

theorem split_append (first second : List Char) :
    split separator (first ++ separator :: second) = split separator first ++ split separator second := by
  induction first with
  | nil => simp [split]
  | cons c rest ih =>
    by_cases same : c = separator
    · simp [split, same, ih]
    · obtain ⟨piece, pieces, parts, whole⟩ := split_cons_of_ne same rest
      rw [List.cons_append, split, if_neg same, ih, parts, whole]
      rfl

theorem split_append_of_not_mem {first second head : List Char} {tail : List (List Char)} (free : separator ∉ first)
    (parts : split separator second = head :: tail) : split separator (first ++ second) = (first ++ head) :: tail := by
  induction first with
  | nil => exact parts
  | cons c rest ih =>
    rw [List.mem_cons, not_or] at free
    rw [List.cons_append, split, if_neg (Ne.symm free.1), ih free.2]
    rfl

theorem split_of_not_mem {text : List Char} (free : separator ∉ text) : split separator text = [text] := by
  have whole := split_append_of_not_mem free (rfl : split separator [] = [] :: [])
  rwa [List.append_nil] at whole

theorem not_mem_of_mem_split {text piece : List Char} (member : piece ∈ split separator text) : separator ∉ piece := by
  induction text generalizing piece with
  | nil =>
    obtain rfl := List.mem_singleton.mp member
    exact List.not_mem_nil
  | cons c rest ih =>
    by_cases same : c = separator
    · rw [split, if_pos same] at member
      obtain rfl | member := List.mem_cons.mp member
      · exact List.not_mem_nil
      · exact ih member
    · obtain ⟨head, tail, parts, whole⟩ := split_cons_of_ne same rest
      rw [parts] at ih
      rw [whole] at member
      obtain rfl | member := List.mem_cons.mp member
      · rw [List.mem_cons, not_or]
        exact ⟨Ne.symm same, ih (List.mem_cons_self ..)⟩
      · exact ih (List.mem_cons_of_mem _ member)

theorem intercalate_cons {pieces : List (List Char)} (nonempty : pieces ≠ []) (piece : List Char) :
    List.intercalate [separator] (piece :: pieces) = piece ++ separator :: List.intercalate [separator] pieces := by
  obtain ⟨next, rest, rfl⟩ := List.exists_cons_of_ne_nil nonempty
  simp [List.intercalate]

theorem intercalate_split (text : List Char) : List.intercalate [separator] (split separator text) = text := by
  induction text with
  | nil => rfl
  | cons c rest ih =>
    by_cases same : c = separator
    · rw [split, if_pos same, intercalate_cons (split_ne_nil _ _), ih, same]
      rfl
    · obtain ⟨piece, pieces, parts, whole⟩ := split_cons_of_ne same rest
      rw [parts] at ih
      rw [whole, ← ih]
      cases pieces with
      | nil => simp [List.intercalate]
      | cons next rest => simp

theorem infix_intercalate {pieces : List (List Char)} {piece : List Char} (member : piece ∈ pieces) :
    piece <:+: List.intercalate [separator] pieces := by
  induction pieces with
  | nil => cases member
  | cons first rest ih =>
    cases rest with
    | nil =>
      obtain rfl := List.mem_singleton.mp member
      simp [List.intercalate]
    | cons next rest =>
      rw [intercalate_cons (List.cons_ne_nil _ _)]
      obtain rfl | member := List.mem_cons.mp member
      · exact (List.prefix_append _ _).isInfix
      · exact (ih member).trans ((List.suffix_cons _ _).isInfix.trans (List.suffix_append _ _).isInfix)

theorem infix_of_mem_split {text piece : List Char} (member : piece ∈ split separator text) : piece <:+: text := by
  have inside := @infix_intercalate separator _ _ member
  rwa [intercalate_split] at inside

theorem split_intercalate {pieces : List (List Char)} (nonempty : pieces ≠ [])
    (free : ∀ piece ∈ pieces, separator ∉ piece) : split separator (List.intercalate [separator] pieces) = pieces := by
  induction pieces with
  | nil => exact (nonempty rfl).elim
  | cons piece rest ih =>
    have single : split separator piece = [piece] := split_of_not_mem (free piece (List.mem_cons_self ..))
    cases rest with
    | nil => simpa [List.intercalate] using single
    | cons next rest =>
      rw [intercalate_cons (List.cons_ne_nil _ _), split_append, single,
        ih (List.cons_ne_nil _ _) fun piece member => free piece (List.mem_cons_of_mem _ member)]
      rfl

end Text

namespace Path

namespace Chars

/-! ## Walks -/

/-- The directory that the pieces of a path lead to from an absolute directory. -/
def walk (start pieces : List (List Char)) : List (List Char) :=
  (pieces.foldl (enter true) start.reverse).reverse

variable {start : List (List Char)}

theorem walk_append (first second : List (List Char)) : walk start (first ++ second) = walk (walk start first) second := by
  simp [walk]

theorem walk_blank (pieces : List (List Char)) : walk start ([] :: pieces) = walk start pieces := by
  rw [walk, List.foldl_cons, enter_blank, walk]

theorem walk_here (pieces : List (List Char)) : walk start (['.'] :: pieces) = walk start pieces := by
  rw [walk, List.foldl_cons, enter_here, walk]

theorem walk_segments {segments : List (List Char)} (proper : AreSegments segments) :
    walk start segments = start ++ segments := by
  rw [walk, foldl_enter_segments proper]
  simp

/-- One step up for each segment leads out of them again. -/
theorem walk_ups {segments : List (List Char)} (proper : AreSegments segments) :
    walk (start ++ segments) (segments.map fun _ => ['.', '.']) = start := by
  have reversed : AreSegments segments.reverse := fun segment member => proper segment (List.mem_reverse.mp member)
  have same : (segments.map fun _ => ['.', '.']) = segments.reverse.map fun _ => ['.', '.'] := by
    simp only [List.map_const', List.length_reverse]
  rw [walk, List.reverse_append, same, foldl_enter_ups reversed, List.reverse_reverse]

theorem walk_areSegments {pieces : List (List Char)} (proper : AreSegments start)
    (free : ∀ piece ∈ pieces, '/' ∉ piece ∧ '\\' ∉ piece) : AreSegments (walk start pieces) := by
  have stacked : Stacked true (pieces.foldl (enter true) start.reverse) := (proper.stacked true).foldl free
  intro segment member
  exact stacked.areSegments segment (List.mem_reverse.mp member)

/-! ## Rooted paths -/

/-- The absolute path of some segments. -/
def rooted (segments : List (List Char)) : List Char :=
  '/' :: join segments

/-- What stands before the slash of a segment that follows. -/
def stem (segments : List (List Char)) : List Char :=
  if segments = [] then [] else rooted segments

theorem join_cons {segments : List (List Char)} (nonempty : segments ≠ []) (segment : List Char) :
    join (segment :: segments) = segment ++ '/' :: join segments :=
  Text.intercalate_cons nonempty segment

theorem join_singleton (segment : List Char) : join [segment] = segment := by
  simp [join, List.intercalate]

theorem prefix_join (segment : List Char) (rest : List (List Char)) : segment <+: join (segment :: rest) := by
  cases rest with
  | nil => exact ⟨[], by rw [List.append_nil, join_singleton]⟩
  | cons next rest =>
    rw [join_cons (List.cons_ne_nil _ _)]
    exact List.prefix_append _ _

theorem join_eq_nil_iff {pieces : List (List Char)} (filled : ∀ piece ∈ pieces, piece ≠ []) :
    join pieces = [] ↔ pieces = [] := by
  constructor
  · intro nothing
    cases pieces with
    | nil => rfl
    | cons piece rest =>
      have start := prefix_join piece rest
      rw [nothing, List.prefix_nil] at start
      exact (filled piece (List.mem_cons_self ..) start).elim
  · rintro rfl
    rfl

/-- What is written from pieces that are not empty does not start with a separator. -/
theorem not_isAbsolute_join_of_filled {pieces : List (List Char)} (filled : ∀ piece ∈ pieces, piece ≠ [])
    (free : ∀ piece ∈ pieces, '/' ∉ piece) : isAbsolute (join pieces) = false := by
  cases pieces with
  | nil => rfl
  | cons piece rest =>
    obtain ⟨c, text, rfl⟩ := List.exists_cons_of_ne_nil (filled piece (List.mem_cons_self ..))
    have different : c ≠ '/' := by
      rintro rfl
      exact free _ (List.mem_cons_self ..) (List.mem_cons_self ..)
    obtain ⟨more, whole⟩ := prefix_join (c :: text) rest
    rw [← whole]
    simpa [isAbsolute] using different

theorem stem_cons (segment : List Char) (rest : List (List Char)) : stem (segment :: rest) = '/' :: segment ++ stem rest := by
  cases rest with
  | nil => simp [stem, rooted, join_singleton]
  | cons next rest => simp [stem, rooted, join_cons]

theorem rooted_append {second : List (List Char)} (nonempty : second ≠ []) (first : List (List Char)) :
    rooted (first ++ second) = stem first ++ '/' :: join second := by
  induction first with
  | nil => rfl
  | cons segment rest ih =>
    have inner : rest ++ second ≠ [] := List.append_ne_nil_of_right_ne_nil _ nonempty
    calc rooted (segment :: rest ++ second)
        = '/' :: segment ++ rooted (rest ++ second) := by rw [rooted, List.cons_append, join_cons inner]; rfl
      _ = '/' :: segment ++ stem rest ++ '/' :: join second := by rw [ih, List.append_assoc]
      _ = stem (segment :: rest) ++ '/' :: join second := by rw [stem_cons]

theorem rooted_concat (segments : List (List Char)) (last : List Char) :
    rooted (segments ++ [last]) = stem segments ++ '/' :: last := by
  rw [rooted_append (List.cons_ne_nil _ _), join_singleton]

theorem join_concat {segments : List (List Char)} (nonempty : segments ≠ []) (last : List Char) :
    join (segments ++ [last]) = join segments ++ '/' :: last := by
  have whole : rooted (segments ++ [last]) = rooted segments ++ '/' :: last := by
    rw [rooted_concat, stem, if_neg nonempty]
  exact (List.cons.inj whole).2

theorem rooted_eq_stem {segments : List (List Char)} (nonempty : segments ≠ []) : rooted segments = stem segments :=
  (if_neg nonempty).symm

theorem join_blank_cons (segments : List (List Char)) : join ([] :: segments) = stem segments := by
  cases segments with
  | nil => rfl
  | cons segment rest =>
    rw [join_cons (List.cons_ne_nil _ _), List.nil_append, ← rooted, rooted_eq_stem (List.cons_ne_nil _ _)]

theorem not_mem_join {segments : List (List Char)} {c : Char} (different : c ≠ '/')
    (free : ∀ segment ∈ segments, c ∉ segment) : c ∉ join segments := by
  induction segments with
  | nil => exact List.not_mem_nil
  | cons segment rest ih =>
    have inner : c ∉ join rest := ih fun segment member => free segment (List.mem_cons_of_mem _ member)
    have outer : c ∉ segment := free segment (List.mem_cons_self ..)
    cases rest with
    | nil => rwa [join_singleton]
    | cons next rest => simp [join_cons, outer, inner, different]

theorem slashes_of_not_mem {path : List Char} (free : '\\' ∉ path) : slashes path = path := by
  have each : ∀ c ∈ path, (if c = '\\' then '/' else c) = id c := by
    intro c member
    have different : c ≠ '\\' := by
      rintro rfl
      exact free member
    exact if_neg different
  rw [slashes, List.map_congr_left each, List.map_id]

theorem walk_split_join {pieces : List (List Char)} (free : ∀ piece ∈ pieces, '/' ∉ piece) :
    walk start (Text.split '/' (join pieces)) = walk start pieces := by
  by_cases empty : pieces = []
  · rw [empty]
    exact walk_blank _
  · rw [join, Text.split_intercalate empty free]

theorem split_rooted (segments : List (List Char)) : Text.split '/' (rooted segments) = [] :: Text.split '/' (join segments) :=
  Text.split_append [] (join segments)

theorem normalize_absolute (text : List Char) :
    normalize ('/' :: text) = rooted (walk [] (Text.split '/' (slashes text))) := by
  have pieces : Text.split '/' ('/' :: slashes text) = [] :: Text.split '/' (slashes text) := Text.split_append [] _
  have steps : kept true ([] :: Text.split '/' (slashes text)) = walk [] (Text.split '/' (slashes text)) :=
    (walk_blank _ : walk [] _ = walk [] _)
  have slashed : slashes ('/' :: text) = '/' :: slashes text := rfl
  rw [normalize, slashed, pieces]
  exact congrArg rooted steps

section

variable {segments : List (List Char)} (proper : AreSegments segments)

include proper

theorem AreSegments.noSlash : ∀ segment ∈ segments, '/' ∉ segment :=
  fun segment member => (proper segment member).noSlash

theorem AreSegments.not_mem_join : '\\' ∉ join segments :=
  Chars.not_mem_join (by decide) fun segment member => (proper segment member).noBackslash

/-- A text after an absolute directory continues the walk from there. -/
theorem normalize_rooted_append {text : List Char} (free : '\\' ∉ text) :
    normalize (rooted segments ++ '/' :: text) = rooted (walk segments (Text.split '/' text)) := by
  have plain : '\\' ∉ join segments ++ '/' :: text := by
    simp [proper.not_mem_join, free]
  have there : walk [] (Text.split '/' (join segments)) = segments := by
    rw [walk_split_join proper.noSlash, walk_segments proper, List.nil_append]
  rw [rooted, List.cons_append, normalize_absolute, slashes_of_not_mem plain, Text.split_append, walk_append, there]

theorem normalize_rooted : normalize (rooted segments) = rooted segments := by
  rw [rooted, normalize_absolute, slashes_of_not_mem proper.not_mem_join, walk_split_join proper.noSlash,
    walk_segments proper, List.nil_append, rooted]

theorem filter_segments : segments.filter (fun segment => segment ≠ [] && segment ≠ ['.']) = segments := by
  rw [List.filter_eq_self]
  intro segment member
  simp [(proper segment member).nonempty, (proper segment member).notHere]

theorem segments_rooted : Chars.segments (rooted segments) = segments := by
  rw [Chars.segments, normalize_rooted proper, split_rooted, List.filter_cons_of_neg (by simp)]
  by_cases empty : segments = []
  · subst empty
    rfl
  · rw [join, Text.split_intercalate empty proper.noSlash, filter_segments proper]

theorem segments_stem : Chars.segments (stem segments) = segments := by
  by_cases empty : segments = []
  · subst empty
    rfl
  · rw [← rooted_eq_stem empty, segments_rooted proper]

theorem AreSegments.filled : ∀ segment ∈ segments, segment ≠ [] :=
  fun segment member => (proper segment member).nonempty

theorem not_isAbsolute_join : isAbsolute (join segments) = false :=
  not_isAbsolute_join_of_filled proper.filled proper.noSlash

theorem join_ne_nil (nonempty : segments ≠ []) : join segments ≠ [] :=
  mt (join_eq_nil_iff proper.filled).mp nonempty

theorem segments_join : Chars.segments (join segments) = segments := by
  by_cases empty : segments = []
  · subst empty
    rfl
  · have pieces : Text.split '/' (join segments) = segments := Text.split_intercalate empty proper.noSlash
    have whole : kept false segments = segments := by
      rw [kept, foldl_enter_segments proper, List.append_nil, List.reverse_reverse]
    have normal : normalize (join segments) = join segments := by
      simp only [normalize, slashes_of_not_mem proper.not_mem_join, not_isAbsolute_join proper, pieces, whole]
      simp [join_ne_nil proper empty]
    rw [Chars.segments, normal, pieces, filter_segments proper]

end

theorem free_of_mem_split_slashes {text piece : List Char} (member : piece ∈ Text.split '/' (slashes text)) :
    '/' ∉ piece ∧ '\\' ∉ piece := by
  refine ⟨Text.not_mem_of_mem_split member, fun inside => ?_⟩
  obtain ⟨d, -, same⟩ := List.mem_map.mp ((Text.infix_of_mem_split member).mem inside)
  split at same
  · cases same
  · next different => exact different same

/-- Whatever an absolute path is written with, it leads to proper segments. -/
theorem walk_split_areSegments (text : List Char) : AreSegments (walk [] (Text.split '/' (slashes text))) :=
  walk_areSegments nofun fun _ member => free_of_mem_split_slashes member

theorem segments_absolute (text : List Char) : segments ('/' :: text) = walk [] (Text.split '/' (slashes text)) := by
  have proper := walk_split_areSegments text
  rw [segments, normalize_absolute, ← normalize_rooted proper, ← segments, segments_rooted proper]

section

variable {path : List Char} (fromRoot : isAbsolute path = true)

include fromRoot

theorem exists_slash_cons : ∃ text, path = '/' :: text := by
  cases path with
  | nil => cases fromRoot
  | cons c text =>
    obtain rfl : c = '/' := by simpa [isAbsolute] using fromRoot
    exact ⟨text, rfl⟩

theorem segments_areSegments : AreSegments (segments path) := by
  obtain ⟨text, rfl⟩ := exists_slash_cons fromRoot
  rw [segments_absolute]
  exact walk_split_areSegments text

/-- An absolute path is normalized to the path of its segments. -/
theorem normalize_eq_rooted : normalize path = rooted (segments path) := by
  obtain ⟨text, rfl⟩ := exists_slash_cons fromRoot
  rw [normalize_absolute, segments_absolute]

/-- A text after an absolute path continues the walk from where the path leads. -/
theorem normalize_append (text : List Char) :
    normalize (path ++ '/' :: text) = rooted (walk (segments path) (Text.split '/' (slashes text))) := by
  obtain ⟨start, rfl⟩ := exists_slash_cons fromRoot
  have slashed : slashes (start ++ '/' :: text) = slashes start ++ '/' :: slashes text := by simp [slashes]
  rw [List.cons_append, normalize_absolute, slashed, Text.split_append, walk_append, segments_absolute]

end

/-- A normalized absolute path consists of proper segments. -/
theorem exists_rooted {path : List Char} (absolute : isAbsolute path = true) (normal : normalize path = path) :
    ∃ segments, AreSegments segments ∧ path = rooted segments :=
  ⟨segments path, segments_areSegments absolute, by rw [← normalize_eq_rooted absolute, normal]⟩

/-- A slash divides a path into two lists of segments. -/
theorem rooted_eq_append {segments : List (List Char)} (proper : AreSegments segments) {first second : List Char}
    (parts : rooted segments = first ++ '/' :: second) :
    ∃ outer inner, segments = outer ++ inner ∧ first = stem outer ∧ second = join inner := by
  by_cases empty : segments = []
  · subst empty
    obtain ⟨rfl, rfl⟩ : first = [] ∧ second = [] := by
      cases first with
      | nil => exact ⟨rfl, (List.cons.inj parts).2.symm⟩
      | cons c rest => simp [rooted, join, List.intercalate] at parts
    exact ⟨[], [], rfl, rfl, rfl⟩
  · have pieces : [] :: segments = Text.split '/' first ++ Text.split '/' second := by
      rw [← Text.split_append, ← parts, split_rooted, join, Text.split_intercalate empty proper.noSlash]
    obtain ⟨piece, outer, whole⟩ := List.exists_cons_of_ne_nil (Text.split_ne_nil '/' first)
    rw [whole, List.cons_append] at pieces
    obtain ⟨rfl, rfl⟩ := List.cons.inj pieces
    refine ⟨outer, Text.split '/' second, rfl, ?_, (Text.intercalate_split second).symm⟩
    calc first = join ([] :: outer) := by rw [join, ← whole, Text.intercalate_split]
      _ = stem outer := join_blank_cons outer

/-! ## Directories -/

section

variable {last : List Char} (nonempty : last ≠ []) (noSlash : '/' ∉ last) (before : List Char)

include noSlash in
theorem forall_reverse_ne_slash : ∀ c ∈ last.reverse, decide (c ≠ '/') = true := by
  intro c member
  have different : c ≠ '/' := by
    rintro rfl
    exact noSlash (List.mem_reverse.mp member)
  exact decide_eq_true different

include nonempty noSlash

theorem trimmedReverse_append : trimmedReverse (before ++ '/' :: last) = last.reverse ++ '/' :: before.reverse := by
  obtain ⟨c, text, whole⟩ := List.exists_cons_of_ne_nil (mt List.reverse_eq_nil_iff.mp nonempty)
  have different : c ≠ '/' := by
    simpa using forall_reverse_ne_slash noSlash c (whole ▸ List.mem_cons_self ..)
  have reversed : (before ++ '/' :: last).reverse = last.reverse ++ '/' :: before.reverse := by simp
  rw [trimmedReverse, reversed, whole, List.cons_append, List.dropWhile_cons_of_neg (by simpa using different)]

theorem dirname_append : dirname (before ++ '/' :: last) = if before = [] then ['/'] else before := by
  have trimmed : (trimmedReverse (before ++ '/' :: last)).dropWhile (· ≠ '/') = '/' :: before.reverse := by
    rw [trimmedReverse_append nonempty noSlash, List.dropWhile_append_of_pos (forall_reverse_ne_slash noSlash)]
    exact List.dropWhile_cons_of_neg (by simp)
  simp only [dirname, trimmed, List.reverse_eq_nil_iff, List.reverse_reverse]

omit nonempty in
theorem dirname_of_not_mem : dirname last = ['.'] := by
  have whole : (trimmedReverse last).dropWhile (· ≠ '/') = [] := by
    rw [List.dropWhile_eq_nil_iff]
    exact fun c member => forall_reverse_ne_slash noSlash c ((List.dropWhile_sublist _).mem member)
  have relative : isAbsolute last = false := by
    cases last with
    | nil => rfl
    | cons c rest => simpa [isAbsolute, eq_comm] using fun same : '/' = c => noSlash (same ▸ List.mem_cons_self ..)
  simp only [dirname, whole, relative]
  rfl

theorem basename_append : basename (before ++ '/' :: last) = last := by
  rw [basename, trimmedReverse_append nonempty noSlash, List.takeWhile_append_of_pos (forall_reverse_ne_slash noSlash),
    List.takeWhile_cons_of_neg (by simp), List.append_nil, List.reverse_reverse]

end

theorem dirname_root : dirname (rooted []) = rooted [] := by
  decide

theorem dirname_rooted {last : List Char} (proper : IsSegment last) (segments : List (List Char)) :
    dirname (rooted (segments ++ [last])) = rooted segments := by
  rw [rooted_concat, dirname_append proper.nonempty proper.noSlash]
  by_cases empty : segments = []
  · subst empty
    rfl
  · have whole : stem segments = rooted segments := if_neg empty
    rw [whole]
    exact if_neg (List.cons_ne_nil _ _)

end Chars

/-! ## Normal paths -/

open Chars

/-- An absolute path that is as normalization leaves it. -/
structure IsNormal (path : String) : Prop where
  absolute : isAbsolute path = true
  normalized : normalize path = path

theorem IsNormal.exists_rooted {path : String} (normal : IsNormal path) :
    ∃ segments, AreSegments segments ∧ path = String.ofList (rooted segments) := by
  have normalized : Chars.normalize path.toList = path.toList := by
    simpa [normalize] using congrArg String.toList normal.normalized
  obtain ⟨segments, proper, same⟩ := Chars.exists_rooted normal.absolute normalized
  exact ⟨segments, proper, by rw [← same, String.ofList_toList]⟩

theorem isNormal_rooted {segments : List (List Char)} (proper : AreSegments segments) :
    IsNormal (String.ofList (rooted segments)) := by
  constructor
  · simp [isAbsolute, Chars.isAbsolute, rooted]
  · rw [normalize, String.toList_ofList, normalize_rooted proper]

/-- Normalizing an absolute path leaves an absolute path that normalizing leaves alone. -/
theorem isNormal_normalize {path : String} (absolute : isAbsolute path = true) : IsNormal (normalize path) := by
  rw [normalize, normalize_eq_rooted absolute]
  exact isNormal_rooted (segments_areSegments absolute)

/-- Whatever is seen from an absolute directory has a normal path. -/
theorem isNormal_resolve {base : String} (fromRoot : isAbsolute base = true) (path : String) :
    IsNormal (resolve base path) := by
  rw [resolve]
  split
  case isTrue absolute => exact isNormal_normalize absolute
  case isFalse =>
    have nonempty : base ≠ "" := by
      rintro rfl
      cases fromRoot
    rw [join, if_neg nonempty]
    apply isNormal_normalize
    obtain ⟨rest, starts⟩ := Chars.exists_slash_cons fromRoot
    simp [isAbsolute, Chars.isAbsolute, starts]

/-- A normal path is the same from everywhere. -/
theorem IsNormal.resolve_eq {path : String} (normal : IsNormal path) (base : String) : resolve base path = path := by
  rw [resolve, if_pos normal.absolute, normal.normalized]

variable {segments : List (List Char)}

theorem dirname_rooted {last : List Char} (file : IsSegment last) :
    dirname (String.ofList (rooted (segments ++ [last]))) = String.ofList (rooted segments) := by
  rw [dirname, String.toList_ofList, Chars.dirname_rooted file]

variable (proper : AreSegments segments)

include proper

/-- The directory of an absolute path has proper segments, too. -/
theorem exists_dirname_rooted : ∃ outer, AreSegments outer ∧
    dirname (String.ofList (rooted segments)) = String.ofList (rooted outer) := by
  obtain rfl | ⟨outer, last, rfl⟩ := List.eq_nil_or_concat segments
  · exact ⟨[], proper, by rw [dirname, String.toList_ofList, dirname_root]⟩
  · rw [List.concat_eq_append] at proper ⊢
    exact ⟨outer, fun segment member => proper segment (List.mem_append_left _ member),
      dirname_rooted (proper last (by simp))⟩

theorem slashes_rooted : slashes (String.ofList (rooted segments)) = String.ofList (rooted segments) := by
  have free : '\\' ∉ rooted segments := by
    simpa [rooted] using proper.not_mem_join
  rw [slashes, String.toList_ofList, slashes_of_not_mem free]

/-- A path seen from an absolute directory is where its pieces lead. -/
theorem join_rooted {text : String} (free : '\\' ∉ text.toList) :
    join (String.ofList (rooted segments)) text = String.ofList (rooted (walk segments (Text.split '/' text.toList))) := by
  have nonempty : String.ofList (rooted segments) ≠ "" := by
    intro empty
    simpa [rooted] using congrArg String.toList empty
  have whole : (String.ofList (rooted segments) ++ "/" ++ text).toList = rooted segments ++ '/' :: text.toList := by
    simp
  rw [join, if_neg nonempty, normalize, whole, normalize_rooted_append proper free]

end Path

end CompanionBuild
