import CompanionBuild.Proofs.Path.Segments

/-! # Normal forms of paths

A path is normalized by writing it again from the stack that it was read onto, and what is written is read onto the same
stack. So a normalized path is canonical, a canonical path is its own normal form, and a path may be normalized before
more is appended to it.
-/

namespace CompanionBuild.Path

namespace Chars

/-! ## Writing a path from its segments -/

/-- The path of some segments; where there are none, the root or the current directory. -/
def spell (absolute : Bool) (segments : List (List Char)) : List Char :=
  if absolute then rooted segments else if segments = [] then ['.'] else join segments

/-- The segments that remain when a path is read. -/
def remains (path : List Char) : List (List Char) :=
  kept (isAbsolute (slashes path)) (Text.split '/' (slashes path))

/-- Whatever a path is written with, its segments remain as a stack. -/
theorem stacked_remains (path : List Char) : Stacked (isAbsolute (slashes path)) (remains path).reverse := by
  rw [remains, kept, List.reverse_reverse]
  exact Stacked.nil.foldl fun piece member => free_of_mem_split_slashes member

theorem normalize_eq_spell (path : List Char) : normalize path = spell (isAbsolute (slashes path)) (remains path) := by
  have filled : ∀ piece ∈ remains path, piece ≠ [] := fun piece member =>
    ((stacked_remains path).plain piece member).nonempty
  simp only [spell, ← join_eq_nil_iff filled]
  rfl

section

variable {absolute : Bool} {segments : List (List Char)} (stacked : Stacked absolute segments.reverse)

include stacked

theorem noBackslash_spell : '\\' ∉ spell absolute segments := by
  have free : '\\' ∉ join segments :=
    not_mem_join (by decide) fun piece member => (stacked.plain piece member).noBackslash
  unfold spell
  split
  · simpa [rooted] using free
  · split
    · decide
    · exact free

theorem isAbsolute_spell : isAbsolute (spell absolute segments) = absolute := by
  unfold spell
  split
  case isTrue fromRoot =>
    rw [fromRoot]
    rfl
  case isFalse relative =>
    rw [Bool.eq_false_iff.mpr relative]
    split
    · rfl
    · apply not_isAbsolute_join_of_filled
      · exact fun piece member => (stacked.plain piece member).nonempty
      · exact fun piece member => (stacked.plain piece member).noSlash

theorem kept_split_spell : kept absolute (Text.split '/' (spell absolute segments)) = segments := by
  have free : ∀ piece ∈ segments, '/' ∉ piece := fun piece member => (stacked.plain piece member).noSlash
  have again : kept absolute segments = segments := by
    have built := stacked.foldl_reverse
    rw [List.reverse_reverse] at built
    rw [kept, built, List.reverse_reverse]
  have written : kept absolute (Text.split '/' (join segments)) = segments := by
    by_cases empty : segments = []
    · subst empty
      rfl
    · rw [join, Text.split_intercalate empty free, again]
  unfold spell
  split
  · -- the slash at the front leaves a blank piece, which is passed over
    rw [split_rooted, kept, List.foldl_cons, enter_blank]
    exact written
  · split
    case isTrue empty =>
      rw [empty]
      rfl
    case isFalse => exact written

/-- A path that is written from a stack is read onto the same stack. -/
theorem remains_spell : remains (spell absolute segments) = segments := by
  rw [remains, slashes_of_not_mem (noBackslash_spell stacked), isAbsolute_spell stacked, kept_split_spell stacked]

theorem normalize_spell : normalize (spell absolute segments) = spell absolute segments := by
  rw [normalize_eq_spell, remains_spell stacked, slashes_of_not_mem (noBackslash_spell stacked), isAbsolute_spell stacked]

end

theorem remains_normalize (path : List Char) : remains (normalize path) = remains path := by
  rw [normalize_eq_spell, remains_spell (stacked_remains path)]

theorem isAbsolute_slashes_normalize (path : List Char) :
    isAbsolute (slashes (normalize path)) = isAbsolute (slashes path) := by
  rw [normalize_eq_spell, slashes_of_not_mem (noBackslash_spell (stacked_remains path)),
    isAbsolute_spell (stacked_remains path)]

/-! ## Appending to a path -/

theorem isAbsolute_slashes_append {path : List Char} (nonempty : path ≠ []) (more : List Char) :
    isAbsolute (slashes (path ++ more)) = isAbsolute (slashes path) := by
  obtain ⟨c, rest, rfl⟩ := List.exists_cons_of_ne_nil nonempty
  rfl

/-- What is appended to a path is read onto the stack of the path. -/
theorem remains_append {path : List Char} (nonempty : path ≠ []) (more : List Char) :
    remains (path ++ '/' :: more) =
      ((Text.split '/' (slashes more)).foldl (enter (isAbsolute (slashes path))) (remains path).reverse).reverse := by
  have slashed : slashes (path ++ '/' :: more) = slashes path ++ '/' :: slashes more := by simp [slashes]
  rw [remains, isAbsolute_slashes_append nonempty, slashed, Text.split_append, kept, List.foldl_append, remains, kept,
    List.reverse_reverse]

theorem normalize_ne_nil (path : List Char) : normalize path ≠ [] := by
  unfold normalize
  dsimp only
  split
  · exact List.cons_ne_nil _ _
  · split
    · exact List.cons_ne_nil _ _
    · assumption

/-- A path may be normalized before more is appended to it. -/
theorem normalize_normalize_append {path : List Char} (nonempty : path ≠ []) (more : List Char) :
    normalize (normalize path ++ '/' :: more) = normalize (path ++ '/' :: more) := by
  rw [normalize_eq_spell, normalize_eq_spell (path ++ _), isAbsolute_slashes_append (normalize_ne_nil path),
    isAbsolute_slashes_append nonempty, remains_append (normalize_ne_nil path), remains_append nonempty,
    isAbsolute_slashes_normalize, remains_normalize]

/-! ## Canonical paths -/

/-- The pieces of a path between its separators, without the separator that an absolute path starts with. -/
def pieces (path : List Char) : List (List Char) :=
  Text.split '/' (if isAbsolute path then path.tail else path)

/-- No piece of the path is empty, stands for the place itself or undoes another one. -/
structure IsCanonical (path : List Char) : Prop where
  noBackslash : '\\' ∉ path
  noBlank : path ≠ ['/'] → path ≠ ['.'] → ∀ piece ∈ pieces path, piece ≠ [] ∧ piece ≠ ['.']
  noUp : isAbsolute path = true → ['.', '.'] ∉ pieces path
  upsFirst : isAbsolute path = false →
    ∃ count names, pieces path = List.replicate count ['.', '.'] ++ names ∧ ['.', '.'] ∉ names

theorem AreSegments.not_mem_up {segments : List (List Char)} (proper : AreSegments segments) : ['.', '.'] ∉ segments :=
  fun member => (proper _ member).notUp rfl

theorem pieces_spell {absolute : Bool} {segments : List (List Char)} (stacked : Stacked absolute segments.reverse)
    (nonempty : segments ≠ []) : pieces (spell absolute segments) = segments := by
  have free : ∀ piece ∈ segments, '/' ∉ piece := fun piece member => (stacked.plain piece member).noSlash
  have parts : Text.split '/' (join segments) = segments := Text.split_intercalate nonempty free
  rw [pieces, isAbsolute_spell stacked]
  cases absolute with
  | true => exact parts
  | false => rwa [spell, if_neg Bool.false_ne_true, if_neg nonempty, if_neg Bool.false_ne_true]

theorem isCanonical_root : IsCanonical ['/'] where
  noBackslash := by decide
  noBlank notRoot _ := (notRoot rfl).elim
  noUp _ := by decide
  upsFirst relative := by cases relative

theorem isCanonical_here : IsCanonical ['.'] where
  noBackslash := by decide
  noBlank _ notHere := (notHere rfl).elim
  noUp _ := by decide
  upsFirst _ := ⟨0, [['.']], rfl, by decide⟩

/-- What is written from a stack is canonical. -/
theorem isCanonical_spell {absolute : Bool} {segments : List (List Char)} (stacked : Stacked absolute segments.reverse) :
    IsCanonical (spell absolute segments) := by
  by_cases empty : segments = []
  · subst empty
    cases absolute with
    | false => exact isCanonical_here
    | true => exact isCanonical_root
  · refine ⟨noBackslash_spell stacked, ?_, ?_, ?_⟩ <;> rw [pieces_spell stacked empty]
    · intro _ _ piece member
      exact ⟨(stacked.plain piece member).nonempty, (stacked.plain piece member).notHere⟩
    · rw [isAbsolute_spell stacked]
      rintro rfl member
      exact stacked.areSegments.not_mem_up (List.mem_reverse.mpr member)
    · intro _
      obtain ⟨count, names, whole, proper⟩ := stacked.exists_ups
      rw [List.reverse_reverse] at whole
      exact ⟨count, names, whole, proper.not_mem_up⟩

/-- A canonical path other than the root and the current directory is written from its pieces. -/
theorem IsCanonical.exists_stack {path : List Char} (canonical : IsCanonical path) (notRoot : path ≠ ['/'])
    (notHere : path ≠ ['.']) :
    ∃ segments, Stacked (isAbsolute path) segments.reverse ∧ path = spell (isAbsolute path) segments := by
  have proper : ∀ piece ∈ pieces path, piece ≠ ['.', '.'] → IsSegment piece := by
    intro piece member notUp
    have filled := canonical.noBlank notRoot notHere piece member
    refine ⟨filled.1, filled.2, notUp, Text.not_mem_of_mem_split member, fun inside => canonical.noBackslash ?_⟩
    have inner := (Text.infix_of_mem_split member).mem inside
    split at inner
    · exact List.mem_of_mem_tail inner
    · exact inner
  refine ⟨pieces path, ?_, ?_⟩
  · cases absolute : isAbsolute path with
    | true =>
      have names : AreSegments (pieces path) := fun piece member =>
        proper piece member fun up => canonical.noUp absolute (up ▸ member)
      exact names.stacked true
    | false =>
      obtain ⟨count, names, whole, noUp⟩ := canonical.upsFirst absolute
      rw [whole]
      refine .of_ups nofun fun segment member => proper segment ?_ fun up => noUp (up ▸ member)
      rw [whole]
      exact List.mem_append_right _ member
  · cases absolute : isAbsolute path with
    | true =>
      obtain ⟨text, rfl⟩ := exists_slash_cons absolute
      exact congrArg ('/' :: ·) (Text.intercalate_split text).symm
    | false =>
      have parts : pieces path = Text.split '/' path := by rw [pieces, absolute, if_neg Bool.false_ne_true]
      rw [spell, if_neg Bool.false_ne_true, parts, if_neg (Text.split_ne_nil '/' path), join, Text.intercalate_split]

theorem isCanonical_normalize (path : List Char) : IsCanonical (normalize path) := by
  rw [normalize_eq_spell]
  exact isCanonical_spell (stacked_remains path)

/-- The canonical paths are those that normalizing leaves alone. -/
theorem isCanonical_iff {path : List Char} : IsCanonical path ↔ normalize path = path := by
  constructor
  · intro canonical
    by_cases root : path = ['/']
    · subst root
      rfl
    by_cases here : path = ['.']
    · subst here
      rfl
    obtain ⟨segments, stacked, whole⟩ := canonical.exists_stack root here
    rw [whole, normalize_spell stacked]
  · intro normal
    rw [← normal]
    exact isCanonical_normalize path

end Chars

/-- The path has no backslash; no piece of it is empty or one dot unless the path is `/` or `.`; no piece of an absolute
path is two dots, and those of a relative path come first. -/
def IsCanonical (path : String) : Prop :=
  Chars.IsCanonical path.toList

theorem normalize_normalize_append {path : String} (nonempty : path ≠ "") (more : String) :
    normalize (normalize path ++ "/" ++ more) = normalize (path ++ "/" ++ more) := by
  have text : path.toList ≠ [] := by
    intro empty
    exact nonempty (by rw [← String.ofList_toList (s := path), empty])
  have first : (normalize path ++ "/" ++ more).toList = Chars.normalize path.toList ++ '/' :: more.toList := by
    simp [normalize]
  have second : (path ++ "/" ++ more).toList = path.toList ++ '/' :: more.toList := by simp
  rw [normalize, first, Chars.normalize_normalize_append text, ← second, ← normalize]

theorem isCanonical_iff (path : String) : IsCanonical path ↔ normalize path = path := by
  rw [IsCanonical, Chars.isCanonical_iff, normalize, ← String.toList_inj, String.toList_ofList]

/-- Normalizing gives a canonical path, and gives a canonical path back as it is. A path that is not empty may be
normalized before a slash and more are appended to it. -/
theorem normalize_canonical_compositional (path : String) :
    normalize (normalize path) = normalize path ∧ IsCanonical (normalize path) ∧
      (IsCanonical path → normalize path = path) ∧
      (path ≠ "" → ∀ more, normalize (normalize path ++ "/" ++ more) = normalize (path ++ "/" ++ more)) := by
  have canonical : IsCanonical (normalize path) := by
    rw [IsCanonical, normalize, String.toList_ofList]
    exact Chars.isCanonical_normalize path.toList
  exact ⟨(isCanonical_iff _).mp canonical, canonical, (isCanonical_iff path).mp, fun nonempty more =>
    normalize_normalize_append nonempty more⟩

/-- A relative path that climbs, written with both separators, and what is appended to it. -/
theorem climbing_path_canonical :
    normalize "a\\..//../b/." = "../b" ∧ normalize "../b" = "../b" ∧ IsCanonical "../b" ∧
      "a\\..//../b/." ≠ "" ∧ normalize ("../b" ++ "/" ++ "../../c") = "../../c" ∧
      normalize ("a\\..//../b/." ++ "/" ++ "../../c") = "../../c" := by
  have normal : normalize "a\\..//../b/." = "../b" := by decide
  have named : "a\\..//../b/." ≠ "" := by decide
  have leads : normalize ("a\\..//../b/." ++ "/" ++ "../../c") = "../../c" := by decide
  obtain ⟨-, canonical, -, appended⟩ := normalize_canonical_compositional "a\\..//../b/."
  rw [normal] at canonical appended
  obtain ⟨-, -, unchanged, -⟩ := normalize_canonical_compositional "../b"
  exact ⟨normal, unchanged canonical, canonical, named, (appended named "../../c").trans leads, leads⟩

end CompanionBuild.Path
