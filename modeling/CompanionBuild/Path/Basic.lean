import CompanionBuild.Text.Affix

/-! # Paths

A path is a text whose segments are separated by slashes; a backslash counts as a slash where a path is normalized.
Nothing here asks a file system. The functions on lists of characters carry the rules, those on strings are their
faces.
-/

namespace CompanionBuild.Path

namespace Chars

def isAbsolute (path : List Char) : Bool :=
  path.head? = some '/'

def slashes (path : List Char) : List Char :=
  path.map fun c => if c = '\\' then '/' else c

/-- One segment read after the segments kept so far, the innermost first. -/
def enter (absolute : Bool) (kept : List (List Char)) (segment : List Char) : List (List Char) :=
  if segment = [] ∨ segment = ['.'] then kept
  else if segment = ['.', '.'] then
    match kept with
    | [] => if absolute then [] else [segment]
    | last :: outer => if last ≠ ['.', '.'] then outer else if absolute then kept else segment :: kept
  else segment :: kept

/-- The segments that remain of a path, the outermost first. -/
def kept (absolute : Bool) (segments : List (List Char)) : List (List Char) :=
  (segments.foldl (enter absolute) []).reverse

def join (segments : List (List Char)) : List Char :=
  List.intercalate ['/'] segments

/-- Dot segments and repeated separators collapsed; the empty relative path is written as one dot. -/
def normalize (path : List Char) : List Char :=
  let path := slashes path
  let absolute := isAbsolute path
  let joined := join (kept absolute (Text.split '/' path))
  if absolute then '/' :: joined
  else if joined = [] then ['.']
  else joined

/-- The path in reverse, without the separators it ends with. -/
def trimmedReverse (path : List Char) : List Char :=
  path.reverse.dropWhile (· = '/')

/-- The directory a path is in. -/
def dirname (path : List Char) : List Char :=
  match (trimmedReverse path).dropWhile (· ≠ '/') with
  | [] => if isAbsolute path then ['/'] else ['.']
  | _ :: outer => if outer = [] then ['/'] else outer.reverse

/-- The last segment of a path. -/
def basename (path : List Char) : List Char :=
  ((trimmedReverse path).takeWhile (· ≠ '/')).reverse

/-- The segments of a normalized path. -/
def segments (path : List Char) : List (List Char) :=
  (Text.split '/' (normalize path)).filter fun segment => segment ≠ [] && segment ≠ ['.']

/-- What remains of two lists after their common beginning. -/
def diverge : List (List Char) → List (List Char) → List (List Char) × List (List Char)
  | a :: as, b :: bs => if a = b then diverge as bs else (a :: as, b :: bs)
  | as, bs => (as, bs)

def relative (source target : List Char) : List Char :=
  let (up, down) := diverge (segments source) (segments target)
  join (up.map (fun _ => ['.', '.']) ++ down)

end Chars

def isAbsolute (path : String) : Bool :=
  Chars.isAbsolute path.toList

/-- The path with a slash for every backslash. -/
def slashes (path : String) : String :=
  String.ofList (Chars.slashes path.toList)

def normalize (path : String) : String :=
  String.ofList (Chars.normalize path.toList)

def dirname (path : String) : String :=
  String.ofList (Chars.dirname path.toList)

def basename (path : String) : String :=
  String.ofList (Chars.basename path.toList)

def join (base path : String) : String :=
  if base = "" then normalize path else normalize (base ++ "/" ++ path)

/-- `path` seen from `base`, unless it is absolute already. -/
def resolve (base path : String) : String :=
  if isAbsolute path then normalize path else join base path

/-- The path that leads from directory `source` to `target`, empty when they are the same. -/
def relative (source target : String) : String :=
  String.ofList (Chars.relative source.toList target.toList)

/-- The relative path, with a leading `./` unless it starts with a dot. -/
def dotRelative (source target : String) : String :=
  let path := relative source target
  if Text.startsWith path "." then path else "./" ++ path

/-- The path of `file` seen from `root`, none when it leads out of `root`. -/
def below? (root file : String) : Option String :=
  let path := relative root file
  if Text.startsWith path ".." then none else some path

/-- `file` seen from the first root that properly contains it, or `file` itself. -/
def belowRoots (file : String) (roots : List String) : String :=
  ((roots.filterMap (below? · file)).find? (· ≠ "")).getD file

namespace Chars

/-- How far a path is from the end of the upward walk; its two ends are `.` and `/`. -/
def height (path : List Char) : Nat :=
  if path = ['.'] ∨ path = ['/'] then 0 else path.length + 1

theorem trimmedReverse_length_le (path : List Char) : (trimmedReverse path).length ≤ path.length := by
  unfold trimmedReverse
  exact Nat.le_trans (List.dropWhile_sublist _).length_le (Nat.le_of_eq (List.length_reverse ..))

/-- Going up leads to an end or to a shorter path. -/
theorem dirname_cases (path : List Char) :
    dirname path = ['/'] ∨ dirname path = ['.'] ∨ (dirname path).length < path.length := by
  unfold dirname
  split
  · split
    · exact .inl rfl
    · exact .inr (.inl rfl)
  · next c outer found =>
    split
    · exact .inl rfl
    · have bound := (List.dropWhile_sublist (fun c => decide (c ≠ '/')) (l := trimmedReverse path)).length_le
      have whole := trimmedReverse_length_le path
      rw [found, List.length_cons] at bound
      rw [List.length_reverse]
      omega

/-- Going up never leaves a directory as far from the end as it was. -/
theorem height_dirname_lt (path : List Char) (moves : dirname path ≠ path) : height (dirname path) < height path := by
  have inner : path ≠ ['.'] ∧ path ≠ ['/'] := by
    constructor <;> (intro same; subst same; exact moves (by decide))
  have top : height path = path.length + 1 := by simp [height, inner.1, inner.2]
  have ends : height ['.'] = 0 ∧ height ['/'] = 0 := by decide
  obtain root | here | shorter := dirname_cases path
  · rw [root]
    omega
  · rw [here]
    omega
  · rw [top, height]
    split <;> omega

/-- A directory and the directories above it, up to `.` or `/`. -/
def ancestors (path : List Char) : List (List Char) :=
  if dirname path = path then [path] else path :: ancestors (dirname path)
termination_by height path
decreasing_by exact height_dirname_lt path ‹_›

end Chars

/-- A directory and the directories above it, the innermost first. -/
def ancestors (path : String) : List String :=
  (Chars.ancestors path.toList).map String.ofList

/-- A path is listed first, and then the directories above it unless it is an end. -/
theorem ancestors_eq (path : String) :
    ancestors path = if dirname path = path then [path] else path :: ancestors (dirname path) := by
  have same : (Chars.dirname path.toList = path.toList) = (dirname path = path) := by
    rw [dirname, ← String.toList_inj, String.toList_ofList]
  rw [ancestors, Chars.ancestors]
  simp only [same]
  split
  · simp
  · rw [List.map_cons, String.ofList_toList, ancestors, dirname, String.toList_ofList]

end CompanionBuild.Path
