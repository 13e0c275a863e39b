import CompanionBuild.Host.Resource
import CompanionBuild.Resolution
import Mathlib.Logic.Function.Iterate

/-! # Walks up the directories end

Going up from any path ends at `/` or at `.`, the two places that are their own directories. A search that looks into a
directory and goes on to the parent, until the parent is the directory itself, is written here as it runs, without a list
of directories made beforehand and without a bound. Unrolled often enough it answers, in every world and for every file,
and its answer is that of the search through the listed directories.
-/

namespace CompanionBuild

namespace Path

/-! ## The two ends -/

/-- Only the two ends of the walk are their own directories. -/
theorem Chars.dirname_eq_self_iff {path : List Char} : dirname path = path ↔ path = ['/'] ∨ path = ['.'] := by
  constructor
  · intro still
    obtain root | here | shorter := dirname_cases path
    · exact .inl (still.symm.trans root)
    · exact .inr (still.symm.trans here)
    · rw [still] at shorter
      omega
  · rintro (rfl | rfl) <;> decide

theorem dirname_eq_self_iff {path : String} : dirname path = path ↔ path = "/" ∨ path = "." := by
  rw [dirname, ← String.toList_inj, String.toList_ofList, Chars.dirname_eq_self_iff, ← String.toList_inj,
    ← String.toList_inj]
  rfl

/-- How far a path is from the end of the upward walk. -/
def height (path : String) : Nat :=
  Chars.height path.toList

theorem height_le (path : String) : height path ≤ path.length + 1 := by
  rw [height, Chars.height, String.length_toList]
  split <;> omega

theorem height_dirname_lt {path : String} (moves : dirname path ≠ path) : height (dirname path) < height path := by
  rw [height, height, dirname, String.toList_ofList]
  apply Chars.height_dirname_lt
  intro still
  exact moves (by rw [dirname, still, String.ofList_toList])

/-- The directories that are listed are visited one after the other, up to one of the ends. -/
theorem exists_steps (path : String) : ∃ steps ≤ height path,
    (dirname^[steps] path = "/" ∨ dirname^[steps] path = ".") ∧
      ancestors path = (List.range (steps + 1)).map (dirname^[·] path) := by
  induction bound : height path using Nat.strongRecOn generalizing path with
  | _ bound ih =>
    subst bound
    rw [ancestors_eq]
    split
    case isTrue still => exact ⟨0, Nat.zero_le _, dirname_eq_self_iff.mp still, rfl⟩
    case isFalse moves =>
      have lower := height_dirname_lt moves
      obtain ⟨steps, few, ends, listed⟩ := ih _ lower (dirname path) rfl
      refine ⟨steps + 1, by omega, ?_, ?_⟩
      · rwa [Function.iterate_succ_apply]
      · rw [listed, List.range_succ_eq_map (n := steps + 1), List.map_cons, List.map_map]
        rfl

theorem length_ancestors_dirname_le (path : String) : (ancestors (dirname path)).length ≤ path.length + 1 := by
  obtain ⟨steps, few, -, listed⟩ := exists_steps (dirname path)
  have high := height_le path
  rw [listed, List.length_map, List.length_range]
  by_cases still : dirname path = path
  · have ended : height path = 0 := by
      obtain rfl | rfl := dirname_eq_self_iff.mp still <;> rfl
    rw [still, ended] at few
    omega
  · have lower := height_dirname_lt still
    omega

/-! ## Recursions over directories -/

section

variable {σ α : Type}

/-- A recursion over directories unrolled a number of times; where it would go on after that, there is no answer. -/
def unroll (body : (String → OptionT (StateM σ) α) → String → OptionT (StateM σ) α) : Nat → String → OptionT (StateM σ) α
  | 0, _ => failure
  | rounds + 1, dir => body (unroll body rounds) dir

/-- The recursion asks for nothing but the parent, and at an end not even for that; over a list it does the same. -/
structure Ascends (body : (String → OptionT (StateM σ) α) → String → OptionT (StateM σ) α)
    (run : List String → StateM σ α) : Prop where
  top : ∀ ask dir, dirname dir = dir → body ask dir = OptionT.lift (run [dir])
  up : ∀ ask dir rest, dirname dir ≠ dir → ask (dirname dir) = OptionT.lift (run rest) →
    body ask dir = OptionT.lift (run (dir :: rest))

/-- A recursion that goes up answers once it is unrolled as often as there are directories. -/
theorem Ascends.unroll_eq {body : (String → OptionT (StateM σ) α) → String → OptionT (StateM σ) α}
    {run : List String → StateM σ α} (ascends : Ascends body run) {rounds : Nat} {dir : String}
    (enough : (ancestors dir).length ≤ rounds) : unroll body rounds dir = OptionT.lift (run (ancestors dir)) := by
  induction rounds generalizing dir with
  | zero =>
    rw [ancestors_eq] at enough
    split at enough <;> simp at enough
  | succ rounds ih =>
    rw [unroll]
    rw [ancestors_eq] at enough ⊢
    split
    case isTrue still => exact ascends.top _ dir still
    case isFalse moves =>
      rw [if_neg moves, List.length_cons] at enough
      exact ascends.up _ dir _ moves (ih (by omega))

/-- One turn of a search: a look into a directory, and where it finds nothing, on to the parent. -/
def searchTurn (look : String → StateM σ (Option α)) (next : String → OptionT (StateM σ) (Option α)) (dir : String) :
    OptionT (StateM σ) (Option α) := do
  match ← OptionT.lift (look dir) with
  | some found => pure (some found)
  | none => if dirname dir = dir then pure none else next (dirname dir)

theorem searchTurn_ascends (look : String → StateM σ (Option α)) : Ascends (searchTurn look) (List.findSomeM? look) where
  top ask dir still := by
    rw [searchTurn, List.findSomeM?_cons, OptionT.lift_bind]
    congr 1
    funext found
    cases found with
    | some found => rfl
    | none => exact if_pos still
  up ask dir rest moves asked := by
    rw [searchTurn, List.findSomeM?_cons, OptionT.lift_bind]
    congr 1
    funext found
    cases found with
    | some found => rfl
    | none => exact (if_neg moves).trans asked

end

end Path

/-! ## Modules -/

namespace Resolution

variable {σ : Type} (files : FileLookup σ) (package : String) (inside : Option String)

/-- The file of a package that a directory keeps. -/
def packageIn (dir : String) : StateM σ (Option String) := do
  match packageFolder? package dir with
  | none => pure none
  | some folder => if ← files.directoryExists folder then packageFile files folder inside else pure none

theorem resolvePackage_eq (dirs : List String) :
    resolvePackage files package inside dirs = dirs.findSomeM? (packageIn files package inside) := by
  induction dirs with
  | nil => rfl
  | cons dir rest ih =>
    rw [List.findSomeM?_cons, resolvePackage, packageIn, ih]
    cases packageFolder? package dir with
    | none => rfl
    | some folder =>
      dsimp only
      rw [bind_assoc]
      congr 1
      funext present
      cases present with
      | false => rfl
      | true =>
        simp only [if_true]
        congr 1
        funext found
        cases found <;> rfl

/-- The file that a module name means in a file, the walk for a package unrolled a number of times. -/
def seekFile (rounds : Nat) (name containing : String) : OptionT (StateM σ) (Option String) :=
  if isRelative name then OptionT.lift (files.firstExisting (probes (Path.join (Path.dirname containing) name)))
  else if Path.isAbsolute name then OptionT.lift (files.firstExisting (probes (Path.normalize name)))
  else
    let (package, inside) := packageSpecifier name
    Path.unroll (Path.searchTurn (packageIn files package inside)) rounds (Path.dirname containing)

theorem seekFile_eq {rounds : Nat} {containing : String} (enough : containing.length < rounds) (name : String) :
    seekFile files rounds name containing = OptionT.lift (resolveFile files name containing) := by
  have visits := Nat.le_trans (Path.length_ancestors_dirname_le containing) enough
  unfold seekFile resolveFile
  split
  · rfl
  · split
    · rfl
    · dsimp only
      rw [(Path.searchTurn_ascends _).unroll_eq visits, resolvePackage_eq]

end Resolution

namespace Host

variable {ω : Type} (host : Host ω)

/-! ## Resources -/

/-- The file of a resource in the packages that a directory keeps. -/
def resourceIn (path dir : String) : HostM ω (Option String) := do
  if ← host.exists? (Path.join dir ("node_modules/" ++ path)) then pure (some (Path.join dir ("node_modules/" ++ path)))
  else pure none

theorem firstOnDisk_map_eq (path : String) (dirs : List String) :
    host.firstOnDisk (dirs.map fun dir => Path.join dir ("node_modules/" ++ path)) =
      dirs.findSomeM? (host.resourceIn path) := by
  induction dirs with
  | nil => rfl
  | cons dir rest ih =>
    rw [List.map_cons, firstOnDisk, List.findSomeM?_cons, resourceIn, bind_assoc, ih]
    congr 1
    funext present
    cases present <;> rfl

/-- The file of a resource, the walk through the packages unrolled a number of times. -/
def seekResource (rounds : Nat) (path containing : String) : OptionT (HostM ω) (Option String) :=
  if Text.startsWith path "." then OptionT.lift (host.firstOnDisk [Path.join (Path.dirname containing) path])
  else Path.unroll (Path.searchTurn (host.resourceIn path)) rounds (Path.dirname containing)

theorem seekResource_eq {rounds : Nat} {containing : String} (enough : containing.length < rounds) (path : String) :
    host.seekResource rounds path containing = OptionT.lift (host.firstOnDisk (resourceCandidates path containing)) := by
  have visits := Nat.le_trans (Path.length_ancestors_dirname_le containing) enough
  unfold seekResource resourceCandidates
  dsimp only
  split
  · rfl
  · rw [(Path.searchTurn_ascends _).unroll_eq visits, firstOnDisk_map_eq]

/-! ## Bundles -/

/-- A directory lies in a package with a bundle index: its own descriptor decides, and where it has none, its parent. -/
def bundledBy (ask : String → OptionT (HostM ω) Bool) (dir : String) : OptionT (HostM ω) Bool :=
  if Path.basename dir = "node_modules" then pure false
  else do
    let packageFile := Path.join dir "package.json"
    if ← OptionT.lift (host.exists? packageFile) then OptionT.lift (host.readBundle dir packageFile)
    else if Path.dirname dir = dir then pure false
    else ask (Path.dirname dir)

/-- One turn of the question for a bundle: what is known of a directory is the answer, any other answer is kept. -/
def bundledTurn (ask : String → OptionT (HostM ω) Bool) (dir : String) : OptionT (HostM ω) Bool := do
  match (← OptionT.lift HostM.caches).bundled.get? dir with
  | some found => pure found
  | none => do
    let found ← host.bundledBy ask dir
    OptionT.lift (HostM.modifyCaches fun caches => { caches with bundled := caches.bundled.put dir found })
    pure found

/-- With the answer for the parents at hand, a turn is the question asked of the directory before them. -/
theorem bundledTurn_eq {ask : String → OptionT (HostM ω) Bool} {dir : String} {parents : List String}
    (asked : (if Path.dirname dir = dir then pure false else ask (Path.dirname dir)) =
      OptionT.lift (host.isBundled parents)) :
    host.bundledTurn ask dir = OptionT.lift (host.isBundled (dir :: parents)) := by
  rw [bundledTurn, isBundled, HostM.memo, OptionT.lift_bind]
  congr 1
  funext caches
  cases caches.bundled.get? dir with
  | some found => rfl
  | none =>
    dsimp only
    rw [OptionT.lift_bind, bundledBy, asked]
    congr 1
    split
    · rfl
    · dsimp only
      rw [OptionT.lift_bind]
      congr 1
      funext present
      cases present <;> rfl

theorem bundledTurn_ascends : Path.Ascends host.bundledTurn host.isBundled where
  top _ dir still := by
    apply host.bundledTurn_eq
    rw [if_pos still]
    rfl
  up _ dir rest moves asked := by
    apply host.bundledTurn_eq
    rw [if_neg moves, asked]

end Host

/-- Going up ends at one of the two paths that are their own directories, after at most one step more than the path has
characters. So the searches for a module and for a resource, and the question for a bundle, answer for every file and in
every world, once they may go on as often as the file has characters and once more. -/
theorem upward_walks_end :
    (∀ path, (Path.dirname path = path ↔ path = "/" ∨ path = ".") ∧ ∃ steps ≤ path.length + 1,
      (Path.dirname^[steps] path = "/" ∨ Path.dirname^[steps] path = ".") ∧
        Path.ancestors path = (List.range (steps + 1)).map (Path.dirname^[·] path)) ∧
    (∀ (σ : Type) (files : FileLookup σ) name containing more,
      Resolution.seekFile files (containing.length + 1 + more) name containing =
        OptionT.lift (Resolution.resolveFile files name containing)) ∧
    ∀ (ω : Type) (host : Host ω) containing more,
      (∀ path, host.seekResource (containing.length + 1 + more) path containing =
        OptionT.lift (host.firstOnDisk (Host.resourceCandidates path containing))) ∧
      Path.unroll host.bundledTurn (containing.length + 1 + more) (Path.dirname containing) =
        OptionT.lift (host.isBundled (Path.ancestors (Path.dirname containing))) := by
  refine ⟨?_, ?_, ?_⟩
  · intro path
    obtain ⟨steps, few, ends, listed⟩ := Path.exists_steps path
    exact ⟨Path.dirname_eq_self_iff, steps, Nat.le_trans few (Path.height_le path), ends, listed⟩
  · intro σ files name containing more
    exact Resolution.seekFile_eq files (by omega) name
  · intro ω host containing more
    refine ⟨host.seekResource_eq (by omega), host.bundledTurn_ascends.unroll_eq ?_⟩
    have visits := Path.length_ancestors_dirname_le containing
    omega

end CompanionBuild
