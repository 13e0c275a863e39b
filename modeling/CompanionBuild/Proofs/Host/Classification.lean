import CompanionBuild.Proofs.Host.Survey
import CompanionBuild.Proofs.Path.CompanionName

/-! # When sources are told alike at all times

On files that do not change, whether a file is a source does not depend on what was asked before, with one exception. A
declaration file inside a bundle that is not the index of the bundle is no source, but once a package elsewhere that
names it as its own entry has been looked at, it is one.
-/

namespace CompanionBuild

/-- Questions that files are classified for. -/
inductive SourceQuery where
  | isSource (file : String)
  | generatable (file : String)
  | unit (file : String)
  | resolve (name containing : String)

namespace SourceQuery

variable {ω : Type} (host : Host ω) (generator : Generator ω)

/-- The host is asked; the answer is of no account. -/
def run : SourceQuery → HostM ω Unit
  | isSource file => do let _ ← host.isSource file
  | generatable file => do let _ ← host.generatable file
  | unit file => do let _ ← (host.sourceUnit generator file).run
  | resolve name containing => do let _ ← host.resolveModule name containing

/-- The situation after some questions. -/
def situationAfter (queries : List SourceQuery) (situation : Situation ω) : Situation ω :=
  queries.foldl (fun situation query => ((query.run host generator).run situation).2) situation

variable {host} {R : Situation ω → Situation ω → Prop} [IsPreorder (Situation ω) R]

theorem within (admits : host.AdmitsUnits R) (query : SourceQuery) : Within R (query.run host generator) := by
  cases query with
  | isSource file => exact .bind (admits.isSource file) fun _ => .pure _
  | generatable file => exact .bind (admits.generatable file) fun _ => .pure _
  | unit file => exact .bind (admits.sourceUnit generator file) fun _ => .pure _
  | resolve name containing => exact .bind (admits.resolveModule name containing) fun _ => .pure _

theorem situationAfter_within (admits : host.AdmitsUnits R) (queries : List SourceQuery) (situation : Situation ω) :
    R situation (situationAfter host generator queries situation) := by
  induction queries generalizing situation with
  | nil => exact refl_of R situation
  | cons query rest ih => exact trans_of R (within generator admits query situation) (ih _)

end SourceQuery

namespace Host

variable {ω : Type} {host : Host ω} {file : String} {disk : Disk} {situation : Situation ω}

/-- Whether a file is a source depends on the package it is in. -/
structure Examines (host : Host ω) (situation : Situation ω) (file : String) : Prop where
  analyzed : (host.options.skipTemplateCodegen && !host.options.fullTemplateTypeCheck) = false
  written : (situation.caches.summaries.has file || Path.isCompanion file) = false
  declaration : Path.isDeclaration file = true
  libraries : host.options.generateCodeForLibraries ≠ some false

theorem Examines.lasts {other : Situation ω} (examines : host.Examines situation file) (lasts : Lasts situation other) :
    host.Examines other file :=
  { examines with written := by rw [lasts.summaries, examines.written] }

/-- Files that are told by their names and the options alone. -/
theorem isSource_eq_of_not_examines {other : Situation ω} (unexamined : ¬host.Examines situation file)
    (degraded : other.caches.isDegraded = situation.caches.isDegraded)
    (summaries : other.caches.summaries.has file = situation.caches.summaries.has file) :
    ((host.isSource file).run other).1 = ((host.isSource file).run situation).1 := by
  rw [isSource, HostM.caches_bind, HostM.caches_bind, degraded, summaries]
  split
  · rfl
  · split
    · rfl
    · next analyzed =>
      split
      · rfl
      · next written =>
        split
        · next declaration =>
          have libraries : host.options.generateCodeForLibraries = some false := by
            by_contra libraries
            exact unexamined ⟨eq_false_of_ne_true analyzed, eq_false_of_ne_true written, declaration, libraries⟩
          rw [isSourceDeclaration, if_pos libraries]
          rfl
        · rfl

theorem isSource_run_of_examines (intact : situation.caches.isDegraded = false)
    (examines : host.Examines situation file) :
    (host.isSource file).run situation = (host.isSourceDeclaration file).run situation := by
  rw [isSource, HostM.caches_bind]
  simp only [intact, examines.analyzed, examines.written, examines.declaration, if_false, if_true, Bool.false_eq_true]

/-- A file that is examined is a source if it is in no bundle or is kept as the entry of a package. -/
theorem isSource_iff_of_examines (sees : host.Sees disk) (surveyed : situation.caches.Surveyed disk)
    (intact : situation.caches.isDegraded = false) (examines : host.Examines situation file) :
    ((host.isSource file).run situation).1 = true ↔ disk.index? (Path.dirname file) = none ∨
      ((host.isBundled (Path.ancestors (Path.dirname file))).run situation).2.caches.Lists (Path.normalize file) := by
  have answer := (isBundled_finds sees (.ancestors_dirname file) surveyed).answer
  rw [← Disk.index?_isSome] at answer
  rcases ran : (host.isBundled (Path.ancestors (Path.dirname file))).run situation with ⟨found, next⟩
  rw [ran] at answer
  rw [isSource_run_of_examines intact examines, isSourceDeclaration, if_neg examines.libraries, run_bind ran]
  dsimp only at answer
  subst answer
  cases disk.index? (Path.dirname file) with
  | none => exact ⟨fun _ => .inl rfl, fun _ => rfl⟩
  | some index =>
    rw [Option.isSome_some, if_pos rfl, HostM.caches_bind]
    change (next.caches.bundleIndexes.contains (Path.normalize file) ||
      next.caches.bundleRedirects.contains (Path.normalize file)) = true ↔ _
    simp [Caches.Lists]

/-- The entry of the nearest package is kept once a file has been examined. -/
theorem isSource_lists (sees : host.Sees disk) (surveyed : situation.caches.Surveyed disk)
    (intact : situation.caches.isDegraded = false) (examines : host.Examines situation file) {name : String}
    {bundle : BundleMetadata} (nearest : disk.nearest? (Path.ancestors (Path.dirname file)) = some (name, bundle))
    (entry : bundle.isEntry = true) : ((host.isSource file).run situation).2.caches.Lists name := by
  have listed := (isBundled_finds sees (.ancestors_dirname file) surveyed).complete name bundle nearest entry
  rcases ran : (host.isBundled (Path.ancestors (Path.dirname file))).run situation with ⟨found, next⟩
  rw [ran] at listed
  rw [isSource_run_of_examines intact examines, isSourceDeclaration, if_neg examines.libraries, run_bind ran]
  cases found with
  | true => exact listed
  | false => exact listed

end Host

/-! ## A name of which nothing is known -/

theorem Table.exists_length_bound {α : Type} (table : Table α) :
    ∃ bound, ∀ name, table.has name = true → name.length ≤ bound := by
  induction table with
  | nil => exact ⟨0, nofun⟩
  | cons entry rest ih =>
    obtain ⟨key, value⟩ := entry
    obtain ⟨bound, short⟩ := ih
    refine ⟨max bound key.length, fun name found => ?_⟩
    rw [has, get?] at found
    split at found
    · next same => exact same ▸ Nat.le_max_right _ _
    · exact Nat.le_trans (short name found) (Nat.le_max_left _ _)

theorem Path.not_isCompanion_append (before : String) : Path.isCompanion (before ++ "x.d.ts") = false := by
  rw [Bool.eq_false_iff]
  intro companion
  obtain ⟨name, parsed⟩ := Option.isSome_iff_exists.mp companion
  have ends : name.render.toList.reverse = (before ++ "x.d.ts").toList.reverse := by
    rw [(CompanionName.reads_of_parse? parsed).whole]
  rw [CompanionName.render_reverse] at ends
  cases kind : name.kind <;> cases extension : name.extension <;>
    simp [kind, extension, CompanionKind.text, CompanionExtension.text] at ends

/-- In every directory there is room for one more declaration file. -/
theorem Path.exists_fresh_declaration {α : Type} (table : Table α) {dir : String} (nonempty : dir ≠ "") :
    ∃ file, Path.dirname file = dir ∧ Path.isDeclaration file = true ∧ Path.isCompanion file = false ∧
      table.has file = false := by
  obtain ⟨bound, short⟩ := table.exists_length_bound
  let last : List Char := List.replicate bound 'x' ++ ['x', '.', 'd', '.', 't', 's']
  have whole : (dir ++ "/" ++ String.ofList (List.replicate bound 'x') ++ "x.d.ts").toList = dir.toList ++ '/' :: last := by
    simp [last]
  refine ⟨dir ++ "/" ++ String.ofList (List.replicate bound 'x') ++ "x.d.ts", ?_, ?_, Path.not_isCompanion_append _, ?_⟩
  · have proper : last ≠ [] ∧ '/' ∉ last := by simp [last]
    have inner : dir.toList ≠ [] := fun empty => nonempty (String.toList_eq_nil_iff.mp empty)
    rw [Path.dirname, whole, Path.Chars.dirname_append proper.1 proper.2, if_neg inner, String.ofList_toList]
  · rw [Path.isDeclaration, Text.endsWith, whole, String.toList_ofList, List.isSuffixOf_iff_suffix]
    exact ⟨dir.toList ++ '/' :: List.replicate bound 'x' ++ ['x'], by simp [last]⟩
  · rw [Bool.eq_false_iff]
    intro known
    have long := short _ known
    rw [← String.length_toList, whole] at long
    simp only [last, List.length_append, List.length_cons, List.length_replicate] at long
    omega

/-! ## The verdict on a file -/

/-- A file inside a bundle that is not its index, though some package has it as its entry. -/
structure Disk.Contested (disk : Disk) (file : String) : Prop where
  bundled : disk.index? (Path.dirname file) ≠ none
  other : disk.index? (Path.dirname file) ≠ some (Path.normalize file)
  declared : disk.Declares (Path.normalize file)

theorem BundleMetadata.isEntry_of_isIndex {bundle : BundleMetadata} (index : bundle.isIndex = true) :
    bundle.isEntry = true := by
  unfold isIndex at index
  unfold isEntry
  cases bundle.isRedirect <;> simp_all

namespace Host

variable {ω : Type} {host : Host ω} {disk : Disk} {situation : Situation ω} {file : String}
  (sees : host.Sees disk) (surveyed : situation.caches.Surveyed disk) (intact : situation.caches.isDegraded = false)
  (examines : host.Examines situation file)

include sees surveyed intact examines

/-- Where only the index of a bundle can be its entry, the disk decides. -/
theorem isSource_iff_of_uncontested (uncontested : ¬disk.Contested file) :
    ((host.isSource file).run situation).1 = true ↔ disk.index? (Path.dirname file) = none ∨
      disk.index? (Path.dirname file) = some (Path.normalize file) := by
  rw [isSource_iff_of_examines sees surveyed intact examines]
  have finds := isBundled_finds sees (.ancestors_dirname file) surveyed
  constructor
  · rintro (free | listed)
    · exact .inl free
    · by_contra others
      obtain ⟨bundled, other⟩ := not_or.mp others
      exact uncontested ⟨bundled, other, finds.surveyed.declared _ listed⟩
  · rintro (free | own)
    · exact .inl free
    · obtain ⟨bundle, nearest, index⟩ := Disk.index?_eq_some_iff.mp own
      exact .inr (finds.complete _ bundle nearest (BundleMetadata.isEntry_of_isIndex index))

/-- A contested file is no source as long as no package has been looked at. -/
theorem isSource_of_contested_of_unknown (contested : disk.Contested file) (unknown : ∀ name, ¬situation.caches.Lists name) :
    ((host.isSource file).run situation).1 = false := by
  rw [Bool.eq_false_iff, Ne, isSource_iff_of_examines sees surveyed intact examines]
  rintro (free | listed)
  · exact contested.bundled free
  · obtain known | ⟨bundle, nearest, -⟩ := (isBundled_finds sees (.ancestors_dirname file) surveyed).origin _ listed
    · exact unknown _ known
    · obtain ⟨index, own⟩ := Option.ne_none_iff_exists'.mp contested.bundled
      obtain ⟨other, found, -⟩ := Disk.index?_eq_some_iff.mp own
      rw [nearest] at found
      cases found
      exact contested.other own

/-- A file that is kept as the entry of a package is a source. -/
theorem isSource_of_lists (listed : situation.caches.Lists (Path.normalize file)) :
    ((host.isSource file).run situation).1 = true := by
  rw [isSource_iff_of_examines sees surveyed intact examines]
  have lasts := host.lasts.isBundled file situation
  exact .inr (listed.imp (lasts.indexes _) (lasts.redirects _))

omit sees surveyed intact examines

/-- Whatever else is asked first, the host goes on to say of a file what it is. -/
def Settled (host : Host ω) (generator : Generator ω) (situation : Situation ω) (file : String) : Prop :=
  ∀ first second : List SourceQuery,
    ((host.isSource file).run (SourceQuery.situationAfter host generator first situation)).1 =
      ((host.isSource file).run (SourceQuery.situationAfter host generator second situation)).1

/-- In a build on files that do not change, whether a file is a source is the same whatever was asked before, unless the
file is an examined one inside a bundle that another package has as its entry. -/
theorem settled_iff_uncontested {ω : Type} (host : Host ω) (disk : Disk) (sees : host.Sees disk)
    (generator : Generator ω) (summaries : List LibrarySummary) (world : ω) (file : String) :
    host.Settled generator ⟨world, .ofSummaries summaries⟩ file ↔
      ¬(host.Examines ⟨world, .ofSummaries summaries⟩ file ∧ disk.Contested file) := by
  generalize begins : (⟨world, .ofSummaries summaries⟩ : Situation ω) = start
  have unknown (name : String) : ¬start.caches.Lists name := begins ▸ Caches.not_lists_ofSummaries summaries name
  have surveyed (queries : List SourceQuery) := SourceQuery.situationAfter_within generator (surveys sees) queries start
    (begins ▸ Caches.surveyed_ofSummaries disk summaries)
  have lasts (queries : List SourceQuery) := SourceQuery.situationAfter_within generator host.lasts queries start
  have intact (queries : List SourceQuery) :
      (SourceQuery.situationAfter host generator queries start).caches.isDegraded = false := by
    rw [(lasts queries).degraded, ← begins]
    rfl
  constructor
  · rintro settled ⟨examines, contested⟩
    -- A file beside the other package makes that package known.
    obtain ⟨dir, bundle, nonempty, package, typings, entry⟩ := contested.declared
    obtain ⟨other, inside, declaration, notCompanion, fresh⟩ :=
      Path.exists_fresh_declaration start.caches.summaries nonempty
    have visits : host.Examines start other :=
      { examines with written := by rw [fresh, notCompanion]; rfl, declaration }
    have nearest : disk.nearest? (Path.ancestors (Path.dirname other)) = some (Path.normalize file, bundle) := by
      rw [inside, disk.nearest?_of_hasPackage package, typings]
    have before := isSource_of_contested_of_unknown sees (surveyed []) (intact []) examines contested unknown
    have after := isSource_of_lists sees (surveyed [.isSource other]) (intact _) (examines.lasts (lasts _))
      (isSource_lists sees (surveyed []) (intact []) visits nearest entry)
    have same := settled [] [.isSource other]
    rw [before, after] at same
    cases same
  · intro quiet first second
    by_cases examines : host.Examines start file
    · have uncontested : ¬disk.Contested file := fun contested => quiet ⟨examines, contested⟩
      rw [Bool.eq_iff_iff, isSource_iff_of_uncontested sees (surveyed first) (intact first) (examines.lasts (lasts first)) uncontested,
        isSource_iff_of_uncontested sees (surveyed second) (intact second) (examines.lasts (lasts second)) uncontested]
    · have stands (queries : List SourceQuery) := isSource_eq_of_not_examines examines (lasts queries).degraded
        ((lasts queries).summaries file)
      rw [stands first, stands second]

/-- Two packages, the second of which has a file of the first one as its entry. -/
def nestedPackages : Disk :=
  .ofFiles [("/package.json", "\x7b\"typings\": \"index.d.ts\"\x7d"),
    ("/index.metadata.json", "\x7b\"importAs\": \"a\"\x7d"), ("/inner.metadata.json", "\x7b\"importAs\": \"b\"\x7d"),
    ("/b/package.json", "\x7b\"typings\": \"../inner.d.ts\"\x7d")]

def idleGenerator : Generator Unit where
  generate name _ := .done (.ok { base := name, name, statements := none })
  namesFor _ := pure []

/-- The index of the outer package is settled, the file that the other package names is not. -/
theorem nested_packages_settled :
    nestedPackages.host.Settled idleGenerator ⟨(), .ofSummaries []⟩ "/index.d.ts" ∧
      ¬nestedPackages.host.Settled idleGenerator ⟨(), .ofSummaries []⟩ "/inner.d.ts" := by
  have sees := nestedPackages.host_sees
  have index : nestedPackages.index? "/" = some "/index.d.ts" := by
    refine Disk.index?_eq_some_iff.mpr ⟨{ importAs := some "a" }, ?_, rfl⟩
    rw [nestedPackages.nearest?_of_hasPackage (by decide +kernel)]
    decide +kernel
  have root : Path.dirname "/inner.d.ts" = "/" := by decide
  constructor
  · refine (settled_iff_uncontested _ _ sees idleGenerator [] () _).mpr fun examined => ?_
    exact examined.2.other index
  · intro settled
    refine (settled_iff_uncontested _ _ sees idleGenerator [] () _).mp settled ⟨⟨rfl, rfl, rfl, nofun⟩, ?_, ?_, ?_⟩
    · rw [root, index]
      exact nofun
    · rw [root, index]
      decide
    · exact ⟨"/b", { importAs := some "b" }, by decide, by decide +kernel, by decide +kernel, rfl⟩

end Host

end CompanionBuild
