import CompanionBuild.Proofs.Host.History
import CompanionBuild.Proofs.Host.Lasting

/-! # What a build learns about packages

The nearest package of a directory decides whether the declaration files in it are bundled. What a package declares as
its entry is kept in sets that all packages share. On files that do not change, everything that is kept about
directories agrees with the files, and every entry that is kept is declared by the package of some directory.
-/

namespace CompanionBuild

/-- The files of a file system that does not change. -/
structure Disk where
  present : String → Bool
  text? : String → Option String
  hasDirectory : String → Bool

/-- In every world the files are those of one disk. -/
structure Host.Sees {ω : Type} (host : Host ω) (disk : Disk) : Prop where
  fileExists : ∀ file world, ((host.files.fileExists file).run world).1 = disk.present file
  read : ∀ file world, ((host.files.read file).run world).1 = disk.text? file
  directoryExists : ∀ dir world, ((host.files.directoryExists dir).run world).1 = disk.hasDirectory dir

/-- The disk that holds some files, given with their texts. -/
def Disk.ofFiles (files : List (String × String)) : Disk where
  present file := (files.lookup file).isSome
  text? file := files.lookup file
  hasDirectory dir := files.any fun file => Text.startsWith file.1 (dir ++ "/")

/-- A host that sees a disk and is told nothing else. -/
def Disk.host (disk : Disk) : Host Unit where
  options := {}
  roots := []
  files :=
    { fileExists := fun file => pure (disk.present file)
      directoryExists := fun dir => pure (disk.hasDirectory dir)
      read := fun file => pure (disk.text? file)
      write := fun _ _ _ => pure (.ok ())
      currentDirectory := "/" }
  parse name text := pure (.plain name text)
  collect _ := pure none

theorem Disk.host_sees (disk : Disk) : disk.host.Sees disk :=
  ⟨fun _ _ => rfl, fun _ _ => rfl, fun _ _ => rfl⟩

/-! ## Packages on a disk -/

/-- The typings of a package are the index of its bundle. -/
def BundleMetadata.isIndex (bundle : BundleMetadata) : Bool :=
  !bundle.isRedirect && bundle.importAs.isSome

/-- The typings of a package are the index of its bundle or lead there. -/
def BundleMetadata.isEntry (bundle : BundleMetadata) : Bool :=
  bundle.isRedirect || bundle.importAs.isSome

namespace Disk

variable (disk : Disk)

/-- The typings of the package in a directory and what their metadata says of them. -/
def typings? (dir : String) : Option (String × BundleMetadata) :=
  match (disk.text? (Path.join dir "package.json")).bind (Host.bundleTypings? dir) with
  | some (some (typings, metadataFile)) =>
    if disk.present metadataFile then ((disk.text? metadataFile).bind BundleMetadata.parse?).map (typings, ·) else none
  | _ => none

/-- There is a package in a directory. -/
def hasPackage (dir : String) : Bool :=
  Path.basename dir ≠ "node_modules" && disk.present (Path.join dir "package.json")

/-- What the nearest package declares, given a directory and those above it. -/
def nearest? : List String → Option (String × BundleMetadata)
  | [] => none
  | dir :: parents =>
    if Path.basename dir = "node_modules" then none
    else if disk.present (Path.join dir "package.json") then disk.typings? dir
    else nearest? parents

/-- The index of the bundle that the files of a directory belong to. -/
def index? (dir : String) : Option String :=
  ((disk.nearest? (Path.ancestors dir)).filter (·.2.isIndex)).map (·.1)

/-- Some directory has a package with this file as its entry. -/
def Declares (name : String) : Prop :=
  ∃ dir bundle, dir ≠ "" ∧ disk.hasPackage dir = true ∧ disk.typings? dir = some (name, bundle) ∧ bundle.isEntry = true

theorem nearest?_of_hasPackage {dir : String} (package : disk.hasPackage dir = true) :
    disk.nearest? (Path.ancestors dir) = disk.typings? dir := by
  obtain ⟨above, whole⟩ := Path.ancestors_eq_cons dir
  obtain ⟨inner, present⟩ : Path.basename dir ≠ "node_modules" ∧ disk.present (Path.join dir "package.json") = true := by
    simpa [hasPackage] using package
  rw [whole, nearest?, if_neg inner, if_pos present]

theorem index?_isSome (dir : String) :
    (disk.index? dir).isSome = (disk.nearest? (Path.ancestors dir)).any (·.2.isIndex) := by
  rw [index?]
  cases disk.nearest? (Path.ancestors dir) with
  | none => rfl
  | some entry => cases index : entry.2.isIndex <;> simp [index]

variable {disk} in
theorem index?_eq_some_iff {dir name : String} : disk.index? dir = some name ↔
    ∃ bundle, disk.nearest? (Path.ancestors dir) = some (name, bundle) ∧ bundle.isIndex = true := by
  rw [index?]
  cases disk.nearest? (Path.ancestors dir) with
  | none => simp
  | some entry =>
    obtain ⟨typings, bundle⟩ := entry
    cases index : bundle.isIndex <;> simp [index, Option.filter]

end Disk

/-- A directory and the directories above it. -/
inductive Path.Upward : List String → Prop
  | top : Upward []
  | step {dir : String} {parents : List String} (above : Path.ancestors dir = dir :: parents) (nonempty : dir ≠ "")
      (further : Upward parents) : Upward (dir :: parents)

theorem Path.Chars.dirname_ne_nil (path : List Char) : Path.Chars.dirname path ≠ [] := by
  unfold dirname
  split
  · split <;> exact List.cons_ne_nil _ _
  · split
    · exact List.cons_ne_nil _ _
    · next nonempty => exact mt List.reverse_eq_nil_iff.mp nonempty

theorem Path.Upward.ancestors_chars {path : List Char} (nonempty : path ≠ []) :
    Path.Upward ((Path.Chars.ancestors path).map String.ofList) := by
  have named : String.ofList path ≠ "" := by
    intro empty
    exact nonempty (by simpa using congrArg String.toList empty)
  have whole : Path.ancestors (String.ofList path) = (Path.Chars.ancestors path).map String.ofList := by
    rw [Path.ancestors, String.toList_ofList]
  induction path using Path.Chars.ancestors.induct with
  | case1 path still =>
    rw [Path.Chars.ancestors, if_pos still] at whole ⊢
    exact .step whole named .top
  | case2 path moves ih =>
    rw [Path.Chars.ancestors, if_neg moves] at whole ⊢
    refine .step whole named (ih (Path.Chars.dirname_ne_nil path) ?_ ?_)
    · intro empty
      exact Path.Chars.dirname_ne_nil path (by simpa using congrArg String.toList empty)
    · rw [Path.ancestors, String.toList_ofList]

/-- The directories above a file. -/
theorem Path.Upward.ancestors_dirname (file : String) : Path.Upward (Path.ancestors (Path.dirname file)) := by
  rw [Path.ancestors, Path.dirname, String.toList_ofList]
  exact .ancestors_chars (Path.Chars.dirname_ne_nil _)

/-! ## What is kept -/

/-- A name is kept as the entry of a package. -/
def Caches.Lists (caches : Caches) (name : String) : Prop :=
  name ∈ caches.bundleIndexes ∨ name ∈ caches.bundleRedirects

/-- What is kept about files and packages agrees with a disk. -/
structure Caches.Surveyed (disk : Disk) (caches : Caches) : Prop where
  recalls : caches.Recalls disk.present
  bundled : ∀ dir found, caches.bundled.get? dir = some found → found = (disk.index? dir).isSome
  /-- The entry of the nearest package of a directory is kept as soon as the directory is known. -/
  nearest : ∀ dir, caches.bundled.has dir = true → ∀ name bundle,
    disk.nearest? (Path.ancestors dir) = some (name, bundle) → bundle.isEntry = true → caches.Lists name
  declared : ∀ name, caches.Lists name → disk.Declares name

theorem Caches.not_lists_ofSummaries (summaries : List LibrarySummary) (name : String) :
    ¬(Caches.ofSummaries summaries).Lists name := by
  rintro (member | member) <;> cases member

/-- At the start of a build nothing is kept yet. -/
theorem Caches.surveyed_ofSummaries (disk : Disk) (summaries : List LibrarySummary) :
    (Caches.ofSummaries summaries).Surveyed disk :=
  ⟨nofun, nofun, nofun, fun name listed => (not_lists_ofSummaries summaries name listed).elim⟩

/-- The parts of the caches that are about files and packages. -/
def Caches.survey (caches : Caches) : Caches :=
  { existing := caches.existing, bundled := caches.bundled
    bundleIndexes := caches.bundleIndexes, bundleRedirects := caches.bundleRedirects }

theorem Caches.Surveyed.of_same {disk : Disk} {before after : Caches} (surveyed : before.Surveyed disk)
    (same : after.survey = before.survey) : after.Surveyed disk := by
  have whole : after.survey.Surveyed disk :=
    same ▸ ⟨surveyed.recalls, surveyed.bundled, surveyed.nearest, surveyed.declared⟩
  exact ⟨whole.recalls, whole.bundled, whole.nearest, whole.declared⟩

/-- The entry that a package declares joins what is kept about packages. -/
structure Caches.Learns (before : Caches) (declared : Option (String × BundleMetadata)) (after : Caches) : Prop where
  bundled : after.bundled = before.bundled
  lists : ∀ name, after.Lists name ↔
    before.Lists name ∨ ∃ bundle, declared = some (name, bundle) ∧ bundle.isEntry = true

/-- A look at files tells nothing about packages. -/
theorem Caches.lists_iff_of_peek {ω : Type} {before after : Situation ω}
    (same : after.apartFromDisk = before.apartFromDisk) (name : String) :
    after.caches.Lists name ↔ before.caches.Lists name := by
  change name ∈ after.apartFromDisk.bundleIndexes ∨ name ∈ after.apartFromDisk.bundleRedirects ↔ _
  rw [same]
  rfl

theorem Caches.Learns.nothing {ω : Type} {before after : Situation ω} (same : after.apartFromDisk = before.apartFromDisk) :
    before.caches.Learns none after.caches := by
  have bundled := congrArg Caches.bundled same
  exact ⟨bundled, fun name => by simp [lists_iff_of_peek same name]⟩

theorem Caches.Learns.after {ω : Type} {before middle : Situation ω} {declared : Option (String × BundleMetadata)}
    {last : Caches} (learns : middle.caches.Learns declared last) (same : middle.apartFromDisk = before.apartFromDisk) :
    before.caches.Learns declared last := by
  have bundled := congrArg Caches.bundled same
  exact ⟨learns.bundled.trans bundled, fun name => by rw [learns.lists, lists_iff_of_peek same]⟩

namespace Caches.Surveyed

variable {disk : Disk}

theorem learns {before after : Caches} (surveyed : before.Surveyed disk) (recalls : after.Recalls disk.present)
    {declared : Option (String × BundleMetadata)} (learns : before.Learns declared after)
    (origin : ∀ name bundle, declared = some (name, bundle) → bundle.isEntry = true → disk.Declares name) :
    after.Surveyed disk where
  recalls := recalls
  bundled := learns.bundled ▸ surveyed.bundled
  nearest dir known name bundle nearest entry := by
    rw [learns.bundled] at known
    exact (learns.lists name).mpr (.inl (surveyed.nearest dir known name bundle nearest entry))
  declared name listed := by
    obtain listed | ⟨bundle, found, entry⟩ := (learns.lists name).mp listed
    · exact surveyed.declared name listed
    · exact origin name bundle found entry

/-- A look at files that changes nothing else. -/
theorem peek {ω : Type} {before after : Situation ω} (surveyed : before.caches.Surveyed disk)
    (recalls : after.caches.Recalls disk.present) (same : after.apartFromDisk = before.apartFromDisk) :
    after.caches.Surveyed disk :=
  surveyed.learns recalls (.nothing same) nofun

/-- The verdict on a directory is kept once the entry of its package is. -/
theorem put {caches : Caches} (surveyed : caches.Surveyed disk) {dir : String} {found : Bool}
    (verdict : found = (disk.index? dir).isSome)
    (complete : ∀ name bundle, disk.nearest? (Path.ancestors dir) = some (name, bundle) → bundle.isEntry = true →
      caches.Lists name) :
    ({ caches with bundled := caches.bundled.put dir found } : Caches).Surveyed disk where
  recalls := surveyed.recalls
  bundled other answer lookup := by
    rw [Table.get?_put] at lookup
    split at lookup
    case isTrue same =>
      cases lookup
      rw [← same, verdict]
    case isFalse => exact surveyed.bundled other answer lookup
  nearest other known := by
    rw [Table.has_put] at known
    by_cases same : dir = other
    · exact same ▸ complete
    · rw [decide_eq_false same, Bool.false_or] at known
      exact surveyed.nearest other known
  declared := surveyed.declared

end Caches.Surveyed

/-- What a search for the nearest package finds, given a directory and those above it: the answer is what the disk says,
and of packages the entry of that one is kept and nothing else that was not kept before. -/
structure FindsPackage {ω : Type} (disk : Disk) (dirs : List String) (before : Situation ω)
    (result : Bool × Situation ω) : Prop where
  answer : result.1 = (disk.nearest? dirs).any (·.2.isIndex)
  surveyed : result.2.caches.Surveyed disk
  complete : ∀ name bundle, disk.nearest? dirs = some (name, bundle) → bundle.isEntry = true →
    result.2.caches.Lists name
  origin : ∀ name, result.2.caches.Lists name → before.caches.Lists name ∨
    ∃ bundle, disk.nearest? dirs = some (name, bundle) ∧ bundle.isEntry = true

namespace Host

variable {ω : Type} {host : Host ω} {disk : Disk} {situation : Situation ω}

/-- The typings of a package are filed, and an index is told from the rest. -/
theorem recordBundle_run (typings : String) (bundle : BundleMetadata) (situation : Situation ω) :
    ∃ next, (recordBundle typings bundle : HostM ω Bool).run situation = (bundle.isIndex, next) ∧
      next.caches.existing = situation.caches.existing ∧
      situation.caches.Learns (some (typings, bundle)) next.caches := by
  have single (name : String) : (∃ other, some (typings, bundle) = some (name, other) ∧ other.isEntry = true) ↔
      typings = name ∧ (bundle.isRedirect || bundle.importAs.isSome) = true := by
    simp [BundleMetadata.isEntry, and_assoc]
  unfold recordBundle BundleMetadata.isIndex
  cases redirect : bundle.isRedirect with
  | true =>
    refine ⟨_, rfl, rfl, rfl, fun name => ?_⟩
    rw [single]
    grind [Caches.Lists, Names.mem_insert]
  | false =>
    cases named : bundle.importAs.isSome with
    | true =>
      refine ⟨_, rfl, rfl, rfl, fun name => ?_⟩
      rw [single]
      grind [Caches.Lists, Names.mem_insert]
    | false =>
      refine ⟨_, rfl, rfl, rfl, fun name => ?_⟩
      rw [single]
      grind

variable (sees : host.Sees disk)

include sees

theorem readDisk_run (file : String) (situation : Situation ω) :
    ∃ world, (host.readDisk file).run situation = (disk.text? file, { situation with world }) :=
  ⟨_, Prod.ext (sees.read file situation.world) rfl⟩

/-- A look at a file changes nothing but what is kept about files. -/
theorem exists?_seen (recalls : situation.caches.Recalls disk.present) (file : String) :
    ∃ next, (host.exists? file).run situation = (disk.present file, next) ∧ next.caches.Recalls disk.present ∧
      next.apartFromDisk = situation.apartFromDisk :=
  ⟨_, Prod.ext (exists?_of_recalls sees.fileExists recalls file) rfl, exists?_recalls sees.fileExists recalls file,
    host.peeks.exists? file situation⟩

/-- What a package declares is read and kept. -/
theorem readBundle_run (recalls : situation.caches.Recalls disk.present) (dir : String) :
    ∃ next, (host.readBundle dir (Path.join dir "package.json")).run situation =
        ((disk.typings? dir).any (·.2.isIndex), next) ∧
      next.caches.Recalls disk.present ∧ situation.caches.Learns (disk.typings? dir) next.caches := by
  obtain ⟨world, read⟩ := readDisk_run sees (Path.join dir "package.json") situation
  rw [Host.readBundle, run_bind read, Disk.typings?]
  rcases (disk.text? (Path.join dir "package.json")).bind (bundleTypings? dir) with _ | _ | ⟨typings, metadataFile⟩
  · exact ⟨_, rfl, recalls, .nothing rfl⟩
  · exact ⟨_, rfl, recalls, .nothing rfl⟩
  · have here : ({ situation with world } : Situation ω).caches.Recalls disk.present := recalls
    obtain ⟨middle, asked, recalls, same⟩ := exists?_seen sees here metadataFile
    dsimp only
    rw [run_bind asked]
    cases disk.present metadataFile with
    | false => exact ⟨middle, rfl, recalls, .nothing same⟩
    | true =>
      obtain ⟨world, read⟩ := readDisk_run sees metadataFile middle
      simp only [if_true]
      rw [run_bind read]
      cases (disk.text? metadataFile).bind BundleMetadata.parse? with
      | none => exact ⟨_, rfl, recalls, .nothing same⟩
      | some bundle =>
        obtain ⟨next, filed, existing, learns⟩ := recordBundle_run typings bundle { middle with world }
        refine ⟨next, filed, ?_, ?_⟩
        · unfold Caches.Recalls
          rw [existing]
          exact recalls
        · exact learns.after same

omit sees in
/-- The verdict on a directory of which nothing was known. -/
theorem FindsPackage.keep {dir : String} {parents : List String} (above : Path.ancestors dir = dir :: parents)
    {result : Bool × Situation ω} (finds : FindsPackage disk (dir :: parents) situation result) :
    FindsPackage disk (dir :: parents) situation (result.1, { result.2 with
      caches := { result.2.caches with bundled := result.2.caches.bundled.put dir result.1 } }) where
  answer := finds.answer
  surveyed := by
    refine finds.surveyed.put ?_ ?_
    · rw [Disk.index?_isSome, above, finds.answer]
    · rw [above]
      exact finds.complete
  complete := finds.complete
  origin := finds.origin

/-- The search for the nearest package of a directory finds what the disk has. -/
theorem isBundled_finds {dirs : List String} (upward : Path.Upward dirs) (surveyed : situation.caches.Surveyed disk) :
    FindsPackage disk dirs situation ((host.isBundled dirs).run situation) := by
  induction upward generalizing situation with
  | top =>
    refine ⟨rfl, surveyed, fun name bundle found => ?_, fun _ => .inl⟩
    cases found
  | step above nonempty further ih =>
    rename_i dir parents
    rw [isBundled]
    cases kept : situation.caches.bundled.get? dir with
    | some found =>
      rw [HostM.memo_of_some kept]
      have verdict := surveyed.bundled dir found kept
      have complete := surveyed.nearest dir (Table.has_of_get?_eq_some kept)
      rw [Disk.index?_isSome, above] at verdict
      rw [above] at complete
      exact ⟨verdict, surveyed, complete, fun _ => .inl⟩
    | none =>
      rw [HostM.memo_of_none kept]
      refine FindsPackage.keep above ?_
      split
      · next folder =>
        have nothing : disk.nearest? (dir :: parents) = none := if_pos folder
        refine ⟨by rw [nothing]; rfl, surveyed, fun name bundle found => ?_, fun _ => .inl⟩
        rw [nothing] at found
        cases found
      · next inner =>
        obtain ⟨middle, asked, recalls, same⟩ := exists?_seen sees surveyed.recalls (Path.join dir "package.json")
        rw [run_bind asked]
        cases present : disk.present (Path.join dir "package.json") with
        | true =>
          have nearest : disk.nearest? (dir :: parents) = disk.typings? dir := by
            rw [Disk.nearest?, if_neg inner, present, if_pos rfl]
          obtain ⟨next, read, recalls, learns⟩ := readBundle_run sees recalls dir
          have learns := learns.after same
          rw [if_pos rfl, read]
          refine ⟨by rw [nearest], surveyed.learns recalls learns fun name bundle found entry => ?_, ?_, ?_⟩
          · exact ⟨dir, bundle, nonempty, by simp [Disk.hasPackage, inner, present], found, entry⟩
          · intro name bundle found entry
            exact (learns.lists name).mpr (.inr ⟨bundle, nearest ▸ found, entry⟩)
          · rw [nearest]
            exact fun name listed => (learns.lists name).mp listed
        | false =>
          have nearest : disk.nearest? (dir :: parents) = disk.nearest? parents := by
            rw [Disk.nearest?, if_neg inner, present, if_neg Bool.false_ne_true]
          have finds := ih (surveyed.peek recalls same)
          rw [if_neg Bool.false_ne_true]
          refine ⟨by rw [nearest, finds.answer], finds.surveyed, nearest ▸ finds.complete, fun name listed => ?_⟩
          obtain listed | found := finds.origin name listed
          · exact .inl ((Caches.lists_iff_of_peek same name).mp listed)
          · exact .inr (nearest ▸ found)

/-! ## Histories on a disk -/

/-- A step that leaves what is kept about packages in agreement with a disk. -/
abbrev Surveys (disk : Disk) : Situation ω → Situation ω → Prop :=
  Preserving fun situation => situation.caches.Surveyed disk

omit sees in
theorem Surveys.of_same {before after : Situation ω} (same : after.caches.survey = before.caches.survey) :
    Surveys disk before after :=
  fun surveyed => surveyed.of_same same

theorem surveys_disk : host.AdmitsDisk (Surveys disk) where
  world _ _ := .of_same rfl
  exists? file situation surveyed :=
    surveyed.peek (exists?_recalls sees.fileExists surveyed.recalls file) (host.peeks.exists? file situation)

theorem surveys : host.AdmitsUnits (Surveys disk) where
  toAdmitsDisk := surveys_disk sees
  writtenUnit := (surveys_disk sees).writtenUnit fun _ _ => .of_same rfl
  isBundled file situation surveyed := (isBundled_finds sees (.ancestors_dirname file) surveyed).surveyed
  moduleNames _ := .of_same rfl
  metadata _ _ := .of_same rfl
  requests _ _ := .of_same rfl
  records _ _ := .of_same rfl
  summaryUnit file situation := by
    obtain ⟨-, ran⟩ | ⟨u, world, summaries, -, ran, -⟩ := summaryUnit_cases host file situation
    · rw [ran]
      exact id
    · rw [ran]
      exact .of_same rfl
  companion _ _ _ := .of_same rfl
  companionNames _ _ _ _ _ keeps surveyed := (keeps surveyed).of_same rfl
  attached _ _ := .of_same rfl
  parked _ _ := .of_same rfl

/-- Whatever happens in a build, what is kept about packages agrees with the disk. -/
theorem situationAfter_surveyed (acts : List (HostAct ω)) (surveyed : situation.caches.Surveyed disk) :
    (HostAct.situationAfter host acts situation).caches.Surveyed disk :=
  HostAct.situationAfter_of_units (surveys sees) (fun _ _ keeps => keeps)
    (fun _ surveyed => Caches.Surveyed.of_same surveyed rfl) acts surveyed

end Host

end CompanionBuild
