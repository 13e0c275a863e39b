import CompanionBuild.Proofs.Host.PackageName

/-! # Names that were kept for other files

On files that do not change, the name that two files get when nothing is kept is decided by the disk. Once a name was
given out, it is kept under the two files with a colon between them. So whoever asks later gets the first name that was
given to files of the same key, and gets the own name of the files only if that is the same.
-/

namespace CompanionBuild

namespace Host

variable {ω : Type} {host : Host ω} {disk : Disk}

/-! ## Names on a disk -/

/-- The name that a disk gives to two files. -/
def ownName (host : Host ω) (disk : Disk) (imported containing : String) : Outcome String :=
  let stem := Path.stripExtension imported
  let package := Path.packageOf? stem
  if package = Path.packageOf? containing ∨ Path.isCompanion imported then .ok (host.relativeName stem containing)
  else
    match package with
    | some package => .ok (disk.packageName imported stem package)
    | none => .error (.usage (.sourceFromPackage imported containing))

/-- A name is computed from the disk alone, and nothing is kept on the way. -/
theorem computeModuleName_run (sees : host.Sees disk) (imported containing : String) (situation : Situation ω) :
    ∃ world, (host.computeModuleName imported containing).run.run situation =
      (host.ownName disk imported containing, { situation with world }) := by
  unfold computeModuleName ownName
  dsimp only
  split
  · exact ⟨situation.world, rfl⟩
  · cases Path.packageOf? (Path.stripExtension imported) with
    | none => exact ⟨situation.world, rfl⟩
    | some package =>
      obtain ⟨world, named⟩ := packageName_run sees imported (Path.stripExtension imported) package situation
      exact ⟨world, Attempt.lift_bind named pure⟩

/-! ## One question -/

/-- What is answered for two files in a situation. -/
def nameIn (host : Host ω) (situation : Situation ω) (imported containing : String) : Outcome String :=
  ((host.moduleName imported containing).run.run situation).1

variable (sees : host.Sees disk) (unnamed : host.overrides.moduleName = none)

include sees unnamed

/-- Files get the name that is kept under their key, or else their own, which is kept unless it is a failure. -/
theorem moduleName_run (imported containing : String) (situation : Situation ω) :
    host.nameIn situation imported containing =
        ((situation.caches.moduleNames.get? (moduleNameKey imported containing)).map .ok).getD
          (host.ownName disk imported containing) ∧
      ∀ key, ((host.moduleName imported containing).run.run situation).2.caches.moduleNames.get? key =
        (situation.caches.moduleNames.get? key).or
          (if moduleNameKey imported containing = key then (host.ownName disk imported containing).toOption else none) := by
  unfold nameIn
  cases known : situation.caches.moduleNames.get? (moduleNameKey imported containing) with
  | some kept =>
    rw [moduleName_of_some unnamed known]
    refine ⟨rfl, fun key => ?_⟩
    split
    case isTrue same =>
      rw [← same, known]
      rfl
    case isFalse => rw [Option.or_none]
  | none =>
    obtain ⟨world, computed⟩ := computeModuleName_run sees imported containing situation
    unfold moduleName
    rw [unnamed]
    dsimp only
    cases own : host.ownName disk imported containing with
    | ok name =>
      rw [own] at computed
      rw [Attempt.memo_of_none known computed]
      refine ⟨rfl, fun key => ?_⟩
      rw [Table.get?_put]
      split
      case isTrue same =>
        rw [← same, known]
        rfl
      case isFalse => rw [Option.or_none]
    | error error =>
      rw [own] at computed
      rw [Attempt.memo, Attempt.caches_bind, known]
      dsimp only
      rw [run_bind_of_error computed]
      refine ⟨rfl, fun key => ?_⟩
      split <;> exact (Option.or_none).symm

/-- Where no names are kept, files get their own. -/
theorem nameIn_of_blank {situation : Situation ω} (blank : situation.caches.moduleNames = []) (imported containing : String) :
    host.nameIn situation imported containing = host.ownName disk imported containing := by
  rw [(moduleName_run sees unnamed imported containing situation).1, blank]
  rfl

omit sees unnamed

/-! ## Sequences of questions -/

/-- The situation after the names of some pairs of files were asked for. -/
def afterNaming (host : Host ω) (queries : List (String × String)) (situation : Situation ω) : Situation ω :=
  queries.foldl (fun situation query => ((host.moduleName query.1 query.2).run.run situation).2) situation

/-- The first name among those that some pairs of files with a given key get in a situation. -/
def firstNamed? (host : Host ω) (situation : Situation ω) (queries : List (String × String)) (key : String) :
    Option String :=
  queries.findSome? fun query =>
    if moduleNameKey query.1 query.2 = key then (host.nameIn situation query.1 query.2).toOption else none

/-- No files of the same key get another name. -/
def NamedAlone (host : Host ω) (situation : Situation ω) (imported containing : String) : Prop :=
  ∀ other source name, moduleNameKey other source = moduleNameKey imported containing →
    host.nameIn situation other source = .ok name → host.nameIn situation imported containing = .ok name

include sees

/-- A name that is kept after some history is the own name of files that have its key. -/
theorem situationAfter_kept {start : Situation ω} (blank : start.caches.moduleNames = []) (acts : List (HostAct ω))
    {key kept : String} (known : (HostAct.situationAfter host acts start).caches.moduleNames.get? key = some kept) :
    ∃ other source, moduleNameKey other source = key ∧ host.ownName disk other source = .ok kept := by
  have recalls : host.RecallsNames (HostAct.situationAfter host acts start) := by
    refine HostAct.situationAfter_of_units host.recallsNames (fun _ _ keeps => keeps) (fun _ recalls => recalls) acts ?_
    intro key kept known
    rw [blank] at known
    cases known
  obtain ⟨other, source, before, after, same, computed⟩ := recalls key kept known
  obtain ⟨world, own⟩ := computeModuleName_run sees other source before
  rw [own] at computed
  exact ⟨other, source, same, (Prod.mk.inj computed).1⟩

include unnamed

/-- The first name that is given out under a key is kept. -/
theorem afterNaming_kept {fresh : Situation ω} (blank : fresh.caches.moduleNames = []) (queries : List (String × String))
    (situation : Situation ω) (key : String) :
    (host.afterNaming queries situation).caches.moduleNames.get? key =
      (situation.caches.moduleNames.get? key).or (host.firstNamed? fresh queries key) := by
  induction queries generalizing situation with
  | nil => exact (Option.or_none).symm
  | cons query rest ih =>
    rw [firstNamed?, List.findSome?_cons, nameIn_of_blank sees unnamed blank]
    refine (ih _).trans ?_
    rw [(moduleName_run sees unnamed query.1 query.2 situation).2 key, Option.or_assoc]
    congr 1
    split
    · cases (host.ownName disk query.1 query.2).toOption <;> rfl
    · rfl

/-- In a build without overrides on files that do not change, two files get the name that a fresh build gives them just
where the first name that was given to files of the same key, if there is one, is their own. So they get it after every
history if and only if no files of the same key get another name, as is always so where neither name has a colon. -/
theorem naming_transparent_iff {start fresh : Situation ω} (begins : start.caches.moduleNames = [])
    (blank : fresh.caches.moduleNames = []) (imported containing : String) :
    (∀ queries, host.nameIn (host.afterNaming queries start) imported containing = host.nameIn fresh imported containing ↔
      ∀ name, host.firstNamed? fresh queries (moduleNameKey imported containing) = some name →
        host.nameIn fresh imported containing = .ok name) ∧
    ((∀ acts, host.nameIn (HostAct.situationAfter host acts start) imported containing =
        host.nameIn fresh imported containing) ↔ host.NamedAlone fresh imported containing) ∧
    (':' ∉ imported.toList → ':' ∉ containing.toList → host.NamedAlone fresh imported containing) := by
  have own (other source : String) := nameIn_of_blank sees unnamed blank other source
  have asked (situation : Situation ω) := (moduleName_run sees unnamed imported containing situation).1
  refine ⟨fun queries => ?_, ⟨fun transparent other source name same named => ?_, fun alone acts => ?_⟩,
    fun plain plainSource other source name same named => ?_⟩
  · rw [asked, afterNaming_kept sees unnamed blank, begins, own]
    change ((host.firstNamed? fresh queries (moduleNameKey imported containing)).map Except.ok).getD _ = _ ↔ _
    cases host.firstNamed? fresh queries (moduleNameKey imported containing) with
    | none => simp
    | some name => simp [eq_comm]
  · -- An analyzer that asks for the other files first leaves their name behind.
    have act := transparent [.analyze (do let _ ← HostDialogue.ask (.moduleName other source))]
    rw [asked] at act
    have kept := (moduleName_run sees unnamed other source start).2 (moduleNameKey imported containing)
    rw [begins, if_pos same, ← own, named] at kept
    change ((((host.moduleName other source).run.run start).2.caches.moduleNames.get? _).map _).getD _ = _ at act
    rw [kept] at act
    exact act.symm
  · rw [asked, own]
    cases known : (HostAct.situationAfter host acts start).caches.moduleNames.get? (moduleNameKey imported containing) with
    | none => rfl
    | some kept =>
      obtain ⟨other, source, same, named⟩ := situationAfter_kept sees begins acts known
      have given := alone other source kept same ((own other source).trans named)
      rw [own] at given
      exact given.symm
  · obtain ⟨rfl, rfl⟩ := eq_of_moduleNameKey_eq plain plainSource same
    exact named

omit sees unnamed

/-- A directory with a colon at the end of its name. -/
def colonFiles : Disk :=
  .ofFiles [("/app/x.ts", ""), ("/lib:/y.ts", "")]

/-- Neighbours are always told apart, but a file below the directory with a colon gets a name that was kept for others. -/
theorem colon_naming_transparent :
    (∀ acts, colonFiles.host.nameIn (HostAct.situationAfter colonFiles.host acts ⟨(), .ofSummaries []⟩) "/app/x.ts" "/y.ts" =
      .ok "./app/x") ∧
    colonFiles.host.nameIn (colonFiles.host.afterNaming [("/app/x.ts:/lib", "/y.ts")] ⟨(), .ofSummaries []⟩) "/app/x.ts"
      "/lib:/y.ts" ≠ colonFiles.host.nameIn ⟨(), .ofSummaries []⟩ "/app/x.ts" "/lib:/y.ts" := by
  have naming := @naming_transparent_iff Unit colonFiles.host colonFiles colonFiles.host_sees rfl ⟨(), .ofSummaries []⟩
    ⟨(), .ofSummaries []⟩ rfl rfl
  constructor
  · intro acts
    have plain := (naming "/app/x.ts" "/y.ts").2
    exact (plain.1.mpr (plain.2 (by decide) (by decide)) acts).trans rfl
  · rw [Ne, (naming "/app/x.ts" "/lib:/y.ts").1]
    intro own
    have first : colonFiles.host.firstNamed? ⟨(), .ofSummaries []⟩ [("/app/x.ts:/lib", "/y.ts")]
        (moduleNameKey "/app/x.ts" "/lib:/y.ts") = some "./app/x.ts:/lib" := by decide +kernel
    have fresh : colonFiles.host.nameIn ⟨(), .ofSummaries []⟩ "/app/x.ts" "/lib:/y.ts" = .ok "../app/x" := rfl
    exact absurd (Except.ok.inj (fresh.symm.trans (own _ first))) (by decide)

end Host

end CompanionBuild
