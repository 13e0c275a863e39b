import CompanionBuild.Host.Query
import CompanionBuild.Proofs.Resource.Within

/-! # What the host's lookups leave alone

The host answers an analyzer out of tables that it fills on the way. What all its answers keep to follows from what a few
of them do: the look at the disk, the unit of a file, and the search for a bundle index. Apart from the tables no
question changes what the build has found out: companions, attached units, summaries, the parked error and whether the
build is degraded all stay.
-/

namespace CompanionBuild

/-- The caches without the tables that lookups fill. -/
def Caches.withoutLookups (caches : Caches) : Caches :=
  { caches with
    units := [], existing := [], moduleNames := [], bundled := [], bundleIndexes := [], bundleRedirects := []
    metadata := [], requests := [], records := [] }

/-- What a lookup leaves alone in a situation. -/
def Situation.standing {ω : Type} (situation : Situation ω) : Caches :=
  situation.caches.withoutLookups

/-- A computation of the host that only looks things up. -/
abbrev LooksUp {ω α : Type} (step : HostM ω α) : Prop :=
  Within (Alike Situation.standing) step

/-- What a look at the disk leaves alone in a situation. -/
def Situation.apartFromDisk {ω : Type} (situation : Situation ω) : Caches :=
  { situation.caches with existing := [] }

/-- A computation of the host that only looks at the disk. -/
abbrev Peeks {ω α : Type} (step : HostM ω α) : Prop :=
  Within (Alike Situation.apartFromDisk) step

theorem Peeks.looksUp {ω α : Type} {step : HostM ω α} (peeks : Peeks step) : LooksUp step := by
  refine peeks.mono fun before after (same : after.apartFromDisk = before.apartFromDisk) => ?_
  have standing := congrArg Caches.withoutLookups same
  exact standing

/-! ## Memoized steps -/

namespace HostM

variable {ω α : Type} {find : Caches → Option α} {keep : α → Caches → Caches} {compute : HostM ω α}
  {situation : Situation ω} {value : α}

/-- A step that looks at the caches first. -/
theorem caches_bind {β : Type} (next : Caches → HostM ω β) :
    (caches >>= next).run situation = (next situation.caches).run situation := rfl

theorem memo_of_some (found : find situation.caches = some value) :
    (memo find keep compute).run situation = (value, situation) := by
  rw [memo, caches_bind, found]
  rfl

theorem memo_of_none (fresh : find situation.caches = none) :
    (memo find keep compute).run situation =
      ((compute.run situation).1, { (compute.run situation).2 with
        caches := keep (compute.run situation).1 (compute.run situation).2.caches }) := by
  rw [memo, caches_bind, fresh]
  dsimp only
  rw [StateT.run_bind]
  rfl

/-- What a memoized step answers is kept. -/
theorem memo_kept {next : Situation ω} (keeps : ∀ value caches, find (keep value caches) = some value)
    (ran : (memo find keep compute).run situation = (value, next)) : find next.caches = some value := by
  cases kept : find situation.caches with
  | some found =>
    rw [memo_of_some kept] at ran
    cases ran
    exact kept
  | none =>
    rw [memo_of_none kept] at ran
    cases ran
    exact keeps _ _

end HostM

namespace Attempt

variable {ω α β : Type} {situation middle : Situation ω}

theorem caches_bind (next : Caches → Attempt ω β) :
    (caches >>= next).run.run situation = (next situation.caches).run.run situation := rfl

/-- An attempt that begins with a step that cannot fail. -/
theorem lift_bind {step : HostM ω α} {value : α} (ran : step.run situation = (value, middle))
    (next : α → Attempt ω β) :
    ((liftM step : Attempt ω α) >>= next).run.run situation = (next value).run.run middle := by
  rw [ExceptT.run_bind]
  change StateT.run ((Except.ok <$> step) >>= _) situation = _
  rw [StateT.run_bind, StateT.run_map, ran]
  rfl

/-- What a memoized attempt finds out is kept. -/
theorem memo_of_none {find : Caches → Option α} {keep : α → Caches → Caches} {compute : Attempt ω α} {value : α}
    (fresh : find situation.caches = none) (ran : compute.run.run situation = (.ok value, middle)) :
    (memo find keep compute).run.run situation =
      (.ok value, { middle with caches := keep value middle.caches }) := by
  rw [memo, caches_bind, fresh]
  dsimp only
  rw [run_bind_of_ok ran]
  rfl

end Attempt

namespace Within

variable {ω α : Type} {R : Situation ω → Situation ω → Prop}

theorem inWorld (world : ∀ world situation, R situation { situation with world }) (step : StateM ω α) :
    Within R (HostM.inWorld step) :=
  .lift world step

theorem modifyCaches {f : Caches → Caches}
    (change : ∀ situation : Situation ω, R situation { situation with caches := f situation.caches }) :
    Within R (HostM.modifyCaches f) :=
  .modify change

theorem modifyCachesAttempt {f : Caches → Caches}
    (change : ∀ situation : Situation ω, R situation { situation with caches := f situation.caches }) :
    Within R (Attempt.modifyCaches f : Attempt ω Unit).run :=
  .modify change

variable [IsPreorder (Situation ω) R]

theorem caches : Within R (HostM.caches : HostM ω Caches) :=
  .bind .get fun _ => .pure _

theorem memo {find : Caches → Option α} {keep : α → Caches → Caches} {compute : HostM ω α}
    (change : ∀ value (situation : Situation ω), R situation { situation with caches := keep value situation.caches })
    (computes : Within R compute) : Within R (HostM.memo find keep compute) := by
  refine .bind caches fun found => ?_
  split
  · exact .pure _
  · exact .bind computes fun value => .bind (modifyCaches (change value)) fun _ => .pure _

/-- A step is memoized where the value was not known when it began. -/
theorem memoFresh {find : Caches → Option α} {keep : α → Caches → Caches} {compute : HostM ω α}
    (change : ∀ value before after, find before.caches = none → R before after →
      R before { after with caches := keep value after.caches })
    (computes : Within R compute) : Within R (HostM.memo find keep compute) := by
  intro situation
  cases kept : find situation.caches with
  | some value =>
    rw [HostM.memo_of_some kept]
    exact refl_of R situation
  | none =>
    rw [HostM.memo_of_none kept]
    exact change _ _ _ kept (computes situation)

theorem memoAttempt {find : Caches → Option α} {keep : α → Caches → Caches} {compute : Attempt ω α}
    (change : ∀ {value before after}, compute.run.run before = (.ok value, after) →
      R after { after with caches := keep value after.caches })
    (computes : Within R compute.run) : Within R (Attempt.memo find keep compute).run := by
  intro situation
  cases kept : find situation.caches with
  | some value =>
    rw [Attempt.memo, Attempt.caches_bind, kept]
    exact refl_of R situation
  | none =>
    rcases ran : compute.run.run situation with ⟨outcome, after⟩
    have reached : R situation after := computes.of_run ran
    cases outcome with
    | ok value =>
      rw [Attempt.memo_of_none kept ran]
      exact trans_of R reached (change ran)
    | error error =>
      rw [Attempt.memo, Attempt.caches_bind, kept]
      dsimp only
      rw [run_bind_of_error ran]
      exact reached

end Within

namespace Host

variable {ω : Type}

/-- A relation that the host keeps to when it looks at the disk. -/
structure AdmitsDisk (host : Host ω) (R : Situation ω → Situation ω → Prop) : Prop where
  /-- The world is of no account. -/
  world : ∀ world situation, R situation { situation with world }
  exists? : ∀ file, Within R (host.exists? file)

/-- A relation that the host keeps to when it looks anything up. -/
structure AdmitsLookups (host : Host ω) (R : Situation ω → Situation ω → Prop) : Prop extends host.AdmitsDisk R where
  writtenUnit : ∀ file, Within R (host.writtenUnit file)
  isBundled : ∀ file, Within R (host.isBundled (Path.ancestors (Path.dirname file)))
  moduleNames : ∀ {imported containing name before after},
    (host.computeModuleName imported containing).run.run before = (.ok name, after) →
      R after { after with caches := { after.caches with
        moduleNames := after.caches.moduleNames.put (moduleNameKey imported containing) name } }
  metadata : ∀ metadata situation, R situation { situation with caches := { situation.caches with metadata } }
  requests : ∀ requests situation, R situation { situation with caches := { situation.caches with requests } }
  records : ∀ records situation, R situation { situation with caches := { situation.caches with records } }

variable {host : Host ω} {R : Situation ω → Situation ω → Prop}

theorem AdmitsLookups.mono {S : Situation ω → Situation ω → Prop} (admits : host.AdmitsLookups R)
    (weaker : ∀ before after, R before after → S before after) : host.AdmitsLookups S where
  world _ _ := weaker _ _ (admits.world _ _)
  exists? file := (admits.exists? file).mono weaker
  writtenUnit file := (admits.writtenUnit file).mono weaker
  isBundled file := (admits.isBundled file).mono weaker
  moduleNames computed := weaker _ _ (admits.moduleNames computed)
  metadata _ _ := weaker _ _ (admits.metadata _ _)
  requests _ _ := weaker _ _ (admits.requests _ _)
  records _ _ := weaker _ _ (admits.records _ _)

theorem AdmitsDisk.readDisk (admits : host.AdmitsDisk R) (file : String) : Within R (host.readDisk file) :=
  .inWorld admits.world _

variable [IsPreorder (Situation ω) R]

namespace AdmitsDisk

variable (admits : host.AdmitsDisk R)

include admits

theorem writtenUnit (units : ∀ units situation, R situation { situation with caches := { situation.caches with units } })
    (file : String) : Within R (host.writtenUnit file) := by
  refine .memo (fun _ _ => units _ _) (.bind (admits.readDisk file) fun text => ?_)
  split
  · exact .bind (.inWorld admits.world _) fun _ => .pure _
  · exact .pure _

/-! ## Resources -/

theorem firstOnDisk (files : List String) : Within R (host.firstOnDisk files) := by
  induction files with
  | nil => exact .pure _
  | cons file rest ih =>
    refine .bind (admits.exists? file) fun found => ?_
    split
    · exact .pure _
    · exact ih

theorem resourceFile (name containing : String) : Within R (host.resourceFile name containing) := by
  unfold Host.resourceFile
  split
  · exact .inWorld admits.world _
  · refine .bind (admits.firstOnDisk _) fun file => ?_
    split
    · exact .pure _
    · split
      · exact .bind (.inWorld admits.world _) fun _ => .pure _
      · exact .pure _

theorem loadResource (file : String) : Within R (host.loadResource file).run := by
  unfold Host.loadResource
  split
  · exact .inWorld admits.world _
  · refine .bindExcept (admits.exists? file) fun found => ?_
    split
    · refine .bindExcept (admits.readDisk file) fun text => ?_
      split
      · exact .pure _
      · exact .throw _
    · exact .throw _

theorem resources_load (file : String) : Within R (host.resources.load file) := by
  refine .bind (admits.loadResource file) fun outcome => ?_
  split <;> exact .pure _

/-- The resources of the host as the transforms ask for them. -/
theorem resources_get (file url : String) : Within R (host.resources.get file url).run :=
  .resource admits.resourceFile admits.resources_load file url

theorem collectMetadata
    (requests : ∀ requests situation, R situation { situation with caches := { situation.caches with requests } })
    (u : SourceUnit) :
    Within R (collectMetadata (fun u => HostM.inWorld (host.collect u)) host.metadataTransformers u).run := by
  refine .collectMetadata (fun _ => .inWorld admits.world _) u fun transformer member name metadata => ?_
  rcases List.mem_append.mp member with member | member
  · split at member
    · rw [List.mem_singleton.mp member]
      exact .inlineMetadata admits.resources_get u name metadata
    · contradiction
  · split at member
    · contradiction
    · have asks : Within R (requestsFor u : HostM ω Lowering.Requests) := fun _ => requests _ _
      rw [List.mem_singleton.mp member]
      exact .bind asks fun _ => .pure _

/-! ## Bundles -/

variable
  (indexes : ∀ typings situation, R situation { situation with
    caches := { situation.caches with bundleIndexes := Names.insert typings situation.caches.bundleIndexes } })
  (redirects : ∀ typings situation, R situation { situation with
    caches := { situation.caches with bundleRedirects := Names.insert typings situation.caches.bundleRedirects } })

include indexes redirects

theorem readBundle (dir packageFile : String) : Within R (host.readBundle dir packageFile) := by
  have record (typings : String) (bundle : BundleMetadata) : Within R (recordBundle typings bundle : HostM ω Bool) := by
    unfold recordBundle
    split
    · exact .bind (.modifyCaches fun _ => redirects _ _) fun _ => .pure _
    · split
      · exact .bind (.modifyCaches fun _ => indexes _ _) fun _ => .pure _
      · exact .pure _
  refine .bind (admits.readDisk packageFile) fun text => ?_
  split
  · refine .bind (admits.exists? _) fun found => ?_
    split
    · refine .bind (admits.readDisk _) fun metadata => ?_
      split
      · exact record _ _
      · exact .pure _
    · exact .pure _
  · exact .pure _

/-- A search for the package of a directory. What was found out about a directory is kept. -/
theorem isBundled (bundled : ∀ dir found before after, before.caches.bundled.get? dir = none → R before after →
      R before { after with caches := { after.caches with bundled := after.caches.bundled.put dir found } })
    (dirs : List String) : Within R (host.isBundled dirs) := by
  induction dirs with
  | nil => exact .pure _
  | cons dir parents ih =>
    refine .memoFresh (bundled dir) ?_
    split
    · exact .pure _
    · refine .bind (admits.exists? _) fun found => ?_
      split
      · exact admits.readBundle indexes redirects dir _
      · exact ih

end AdmitsDisk

namespace AdmitsLookups

variable (admits : host.AdmitsLookups R)

include admits

/-! ## Files -/

theorem fileText (file : String) : Within R (host.fileText file) := by
  refine .bind .caches fun caches => ?_
  split
  · exact .pure _
  · exact admits.readDisk file

theorem loadSummary (file : String) : Within R (host.loadSummary file) := by
  refine .bind .caches fun caches => ?_
  split
  · exact .pure _
  · refine .bind (admits.exists? file) fun found => ?_
    split
    · exact admits.readDisk file
    · exact .pure _

/-! ## Sources -/

theorem isSourceDeclaration (file : String) : Within R (host.isSourceDeclaration file) := by
  unfold Host.isSourceDeclaration
  split
  · exact .pure _
  · refine .bind (admits.isBundled file) fun bundled => ?_
    split
    · exact .bind .caches fun _ => .pure _
    · exact .pure _

theorem isSource (file : String) : Within R (host.isSource file) := by
  refine .bind .caches fun caches => ?_
  split
  · exact .pure _
  · split
    · exact .pure _
    · split
      · exact .pure _
      · split
        · exact admits.isSourceDeclaration file
        · exact .pure _

theorem firstSource (files : List String) : Within R (host.firstSource files) := by
  induction files with
  | nil => exact .pure _
  | cons file rest ih =>
    refine .bind (admits.isSource file) fun isSource => ?_
    split
    · refine .bind (admits.exists? file) fun found => ?_
      split
      · exact .pure _
      · exact ih
    · exact ih

theorem generatable (file : String) : Within R (host.generatable file) := by
  unfold Host.generatable
  split
  · exact .pure _
  · split
    · exact .pure _
    · split
      · exact .pure _
      · split
        · refine .bind .caches fun caches => ?_
          split
          · exact .pure _
          · refine .bind (admits.exists? _) fun found => ?_
            split <;> exact .pure _
        · refine .bind (admits.firstSource _) fun base => ?_
          split <;> exact .pure _

theorem getsCompanions (file : String) : Within R (host.getsCompanions file) := by
  unfold Host.getsCompanions
  split
  · exact .pure _
  · refine .bind (admits.isSource file) fun isSource => ?_
    split <;> exact .pure _

theorem fileExists (file : String) : Within R (host.fileExists file) := by
  refine .bind .caches fun caches => ?_
  split
  · exact .pure _
  · refine .bind (admits.generatable file) fun found => ?_
    split
    · exact .pure _
    · exact admits.exists? file

/-! ## Modules -/

theorem isPackageTypings (file stem deepName package : String) :
    Within R (host.isPackageTypings file stem deepName package) := by
  unfold Host.isPackageTypings
  split
  · exact .pure _
  · exact .bind (admits.readDisk _) fun _ => .pure _

theorem packageName (file stem package : String) : Within R (host.packageName file stem package) := by
  unfold Host.packageName
  split
  · refine .bind (admits.isPackageTypings _ _ _ _) fun isTypings => ?_
    split <;> exact .pure _
  · exact .pure _

theorem moduleName (imported containing : String) : Within R (host.moduleName imported containing).run := by
  unfold Host.moduleName
  split
  · exact .inWorld admits.world _
  · refine .memoAttempt admits.moduleNames ?_
    unfold computeModuleName
    dsimp only
    split
    · exact .pure _
    · split
      · exact admits.packageName _ _ _
      · exact .throw _

theorem resolveModule (name containing : String) : Within R (host.resolveModule name containing) := by
  refine .bind ?_ fun resolved => ?_
  · exact .resolve admits.fileExists admits.fileText (fun _ => .inWorld admits.world _) _ _
  · split
    · exact .pure _
    · split
      · refine .bind (admits.isSource _) fun isSource => ?_
        split <;> exact .pure _
      · exact .pure _

theorem moduleFile (name : String) (containing : Option String) : Within R (host.moduleFile name containing).run := by
  refine .bindExcept (.pure _) fun containing => ?_
  split
  · exact .inWorld admits.world _
  · exact .bindExcept (admits.resolveModule name containing) fun _ => .pure _

theorem summaryFile (name library : String) : Within R (host.summaryFile name library).run := by
  refine .bindExcept (admits.moduleFile name (some library)) fun file => ?_
  split
  · exact .pure _
  · exact .throw _

/-! ## Metadata -/

theorem unitMetadata (u : SourceUnit) : Within R (host.unitMetadata u).run :=
  .memoAttempt (fun _ => admits.metadata _ _) (.map _ (admits.collectMetadata admits.requests u))

theorem declarationRecords (file : String) : Within R (host.declarationRecords file).run := by
  refine .bindExcept (admits.exists? _) fun found => ?_
  split
  · refine .bindExcept (admits.readDisk _) fun text => ?_
    split
    · exact .pure _
    · exact .throw _
  · exact .pure _

theorem sourceRecords (file : String) : Within R (host.sourceRecords file).run := by
  refine .bindExcept (admits.writtenUnit file) fun u => ?_
  split
  · exact .bindExcept (admits.unitMetadata _) fun _ => .pure _
  · exact .pure _

theorem metadataRecords (file : String) : Within R (host.metadataRecords file).run := by
  refine .memoAttempt (fun _ => admits.records _ _) ?_
  split
  · exact admits.declarationRecords file
  · exact admits.sourceRecords file

/-! ## Questions -/

theorem answer (q : HostQuery) : Within R (host.answer q) := by
  cases q with
  | isSource file => exact admits.isSource file
  | unit file => exact admits.writtenUnit file
  | metadata file => exact admits.metadataRecords file
  | summary file => exact admits.loadSummary file
  | resource file => exact admits.loadResource file
  | moduleName imported containing => exact admits.moduleName imported containing
  | moduleFile name containing => exact admits.moduleFile name containing
  | resourceFile name containing => exact admits.resourceFile name containing
  | summaryName file source => exact admits.moduleName file source
  | summaryFile name library => exact admits.summaryFile name library
  | outputName file => exact .pure _

/-- An analyzer, whatever it does on its own, only gets answers. -/
theorem consult {α : Type} (dialogue : HostDialogue ω α) : Within R (host.consult dialogue) :=
  .dialogue admits.world admits.answer dialogue

end AdmitsLookups

/-! ## What stays -/

variable (host)

theorem peeks : host.AdmitsDisk (Alike Situation.apartFromDisk) where
  world _ _ := rfl
  exists? _ := .memo (fun _ _ => rfl) (.inWorld (fun _ _ => rfl) _)

theorem looksUp_disk : host.AdmitsDisk (Alike Situation.standing) where
  world _ _ := rfl
  exists? file := Peeks.looksUp (host.peeks.exists? file)

/-- Nothing that is looked up changes what stands. -/
theorem looksUp : host.AdmitsLookups (Alike Situation.standing) where
  toAdmitsDisk := host.looksUp_disk
  writtenUnit := host.looksUp_disk.writtenUnit fun _ _ => rfl
  isBundled _ := host.looksUp_disk.isBundled (fun _ _ => rfl) (fun _ _ => rfl) (fun _ _ _ _ _ same => same) _
  moduleNames _ := rfl
  metadata _ _ := rfl
  requests _ _ := rfl
  records _ _ := rfl

/-- What can be seen of the caches without the tables that lookups fill. -/
theorem lookups_of_view {β : Type} (view : Caches → β)
    (stands : ∀ caches : Caches, view caches.withoutLookups = view caches) :
    host.AdmitsLookups (Alike fun situation => view situation.caches) := by
  refine host.looksUp.mono fun before after same => ?_
  have seen : view after.standing = view before.standing := congrArg view same
  rwa [Situation.standing, Situation.standing, stands, stands] at seen

/-- The metadata of a unit is what the cache of metadata gives for it, and what the cache is then is kept. -/
theorem unitMetadata_eq_get (u : SourceUnit) : host.unitMetadata u = (do
    let caches ← Attempt.caches
    let found ← ExceptT.adapt BuildError.transform
      (caches.metadata.get (fun u => HostM.inWorld (host.collect u)) host.metadataTransformers u)
    Attempt.modifyCaches fun caches => { caches with metadata := found.2 }
    pure found.1) := by
  have keeps : Within (Alike fun situation => situation.caches.metadata)
      (collectMetadata (fun u => HostM.inWorld (host.collect u)) host.metadataTransformers u).run :=
    AdmitsDisk.collectMetadata ⟨fun _ _ => rfl, fun _ => .memo (fun _ _ => rfl) (.inWorld (fun _ _ => rfl) _)⟩
      (fun _ _ => rfl) u
  refine ExceptT.ext (StateT.ext fun situation => ?_)
  rw [unitMetadata, Attempt.memo, Attempt.caches_bind, Attempt.caches_bind, MetadataCache.get]
  cases Table.get? situation.caches.metadata u.name with
  | some metadata => rfl
  | none =>
    rcases ran : (collectMetadata (fun u => HostM.inWorld (host.collect u)) host.metadataTransformers u).run.run situation
      with ⟨outcome, middle⟩
    have same : middle.caches.metadata = situation.caches.metadata := keeps.of_run ran
    cases outcome with
    | ok metadata =>
      dsimp only
      rw [run_bind_of_ok ((run_adapt ..).trans (by rw [ran]; rfl)),
        run_bind_of_ok ((run_adapt ..).trans (by rw [run_bind_of_ok ran]; rfl))]
      exact congrArg (fun table => (Except.ok metadata, { middle with
        caches := { middle.caches with metadata := Table.put table u.name metadata } })) same
    | error error =>
      dsimp only
      rw [run_bind_of_error ((run_adapt ..).trans (by rw [ran]; rfl)),
        run_bind_of_error ((run_adapt ..).trans (by rw [run_bind_of_error ran]; rfl))]

end Host

end CompanionBuild
