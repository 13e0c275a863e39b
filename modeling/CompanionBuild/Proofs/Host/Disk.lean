import CompanionBuild.Proofs.Host.Lasting

/-! # Files that do not change

On a disk that stays the same during a build, everything the build has found out about files stays true.
-/

namespace CompanionBuild

/-- In every world the files are those of one disk, and a file exists if it can be read. -/
structure Host.ReadsFrom {ω : Type} (host : Host ω) (disk : String → Option String) : Prop where
  fileExists : ∀ file world, ((host.files.fileExists file).run world).1 = (disk file).isSome
  read : ∀ file world, ((host.files.read file).run world).1 = disk file

/-- What is kept about files agrees with the disk. -/
structure Caches.Truthful (disk : String → Option String) (caches : Caches) : Prop where
  existing : ∀ file found, caches.existing.get? file = some found → found = (disk file).isSome
  units : ∀ file u, caches.units.get? file = some u → u.isSome = (disk file).isSome

/-- What a situation becomes while units are looked up and made on a disk. -/
structure Onward {ω : Type} (disk : String → Option String) (before after : Situation ω) : Prop
    extends Lasts before after where
  truthful : before.caches.Truthful disk → after.caches.Truthful disk

namespace Onward

variable {ω : Type} {disk : String → Option String}

instance : IsPreorder (Situation ω) (Onward disk) where
  refl situation := ⟨refl_of Lasts situation, id⟩
  trans _ _ _ first second := ⟨trans_of Lasts first.toLasts second.toLasts, second.truthful ∘ first.truthful⟩

/-- A step that does not touch what is known about files. -/
theorem of_same {before after : Situation ω} (lasts : Lasts before after)
    (existing : after.caches.existing = before.caches.existing) (units : after.caches.units = before.caches.units) :
    Onward disk before after :=
  ⟨lasts, fun truthful => ⟨existing ▸ truthful.existing, units ▸ truthful.units⟩⟩

end Onward

namespace Host

variable {ω : Type} {host : Host ω} {disk : String → Option String} (reads : host.ReadsFrom disk)
  {situation : Situation ω}

include reads

/-! ## What is found -/

theorem exists?_run (truthful : situation.caches.Truthful disk) (file : String) :
    ((host.exists? file).run situation).1 = (disk file).isSome :=
  exists?_of_recalls reads.fileExists truthful.existing file

theorem exists?_truthful (truthful : situation.caches.Truthful disk) (file : String) :
    ((host.exists? file).run situation).2.caches.Truthful disk := by
  have same : ((host.exists? file).run situation).2.apartFromDisk = situation.apartFromDisk :=
    host.peeks.exists? file situation
  have units : ((host.exists? file).run situation).2.caches.units = situation.caches.units := by
    have seen := congrArg Caches.units same
    exact seen
  exact ⟨exists?_recalls reads.fileExists truthful.existing file, units ▸ truthful.units⟩

/-- The unit that is read for a file is there if the file is. -/
theorem writtenUnit_fresh {file : String} (fresh : situation.caches.units.get? file = none) : ∃ u world,
    (host.writtenUnit file).run situation =
        (u, { world, caches := { situation.caches with units := situation.caches.units.put file u } }) ∧
      u.isSome = (disk file).isSome := by
  obtain ⟨u, world, ran, read⟩ := writtenUnit_of_none fresh
  refine ⟨u, world, ran, ?_⟩
  rw [reads.read] at read
  obtain ⟨rfl, absent⟩ | ⟨text, state, found, rfl⟩ := read
  · rw [absent]
    rfl
  · rw [found]
    rfl

/-- The unit of a file is there if the file is, kept or read anew. -/
theorem writtenUnit_run (truthful : situation.caches.Truthful disk) (file : String) :
    ((host.writtenUnit file).run situation).1.isSome = (disk file).isSome := by
  cases kept : situation.caches.units.get? file with
  | some u =>
    rw [writtenUnit, HostM.memo_of_some kept]
    exact truthful.units file u kept
  | none =>
    obtain ⟨u, world, ran, same⟩ := writtenUnit_fresh reads kept
    rwa [ran]

/-! ## What is kept -/

theorem writtenUnit_truthful (truthful : situation.caches.Truthful disk) (file : String) :
    ((host.writtenUnit file).run situation).2.caches.Truthful disk := by
  cases kept : situation.caches.units.get? file with
  | some u => rwa [writtenUnit, HostM.memo_of_some kept]
  | none =>
    obtain ⟨u, world, ran, same⟩ := writtenUnit_fresh reads kept
    rw [ran]
    refine ⟨truthful.existing, fun other v lookup => ?_⟩
    rw [Table.get?_put] at lookup
    split at lookup
    case isTrue named =>
      cases lookup
      rwa [← named]
    case isFalse => exact truthful.units other v lookup

theorem onward_disk : host.AdmitsDisk (Onward disk) where
  world _ _ := .of_same (host.lasts.world _ _) rfl rfl
  exists? file situation := ⟨host.lasts.exists? file situation, fun truthful => exists?_truthful reads truthful file⟩

/-- Nothing that is looked up or made takes back what was found out. -/
theorem onward : host.AdmitsUnits (Onward disk) where
  toAdmitsDisk := onward_disk reads
  writtenUnit file situation :=
    ⟨host.lasts.writtenUnit file situation, fun truthful => writtenUnit_truthful reads truthful file⟩
  isBundled _ := (onward_disk reads).isBundled (fun _ _ => .of_same (Lasts.indexes_insert _ _) rfl rfl)
    (fun _ _ => .of_same (Lasts.redirects_insert _ _) rfl rfl) (fun _ found _ _ unknown onward =>
      ⟨onward.toLasts.bundled_put unknown found,
        fun truthful => ⟨(onward.truthful truthful).existing, (onward.truthful truthful).units⟩⟩) _
  moduleNames computed := .of_same (host.lasts.moduleNames computed) rfl rfl
  metadata _ _ := .of_same (host.lasts.metadata _ _) rfl rfl
  requests _ _ := .of_same (host.lasts.requests _ _) rfl rfl
  records _ _ := .of_same (host.lasts.records _ _) rfl rfl
  summaryUnit file situation := by
    refine ⟨host.lasts.summaryUnit file situation, fun truthful => ?_⟩
    obtain ⟨-, ran⟩ | ⟨u, world, summaries, -, ran, -⟩ := summaryUnit_cases host file situation
    · rwa [ran]
    · rw [ran]
      exact ⟨truthful.existing, truthful.units⟩
  companion _ _ _ := .of_same (host.lasts.companion _ _ _) rfl rfl
  companionNames _ names _ _ unknown onward :=
    ⟨onward.toLasts.companionNames_put unknown names,
      fun truthful => ⟨(onward.truthful truthful).existing, (onward.truthful truthful).units⟩⟩
  attached _ _ := .of_same (host.lasts.attached _ _) rfl rfl
  parked _ _ := .of_same (host.lasts.parked _ _) rfl rfl

end Host

end CompanionBuild
