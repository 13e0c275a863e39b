import CompanionBuild.Emit.Pipeline
import CompanionBuild.Proofs.Host.History
import CompanionBuild.Proofs.Host.Lasting

/-! # Companions are attached once

A file is handed out with the names of its companions after its own references. The names are found out once, so every
answer comes out of the unit as it was read and of one list of companions, however often and by whatever way it is asked
for; before the unit is emitted the list is taken off again. A degraded build attaches nothing. Until then every companion
in the list can be made.
-/

namespace CompanionBuild

/-- The tables that units are kept in. -/
def Caches.unitTables (caches : Caches) : Table (Option SourceUnit) × Table SourceUnit × Table (List String) :=
  (caches.units, caches.attached, caches.companionNames)

namespace Host

variable {ω : Type}

/-- The parser names units as it is told, and attaches nothing to them. -/
structure ParsesPlainly (host : Host ω) : Prop where
  name : ∀ file text world, ((host.parse file text).run world).1.name = file
  unattached : ∀ file text world, ((host.parse file text).run world).1.writtenReferences = none

/-- A unit that the parser made of some text of a file. -/
def Parses (host : Host ω) (file : String) (u : SourceUnit) : Prop :=
  ∃ text world, u = ((host.parse file text).run world).1

/-! ## What is kept -/

/-- Units are kept as they were parsed. Units with companions attached were made out of these and of the companions found
out for the file, which can all be made as long as the build is not degraded. -/
structure KeepsUnits (host : Host ω) (situation : Situation ω) : Prop where
  parsed : ∀ file u, situation.caches.units.get? file = some (some u) → host.Parses file u
  attached : ∀ file u, situation.caches.attached.get? file = some u → ∃ parsed names,
    situation.caches.units.get? file = some (some parsed) ∧ situation.caches.companionNames.get? file = some names ∧
      u = Host.attached parsed names
  known : situation.caches.isDegraded = false → ∀ file names, situation.caches.companionNames.get? file = some names →
    ∀ name ∈ names, host.KnowsCompanion situation name

/-- What a situation becomes while units are looked up and made by the way of the host. -/
structure Retains (host : Host ω) (before after : Situation ω) : Prop extends Lasts before after where
  keeps : host.KeepsUnits before → host.KeepsUnits after

instance (host : Host ω) : IsPreorder (Situation ω) host.Retains where
  refl situation := ⟨refl_of Lasts situation, id⟩
  trans _ _ _ first second := ⟨trans_of Lasts first.toLasts second.toLasts, second.keeps ∘ first.keeps⟩

variable {host : Host ω}

/-- A step that leaves the units and the names of companions alone. -/
theorem Retains.of_same {before after : Situation ω} (lasts : Lasts before after)
    (same : after.caches.unitTables = before.caches.unitTables) : host.Retains before after := by
  obtain ⟨units, attached, names⟩ : after.caches.units = before.caches.units ∧
      after.caches.attached = before.caches.attached ∧ after.caches.companionNames = before.caches.companionNames := by
    simpa only [Caches.unitTables, Prod.mk.injEq] using same
  refine ⟨lasts, fun keeps => ⟨?_, ?_, ?_⟩⟩
  · rw [units]
    exact keeps.parsed
  · rw [units, attached, names]
    exact keeps.attached
  · rw [names, lasts.degraded]
    exact fun intact file names found name member => (keeps.known intact file names found name member).lasts lasts

theorem unitTables_disk (host : Host ω) : host.AdmitsDisk (Alike fun situation => situation.caches.unitTables) where
  world _ _ := rfl
  exists? _ := .memo (fun _ _ => rfl) (.inWorld (fun _ _ => rfl) _)

theorem writtenUnit_retains (file : String) : Within host.Retains (host.writtenUnit file) := by
  intro situation
  refine ⟨host.lasts.writtenUnit file situation, fun keeps => ?_⟩
  have lasts := host.lasts.writtenUnit file situation
  cases kept : situation.caches.units.get? file with
  | some u => rwa [writtenUnit, HostM.memo_of_some kept]
  | none =>
    obtain ⟨u, world, ran, read⟩ := writtenUnit_of_none kept
    rw [ran] at lasts ⊢
    refine ⟨fun other v found => ?_, fun other v found => ?_, fun intact other names found name member => ?_⟩
    · rw [Table.get?_put] at found
      split at found
      case isTrue same =>
        subst same
        obtain ⟨rfl, -⟩ | ⟨text, state, -, rfl⟩ := read
        · cases found
        · cases found
          exact ⟨text, state, rfl⟩
      case isFalse => exact keeps.parsed other v found
    · obtain ⟨parsed, names, unit, named, made⟩ := keeps.attached other v found
      exact ⟨parsed, names, lasts.units _ _ unit, named, made⟩
    · exact (keeps.known intact other names found name member).lasts lasts

/-- Nothing that is looked up or taken in touches units in another way. -/
theorem retains_companions (host : Host ω) : host.AdmitsCompanions host.Retains where
  world _ _ := .of_same (host.lasts.world _ _) rfl
  exists? file situation := .of_same (host.lasts.exists? file situation) (host.unitTables_disk.exists? file situation)
  writtenUnit := writtenUnit_retains
  isBundled file situation := by
    refine .of_same (host.lasts.isBundled file situation) ?_
    exact host.unitTables_disk.isBundled (fun _ _ => rfl) (fun _ _ => rfl) (fun _ _ _ _ _ same => same) _ situation
  moduleNames computed := .of_same (host.lasts.moduleNames computed) rfl
  metadata _ _ := .of_same (host.lasts.metadata _ _) rfl
  requests _ _ := .of_same (host.lasts.requests _ _) rfl
  records _ _ := .of_same (host.lasts.records _ _) rfl
  companion _ _ _ := .of_same (host.lasts.companion _ _ _) rfl

/-! ## Companions of a file -/

theorem generatableNames_known {names found : List String} {situation next : Situation ω}
    (ran : (host.generatableNames names).run situation = (found, next)) :
    ∀ name ∈ found, host.KnowsCompanion next name := by
  induction names generalizing situation found with
  | nil =>
    cases ran
    exact nofun
  | cons first rest ih =>
    rcases asked : (host.generatable first).run situation with ⟨verdict, middle⟩
    rcases others : (host.generatableNames rest).run middle with ⟨later, last⟩
    have lasts := (host.lasts.generatableNames rest).of_run others
    rw [generatableNames, run_bind asked, run_bind others] at ran
    cases ran
    split
    case isTrue yes =>
      intro name member
      obtain rfl | member := List.mem_cons.mp member
      · exact (generatable_known asked yes).lasts lasts
      · exact ih others name member
    case isFalse => exact ih others

theorem findCompanions_known {generator : Generator ω} {file : String} {names : List String}
    {situation next : Situation ω} (ran : (host.findCompanions generator file).run situation = (names, next)) :
    ∀ name ∈ names, host.KnowsCompanion next name := by
  unfold findCompanions at ran
  split at ran
  case isTrue =>
    cases ran
    exact nofun
  case isFalse =>
    rcases asked : (host.getsCompanions file).run situation with ⟨gets, middle⟩
    rw [run_bind asked] at ran
    cases gets with
    | false =>
      cases ran
      exact nofun
    | true =>
      rw [if_pos rfl] at ran
      exact generatableNames_known ran

theorem companionsOf_kept {generator : Generator ω} {file : String} {names : List String} {situation next : Situation ω}
    (ran : (host.companionsOf generator file).run situation = (names, next)) :
    next.caches.companionNames.get? file = some names :=
  HostM.memo_kept (fun _ _ => Table.get?_put_self ..) ran

theorem companionsOf_retains (generator : Generator ω) (file : String) :
    Within host.Retains (host.companionsOf generator file) := by
  intro situation
  refine ⟨host.lasts.companionsOf generator file situation, fun keeps => ?_⟩
  cases kept : situation.caches.companionNames.get? file with
  | some names => rwa [companionsOf_eq_memo, HostM.memo_of_some kept]
  | none =>
    rcases found : (host.findCompanions generator file).run situation with ⟨names, middle⟩
    have keeps := ((host.retains_companions.findCompanions generator file).of_run found).keeps keeps
    have standing := (host.looksUp.findCompanions generator file).of_run found
    have fresh : middle.caches.companionNames.get? file = none := by
      have same := congrArg Caches.companionNames standing
      exact (congrArg (Table.get? · file) same).trans kept
    have lasts := (refl_of Lasts middle).companionNames_put fresh names
    rw [companionsOf_eq_memo, HostM.memo_of_none kept, found]
    refine ⟨keeps.parsed, fun other u attached => ?_, fun intact other others bound name member => ?_⟩
    · obtain ⟨parsed, names, unit, named, made⟩ := keeps.attached other u attached
      exact ⟨parsed, names, unit, lasts.companionNames _ _ named, made⟩
    · rw [Table.get?_put] at bound
      split at bound
      case isTrue =>
        cases bound
        exact (findCompanions_known found name member).lasts lasts
      case isFalse => exact (keeps.known intact other others bound name member).lasts lasts

end Host

/-! ## Units with companions -/

/-- A unit is another one with some companions after its references, which can be taken off again. -/
structure SourceUnit.Carries (u parsed : SourceUnit) (companions : List String) : Prop where
  unit : u = { parsed with
    references := parsed.references ++ companions
    writtenReferences := if companions.isEmpty then none else some parsed.references }
  detached : ∀ (σ : Type) (symbols : SymbolResolver),
    (Transform.detachingCompanions : Transform σ).apply symbols u = pure parsed

namespace Host

variable {ω : Type} {host : Host ω} {generator : Generator ω} {situation next : Situation ω} {file : String}

/-- What is handed out carries the companions, if there are any. -/
theorem carries_attached {parsed : SourceUnit} (unattached : parsed.writtenReferences = none) (companions : List String) :
    (if companions.isEmpty then parsed else Host.attached parsed companions).Carries parsed companions := by
  obtain ⟨name, text, items, references, written, isDeclaration, moduleName, header, asRead⟩ := parsed
  cases unattached
  cases companions with
  | nil =>
    refine ⟨?_, fun _ _ => rfl⟩
    simp
  | cons first rest => exact ⟨rfl, fun _ _ => rfl⟩

theorem attach_run {u : SourceUnit} {names : List String} (keeps : host.KeepsUnits situation) (named : u.name = file)
    (unit : situation.caches.units.get? file = some (some u))
    (found : situation.caches.companionNames.get? file = some names) : ∃ next,
    (attach u names).run situation = (if names.isEmpty then u else Host.attached u names, next) ∧
      host.Retains situation next := by
  subst named
  have kept : ∃ next, (attach.keep u (Host.attached u names)).run situation = (Host.attached u names, next) ∧
      host.Retains situation next := by
    refine ⟨_, rfl, host.lasts.attached _ _, fun _ => ⟨keeps.parsed, fun other v bound => ?_, ?_⟩⟩
    · rw [Table.get?_put] at bound
      split at bound
      case isTrue same =>
        cases bound
        exact ⟨u, names, same ▸ unit, same ▸ found, rfl⟩
      case isFalse => exact keeps.attached other v bound
    · intro intact other others bound name member
      exact (keeps.known intact other others bound name member).lasts (host.lasts.attached _ _)
  unfold attach
  split
  case isTrue => exact ⟨situation, rfl, refl_of host.Retains situation⟩
  case isFalse =>
    rw [HostM.caches_bind]
    cases before : situation.caches.attached.get? u.name with
    | none => exact kept
    | some earlier =>
      -- What was handed out before was made of the same unit and the same companions.
      obtain ⟨parsed, others, unit', found', rfl⟩ := keeps.attached u.name earlier before
      rw [unit] at unit'
      rw [found] at found'
      cases unit'
      cases found'
      dsimp only
      rw [if_pos ⟨rfl, rfl⟩]
      exact ⟨situation, rfl, refl_of host.Retains situation⟩

theorem writtenUnit_kept {u : Option SourceUnit} (ran : (host.writtenUnit file).run situation = (u, next)) :
    next.caches.units.get? file = some u :=
  HostM.memo_kept (fun _ _ => Table.get?_put_self ..) ran

variable (plain : host.ParsesPlainly)

include plain

/-- The unit of a file is handed out with the companions of the file. -/
theorem fileUnit_answer {answer : Option SourceUnit} (keeps : host.KeepsUnits situation)
    (ran : (host.fileUnit generator file).run situation = (answer, next)) :
    host.KeepsUnits next ∧ ∀ u, answer = some u → ∃ parsed names, u.Carries parsed names ∧
      next.caches.units.get? file = some (some parsed) ∧ next.caches.companionNames.get? file = some names := by
  rcases read : (host.writtenUnit file).run situation with ⟨written, middle⟩
  have keeps := ((writtenUnit_retains file).of_run read).keeps keeps
  rcases asked : (host.companionsOf generator file).run middle with ⟨names, after⟩
  have retains := (companionsOf_retains generator file).of_run asked
  have keeps := retains.keeps keeps
  have unit := retains.units _ _ (writtenUnit_kept read)
  have found := companionsOf_kept asked
  rw [fileUnit, run_bind read, run_bind asked] at ran
  cases written with
  | none =>
    cases ran
    exact ⟨keeps, nofun⟩
  | some parsed =>
    obtain ⟨text, world, made⟩ := keeps.parsed file parsed unit
    have named : parsed.name = file := made ▸ plain.name file text world
    have unattached : parsed.writtenReferences = none := made ▸ plain.unattached file text world
    obtain ⟨last, attached, retains⟩ := attach_run keeps named unit found
    dsimp only at ran
    rw [run_bind attached] at ran
    cases ran
    refine ⟨retains.keeps keeps, fun u handed => ?_⟩
    cases handed
    exact ⟨parsed, names, carries_attached unattached names, retains.units _ _ unit,
      retains.companionNames _ _ found⟩

theorem retains_sources (generator : Generator ω) : host.AdmitsSources generator host.Retains where
  toAdmitsLookups := host.retains_companions.toAdmitsLookups
  summaryUnit file situation := by
    refine .of_same (host.lasts.summaryUnit file situation) ?_
    obtain ⟨-, ran⟩ | ⟨u, world, summaries, -, ran, -⟩ := summaryUnit_cases host file situation
    · rw [ran]
    · rw [ran]
      rfl
  companionUnit := host.retains_companions.companionUnit generator
  fileUnit file situation :=
    ⟨host.lasts.fileUnit generator file situation, fun keeps => (fileUnit_answer plain keeps rfl).1⟩
  parked _ _ := .of_same (host.lasts.parked _ _) rfl

end Host

namespace HostAct

variable {ω : Type} {host : Host ω} (plain : host.ParsesPlainly)

include plain

theorem run_retains {act : HostAct ω} (intact : act ≠ degrade) : Within host.Retains (act.run host) :=
  within_of_sources host.retains_companions.intake (Host.retains_sources plain)
    (fun _ _ => .of_same (host.lasts.parked _ _) rfl) intact

theorem run_keeps (act : HostAct ω) {situation : Situation ω} (keeps : host.KeepsUnits situation) :
    host.KeepsUnits ((act.run host).run situation).2 := by
  by_cases degrades : act = degrade
  · rw [degrades]
    exact ⟨keeps.parsed, keeps.attached, nofun⟩
  · exact (run_retains plain degrades situation).keeps keeps

end HostAct

/-! ## Answers -/

namespace Host

variable {ω : Type} {host : Host ω} {generator : Generator ω} {situation middle next : Situation ω} {file name : String}

/-- A name means a file as it was written: no summary has it, and it is no companion that the build hands out. -/
def IsOriginal (host : Host ω) (situation : Situation ω) (file : String) : Prop :=
  situation.caches.summaries.has file = false ∧
    (situation.caches.isDegraded = true ∨
      situation.caches.companions.has file = false ∧ ((host.generatable file).run situation).1.isYes = false)

theorem PassesOver.retains (passed : host.PassesOver generator file situation middle) : host.Retains situation middle := by
  obtain ⟨-, rfl⟩ | ⟨-, -, asked⟩ := passed.cases
  · exact refl_of host.Retains middle
  · exact (host.retains_companions.generatable file).of_run asked

/-- A companion that can be made has a unit, unless making it fails. -/
theorem sourceUnit_ne_none_of_generatable (intact : situation.caches.isDegraded = false)
    (yes : ((host.generatable name).run situation).1.isYes = true) (generator : Generator ω) :
    ((host.sourceUnit generator name).run.run situation).1 ≠ .ok none := by
  intro none
  rcases ran : (host.sourceUnit generator name).run.run situation with ⟨outcome, next⟩
  rw [ran] at none
  cases sourceUnit_answer ran with
  | companion _ _ answered => exact answered none
  | summary passed has found => cases none
  | file passed hasNot read =>
    obtain ⟨degraded, -⟩ | ⟨-, -, asked⟩ := passed.cases
    · rw [intact] at degraded
      cases degraded
    · rw [asked] at yes
      cases yes

section Plain

variable (plain : host.ParsesPlainly)

include plain

/-- A file is answered by its unit as it was read, with the companions found out for it unless the build is degraded. -/
theorem sourceUnit_original {u : SourceUnit} (keeps : host.KeepsUnits situation)
    (original : host.IsOriginal situation file)
    (ran : (host.sourceUnit generator file).run.run situation = (.ok (some u), next)) :
    ∃ parsed names, u.Carries parsed names ∧ next.caches.units.get? file = some (some parsed) ∧
      (situation.caches.isDegraded = true → names = []) ∧
      (situation.caches.isDegraded = false → next.caches.companionNames.get? file = some names) := by
  generalize answer : (.ok (some u) : Outcome (Option SourceUnit)) = outcome at ran
  cases sourceUnit_answer ran with
  | companion intact asked answered =>
    obtain degraded | ⟨hasNot, refused⟩ := original.2
    · rw [intact] at degraded
      cases degraded
    · cases companionUnit_answer asked with
      | kept found =>
        rw [Table.has_of_get?_eq_some found] at hasNot
        cases hasNot
      | refused => exact (answered rfl).elim
      | failed _ verdict _ =>
        rw [verdict] at refused
        cases refused
      | made _ verdict _ _ =>
        rw [verdict] at refused
        cases refused
  | summary passed has found =>
    rw [passed.retains.summaries, original.1] at has
    cases has
  | file passed hasNot read =>
    cases answer
    have keeps := passed.retains.keeps keeps
    split at read
    case isTrue degraded =>
      have keeps := ((writtenUnit_retains file).of_run read).keeps keeps
      obtain ⟨text, world, made⟩ := keeps.parsed file u (writtenUnit_kept read)
      have carries := carries_attached (made ▸ plain.unattached file text world) []
      exact ⟨u, [], carries, writtenUnit_kept read, fun _ => rfl, fun intact => by rw [degraded] at intact; cases intact⟩
    case isFalse intact =>
      obtain ⟨parsed, names, carries, unit, found⟩ := (fileUnit_answer plain keeps read).2 u rfl
      exact ⟨parsed, names, carries, unit, fun degraded => (intact degraded).elim, fun _ => found⟩

/-- What is known of a file once it was answered: its unit as it was read, and the companions found out for it. -/
structure Knows (host : Host ω) (file : String) (parsed : SourceUnit) (companions : List String)
    (situation : Situation ω) : Prop where
  keeps : host.KeepsUnits situation
  unit : situation.caches.units.get? file = some (some parsed)
  names : situation.caches.isDegraded = false → situation.caches.companionNames.get? file = some companions

theorem Knows.after {parsed : SourceUnit} {companions : List String} (knows : host.Knows file parsed companions situation)
    (acts : List (HostAct ω)) : host.Knows file parsed companions (HostAct.situationAfter host acts situation) := by
  refine HostAct.situationAfter_induction host (P := host.Knows file parsed companions) (fun act state knows => ?_) acts
    knows
  have keeps := act.run_keeps plain knows.keeps
  by_cases degrades : act = .degrade
  · rw [degrades] at keeps ⊢
    exact ⟨keeps, knows.unit, nofun⟩
  · have retains := act.run_retains plain degrades state
    refine ⟨keeps, retains.units _ _ knows.unit, fun intact => ?_⟩
    exact retains.companionNames _ _ (knows.names (retains.degraded.symm.trans intact))

/-- What holds of a file in a situation of which its unit as it was read and its companions are known: its answers, if it
is answered as a file, are made of these, and the companions can be made and are never missing. A degraded build leaves
the companions away. -/
structure AttachedOnce (host : Host ω) (file : String) (parsed : SourceUnit) (companions : List String)
    (situation : Situation ω) : Prop where
  read : (host.writtenUnit file).run situation = (some parsed, situation)
  answered : ∀ generator u next, host.IsOriginal situation file →
    (host.sourceUnit generator file).run.run situation = (.ok (some u), next) →
      u.Carries parsed (if situation.caches.isDegraded then [] else companions)
  generatable : situation.caches.isDegraded = false → ∀ name ∈ companions,
    ((host.generatable name).run situation).1.isYes = true ∧
      ∀ generator, ((host.sourceUnit generator name).run.run situation).1 ≠ .ok none

theorem Knows.attachedOnce {parsed : SourceUnit} {companions : List String}
    (knows : host.Knows file parsed companions situation) : host.AttachedOnce file parsed companions situation := by
  refine ⟨?_, fun generator u next original ran => ?_, fun intact name member => ?_⟩
  · rw [writtenUnit, HostM.memo_of_some knows.unit]
  · obtain ⟨read, names, carries, unit, none, found⟩ := sourceUnit_original plain knows.keeps original ran
    have lasts : Lasts situation next := (host.lasts.sourceUnit generator file).of_run ran
    have same := (lasts.units _ _ knows.unit).symm.trans unit
    cases same
    cases degraded : situation.caches.isDegraded with
    | true => exact none degraded ▸ carries
    | false =>
      have same := (lasts.companionNames _ _ (knows.names degraded)).symm.trans (found degraded)
      cases same
      exact carries
  · have known := knows.keeps.known intact file companions (knows.names intact) name member
    exact ⟨known.generatable, sourceUnit_ne_none_of_generatable intact known.generatable⟩

end Plain

/-- In a build whose parser attaches nothing itself, whatever was asked and made before, the unit of a file is answered as
it was parsed with one list of companions after its references. From then on every answer comes of the same unit and the
same companions, or of no companions once the build is degraded. Until then the companions can all be made. -/
theorem companions_attached_once (host : Host ω) (plain : host.ParsesPlainly) (summaries : List LibrarySummary) (world : ω)
    (acts : List (HostAct ω)) (generator : Generator ω) (file : String) (u : SourceUnit) (next : Situation ω)
    (original : host.IsOriginal (HostAct.situationAfter host acts ⟨world, .ofSummaries summaries⟩) file)
    (answered : (host.sourceUnit generator file).run.run
      (HostAct.situationAfter host acts ⟨world, .ofSummaries summaries⟩) = (.ok (some u), next)) :
    ∃ parsed companions, host.Parses file parsed ∧ u.Carries parsed companions ∧
      ((HostAct.situationAfter host acts ⟨world, .ofSummaries summaries⟩).caches.isDegraded = true → companions = []) ∧
      ∀ later, host.AttachedOnce file parsed companions (HostAct.situationAfter host later next) := by
  have keeps : host.KeepsUnits (HostAct.situationAfter host acts ⟨world, .ofSummaries summaries⟩) :=
    HostAct.situationAfter_induction host (P := host.KeepsUnits) (fun act _ => act.run_keeps plain) acts
      ⟨nofun, nofun, fun _ => nofun⟩
  have retains := ((retains_sources plain generator).sourceUnit file).of_run answered
  obtain ⟨parsed, companions, carries, unit, none, found⟩ := sourceUnit_original plain keeps original answered
  have knows : host.Knows file parsed companions next :=
    ⟨retains.keeps keeps, unit, fun intact => found (retains.degraded.symm.trans intact)⟩
  exact ⟨parsed, companions, knows.keeps.parsed file parsed unit, carries, none,
    fun later => (knows.after plain later).attachedOnce plain⟩

/-- A disk with one source. -/
def pageDisk (file : String) : Option String :=
  if file = "/a.ts" then some "" else none

def pageHost : Host Unit where
  options := {}
  roots := []
  files :=
    { fileExists := fun file => pure (pageDisk file).isSome
      directoryExists := fun _ => pure true
      read := fun file => pure (pageDisk file)
      write := fun _ _ _ => pure (.ok ())
      currentDirectory := "/" }
  parse name text := pure { SourceUnit.plain name text with references := ["/b.ts"] }
  collect _ := pure none

def pageGenerator : Generator Unit where
  generate name _ := .done (.ok { base := "/a.ts", name, statements := some [] })
  namesFor _ := pure ["/a.axfactory.ts", "/a.css.axstyle.ts"]

/-- Of the two companions that the source may have the one that can be made is attached, and stays so until the build is
degraded. -/
theorem page_attached_once : ∃ u next parsed companions,
    (pageHost.sourceUnit pageGenerator "/a.ts").run.run ⟨(), .ofSummaries []⟩ = (.ok (some u), next) ∧
    u.references = ["/b.ts", "/a.axfactory.ts"] ∧ pageHost.Parses "/a.ts" parsed ∧ u.Carries parsed companions ∧
    pageHost.AttachedOnce "/a.ts" parsed companions
      (HostAct.situationAfter pageHost [.unit pageGenerator "/a.axfactory.ts"] next) ∧
    pageHost.AttachedOnce "/a.ts" parsed companions (HostAct.situationAfter pageHost [.degrade] next) := by
  have plain : pageHost.ParsesPlainly := ⟨fun _ _ _ => rfl, fun _ _ _ => rfl⟩
  have original : pageHost.IsOriginal ⟨(), .ofSummaries []⟩ "/a.ts" := ⟨by decide, .inr ⟨by decide, by decide⟩⟩
  obtain ⟨parsed, companions, parses, carries, -, once⟩ :=
    companions_attached_once pageHost plain [] () [] pageGenerator "/a.ts" _ _ original rfl
  exact ⟨_, _, parsed, companions, rfl, by decide, parses, carries, once _, once _⟩

end Host

end CompanionBuild
