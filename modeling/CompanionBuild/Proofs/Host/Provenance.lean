import CompanionBuild.Proofs.Host.Attachment

/-! # Where units come from

A unit that the host hands out was parsed in this build, or came along with a summary. What a build attaches to a unit it
can make. So a reference to a companion that cannot be made comes out of a summary that brought its unit along.
-/

namespace CompanionBuild

namespace Host

variable {ω : Type}

/-- The parser makes units of texts and of nothing else. -/
structure ParsesAsWritten (host : Host ω) : Prop extends host.ParsesPlainly where
  asRead : ∀ file text world, ((host.parse file text).run world).1.asRead = none

/-- A summary is kept with the unit that it brought along, or with one that was parsed if it brought none. -/
def StandsFor (host : Host ω) (file : String) (brought kept : LibrarySummary) : Prop :=
  kept.unit = brought.unit ∨ brought.unit = none ∧ ∃ u, kept.unit = some u ∧ host.Parses file u

/-- Nothing is attached to companions, and the summaries are those that the build began with. -/
structure KeepsOrigins (host : Host ω) (start : Table LibrarySummary) (situation : Situation ω) : Prop where
  companions : ∀ file stored, situation.caches.companions.get? file = some stored →
    stored.unit.writtenReferences = none
  summaries : ∀ file, Option.Rel (host.StandsFor file) (start.get? file) (situation.caches.summaries.get? file)

theorem keepsOrigins_ofSummaries (host : Host ω) (summaries : List LibrarySummary) (world : ω) :
    host.KeepsOrigins (Caches.ofSummaries summaries).summaries ⟨world, .ofSummaries summaries⟩ where
  companions := nofun
  summaries file := by
    cases (Caches.ofSummaries summaries).summaries.get? file with
    | none => exact .none
    | some summary => exact .some (.inl rfl)

/-- The companions and summaries of a situation. -/
def originTables (caches : Caches) : Table CompanionUnit × Table LibrarySummary :=
  (caches.companions, caches.summaries)

variable {host : Host ω} {start : Table LibrarySummary} {situation next : Situation ω} {file : String}

theorem KeepsOrigins.of_same (origins : host.KeepsOrigins start situation)
    (same : originTables next.caches = originTables situation.caches) : host.KeepsOrigins start next := by
  obtain ⟨companions, summaries⟩ := Prod.mk.inj same
  exact ⟨companions ▸ origins.companions, summaries ▸ origins.summaries⟩

/-- How a summary answers for its file. -/
theorem summaryUnit_of_some {summary : LibrarySummary} (kept : situation.caches.summaries.get? file = some summary) :
    (∃ u, summary.unit = some u ∧ (host.summaryUnit file).run situation = (some (u.asRead.getD u), situation)) ∨
      summary.unit = none ∧ ∃ u world, host.Parses file u ∧ (host.summaryUnit file).run situation =
        (some (u.asRead.getD u), ⟨world, { situation.caches with
          summaries := situation.caches.summaries.put file { summary with unit := some u } }⟩) := by
  rw [summaryUnit, HostM.caches_bind, kept]
  dsimp only
  cases summary.unit with
  | some u => exact .inl ⟨u, rfl, rfl⟩
  | none => exact .inr ⟨rfl, _, _, ⟨summary.text, situation.world, rfl⟩, rfl⟩

theorem KeepsOrigins.summaryUnit (origins : host.KeepsOrigins start situation) (file : String) :
    host.KeepsOrigins start ((host.summaryUnit file).run situation).2 := by
  cases kept : situation.caches.summaries.get? file with
  | none =>
    obtain ⟨-, ran⟩ | ⟨-, -, -, has, -⟩ := summaryUnit_cases host file situation
    · rwa [ran]
    · rw [Table.has_of_get?_eq_none kept] at has
      cases has
  | some summary =>
    obtain ⟨u, -, ran⟩ | ⟨bare, u, world, parses, ran⟩ := @summaryUnit_of_some _ host _ _ _ kept
    · rwa [ran]
    · rw [ran]
      refine ⟨origins.companions, fun other => ?_⟩
      have stands := origins.summaries other
      rw [Table.get?_put]
      split
      case isTrue same =>
        subst same
        rw [kept] at stands
        generalize start.get? file = brought at stands ⊢
        cases stands with
        | some stands =>
          obtain unchanged | ⟨-, v, parsed, -⟩ := stands
          · exact .some (.inr ⟨unchanged.symm.trans bare, u, rfl, parses⟩)
          · rw [bare] at parsed
            cases parsed
      case isFalse => exact stands

/-- What the parser made of a companion is kept as it is. -/
theorem KeepsOrigins.addCompanion (plain : host.ParsesPlainly) (origins : host.KeepsOrigins start situation)
    (companion : Companion) (references : Names) :
    host.KeepsOrigins start ((host.addCompanion companion references).run.run situation).2 := by
  rcases ran : (host.addCompanion companion references).run.run situation with ⟨outcome, next⟩
  obtain ⟨-, -, rfl⟩ | ⟨stored, world, renders, -, -, rfl⟩ := addCompanion_cases ran
  · exact origins
  · refine ⟨fun other found bound => ?_, origins.summaries⟩
    rw [Table.get?_put] at bound
    split at bound
    case isTrue =>
      cases bound
      obtain ⟨items, state, moduleName, -, made, -⟩ := renders.unit
      rw [made]
      exact plain.unattached _ _ _
    case isFalse => exact origins.companions other found bound

/-- Units are looked up without a change to companions and summaries. -/
theorem origins_files (host : Host ω) (start : Table LibrarySummary) :
    host.AdmitsFiles (Preserving (host.KeepsOrigins start)) where
  toAdmitsLookups := (host.lookups_of_view originTables fun _ => rfl).mono fun _ _ same origins => origins.of_same same
  summaryUnit file _ origins := origins.summaryUnit file
  companionNames _ _ _ _ _ passes origins := (passes origins).of_same rfl
  attached _ _ origins := origins.of_same rfl
  parked _ _ origins := origins.of_same rfl

theorem origins_intake (plain : host.ParsesPlainly) (start : Table LibrarySummary) :
    host.AdmitsIntake (Preserving (host.KeepsOrigins start)) where
  toAdmitsLookups := (host.origins_files start).toAdmitsLookups
  addCompanion companion references _ origins := origins.addCompanion plain companion references

theorem origins_sources (plain : host.ParsesPlainly) (start : Table LibrarySummary) (generator : Generator ω) :
    host.AdmitsSources generator (Preserving (host.KeepsOrigins start)) where
  toAdmitsLookups := (host.origins_files start).toAdmitsLookups
  summaryUnit := (host.origins_files start).summaryUnit
  companionUnit := (origins_intake plain start).companionUnit generator
  fileUnit := (host.origins_files start).fileUnit generator
  parked := (host.origins_files start).parked

end Host

namespace HostAct

variable {ω : Type} {host : Host ω} {start : Table LibrarySummary}

theorem run_keepsOrigins (plain : host.ParsesPlainly) (act : HostAct ω) {situation : Situation ω}
    (origins : host.KeepsOrigins start situation) : host.KeepsOrigins start ((act.run host).run situation).2 := by
  by_cases degrades : act = degrade
  · rw [degrades]
    exact origins.of_same rfl
  · exact within_of_sources (Host.origins_intake plain start) (Host.origins_sources plain start)
      (host.origins_files start).parked degrades situation origins

end HostAct

/-! ## References -/

namespace Host

variable {ω : Type} {host : Host ω} {generator : Generator ω} {start : Table LibrarySummary}
  {situation next : Situation ω} {file : String}

/-- A companion can be made. -/
def Generates (host : Host ω) (situation : Situation ω) (name : String) : Prop :=
  ((host.generatable name).run situation).1.isYes = true

/-- A unit refers to nothing but what is written in its file and companions that can be made. -/
def IsCurrent (host : Host ω) (situation : Situation ω) (u : SourceUnit) : Prop :=
  ∀ name ∈ u.references, name ∈ u.ownReferences ∨ host.Generates situation name

/-- A unit carries a reference that is not written in its file, to a companion that cannot be made. -/
def CarriesRefused (host : Host ω) (situation : Situation ω) (u : SourceUnit) : Prop :=
  ∃ name ∈ u.references, name ∉ u.ownReferences ∧ ¬host.Generates situation name

theorem isCurrent_iff_not_carriesRefused {u : SourceUnit} :
    host.IsCurrent situation u ↔ ¬host.CarriesRefused situation u := by
  simp only [IsCurrent, CarriesRefused, not_exists, not_and, not_not, or_iff_not_imp_left]

theorem isCurrent_of_unattached {u : SourceUnit} (unattached : u.writtenReferences = none) :
    host.IsCurrent situation u := by
  intro name member
  rw [SourceUnit.ownReferences, unattached]
  exact .inl member

theorem isCurrent_of_carries {u parsed : SourceUnit} {companions : List String} (carries : u.Carries parsed companions)
    (known : ∀ name ∈ companions, host.KnowsCompanion situation name) : host.IsCurrent situation u := by
  intro name member
  rw [carries.unit] at member ⊢
  obtain written | attached := List.mem_append.mp member
  · refine .inl ?_
    rw [SourceUnit.ownReferences]
    dsimp only
    split
    · exact member
    · exact written
  · exact .inr (known name attached).generatable

/-- A name means no companion. -/
def MeansNoCompanion (host : Host ω) (situation : Situation ω) (file : String) : Prop :=
  situation.caches.companions.has file = false ∧ ¬host.Generates situation file

/-- A companion is had as it was parsed. -/
theorem companionUnit_unattached (plain : host.ParsesPlainly) (origins : host.KeepsOrigins start situation) {u : SourceUnit}
    (ran : (host.companionUnit generator file).run.run situation = (.ok (some u), next)) :
    u.writtenReferences = none ∧ ¬host.MeansNoCompanion situation file := by
  generalize answer : (.ok (some u) : Outcome (Option SourceUnit)) = outcome at ran
  cases companionUnit_answer ran with
  | kept found =>
    cases answer
    refine ⟨origins.companions _ _ found, fun none => ?_⟩
    rw [MeansNoCompanion, Table.has_of_get?_eq_some found] at none
    cases none.1
  | refused => cases answer
  | failed => cases answer
  | made unknown asked made added =>
    rename_i outcome
    cases outcome with
    | error error => cases answer
    | ok v =>
      cases answer
      refine ⟨?_, fun none => none.2 (by rw [Generates, asked]; rfl)⟩
      obtain ⟨-, failed, -⟩ | ⟨stored, world, renders, -, same, -⟩ := addCompanion_cases added
      · cases failed
      · cases same
        obtain ⟨items, state, moduleName, -, made, -⟩ := renders.unit
        rw [made]
        exact plain.unattached _ _ _

/-- The unit that came along with the summary of a file, as it was read. -/
def broughtUnit? (start : Table LibrarySummary) (file : String) : Option SourceUnit :=
  ((start.get? file).bind (·.unit)).map fun u => u.asRead.getD u

/-- A summary answers with the unit that came along with it, or with what the parser made of its text. -/
theorem summaryUnit_origin (plain : host.ParsesAsWritten) (origins : host.KeepsOrigins start situation) {u : SourceUnit}
    (ran : (host.summaryUnit file).run situation = (some u, next)) :
    broughtUnit? start file = some u ∨ broughtUnit? start file = none ∧ u.writtenReferences = none := by
  have unattached {v : SourceUnit} (parses : host.Parses file v) : (v.asRead.getD v).writtenReferences = none := by
    obtain ⟨text, world, rfl⟩ := parses
    rw [plain.asRead]
    exact plain.unattached file text world
  have stands := origins.summaries file
  cases kept : situation.caches.summaries.get? file with
  | none =>
    obtain ⟨-, asked⟩ | ⟨-, -, -, has, -⟩ := summaryUnit_cases host file situation
    · rw [asked] at ran
      cases ran
    · rw [Table.has_of_get?_eq_none kept] at has
      cases has
  | some summary =>
    rw [kept] at stands
    unfold broughtUnit?
    generalize start.get? file = brought at stands ⊢
    cases stands with
    | some stands =>
      obtain ⟨v, unit, asked⟩ | ⟨bare, v, world, parses, asked⟩ := @summaryUnit_of_some _ host _ _ _ kept
      · rw [asked] at ran
        cases ran
        obtain unchanged | ⟨none, w, parsed, parses⟩ := stands
        · exact .inl (by rw [Option.bind_some, ← unchanged, unit, Option.map_some])
        · rw [unit] at parsed
          cases parsed
          exact .inr ⟨by rw [Option.bind_some, none, Option.map_none], unattached parses⟩
      · rw [asked] at ran
        cases ran
        refine .inr ⟨?_, unattached parses⟩
        obtain unchanged | ⟨none, w, parsed, -⟩ := stands
        · rw [Option.bind_some, ← unchanged, bare, Option.map_none]
        · rw [bare] at parsed
          cases parsed

/-- What is answered came along with a summary, or refers only to what is written and what can be made. -/
theorem sourceUnit_origin (plain : host.ParsesAsWritten) (keeps : host.KeepsUnits situation)
    (origins : host.KeepsOrigins start situation) (intact : situation.caches.isDegraded = false) {u : SourceUnit}
    (ran : (host.sourceUnit generator file).run.run situation = (.ok (some u), next)) :
    host.MeansNoCompanion situation file ∧ broughtUnit? start file = some u ∨
      (host.MeansNoCompanion situation file → broughtUnit? start file = none) ∧ host.IsCurrent next u := by
  have passes {middle : Situation ω} (passed : host.PassesOver generator file situation middle) :
      host.MeansNoCompanion situation file ∧ host.KeepsUnits middle ∧ host.KeepsOrigins start middle := by
    obtain ⟨degraded, -⟩ | ⟨-, unknown, asked⟩ := passed.cases
    · rw [intact] at degraded
      cases degraded
    · refine ⟨⟨unknown, by rw [Generates, asked]; exact Bool.false_ne_true⟩, passed.retains.keeps keeps, ?_⟩
      exact ((host.origins_files start).generatable file).of_run asked origins
  have lasts : Lasts situation next := (host.lasts.sourceUnit generator file).of_run ran
  generalize answer : (.ok (some u) : Outcome (Option SourceUnit)) = outcome at ran
  cases sourceUnit_answer ran with
  | companion _ asked answered =>
    subst answer
    obtain ⟨unattached, means⟩ := companionUnit_unattached plain.toParsesPlainly origins asked
    exact .inr ⟨fun none => (means none).elim, isCurrent_of_unattached unattached⟩
  | summary passed has found =>
    cases answer
    obtain ⟨none, -, origins⟩ := passes passed
    obtain brought | ⟨bare, unattached⟩ := summaryUnit_origin plain origins found
    · exact .inl ⟨none, brought⟩
    · exact .inr ⟨fun _ => bare, isCurrent_of_unattached unattached⟩
  | file passed hasNot read =>
    cases answer
    obtain ⟨-, keeps, origins⟩ := passes passed
    rw [intact, if_neg Bool.false_ne_true] at read
    obtain ⟨keeps, answered⟩ := fileUnit_answer plain.toParsesPlainly keeps read
    obtain ⟨parsed, names, carries, -, found⟩ := answered u rfl
    have known := keeps.known (lasts.degraded.trans intact) file names found
    refine .inr ⟨fun _ => ?_, isCurrent_of_carries carries known⟩
    have stands := origins.summaries file
    rw [Option.isNone_iff_eq_none.mp (Option.isSome_eq_false_iff.mp hasNot)] at stands
    unfold broughtUnit?
    generalize start.get? file = brought at stands ⊢
    cases stands
    rfl

/-- What is answered carries a reference to a companion that cannot be made just where it came along with a summary. -/
theorem carriesRefused_iff (plain : host.ParsesAsWritten) (keeps : host.KeepsUnits situation)
    (origins : host.KeepsOrigins start situation) (intact : situation.caches.isDegraded = false) {u : SourceUnit}
    (ran : (host.sourceUnit generator file).run.run situation = (.ok (some u), next)) :
    host.CarriesRefused next u ↔ host.MeansNoCompanion situation file ∧
      ∃ brought, broughtUnit? start file = some brought ∧ host.CarriesRefused next brought := by
  obtain ⟨none, brought⟩ | ⟨bare, current⟩ := sourceUnit_origin plain keeps origins intact ran
  · rw [brought]
    simp [none]
  · constructor
    · exact fun refused => (isCurrent_iff_not_carriesRefused.mp current refused).elim
    · rintro ⟨none, brought, found, -⟩
      rw [bare none] at found
      cases found

end Host

end CompanionBuild
