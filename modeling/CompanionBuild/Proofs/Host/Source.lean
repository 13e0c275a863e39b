import CompanionBuild.Host.Unit
import CompanionBuild.Proofs.Host.Lookup
import CompanionBuild.Proofs.Table

/-! # How units are had

What the host does to have the unit of a name, case by case: it is kept or read, made by a generator and taken in, or
found in a summary. What holds of units in particular is proved from these cases.
-/

namespace CompanionBuild.Host

variable {ω : Type} {host : Host ω} {generator : Generator ω} {situation next : Situation ω} {file : String}

/-! ## Files and summaries -/

/-- A unit that is not kept is read, and kept. -/
theorem writtenUnit_of_none (fresh : situation.caches.units.get? file = none) : ∃ u world,
    (host.writtenUnit file).run situation =
        (u, { world, caches := { situation.caches with units := situation.caches.units.put file u } }) ∧
      (u = none ∧ ((host.files.read file).run situation.world).1 = none ∨
        ∃ text state, ((host.files.read file).run situation.world).1 = some text ∧
          u = some ((host.parse file text).run state).1) := by
  rw [writtenUnit, HostM.memo_of_none fresh]
  rcases read : (host.files.read file).run situation.world with ⟨text, world⟩
  have asked : (host.readDisk file).run situation = (text, { situation with world }) := by
    have run : (host.readDisk file).run situation = (((host.files.read file).run situation.world).1,
      { situation with world := ((host.files.read file).run situation.world).2 }) := rfl
    rw [run, read]
  rw [run_bind asked]
  cases text with
  | none => exact ⟨none, _, rfl, .inl ⟨rfl, rfl⟩⟩
  | some text => exact ⟨some _, _, rfl, .inr ⟨text, world, rfl, rfl⟩⟩

/-- The unit of a summary, if there is one. -/
theorem summaryUnit_cases (host : Host ω) (file : String) (situation : Situation ω) :
    (situation.caches.summaries.has file = false ∧ (host.summaryUnit file).run situation = (none, situation)) ∨
      ∃ u world summaries, situation.caches.summaries.has file = true ∧
        (host.summaryUnit file).run situation = (some u, ⟨world, { situation.caches with summaries }⟩) ∧
        ∀ other, summaries.has other = situation.caches.summaries.has other := by
  rw [summaryUnit, HostM.caches_bind]
  cases kept : situation.caches.summaries.get? file with
  | none => exact .inl ⟨Table.has_of_get?_eq_none kept, rfl⟩
  | some summary =>
    have has := Table.has_of_get?_eq_some kept
    refine .inr ?_
    dsimp only
    cases summary.unit with
    | some u => exact ⟨_, situation.world, situation.caches.summaries, has, rfl, fun _ => rfl⟩
    | none =>
      have stays (made : LibrarySummary) (other : String) :
          (situation.caches.summaries.put file made).has other = situation.caches.summaries.has other := by
        rw [Table.has_put]
        by_cases same : file = other
        · rw [← same, has, Bool.or_true]
        · simp [same]
      exact ⟨_, _, _, has, rfl, stays _⟩

/-! ## Companions -/

/-- A companion in the form in which the host keeps it: its statements are printed, and the text is parsed. -/
structure Renders (host : Host ω) (companion : Companion) (stored : CompanionUnit) : Prop where
  base : stored.base = companion.base
  unit : ∃ items world moduleName, companion.statements = some items ∧
    stored.unit = { ((host.parse companion.name (Items.print items).text).run world).1 with moduleName } ∧
    stored.origins = ⟨(Items.print items).marks, companion.origins⟩

theorem Renders.isSome {companion : Companion} {stored : CompanionUnit} (renders : host.Renders companion stored) :
    companion.statements.isSome = true := by
  obtain ⟨items, _, _, stated, -⟩ := renders.unit
  rw [stated]
  rfl

theorem companionModule_run (name : String) (situation : Situation ω) : ∃ moduleName world,
    (host.companionModule name).run situation = (moduleName, { situation with world }) := by
  unfold companionModule
  split
  · split
    · exact ⟨_, _, rfl⟩
    · exact ⟨_, situation.world, rfl⟩
  · exact ⟨none, situation.world, rfl⟩

/-- A companion is taken in if it has statements. -/
theorem addCompanion_cases {companion : Companion} {references : Names} {outcome : Outcome SourceUnit}
    (ran : (host.addCompanion companion references).run.run situation = (outcome, next)) :
    (companion.statements = none ∧ outcome = .error (.usage (.noStatements companion.name)) ∧ next = situation) ∨
      ∃ stored world, host.Renders companion stored ∧ stored.references = references ∧ outcome = .ok stored.unit ∧
        next = ⟨world, { situation.caches with
          companions := situation.caches.companions.put companion.name stored }⟩ := by
  unfold addCompanion at ran
  cases statements : companion.statements with
  | none =>
    rw [statements] at ran
    cases ran
    exact .inl ⟨rfl, rfl, rfl⟩
  | some items =>
    have printed : { SourceUnit.plain companion.name "" with items }.print = Items.print items := rfl
    rw [statements] at ran
    dsimp only at ran
    rw [printed] at ran
    rcases parsed : (host.parse companion.name (Items.print items).text).run situation.world with ⟨u, world⟩
    have parses : (Attempt.inWorld (host.parse companion.name (Items.print items).text)).run.run situation =
        (.ok u, { situation with world }) := by
      have run : (Attempt.inWorld (host.parse companion.name (Items.print items).text)).run.run situation =
        (.ok ((host.parse companion.name (Items.print items).text).run situation.world).1, { situation with
          world := ((host.parse companion.name (Items.print items).text).run situation.world).2 }) := rfl
      rw [run, parsed]
    obtain ⟨moduleName, after, named⟩ := host.companionModule_run companion.name { situation with world }
    rw [run_bind_of_ok parses, Attempt.lift_bind named] at ran
    cases ran
    refine .inr ⟨_, after, ⟨rfl, items, situation.world, moduleName, statements, ?_, rfl⟩, rfl, rfl, rfl⟩
    rw [parsed]

/-- How the unit of a companion is had. -/
inductive CompanionAnswer (host : Host ω) (generator : Generator ω) (file : String) (situation : Situation ω) :
    Outcome (Option SourceUnit) → Situation ω → Prop
  | kept {companion : CompanionUnit} (found : situation.caches.companions.get? file = some companion) :
    CompanionAnswer host generator file situation (.ok (some companion.unit)) situation
  | refused {next : Situation ω} (unknown : situation.caches.companions.get? file = none)
    (asked : (host.generatable file).run situation = (.no, next)) :
    CompanionAnswer host generator file situation (.ok none) next
  | failed {base : Option String} {middle next : Situation ω} {error : BuildError}
    (unknown : situation.caches.companions.get? file = none)
    (asked : (host.generatable file).run situation = (.yes base, middle))
    (made : (host.consult (generator.generate file base)).run middle = (.error error, next)) :
    CompanionAnswer host generator file situation (.error error) next
  | made {base : Option String} {middle after next : Situation ω} {companion : Companion} {outcome : Outcome SourceUnit}
    (unknown : situation.caches.companions.get? file = none)
    (asked : (host.generatable file).run situation = (.yes base, middle))
    (made : (host.consult (generator.generate file base)).run middle = (.ok companion, after))
    (added : (host.addCompanion companion companion.references).run.run after = (outcome, next)) :
    CompanionAnswer host generator file situation (outcome.map some) next

theorem companionUnit_answer {outcome : Outcome (Option SourceUnit)}
    (ran : (host.companionUnit generator file).run.run situation = (outcome, next)) :
    host.CompanionAnswer generator file situation outcome next := by
  rw [companionUnit, Attempt.caches_bind] at ran
  cases found : situation.caches.companions.get? file with
  | some companion =>
    rw [found] at ran
    cases ran
    exact .kept found
  | none =>
    rcases asked : (host.generatable file).run situation with ⟨verdict, middle⟩
    rw [found] at ran
    dsimp only at ran
    rw [Attempt.lift_bind asked] at ran
    cases verdict with
    | no =>
      cases ran
      exact .refused found asked
    | yes base =>
      dsimp only at ran
      rcases made : (ExceptT.mk (host.consult (generator.generate file base))).run.run middle with ⟨companion, after⟩
      cases companion with
      | error error =>
        rw [run_bind_of_error made] at ran
        cases ran
        exact .failed found asked made
      | ok companion =>
        rw [run_bind_of_ok made] at ran
        rcases added : (host.addCompanion companion companion.references).run.run after with ⟨result, last⟩
        cases result with
        | error error =>
          rw [run_bind_of_error added] at ran
          cases ran
          exact .made found asked made added
        | ok u =>
          rw [run_bind_of_ok added] at ran
          cases ran
          exact .made found asked made added

/-! ## Any unit -/

/-- A name turns out to mean no companion. -/
def PassesOver (host : Host ω) (generator : Generator ω) (file : String) (situation middle : Situation ω) : Prop :=
  if situation.caches.isDegraded then middle = situation
  else (host.companionUnit generator file).run.run situation = (.ok none, middle)

theorem PassesOver.cases {middle : Situation ω} (passed : host.PassesOver generator file situation middle) :
    (situation.caches.isDegraded = true ∧ middle = situation) ∨
      (situation.caches.isDegraded = false ∧ situation.caches.companions.has file = false ∧
        (host.generatable file).run situation = (.no, middle)) := by
  rw [PassesOver] at passed
  split at passed
  case isTrue degraded => exact .inl ⟨degraded, passed⟩
  case isFalse intact =>
    refine .inr ⟨Bool.eq_false_iff.mpr intact, ?_⟩
    generalize answer : (.ok none : Outcome (Option SourceUnit)) = outcome at passed
    cases companionUnit_answer passed with
    | kept found => cases answer
    | refused unknown asked => exact ⟨Table.has_of_get?_eq_none unknown, asked⟩
    | failed unknown asked made => cases answer
    | @made _ _ _ _ _ result unknown asked made added => cases result <;> cases answer

/-- How the unit of a name is had. -/
inductive SourceAnswer (host : Host ω) (generator : Generator ω) (file : String) (situation : Situation ω) :
    Outcome (Option SourceUnit) → Situation ω → Prop
  | companion {outcome : Outcome (Option SourceUnit)} {next : Situation ω} (intact : situation.caches.isDegraded = false)
    (asked : (host.companionUnit generator file).run.run situation = (outcome, next)) (answered : outcome ≠ .ok none) :
    SourceAnswer host generator file situation outcome next
  | summary {middle next : Situation ω} {u : SourceUnit} (passed : host.PassesOver generator file situation middle)
    (has : middle.caches.summaries.has file = true) (found : (host.summaryUnit file).run middle = (some u, next)) :
    SourceAnswer host generator file situation (.ok (some u)) next
  | file {middle next : Situation ω} {u : Option SourceUnit} (passed : host.PassesOver generator file situation middle)
    (hasNot : middle.caches.summaries.has file = false)
    (read : (if situation.caches.isDegraded then host.writtenUnit file else host.fileUnit generator file).run middle =
      (u, next)) :
    SourceAnswer host generator file situation (.ok u) next

theorem sourceUnit_answer {outcome : Outcome (Option SourceUnit)}
    (ran : (host.sourceUnit generator file).run.run situation = (outcome, next)) :
    host.SourceAnswer generator file situation outcome next := by
  -- Where no companion is meant, what follows the look for a summary depends on whether the build is degraded.
  have plain {middle : Situation ω} {written : HostM ω (Option SourceUnit)}
      {rest : Option SourceUnit → Attempt ω (Option SourceUnit)}
      (ran : ((liftM (host.summaryUnit file) : Attempt ω (Option SourceUnit)) >>= rest).run.run middle = (outcome, next))
      (found : ∀ u, rest (some u) = pure (some u)) (missing : rest none = liftM written)
      (passed : host.PassesOver generator file situation middle)
      (same : (if situation.caches.isDegraded then host.writtenUnit file else host.fileUnit generator file) = written) :
      host.SourceAnswer generator file situation outcome next := by
    obtain ⟨hasNot, asked⟩ | ⟨u, world, summaries, has, asked, -⟩ := summaryUnit_cases host file middle
    · rw [Attempt.lift_bind asked, missing] at ran
      cases ran
      exact .file passed hasNot (by rw [same]; rfl)
    · rw [Attempt.lift_bind asked, found] at ran
      cases ran
      exact .summary passed has asked
  rw [sourceUnit, Attempt.caches_bind] at ran
  cases degraded : situation.caches.isDegraded with
  | true =>
    rw [degraded, if_pos rfl, pure_bind] at ran
    refine plain ran (fun _ => rfl) rfl ?_ ?_
    · rw [PassesOver, if_pos degraded]
    · rw [if_pos degraded]
  | false =>
    have intact : ¬situation.caches.isDegraded = true := Bool.eq_false_iff.mp degraded
    rw [degraded, if_neg Bool.false_ne_true] at ran
    rcases asked : (host.companionUnit generator file).run.run situation with ⟨made, middle⟩
    cases made with
    | error error =>
      rw [run_bind_of_error asked] at ran
      cases ran
      exact .companion degraded asked nofun
    | ok made =>
      rw [run_bind_of_ok asked] at ran
      cases made with
      | some u =>
        cases ran
        exact .companion degraded asked nofun
      | none =>
        refine plain ran (fun _ => rfl) rfl ?_ ?_
        · rwa [PassesOver, if_neg intact]
        · rw [if_neg intact]

end CompanionBuild.Host
