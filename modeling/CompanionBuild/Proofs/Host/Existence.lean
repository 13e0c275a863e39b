import CompanionBuild.Proofs.Host.Disk
import CompanionBuild.Proofs.Host.History

/-! # Files that exist and units that can be had

The compiler asks whether a file exists and then for its unit. Both answers come from the same places, a summary, a
companion that is there or can be made, and the disk, but a degraded build gives out no companions any more. For a disk
that stays the same the two answers fit, whatever was asked and made before, unless a companion was left over when the
build was degraded.
-/

namespace CompanionBuild

namespace Host

variable {ω : Type} {host : Host ω} {situation next : Situation ω} {file : String}

/-! ## The two answers -/

variable {disk : String → Option String}

variable (reads : host.ReadsFrom disk)

include reads

theorem fileExists_run (truthful : situation.caches.Truthful disk) (file : String) :
    ((host.fileExists file).run situation).1 =
      (situation.caches.summaries.has file || situation.caches.companions.has file ||
        ((host.generatable file).run situation).1.isYes || (disk file).isSome) := by
  rw [fileExists, HostM.caches_bind]
  cases situation.caches.summaries.has file || situation.caches.companions.has file with
  | true => rfl
  | false =>
    rcases asked : (host.generatable file).run situation with ⟨verdict, middle⟩
    have onward := ((Host.onward reads).generatable file).of_run asked
    rw [if_neg Bool.false_ne_true, run_bind asked]
    dsimp only
    cases verdict.isYes with
    | true => rfl
    | false => exact exists?_run reads (onward.truthful truthful) file

variable (generator : Generator ω)

theorem fileUnit_run (truthful : situation.caches.Truthful disk) (file : String) :
    ((host.fileUnit generator file).run situation).1.isSome = (disk file).isSome := by
  rcases read : (host.writtenUnit file).run situation with ⟨u, middle⟩
  have onDisk := writtenUnit_run reads truthful file
  rw [read] at onDisk
  rw [fileUnit, run_bind read]
  rcases asked : (host.companionsOf generator file).run middle with ⟨companions, after⟩
  rw [run_bind asked, ← onDisk]
  cases u <;> rfl

/-- How the unit of a companion is had, if there is one. -/
theorem companionUnit_cases {outcome : Outcome (Option SourceUnit)}
    (ran : (host.companionUnit generator file).run.run situation = (outcome, next)) :
    situation.caches.companions.has file = true ∨
    (∃ verdict middle, (host.generatable file).run situation = (verdict, middle) ∧ verdict.isYes = true ∧
      Onward disk middle next) ∨
    outcome = .ok none := by
  have admits := Host.onward reads
  cases companionUnit_answer ran with
  | kept found => exact .inl (Table.has_of_get?_eq_some found)
  | refused unknown asked => exact .inr (.inr rfl)
  | failed unknown asked made => exact .inr (.inl ⟨_, _, asked, rfl, (admits.consult _).of_run made⟩)
  | made unknown asked made added =>
    have onward := trans_of (Onward disk) ((admits.consult _).of_run made) ((admits.addCompanion _ _).of_run added)
    exact .inr (.inl ⟨_, _, asked, rfl, onward⟩)

/-- How the unit of a name is had: as a companion that is there, as one that is made, or from a summary or the disk. -/
theorem sourceUnit_cases {outcome : Outcome (Option SourceUnit)} (truthful : situation.caches.Truthful disk)
    (ran : (host.sourceUnit generator file).run.run situation = (outcome, next)) :
    (situation.caches.isDegraded = false ∧ situation.caches.companions.has file = true ∧ outcome ≠ .ok none) ∨
    (∃ verdict middle, situation.caches.isDegraded = false ∧
      (host.generatable file).run situation = (verdict, middle) ∧ verdict.isYes = true ∧ Onward disk middle next ∧
        outcome ≠ .ok none) ∨
    ((situation.caches.isDegraded = true ∨ situation.caches.companions.has file = false ∧
      ((host.generatable file).run situation).1.isYes = false) ∧
        ∃ u, outcome = .ok u ∧ u.isSome = (situation.caches.summaries.has file || (disk file).isSome)) := by
  have unmade {middle : Situation ω} (passed : host.PassesOver generator file situation middle) :
      (situation.caches.isDegraded = true ∨ situation.caches.companions.has file = false ∧
        ((host.generatable file).run situation).1.isYes = false) ∧ Onward disk situation middle := by
    obtain ⟨degraded, rfl⟩ | ⟨-, hasNot, asked⟩ := passed.cases
    · exact ⟨.inl degraded, refl_of (Onward disk) middle⟩
    · exact ⟨.inr ⟨hasNot, by rw [asked]; rfl⟩, ((Host.onward reads).generatable file).of_run asked⟩
  cases sourceUnit_answer ran with
  | companion intact asked answered =>
    obtain has | ⟨verdict, middle, verdictRan, yes, onward⟩ | none := companionUnit_cases reads generator asked
    · exact .inl ⟨intact, has, answered⟩
    · exact .inr (.inl ⟨verdict, middle, intact, verdictRan, yes, onward, answered⟩)
    · exact (answered none).elim
  | summary passed has found =>
    obtain ⟨unmade, onward⟩ := unmade passed
    refine .inr (.inr ⟨unmade, _, rfl, ?_⟩)
    rw [← onward.summaries, has]
    rfl
  | @file middle next u passed hasNot read =>
    obtain ⟨unmade, onward⟩ := unmade passed
    refine .inr (.inr ⟨unmade, u, rfl, ?_⟩)
    rw [← onward.summaries, hasNot, Bool.false_or]
    split at read
    · rw [← writtenUnit_run reads (onward.truthful truthful) file, read]
    · rw [← fileUnit_run reads generator (onward.truthful truthful) file, read]

/-- A file that exists goes on to exist when it is asked for again. -/
theorem fileExists_again (truthful : situation.caches.Truthful disk)
    (ran : (host.fileExists file).run situation = (true, next)) : ((host.fileExists file).run next).1 = true := by
  have onward := ((Host.onward reads).fileExists file).of_run ran
  rw [fileExists_run reads (onward.truthful truthful), onward.summaries]
  rw [fileExists, HostM.caches_bind] at ran
  split at ran
  case isTrue has =>
    cases ran
    rw [has]
    rfl
  case isFalse =>
    rcases asked : (host.generatable file).run situation with ⟨verdict, middle⟩
    have further := ((Host.onward reads).generatable file).of_run asked
    rw [run_bind asked] at ran
    cases yes : verdict.isYes with
    | true =>
      rw [yes, if_pos rfl] at ran
      cases ran
      have still := (generatable_known asked yes).generatable
      rw [still, Bool.or_true]
      rfl
    | false =>
      rw [yes, if_neg Bool.false_ne_true] at ran
      have onDisk := exists?_run reads (further.truthful truthful) file
      rw [ran] at onDisk
      rw [← onDisk, Bool.or_true]

/-! ## Agreement -/

/-- The two answers about a file fit, in one situation or one right after the other: what exists is not answered by no
unit, and what has a unit exists. -/
structure Consistent (host : Host ω) (generator : Generator ω) (file : String) (situation : Situation ω) : Prop where
  found : ((host.fileExists file).run situation).1 = true →
    ((host.sourceUnit generator file).run.run situation).1 ≠ .ok none
  foundThen : ∀ next, (host.fileExists file).run situation = (true, next) →
    ((host.sourceUnit generator file).run.run next).1 ≠ .ok none
  had : ∀ u, ((host.sourceUnit generator file).run.run situation).1 = .ok (some u) →
    ((host.fileExists file).run situation).1 = true
  hadThen : ∀ u next, (host.sourceUnit generator file).run.run situation = (.ok (some u), next) →
    ((host.fileExists file).run next).1 = true

/-- A companion that a degraded build still holds, with nothing else of its name. -/
structure LeftOver (disk : String → Option String) (file : String) (situation : Situation ω) : Prop where
  degraded : situation.caches.isDegraded = true
  companion : situation.caches.companions.has file = true
  summary : situation.caches.summaries.has file = false
  absent : disk file = none

theorem sourceUnit_ne_none (truthful : situation.caches.Truthful disk) (clean : ¬LeftOver disk file situation)
    (exist : ((host.fileExists file).run situation).1 = true) :
    ((host.sourceUnit generator file).run.run situation).1 ≠ .ok none := by
  rcases ran : (host.sourceUnit generator file).run.run situation with ⟨outcome, next⟩
  obtain ⟨-, -, some⟩ | ⟨-, -, -, -, -, -, some⟩ | ⟨unmade, u, rfl, same⟩ :=
    sourceUnit_cases reads generator truthful ran
  · exact some
  · exact some
  · rintro ⟨⟩
    obtain ⟨noSummary, absent⟩ := Bool.or_eq_false_iff.mp same.symm
    rw [fileExists_run reads truthful, noSummary, absent, Bool.false_or, Bool.or_false] at exist
    obtain degraded | ⟨hasNot, refused⟩ := unmade
    · -- A degraded build makes no companion, so it is one that was there.
      rcases asked : (host.generatable file).run situation with ⟨verdict, middle⟩
      rw [asked] at exist
      obtain has | yes := Bool.or_eq_true_iff.mp exist
      · exact clean ⟨degraded, has, noSummary, Option.isSome_eq_false_iff.mp absent |> Option.isNone_iff_eq_none.mp⟩
      · have onward := ((Host.onward reads).generatable file).of_run asked
        have intact := (generatable_known asked yes).intact
        rw [onward.degraded, degraded] at intact
        cases intact
    · rw [hasNot, refused] at exist
      cases exist

theorem fileExists_of_unit {u : SourceUnit} (truthful : situation.caches.Truthful disk)
    (ran : (host.sourceUnit generator file).run.run situation = (.ok (some u), next)) :
    ((host.fileExists file).run situation).1 = true ∧ ((host.fileExists file).run next).1 = true := by
  have onward := ((Host.onward reads).sourceUnit generator file).of_run ran
  rw [fileExists_run reads truthful, fileExists_run reads (onward.truthful truthful), onward.summaries]
  obtain ⟨-, has, -⟩ | ⟨verdict, middle, -, asked, yes, further, -⟩ | ⟨-, _, made, same⟩ :=
    sourceUnit_cases reads generator truthful ran
  · rw [has, onward.companions file has, Bool.or_true]
    exact ⟨rfl, rfl⟩
  · have still := ((generatable_known asked yes).lasts further.toLasts).generatable
    rw [asked, yes, still, Bool.or_true, Bool.or_true]
    exact ⟨rfl, rfl⟩
  · cases made
    obtain has | onDisk := Bool.or_eq_true_iff.mp same.symm
    · rw [has]
      exact ⟨rfl, rfl⟩
    · rw [onDisk, Bool.or_true, Bool.or_true]
      exact ⟨rfl, rfl⟩

/-- The answers fit unless a companion is left over. -/
theorem consistent_iff (truthful : situation.caches.Truthful disk) (file : String) :
    host.Consistent generator file situation ↔ ¬LeftOver disk file situation := by
  constructor
  · intro consistent left
    have exist : ((host.fileExists file).run situation).1 = true := by
      rw [fileExists_run reads truthful, left.companion, Bool.or_true]
      rfl
    have some := consistent.found exist
    rcases ran : (host.sourceUnit generator file).run.run situation with ⟨outcome, next⟩
    rw [ran] at some
    obtain ⟨intact, -⟩ | ⟨-, -, intact, -⟩ | ⟨-, u, rfl, same⟩ := sourceUnit_cases reads generator truthful ran
    · rw [left.degraded] at intact
      cases intact
    · rw [left.degraded] at intact
      cases intact
    · rw [left.summary, left.absent] at same
      cases u with
      | none => exact some rfl
      | some u => cases same
  · intro clean
    refine ⟨sourceUnit_ne_none reads generator truthful clean, fun next ran => ?_, fun u made => ?_,
      fun u next ran => ?_⟩
    · have onward := ((Host.onward reads).fileExists file).of_run ran
      have companions := congrArg Caches.companions ((host.looksUp.fileExists file).of_run ran)
      have still : ¬LeftOver disk file next := fun left => clean {
        degraded := onward.degraded ▸ left.degraded
        companion := (congrArg (Table.has · file) companions).symm.trans left.companion
        summary := onward.summaries file ▸ left.summary
        absent := left.absent }
      exact sourceUnit_ne_none reads generator (onward.truthful truthful) still (fileExists_again reads truthful ran)
    · exact (fileExists_of_unit reads generator truthful (Prod.ext made rfl)).1
    · exact (fileExists_of_unit reads generator truthful ran).2

end Host

/-! ## Histories -/

namespace HostAct

variable {ω : Type} {host : Host ω} {disk : String → Option String} (reads : host.ReadsFrom disk)

include reads

/-- No act makes what is known about files untrue. -/
theorem situationAfter_truthful (acts : List (HostAct ω)) {situation : Situation ω}
    (truthful : situation.caches.Truthful disk) : (situationAfter host acts situation).caches.Truthful disk :=
  situationAfter_of_units (Host.onward reads) (fun _ _ onward => onward.truthful)
    (fun _ truthful => ⟨truthful.existing, truthful.units⟩) acts truthful

end HostAct

namespace Host

/-- In a build on files that do not change, whatever was asked and made before, a file exists for the compiler exactly
where its unit can be had, unless it is a companion that is left over in a degraded build. -/
theorem existence_agrees_iff {ω : Type} (host : Host ω) (disk : String → Option String) (reads : host.ReadsFrom disk)
    (generator : Generator ω) (summaries : List LibrarySummary) (world : ω) (acts : List (HostAct ω)) (file : String) :
    host.Consistent generator file (HostAct.situationAfter host acts ⟨world, .ofSummaries summaries⟩) ↔
      ¬LeftOver disk file (HostAct.situationAfter host acts ⟨world, .ofSummaries summaries⟩) := by
  have start : (Caches.ofSummaries summaries).Truthful disk := ⟨nofun, nofun⟩
  exact consistent_iff reads generator (HostAct.situationAfter_truthful reads acts start) file

/-- A disk with one style sheet. -/
def sheetDisk (file : String) : Option String :=
  if file = "/a.css" then some "p {}" else none

def sheetHost : Host Unit where
  options := {}
  roots := []
  files :=
    { fileExists := fun file => pure (sheetDisk file).isSome
      directoryExists := fun _ => pure true
      read := fun file => pure (sheetDisk file)
      write := fun _ _ _ => pure (.ok ())
      currentDirectory := "/" }
  parse name text := pure (.plain name text)
  collect _ := pure none

def sheetGenerator : Generator Unit where
  generate name _ := .done (.ok { base := "/a.css", name, statements := some [] })
  namesFor _ := pure []

/-- The companion of the style sheet is made and exists; once the build is degraded it exists without a unit. -/
theorem sheet_existence_agrees :
    sheetHost.Consistent sheetGenerator "/a.css.axstyle.ts"
        (HostAct.situationAfter sheetHost [.unit sheetGenerator "/a.css.axstyle.ts"] ⟨(), .ofSummaries []⟩) ∧
      ¬sheetHost.Consistent sheetGenerator "/a.css.axstyle.ts"
        (HostAct.situationAfter sheetHost [.unit sheetGenerator "/a.css.axstyle.ts", .degrade]
          ⟨(), .ofSummaries []⟩) := by
  have reads : sheetHost.ReadsFrom sheetDisk := ⟨fun _ _ => rfl, fun _ _ => rfl⟩
  constructor
  · refine (existence_agrees_iff sheetHost sheetDisk reads sheetGenerator [] () _ _).mpr fun left => ?_
    exact absurd left.degraded (by decide)
  · intro consistent
    exact (existence_agrees_iff sheetHost sheetDisk reads sheetGenerator [] () _ _).mp consistent
      ⟨rfl, by decide, by decide, by decide⟩

end Host

end CompanionBuild
