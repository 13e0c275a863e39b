import CompanionBuild.Build.Record
import CompanionBuild.Proofs.Build.Course
import CompanionBuild.Proofs.Host.Provenance

/-! # Builds that take over from one another

Each build of a lineage starts from the records of the one before. What a build recorded of a library counts until a
later one records it again. A recorded unit is kept with the companions that were attached to it, so a later build hands
out references to companions that it may refuse to make; there is no other way for such a reference to come up.
-/

namespace CompanionBuild

variable {ω A : Type}

/-! ## What is recorded -/

/-- The last of some summaries of a name. -/
def LibrarySummary.last? (summaries : List LibrarySummary) (file : String) : Option LibrarySummary :=
  (summaries.filter (·.name = file)).getLast?

theorem LibrarySummary.last?_append (first second : List LibrarySummary) (file : String) :
    last? (first ++ second) file = (last? second file).or (last? first file) := by
  rw [last?, List.filter_append, List.getLast?_append, last?, last?]

/-- A table of summaries by their names. -/
theorem LibrarySummary.get?_ofList (summaries : List LibrarySummary) (file : String) :
    (Table.ofList (summaries.map fun summary => (summary.name, summary))).get? file = last? summaries file := by
  rw [Table.get?_ofList, Table.valueAt, Table.valuesAt, last?]
  congr 1
  simp [List.filter_map, Function.comp_def]

/-- The summaries known after a build are its own and, of other names, those from before. -/
theorem Setup.last?_summaries (setup : Setup ω A) (build : Build ω A) (file : String) :
    LibrarySummary.last? (setup.summaries build) file =
      (LibrarySummary.last? build.emitted.summaries file).or (LibrarySummary.last? setup.previous.summaries file) := by
  rw [← LibrarySummary.last?_append, ← LibrarySummary.get?_ofList, ← LibrarySummary.get?_ofList, summaries]
  generalize setup.previous.summaries ++ build.emitted.summaries = known
  -- Every summary stands under its own name, so a table made of the values is the same.
  have entries : ((Table.ofList (known.map fun summary => (summary.name, summary))).map (·.2)).map
      (fun summary => (summary.name, summary)) = Table.ofList (known.map fun summary => (summary.name, summary)) := by
    rw [List.map_map]
    refine (List.map_congr_left fun entry member => ?_).trans (List.map_id _)
    obtain ⟨summary, -, rfl⟩ := List.mem_map.mp (Table.mem_ofList member)
    rfl
  rw [entries, Table.get?_ofList, Table.Ordered.valueAt_eq (Table.ordered_ofList _)]

namespace Course

/-- What the next build starts from. -/
def records (course : Course ω A) : Records ω :=
  course.setup.records course.build

/-- The summary of a file that was recorded last. -/
def recorded? (older : List (Course ω A)) (file : String) : Option LibrarySummary :=
  older.findSome? fun course => LibrarySummary.last? course.build.emitted.summaries file

/-- The unit of a file that was recorded last, as it was read. -/
def recordedUnit? (older : List (Course ω A)) (file : String) : Option SourceUnit :=
  ((recorded? older file).bind (·.unit)).map fun u => u.asRead.getD u

end Course

/-- Builds that take over from one another, the latest first; the earliest takes over nothing. -/
inductive Lineage : List (Course ω A) → Prop
  | first {course : Course ω A} (fresh : course.setup.previous = {}) : Lineage [course]
  | next {course last : Course ω A} {older : List (Course ω A)} (takes : course.setup.previous = last.records)
      (earlier : Lineage (last :: older)) : Lineage (course :: last :: older)

/-- A build starts from what was recorded last of each file. -/
theorem Lineage.last?_previous {course : Course ω A} {older : List (Course ω A)} (lineage : Lineage (course :: older))
    (file : String) : LibrarySummary.last? course.setup.previous.summaries file = Course.recorded? older file := by
  generalize whole : course :: older = courses at lineage
  induction lineage generalizing course older with
  | first fresh =>
    cases whole
    rw [fresh]
    rfl
  | next takes earlier ih =>
    cases whole
    rw [takes, Course.records, Setup.records, Setup.last?_summaries, ih rfl, Course.recorded?, Course.recorded?,
      List.findSome?_cons]
    cases LibrarySummary.last? _ file <;> rfl

theorem Lineage.earlier {newer older : List (Course ω A)} {course : Course ω A}
    (lineage : Lineage (newer ++ course :: older)) : Lineage (course :: older) := by
  induction newer with
  | nil => exact lineage
  | cons first rest ih =>
    refine ih ?_
    cases whole : rest ++ course :: older with
    | nil => simp at whole
    | cons second others =>
      rw [List.cons_append, whole] at lineage
      cases lineage with
      | next _ earlier => exact earlier

/-! ## References along a lineage -/

namespace Course

variable {course : Course ω A}

theorem keepsUnits (plain : course.setup.host.ParsesPlainly) : course.setup.host.KeepsUnits course.build.situation := by
  have phases : course.setup.AdmitsPhases course.setup.host.Retains :=
    ⟨Host.retains_sources plain _, course.setup.host.retains_companions.updateCompanion⟩
  exact course.situation_induction (phases.mono fun _ _ retains => retains.keeps) (fun act _ => act.run_keeps plain)
    ⟨nofun, nofun, fun _ => nofun⟩

theorem keepsOrigins (plain : course.setup.host.ParsesPlainly) :
    course.setup.host.KeepsOrigins (Caches.ofSummaries course.setup.previous.summaries).summaries
      course.build.situation := by
  have phases : course.setup.AdmitsPhases (Preserving (course.setup.host.KeepsOrigins
      (Caches.ofSummaries course.setup.previous.summaries).summaries)) :=
    ⟨Host.origins_sources plain _ _, (Host.origins_intake plain _).updateCompanion⟩
  exact course.situation_induction phases (fun act _ => act.run_keepsOrigins plain)
    (course.setup.host.keepsOrigins_ofSummaries _ _)

end Course

theorem Lineage.broughtUnit?_eq {course : Course ω A} {older : List (Course ω A)} (lineage : Lineage (course :: older))
    (file : String) : Host.broughtUnit? (Caches.ofSummaries course.setup.previous.summaries).summaries file =
      Course.recordedUnit? older file := by
  rw [Host.broughtUnit?, Caches.ofSummaries, LibrarySummary.get?_ofList, lineage.last?_previous, Course.recordedUnit?]

/-- In every build of a lineage that is not degraded, whatever happened in it so far, a unit that is answered refers only
to what is written in its file and to companions that the build makes, unless the name means no companion and an earlier
build has recorded a unit for it with a reference to a companion that this build refuses. -/
theorem references_current_iff {newer older : List (Course ω A)} {course : Course ω A}
    (lineage : Lineage (newer ++ course :: older)) (plain : course.setup.host.ParsesAsWritten)
    (intact : course.build.situation.caches.isDegraded = false) {file : String} {u : SourceUnit} {next : Situation ω}
    (answered : (course.setup.host.sourceUnit course.setup.analyzer.toGenerator file).run.run course.build.situation =
      (.ok (some u), next)) :
    course.setup.host.IsCurrent next u ↔
      ¬(course.setup.host.MeansNoCompanion course.build.situation file ∧
        ∃ recorded, Course.recordedUnit? older file = some recorded ∧
          course.setup.host.CarriesRefused next recorded) := by
  have refused := Host.carriesRefused_iff plain (Course.keepsUnits plain.toParsesPlainly)
    (Course.keepsOrigins plain.toParsesPlainly) intact answered
  rw [lineage.earlier.broughtUnit?_eq] at refused
  rw [Host.isCurrent_iff_not_carriesRefused, refused]

namespace Course

/-- A program of the library, which emits its summary. -/
def libraryProgram (library : Option SourceUnit) : Program Unit where
  roots := ["/lib.d.ts"]
  units := library.toList
  unit? name := library.filter (·.name = name)
  reuse := .completely
  optionDiagnostics := []
  syntactic _ _ := []
  semantic _ _ := []
  emit _ := do
    let _ ← EmitDialogue.ask (.write ⟨"/lib.axsummary.js", "", ["/lib.axsummary.json"]⟩)
    pure (.ok {})

/-- A project of one declaration file, for which a companion and a summary are made. -/
def librarySetup (previous : Records Unit) : Setup Unit Unit where
  roots := ["/lib.d.ts"]
  options := {}
  files :=
    { fileExists file := pure (file = "/lib.d.ts")
      directoryExists _ := pure false
      read file := pure (if file = "/lib.d.ts" then some "" else none)
      write _ _ _ := pure (.ok ())
      currentDirectory := "/" }
  compiler :=
    { parse name text := pure (.plain name text)
      createProgram _ _ _ := do pure (libraryProgram (← CompilerDialogue.ask (.unit "/lib.d.ts"))) }
  analyzer :=
    { generate name _ := pure (.ok { base := "/lib.d.ts", name, statements := some [] })
      namesFor file := pure (if file = "/lib.d.ts" then ["/lib.axfactory.ts"] else [])
      collect _ := pure none
      analyze _ _ _ := pure (.ok ())
      nothing := ()
      typeCheckStub _ _ := pure (.ok none)
      implementations _ := pure (.ok [{ base := "/lib.d.ts", name := "/lib.axsummary.json", source := some "" }]) }
  previous

/-- A build that records the library. -/
def recording : Course Unit Unit where
  setup := librarySetup {}
  world := ()
  occurrences := [.event (.call (.load .sync)), .event (.call (.emit { batching := .wholeProgram }))]

/-- The build after it, at its beginning. -/
def takingOver : Course Unit Unit where
  setup := librarySetup recording.records
  world := ()
  occurrences := []

/-- What the build after it says of the library. -/
def libraryAnswer : Outcome (Option SourceUnit) × Situation Unit :=
  (takingOver.setup.host.sourceUnit takingOver.setup.analyzer.toGenerator "/lib.d.ts").run.run
    takingOver.build.situation

end Course

/-- A companion is attached to the library while it is recorded. The build after it hands the record out as it is, though it
refuses the companion. -/
theorem recorded_companion_refused : Lineage [Course.takingOver, Course.recording] ∧
    ∃ u next, Course.libraryAnswer = (.ok (some u), next) ∧ ¬Course.takingOver.setup.host.IsCurrent next u := by
  have lineage : Lineage [Course.takingOver, Course.recording] := .next rfl (.first rfl)
  refine ⟨lineage, ?_⟩
  have answers : Course.libraryAnswer.1.toOption.join.isSome = true := by decide +kernel
  have refuses : ((Course.takingOver.setup.host.generatable "/lib.axfactory.ts").run Course.libraryAnswer.2).1.isYes =
      false := by decide +kernel
  have recorded : (Course.recordedUnit? [Course.recording] "/lib.d.ts").map (fun u => (u.references, u.ownReferences)) =
      some (["/lib.axfactory.ts"], []) := by decide +kernel
  have means : Course.takingOver.setup.host.MeansNoCompanion Course.takingOver.build.situation "/lib.d.ts" :=
    ⟨rfl, by rw [Host.Generates]; decide +kernel⟩
  rcases answered : Course.libraryAnswer with ⟨outcome, next⟩
  rw [answered] at answers refuses
  obtain ⟨v, found, same⟩ := Option.map_eq_some_iff.mp recorded
  obtain ⟨references, own⟩ := Prod.mk.inj same
  match outcome, answers with
  | .ok (some u), _ =>
    refine ⟨u, next, rfl, fun current => ?_⟩
    refine (@references_current_iff _ _ [] _ _ lineage ⟨⟨fun _ _ _ => rfl, fun _ _ _ => rfl⟩, fun _ _ _ => rfl⟩ rfl _ _ _
      answered).mp current ⟨means, v, found, "/lib.axfactory.ts", ?_, ?_, ?_⟩
    · simp [references]
    · simp [own]
    · simp [Host.Generates, refuses]

end CompanionBuild
