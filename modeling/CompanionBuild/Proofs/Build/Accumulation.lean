import CompanionBuild.Proofs.Build.Lineage
import CompanionBuild.Proofs.Host.Shadow

/-! # Summaries from build to build

No build forgets a summary: the names that are known after a build are known after every build that takes over from it.
In every state of a build, whatever happened in it, the summaries it began with take the place of the files of their
names.
-/

namespace CompanionBuild

variable {ω A : Type}

theorem LibrarySummary.isSome_last?_iff {summaries : List LibrarySummary} {file : String} :
    (last? summaries file).isSome = true ↔ file ∈ summaries.map (·.name) := by
  rw [last?, Option.isSome_iff_ne_none, Ne, List.getLast?_eq_none_iff, List.filter_eq_nil_iff]
  simp

namespace Course

/-- The names of the summaries that are known after the build. -/
def summaryNames (course : Course ω A) : List String :=
  (course.setup.summaries course.build).map (·.name)

theorem mem_summaryNames {course : Course ω A} {file : String} : file ∈ course.summaryNames ↔
    ((LibrarySummary.last? course.build.emitted.summaries file).isSome = true ∨
      (LibrarySummary.last? course.setup.previous.summaries file).isSome = true) := by
  rw [summaryNames, ← LibrarySummary.isSome_last?_iff, Setup.last?_summaries, Option.isSome_or, Bool.or_eq_true]

/-- A build knows what the build knew that it takes over from. -/
theorem summaryNames_subset {later earlier : Course ω A} (takes : later.setup.previous = earlier.records) :
    earlier.summaryNames ⊆ later.summaryNames := by
  intro file known
  rw [mem_summaryNames, takes]
  exact .inr (LibrarySummary.isSome_last?_iff.mpr known)

theorem keepsRecords (course : Course ω A) :
    course.setup.host.KeepsRecords (Caches.ofSummaries course.setup.previous.summaries).summaries
      course.build.situation := by
  have units := course.setup.host.keepsRecords_units (Caches.ofSummaries course.setup.previous.summaries).summaries
  refine course.situation_induction ⟨units.sources _, units.updateCompanion⟩ (fun act situation keeps => ?_) fun file => ?_
  · by_cases degrades : act = .degrade
    · rw [degrades]
      exact keeps
    · exact HostAct.within_of_units units degrades situation keeps
  · cases (Caches.ofSummaries course.setup.previous.summaries).summaries.get? file with
    | none => exact .none
    | some summary => exact .some ⟨rfl, .inl rfl⟩

end Course

/-- Along every chain of builds the names of summaries accumulate, and in every state of a build each summary that it began
with takes the place of the file of its name. -/
theorem summaries_accumulate_and_shadow :
    (∀ courses : List (Course ω A), courses.IsChain (fun later earlier => later.setup.previous = earlier.records) →
      courses.Pairwise fun later earlier => earlier.summaryNames ⊆ later.summaryNames) ∧
    ∀ (course : Course ω A) (generator : Generator ω) (file : String) (recorded : LibrarySummary),
      LibrarySummary.last? course.setup.previous.summaries file = some recorded →
      course.setup.host.Shadows generator course.build.situation file recorded := by
  constructor
  · intro courses chain
    have : IsTrans (Course ω A) fun later earlier => earlier.summaryNames ⊆ later.summaryNames :=
      ⟨fun _ _ _ second first => List.Subset.trans first second⟩
    exact List.isChain_iff_pairwise.mp (chain.imp fun _ _ takes => Course.summaryNames_subset takes)
  · intro course generator file recorded found
    exact course.keepsRecords.shadows ((LibrarySummary.get?_ofList _ file).trans found) generator

/-- The declaration file of the library is recorded in the first build; in the next build the record takes its place. -/
theorem library_summary_shadows : "/lib.d.ts" ∈ Course.takingOver.summaryNames ∧
    ∃ recorded, LibrarySummary.last? Course.takingOver.setup.previous.summaries "/lib.d.ts" = some recorded ∧
      Course.takingOver.setup.host.Shadows Course.takingOver.setup.analyzer.toGenerator Course.takingOver.build.situation
        "/lib.d.ts" recorded := by
  have brought : (LibrarySummary.last? Course.takingOver.setup.previous.summaries "/lib.d.ts").isSome = true := by
    decide +kernel
  have recorded : "/lib.d.ts" ∈ Course.recording.summaryNames := LibrarySummary.isSome_last?_iff.mp brought
  have chained := summaries_accumulate_and_shadow.1 [Course.takingOver, Course.recording] (by simp; rfl)
  obtain ⟨record, found⟩ := Option.isSome_iff_exists.mp brought
  refine ⟨List.rel_of_pairwise_cons chained (List.mem_singleton_self _) recorded, record, found, ?_⟩
  exact summaries_accumulate_and_shadow.2 _ _ _ _ found

end CompanionBuild
