import CompanionBuild.Proofs.Host.Existence
import CompanionBuild.Proofs.Host.Intake
import CompanionBuild.Proofs.Tree.Reference

/-! # Companions keep the modules that they refer to

Once the host keeps a companion, the modules of its external references are the same for the rest of the build, and it is
not made again. A new form takes its place exactly if it refers to the same modules. That says nothing about the modules
that the statements import on their own account, so a new form may import from more modules than the old one, or from
fewer.
-/

namespace CompanionBuild

/-! ## What is not asked -/

/-- Answers that agree wherever a dialogue gets to lead it to the same end. -/
theorem Dialogue.run_congr {σ ω Q α : Type} {P : Q → Type} [HoldsWorld σ ω] {answer other : (q : Q) → StateM σ (P q)}
    {I : σ → Prop} (world : ∀ world state, I state → I (HoldsWorld.setWorld world state))
    (keeps : ∀ q state, I state → I ((answer q).run state).2)
    (agree : ∀ q state, I state → (other q).run state = (answer q).run state) (dialogue : Dialogue ω Q P α) {state : σ}
    (start : I state) : (dialogue.run other).run state = (dialogue.run answer).run state := by
  induction dialogue generalizing state with
  | done value => rfl
  | look next ih => exact ih _ start
  | put w next ih => exact ih (world w state start)
  | ask q next ih =>
    change ((next ((other q).run state).1).run other).run ((other q).run state).2 =
      ((next ((answer q).run state).1).run answer).run ((answer q).run state).2
    rw [agree q state start]
    exact ih _ (keeps q state start)

/-- The generator with another way to make the companion of one name. -/
def Generator.overriding {ω : Type} (name : String) (generate : Option String → HostDialogue ω (Outcome Companion))
    (generator : Generator ω) : Generator ω where
  generate file base := if file = name then generate base else generator.generate file base
  namesFor := generator.namesFor

/-- The act with another way to make the companion of one name. -/
def HostAct.overriding {ω : Type} (name : String) (generate : Option String → HostDialogue ω (Outcome Companion)) :
    HostAct ω → HostAct ω
  | compile generator dialogue => compile (generator.overriding name generate) dialogue
  | unit generator file => unit (generator.overriding name generate) file
  | act => act

namespace Host

variable {ω : Type} {host : Host ω} {situation : Situation ω} {name : String}
  (generate : Option String → HostDialogue ω (Outcome Companion)) (generator : Generator ω)

section Overriding

variable (has : situation.caches.companions.has name = true)

include has

theorem companionUnit_overriding (file : String) :
    (host.companionUnit (generator.overriding name generate) file).run.run situation =
      (host.companionUnit generator file).run.run situation := by
  by_cases same : file = name
  · subst same
    obtain ⟨companion, found⟩ := Option.isSome_iff_exists.mp has
    rw [companionUnit, companionUnit, Attempt.caches_bind, Attempt.caches_bind, found]
  · have generates (base : Option String) :
        (generator.overriding name generate).generate file base = generator.generate file base := if_neg same
    simp only [companionUnit, generates]

theorem sourceUnit_overriding (file : String) :
    (host.sourceUnit (generator.overriding name generate) file).run.run situation =
      (host.sourceUnit generator file).run.run situation := by
  rw [sourceUnit, sourceUnit, Attempt.caches_bind, Attempt.caches_bind]
  cases situation.caches.isDegraded with
  | true => rfl
  | false =>
    rcases asked : (host.companionUnit generator file).run.run situation with ⟨made, middle⟩
    have overridden := (companionUnit_overriding generate generator has file).trans asked
    simp only [Bool.false_eq_true, if_false]
    cases made with
    | error error => rw [run_bind_of_error overridden, run_bind_of_error asked]
    | ok made =>
      rw [run_bind_of_ok overridden, run_bind_of_ok asked]
      rfl

theorem answerCompiler_overriding (q : CompilerQuery) :
    (host.answerCompiler (generator.overriding name generate) q).run situation =
      (host.answerCompiler generator q).run situation := by
  cases q with
  | unit file =>
    rw [answerCompiler, answerCompiler, unitForCompiler, unitForCompiler, StateT.run_bind, StateT.run_bind,
      sourceUnit_overriding generate generator has]
  | fileExists file => rfl
  | read file => rfl
  | resolve name containing => rfl
  | currentDirectory => rfl

end Overriding

end Host

namespace HostAct

variable {ω : Type} {host : Host ω} {situation : Situation ω} {name : String}
  (generate : Option String → HostDialogue ω (Outcome Companion))

theorem run_has (act : HostAct ω) (has : situation.caches.companions.has name = true) :
    ((act.run host).run situation).2.caches.companions.has name = true := by
  by_cases degrades : act = degrade
  · rw [degrades]
    exact has
  · exact (within_of_units host.lasts degrades situation).companions name has

theorem run_overriding (act : HostAct ω) (has : situation.caches.companions.has name = true) :
    ((act.overriding name generate).run host).run situation = (act.run host).run situation := by
  cases act
  case compile generator dialogue =>
    refine Dialogue.run_congr (I := fun situation => situation.caches.companions.has name = true) (fun _ _ => id)
      (fun q state => ?_) (fun q state has => Host.answerCompiler_overriding generate generator has q) dialogue has
    exact (host.lasts.answerCompiler generator q state).companions name
  case unit generator file =>
    rw [overriding, run, run, StateT.run_bind, StateT.run_bind, Host.sourceUnit_overriding generate generator has]
  all_goals rfl

/-- Once a companion is kept, how it would be made is of no account. -/
theorem situationAfter_overriding (acts : List (HostAct ω)) (has : situation.caches.companions.has name = true) :
    situationAfter host (acts.map (·.overriding name generate)) situation = situationAfter host acts situation := by
  induction acts generalizing situation with
  | nil => rfl
  | cons act rest ih =>
    have same : (((act.overriding name generate).run host).run situation).2 = ((act.run host).run situation).2 := by
      rw [run_overriding generate act has]
    calc situationAfter host (rest.map (·.overriding name generate))
          (((act.overriding name generate).run host).run situation).2
        = situationAfter host (rest.map (·.overriding name generate)) ((act.run host).run situation).2 := by rw [same]
      _ = situationAfter host rest ((act.run host).run situation).2 := ih (run_has act has)

end HostAct

/-! ## Fingerprints -/

theorem Companion.references_ordered (companion : Companion) : companion.references.Pairwise (· < ·) := by
  unfold Companion.references
  split
  · exact Names.ofList_ordered _
  · exact .nil

namespace Host

variable {ω : Type}

/-- What is known of a companion that the host keeps, by the record of what was taken in: it is the last of its name, and
its references are those of the statements; they stay the same, and the companion is not made again. -/
structure IsFingerprinted (host : Host ω) (situation : Situation ω) (log : List Companion) (name : String)
    (stored : CompanionUnit) : Prop where
  last : ∃ companion items, Companion.lastNamed name log = some companion ∧ companion.statements = some items ∧
    host.Renders companion stored ∧ stored.references = Items.externals items
  stands : ∀ later, HostAct.AreRegular host later situation → ∃ kept,
    (HostAct.situationAfter host later situation).caches.companions.get? name = some kept ∧
      kept.references = stored.references
  unasked : ∀ later generate, HostAct.situationAfter host (later.map (·.overriding name generate)) situation =
    HostAct.situationAfter host later situation

/-- What becomes of a new form of a companion: it takes the place of the old one exactly if it has statements, there is an
old one, and both refer to the same modules. Otherwise the companions are left as they were. -/
structure Updates (host : Host ω) (situation : Situation ω) (companion : Companion) : Prop where
  succeeds_iff : Succeeds (host.updateCompanion companion) situation ↔
    companion.statements.isSome = true ∧ ∃ old, situation.caches.companions.get? companion.name = some old ∧
      ∀ source, source ∈ companion.references ↔ source ∈ old.references
  failed : ∀ error next, (host.updateCompanion companion).run.run situation = (.error error, next) →
    next.caches.companions = situation.caches.companions

variable {host : Host ω}

theorem isFingerprinted {situation middle : Situation ω} {log : List Companion} {name : String} {stored : CompanionUnit}
    (empty : situation.caches.companions = []) (takesIn : host.TakesIn situation.caches.companions log
      middle.caches.companions) (found : middle.caches.companions.get? name = some stored) :
    host.IsFingerprinted middle log name stored := by
  refine ⟨?_, fun later regular => ?_, fun later generate => ?_⟩
  · obtain ⟨-, same⟩ | ⟨companion, kept, last, found', renders, own⟩ := takesIn.last name
    · rw [found, empty] at same
      cases same
    · rw [found] at found'
      cases found'
      obtain ⟨items, _, _, stated, -⟩ := renders.unit
      refine ⟨companion, items, last, stated, renders, ?_⟩
      rw [own, Companion.references, stated]
  · exact (HostAct.situationAfter_takesIn regular).references found
  · exact HostAct.situationAfter_overriding generate later (Table.has_of_get?_eq_some found)

theorem updates {situation : Situation ω} (ordered : ∀ name stored, situation.caches.companions.get? name = some stored →
    stored.references.Pairwise (· < ·)) (companion : Companion) : host.Updates situation companion := by
  have replaces_iff : Replaces companion situation ↔ companion.statements.isSome = true ∧
      ∃ old, situation.caches.companions.get? companion.name = some old ∧
        ∀ source, source ∈ companion.references ↔ source ∈ old.references := by
    refine and_congr_right fun _ => exists_congr fun old => and_congr_right fun found => ?_
    refine ⟨fun same source => by rw [same], fun same => ?_⟩
    exact companion.references_ordered.eq_of_mem_iff (ordered _ _ found) same
  rcases ran : (host.updateCompanion companion).run.run situation with ⟨outcome, next⟩
  refine ⟨?_, fun error after failed => ?_⟩
  · rw [← replaces_iff]
    obtain ⟨refused, ⟨error, rfl⟩, -⟩ | ⟨replaces, added⟩ := updateCompanion_cases ran
    · refine iff_of_false ?_ refused
      rintro ⟨u, after, succeeded⟩
      rw [ran] at succeeded
      cases succeeded
    · refine iff_of_true ?_ replaces
      obtain ⟨unstated, -⟩ | ⟨stored, world, -, -, rfl, -⟩ := addCompanion_cases added
      · rw [Replaces, unstated] at replaces
        cases replaces.1
      · exact ⟨stored.unit, next, ran⟩
  · rw [ran] at failed
    cases failed
    obtain ⟨-, -, rfl⟩ | ⟨-, added⟩ := updateCompanion_cases ran
    · rfl
    · obtain ⟨-, -, rfl⟩ | ⟨stored, world, -, -, made, -⟩ := addCompanion_cases added
      · rfl
      · cases made

/-- In a build whose generators make what they are asked for, whatever was asked and made before, the host knows the
references of every companion it keeps, and of the last one taken in; they stay the same, and the companion is not made
again. An update succeeds exactly if it keeps to them, and changes nothing if it fails. -/
theorem fingerprint_stands (host : Host ω) (summaries : List LibrarySummary) (world : ω) (acts : List (HostAct ω))
    (regular : HostAct.AreRegular host acts ⟨world, .ofSummaries summaries⟩) :
    (∀ name stored,
      (HostAct.situationAfter host acts ⟨world, .ofSummaries summaries⟩).caches.companions.get? name = some stored →
      host.IsFingerprinted (HostAct.situationAfter host acts ⟨world, .ofSummaries summaries⟩)
        (HostAct.takenDuring host acts ⟨world, .ofSummaries summaries⟩) name stored) ∧
    ∀ companion, host.Updates (HostAct.situationAfter host acts ⟨world, .ofSummaries summaries⟩) companion := by
  have takesIn := HostAct.situationAfter_takesIn regular
  refine ⟨fun name stored found => isFingerprinted rfl takesIn found, fun companion =>
    updates (fun name stored found => ?_) companion⟩
  obtain ⟨companion, items, -, -, -, references⟩ := (isFingerprinted rfl takesIn found).last
  rw [references]
  exact Names.ofList_ordered _

/-- Refers to an export of the one library. -/
def coreStatement (name : String) : Located Item :=
  .synthetic (.stmt (.expr (.external .synthetic "@annex/core" name)))

/-- A form of the companion of the style sheet. -/
def sheetCompanion (statements : Items) : Companion where
  base := "/a.css"
  name := "/a.css.axstyle.ts"
  statements := some statements

def coreGenerator : Generator Unit where
  generate name _ := .done (.ok { sheetCompanion [coreStatement "x"] with name })
  namesFor _ := pure []

theorem coreGenerator_namesRight : coreGenerator.NamesRight sheetHost := by
  rintro name base situation companion ⟨⟩
  rfl

/-- The companion is made, and a second form takes its place. -/
def sheetActs : List (HostAct Unit) :=
  [.unit coreGenerator "/a.css.axstyle.ts", .updateCompanion (sheetCompanion [coreStatement "y", coreStatement "x"])]

theorem sheetActs_regular : HostAct.AreRegular sheetHost sheetActs ⟨(), .ofSummaries []⟩ :=
  ⟨coreGenerator_namesRight, trivial, trivial⟩

/-- The second form is kept with the references of the first; a third one that refers to nothing is turned down. -/
theorem sheet_fingerprint_stands :
    (∃ stored, (HostAct.situationAfter sheetHost sheetActs ⟨(), .ofSummaries []⟩).caches.companions.get?
        "/a.css.axstyle.ts" = some stored ∧ stored.references = ["@annex/core"] ∧
      sheetHost.IsFingerprinted (HostAct.situationAfter sheetHost sheetActs ⟨(), .ofSummaries []⟩)
        (HostAct.takenDuring sheetHost sheetActs ⟨(), .ofSummaries []⟩) "/a.css.axstyle.ts" stored) ∧
    ¬Succeeds (sheetHost.updateCompanion (sheetCompanion []))
      (HostAct.situationAfter sheetHost sheetActs ⟨(), .ofSummaries []⟩) := by
  obtain ⟨known, updates⟩ := fingerprint_stands sheetHost [] () sheetActs sheetActs_regular
  have references : ((HostAct.situationAfter sheetHost sheetActs ⟨(), .ofSummaries []⟩).caches.companions.get?
      "/a.css.axstyle.ts").map (·.references) = some ["@annex/core"] := by decide
  constructor
  · exact ⟨_, rfl, Option.some.inj references, known _ _ rfl⟩
  · rw [(updates _).succeeds_iff]
    rintro ⟨-, old, found, same⟩
    have kept : old.references = ["@annex/core"] := by
      rw [← Option.some.injEq, ← references, ← Option.map_some, ← found]
      rfl
    have referred := (same "@annex/core").mpr (kept ▸ List.mem_singleton.mpr rfl)
    exact absurd referred (by decide)

end Host

/-! ## Imports -/

namespace Items

/-- The modules that the items themselves import or re-export. -/
def sources (items : Items) : List String :=
  items.filterMap (·.value.source?)

/-- The modules that the text of some items imports from: those at its head and those of the items themselves. -/
def importedModules (items : Items) : Names :=
  Names.ofList (items.hoistedImports.map (·.source) ++ items.sources)

theorem mem_hoistedImports (items : Items) (source : String) :
    source ∈ items.hoistedImports.map (·.source) ↔ source ∈ items.externals := by
  rw [hoistedImports, map_source_importsFrom, externals, Names.mem_ofList]

/-- Where the external references are to the same modules, the imports differ by what the items themselves import from
other modules. -/
theorem importedModules_eq_iff {items others : Items} (same : items.externals = others.externals) :
    items.importedModules = others.importedModules ↔
      ∀ source, source ∉ items.externals → (source ∈ items.sources ↔ source ∈ others.sources) := by
  rw [importedModules, importedModules, Names.ofList_eq_iff]
  refine forall_congr' fun source => ?_
  rw [List.mem_append, List.mem_append, mem_hoistedImports, mem_hoistedImports, ← same]
  by_cases external : source ∈ items.externals
  · exact iff_of_true (iff_of_true (.inl external) (.inl external)) fun other => (other external).elim
  · rw [or_iff_right external, or_iff_right external]
    exact ⟨fun same _ => same, fun same => same external⟩

end Items

namespace Host

variable {ω : Type}

/-- A form of a companion in place of another one: both are rendered, from statements that refer to the same modules. -/
structure Replacement (host : Host ω) (situation next : Situation ω) (old companion : Companion)
    (oldItems items : Items) : Prop where
  oldStatements : old.statements = some oldItems
  statements : companion.statements = some items
  replaced : ∃ stored, situation.caches.companions.get? companion.name = some stored ∧ host.Renders old stored
  replacing : ∃ stored, next.caches.companions.get? companion.name = some stored ∧ host.Renders companion stored
  externals : items.externals = oldItems.externals

/-- In a build whose generators make what they are asked for, an update that succeeds puts a companion in place of the last
one of its name. The texts of the two import from the same modules exactly if their statements themselves import from the
same modules, those of external references apart. -/
theorem update_keeps_imports_iff (host : Host ω) (summaries : List LibrarySummary) (world : ω) (acts : List (HostAct ω))
    (regular : HostAct.AreRegular host acts ⟨world, .ofSummaries summaries⟩) (companion : Companion) (u : SourceUnit)
    (next : Situation ω) (updated : (host.updateCompanion companion).run.run
      (HostAct.situationAfter host acts ⟨world, .ofSummaries summaries⟩) = (.ok u, next)) :
    ∃ old oldItems items,
      Companion.lastNamed companion.name (HostAct.takenDuring host acts ⟨world, .ofSummaries summaries⟩) = some old ∧
      host.Replacement (HostAct.situationAfter host acts ⟨world, .ofSummaries summaries⟩) next old companion oldItems items ∧
      (items.importedModules = oldItems.importedModules ↔
        ∀ source, source ∉ items.externals → (source ∈ items.sources ↔ source ∈ oldItems.sources)) := by
  obtain ⟨-, ⟨error, failed⟩, -⟩ | ⟨⟨-, stored, found, same⟩, added⟩ := updateCompanion_cases updated
  · cases failed
  · obtain ⟨-, failed, -⟩ | ⟨taken, world, renders, -, -, rfl⟩ := addCompanion_cases added
    · cases failed
    · obtain ⟨old, oldItems, last, oldStated, oldRenders, references⟩ :=
        (isFingerprinted rfl (HostAct.situationAfter_takesIn regular) found).last
      obtain ⟨items, _, _, stated, -⟩ := renders.unit
      have externals : items.externals = oldItems.externals := by
        rw [← references, ← same, Companion.references, stated]
      refine ⟨old, oldItems, items, last, ?_, Items.importedModules_eq_iff externals⟩
      exact ⟨oldStated, stated, ⟨stored, found, oldRenders⟩, ⟨taken, Table.get?_put_self .., renders⟩, externals⟩

/-- The same reference, in statements that import another module as well. -/
def widerStatements : Items :=
  [.synthetic (.imports ⟨[.whole "extra"], "./extra", false⟩), coreStatement "x"]

/-- The wider form takes the place of the first one, although it imports from one more module. -/
theorem wider_update_imports : ∃ u next old oldItems items,
    (sheetHost.updateCompanion (sheetCompanion widerStatements)).run.run
      (HostAct.situationAfter sheetHost sheetActs ⟨(), .ofSummaries []⟩) = (.ok u, next) ∧
    sheetHost.Replacement (HostAct.situationAfter sheetHost sheetActs ⟨(), .ofSummaries []⟩) next old
      (sheetCompanion widerStatements) oldItems items ∧
    items.importedModules ≠ oldItems.importedModules := by
  obtain ⟨old, oldItems, items, last, replacement, imports⟩ :=
    update_keeps_imports_iff sheetHost [] () sheetActs sheetActs_regular (sheetCompanion widerStatements) _ _ rfl
  refine ⟨_, _, old, oldItems, items, rfl, replacement, fun same => ?_⟩
  have taken : some (sheetCompanion [coreStatement "y", coreStatement "x"]) = some old := last
  cases taken
  cases replacement.oldStatements
  cases replacement.statements
  have extra := imports.mp same "./extra" (by decide)
  exact absurd (extra.mp (by decide)) (by decide)

end Host

end CompanionBuild
