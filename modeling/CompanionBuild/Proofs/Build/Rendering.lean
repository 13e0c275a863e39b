import CompanionBuild.Proofs.Build.Delivery
import CompanionBuild.Proofs.Build.Emission

/-! # Compilers that render units

What a compiler hands over for a unit does not depend on what else it emits: in every steady situation it is the same.
Then the compiler's part of an emit is a delivery of the outputs of all units that it is about.
-/

namespace CompanionBuild

theorem OutputMapper.exists_ofSample (outDir : Option String) (sample : String × String) :
    ∃ mapper, ofSample outDir (some sample) = .ok mapper := by
  unfold ofSample
  cases outDir with
  | none => exact ⟨_, rfl⟩
  | some outDir =>
    dsimp only
    split <;> exact ⟨_, rfl⟩

namespace EmitPlan

variable {ω : Type} (plan : EmitPlan ω)

/-- Passes on outputs of the compiler, one after the other. -/
def passAll (outputs : List OutputFile) : EmitM ω Unit :=
  outputs.forM fun output => Emission.ofRouter (plan.router.passOutput output)

/-- The units of the program that can be emitted. -/
def emittable : List String :=
  (plan.program.units.filter fun u => !u.isDeclaration).map (·.name)

/-- The units that the emit is about. -/
def emittedNames : List String :=
  match plan.batching with
  | .perFile => plan.targets
  | _ => plan.emittable

/-- In steady situations the compiler hands over the outputs `made` for a unit and tells the result `told`, for all units
together what it does for each of them. Writing leaves a situation steady. -/
structure Renders (stored : ω → Store) (Steady : Situation ω → Prop) (made : String → List OutputFile)
    (told : Option String → EmitResult) : Prop where
  one : ∀ name situation routed, Steady situation →
    ∃ ready, Steady ready ∧ stored ready.world = stored situation.world ∧
      (plan.emitTarget (some name)).run.run ⟨situation, routed⟩ =
        (do plan.passAll (made name); pure (told (some name))).run.run ⟨ready, routed⟩
  all : ∀ situation routed, Steady situation →
    ∃ ready, Steady ready ∧ stored ready.world = stored situation.world ∧
      (plan.emitTarget none).run.run ⟨situation, routed⟩ =
        (do plan.passAll (plan.emittable.flatMap made); pure (told none)).run.run ⟨ready, routed⟩
  write : ∀ name text sources situation, Steady situation →
    Steady { situation with world := ((plan.router.files.write name text sources).run situation.world).2 }
  sources : ∀ name, ∀ output ∈ made name, output.sources = [name]
  /-- Nothing is made of a name that is not a unit, or of a declaration file. -/
  known : ∀ name, made name ≠ [] → name ∈ plan.emittable
  indexed : ∀ name u, plan.program.unit? name = some u ↔ u ∈ plan.program.units ∧ u.name = name

/-- What the compiler tells of the emit, with the number of the user's files in it. -/
def answer (told : Option String → EmitResult) : EmitResult × Nat :=
  match plan.batching with
  | .perFile => (.concat (plan.targets.map fun name => told (some name)), plan.units.length)
  | _ => (told none, plan.program.units.length - plan.printed.length)

/-- The companions that are finished texts, where a mapper puts them. -/
def finishedFiles (mapper : OutputMapper) : List (String × String) :=
  plan.finished.flatMap fun companion =>
    plan.router.fileOf (mapper.map companion.name) (companion.source.getD "") (some companion)

/-- The metadata of the user's units, where a mapper puts them. -/
def metadataFiles (documented : SourceUnit → Option Json) (mapper : OutputMapper) : List (String × String) :=
  plan.described.flatMap fun u =>
    (documented u).elim [] fun metadata =>
      plan.router.fileOf (mapper.map (Path.metadataOfSource u.name)) (Json.render (.array [metadata])) none

/-- What is written beside the compiler's outputs. -/
def restFiles (documented : SourceUnit → Option Json) (mapper : OutputMapper) : List (String × String) :=
  (if plan.flags.companions then plan.finishedFiles mapper else []) ++
    (if plan.flags.metadata then plan.metadataFiles documented mapper else [])

/-- In steady situations the host has the metadata `documented` for the units that are described. Metadata is kept by the
name of its unit, so that nothing can be said of other units of these names. -/
def Documents (host : Host ω) (stored : ω → Store) (Steady : Situation ω → Prop)
    (documented : SourceUnit → Option Json) : Prop :=
  ∀ u ∈ plan.described, ∀ situation, Steady situation → ∃ after, Steady after ∧
    stored after.world = stored situation.world ∧ (host.unitMetadata u).run.run situation = (.ok (documented u), after)

/-- The mapper derived from the first output that was made from one unit. -/
def mapper? (outDir : Option String) (made : String → List OutputFile) : Option OutputMapper :=
  (Router.mapped (plan.emittedNames.flatMap made)).head?.bind fun sample =>
    (OutputMapper.ofSample outDir (some (sample.2, sample.1))).toOption

/-- Everything that is written in an emit. -/
def written (outDir : Option String) (made : String → List OutputFile) (documented : SourceUnit → Option Json) :
    List (String × String) :=
  plan.router.kept (plan.emittedNames.flatMap made) ++
    (plan.mapper? outDir made).elim [] (plan.restFiles documented)

/-- The result of an emit, given what the compiler told. -/
def concluded (mapper : Option OutputMapper) (isReported : Bool) (elapsed userFiles : Nat) (result : EmitResult) :
    EmitResult :=
  match mapper with
  | none => result.remarking (.remark "Emitted no files." Options.reporter)
  | some _ => if isReported then result.remarking (plan.summary elapsed userFiles) else result

/-- The two parts of what is passed on beside the compiler's outputs. -/
theorem emitRest_eq (host : Host ω) (mapper : OutputMapper) :
    plan.emitRest host mapper =
      (if plan.flags.companions then plan.finished.forM (plan.passFinished mapper) else pure ()) >>= fun _ =>
        if plan.flags.metadata then plan.described.forM (plan.passMetadata host mapper) else pure () := by
  unfold emitRest
  cases plan.flags.companions <;> rfl

namespace Renders

variable {plan} {stored : ω → Store} {Steady : Situation ω → Prop} {made : String → List OutputFile}
  {told : Option String → EmitResult} (renders : plan.Renders stored Steady made told)
  (stores : plan.router.files.Stores stored)

include renders stores

theorem passAll_ok {outputs : List OutputFile} {before after : Emission ω}
    (passed : (plan.passAll outputs).run.run before = (.ok (), after)) (steady : Steady before.situation) :
    plan.router.Delivers stored outputs before after ∧ Steady after.situation := by
  induction outputs generalizing before with
  | nil =>
    cases passed
    exact ⟨Emission.Grows.refl _, steady⟩
  | cons output rest ih =>
    obtain ⟨⟨⟩, middle, first, others⟩ := run_bind_ok passed
    have stays : Steady middle.situation := by
      have stays := Router.passOutput_situation before steady (renders.write output.name _ _ _ steady)
      rwa [first] at stays
    obtain ⟨delivered, ends⟩ := ih others stays
    exact ⟨(Router.passOutput_delivers stores first).trans delivered, ends⟩

omit stores in
/-- The first of the outputs that are mapped to their units, if there are outputs at all. -/
theorem head?_mapped (names : List String) :
    names.flatMap made = [] ∧ (Router.mapped (names.flatMap made)).head? = none ∨
      ∃ name ∈ names, ∃ output ∈ made name,
        (Router.mapped (names.flatMap made)).head? = some (output.name, name) := by
  cases handed : names.flatMap made with
  | nil => exact .inl ⟨rfl, rfl⟩
  | cons output rest =>
    obtain ⟨name, present, member⟩ := List.mem_flatMap.mp (handed ▸ List.mem_cons_self ..)
    refine .inr ⟨name, present, output, member, ?_⟩
    rw [Router.mapped, List.filterMap_cons, renders.sources name output member]
    rfl

/-- An emit that passes outputs on in another situation with the same store. -/
theorem deliver_ok {outputs : List OutputFile} {situation ready : Situation ω} {routed : Routed} {result told : EmitResult}
    {after : Emission ω} (steady : Steady ready) (same : stored ready.world = stored situation.world)
    (ran : (do plan.passAll outputs; pure told).run.run ⟨ready, routed⟩ = (.ok result, after)) :
    plan.router.Delivers stored outputs ⟨situation, routed⟩ after ∧ Steady after.situation ∧ result = told := by
  obtain ⟨⟨⟩, middle, passed, ends⟩ := run_bind_ok ran
  cases ends
  obtain ⟨delivered, stays⟩ := renders.passAll_ok stores passed steady
  exact ⟨delivered.of_stored same, stays, rfl⟩

theorem emitEach_ok {names : List String} {before after : Emission ω} {results : List EmitResult}
    (steady : Steady before.situation) (ran : (plan.emitEach names).run.run before = (.ok results, after)) :
    plan.router.Delivers stored (names.flatMap made) before after ∧ Steady after.situation ∧
      results = names.map fun name => told (some name) := by
  induction names generalizing before results with
  | nil =>
    cases ran
    exact ⟨Emission.Grows.refl _, steady, rfl⟩
  | cons name rest ih =>
    obtain ⟨result, middle, first, others⟩ := run_bind_ok ran
    obtain ⟨ready, steadyReady, same, emits⟩ := renders.one name before.situation before.routed steady
    rw [emits] at first
    obtain ⟨delivered, stays, rfl⟩ := renders.deliver_ok stores steadyReady same first
    obtain ⟨results, last, each, ends⟩ := run_bind_ok others
    cases ends
    obtain ⟨deliveredRest, staysRest, rfl⟩ := ih stays each
    exact ⟨delivered.trans deliveredRest, staysRest, rfl⟩

theorem emitTarget_ok {before after : Emission ω} {result : EmitResult} (steady : Steady before.situation)
    (ran : (plan.emitTarget none).run.run before = (.ok result, after)) :
    plan.router.Delivers stored (plan.emittable.flatMap made) before after ∧ Steady after.situation ∧
      result = told none := by
  obtain ⟨ready, steadyReady, same, emits⟩ := renders.all before.situation before.routed steady
  rw [emits] at ran
  exact renders.deliver_ok stores steadyReady same ran

/-- The compiler's part of an emit delivers what is made of the units that the emit is about. -/
theorem emitUnits_ok {before after : Emission ω} {answer : EmitResult × Nat} (steady : Steady before.situation)
    (ran : plan.emitUnits.run.run before = (.ok answer, after)) :
    plan.router.Delivers stored (plan.emittedNames.flatMap made) before after ∧ Steady after.situation ∧
      answer = plan.answer told := by
  have whole (ran : (do
      let result ← plan.emitTarget none
      pure (result, plan.program.units.length - plan.printed.length) : EmitM ω _).run.run before = (.ok answer, after)) :
      plan.router.Delivers stored (plan.emittable.flatMap made) before after ∧ Steady after.situation ∧
        answer = (told none, plan.program.units.length - plan.printed.length) := by
    obtain ⟨result, middle, first, ends⟩ := run_bind_ok ran
    cases ends
    obtain ⟨delivered, stays, rfl⟩ := renders.emitTarget_ok stores steady first
    exact ⟨delivered, stays, rfl⟩
  unfold emitUnits at ran
  rw [emittedNames, EmitPlan.answer]
  cases batching : plan.batching with
  | perFile =>
    rw [batching] at ran
    obtain ⟨results, middle, each, ends⟩ := run_bind_ok ran
    cases ends
    obtain ⟨delivered, stays, rfl⟩ := renders.emitEach_ok stores steady each
    exact ⟨delivered, stays, rfl⟩
  | automatic =>
    rw [batching] at ran
    exact whole ran
  | wholeProgram =>
    rw [batching] at ran
    exact whole ran

theorem pass_ok {name text : String} {companion : Option Companion} {sources : List String} {before after : Emission ω}
    (passed : (Emission.ofRouter (plan.router.pass name text companion sources)).run.run before = (.ok (), after))
    (steady : Steady before.situation) :
    Emission.Grows stored (plan.router.fileOf name text companion) [] [] before after ∧ Steady after.situation := by
  have stays := Router.pass_situation companion before steady (renders.write name text sources _ steady)
  rw [passed] at stays
  exact ⟨Router.pass_ok stores passed, stays⟩

omit renders stores in
/-- Steps that each write some files, one after the other. -/
theorem forM_ok {α : Type} {step : α → EmitM ω Unit} {files : α → List (String × String)} {list : List α}
    (each : ∀ a ∈ list, ∀ before after, (step a).run.run before = (.ok (), after) → Steady before.situation →
      Emission.Grows stored (files a) [] [] before after ∧ Steady after.situation)
    {before after : Emission ω} (ran : (list.forM step).run.run before = (.ok (), after))
    (steady : Steady before.situation) :
    Emission.Grows stored (list.flatMap files) [] [] before after ∧ Steady after.situation := by
  induction list generalizing before with
  | nil =>
    cases ran
    exact ⟨.refl _, steady⟩
  | cons a rest ih =>
    obtain ⟨⟨⟩, middle, first, others⟩ := run_bind_ok ran
    obtain ⟨grows, stays⟩ := each a (List.mem_cons_self ..) before middle first steady
    obtain ⟨growsRest, ends⟩ := ih (fun b member => each b (List.mem_cons_of_mem _ member)) others stays
    exact ⟨grows.trans growsRest, ends⟩

theorem passMetadata_ok {host : Host ω} {documented : SourceUnit → Option Json}
    (documents : plan.Documents host stored Steady documented) {mapper : OutputMapper} (u : SourceUnit)
    (described : u ∈ plan.described) (before after : Emission ω) (ran : (plan.passMetadata host mapper u).run.run before = (.ok (), after))
    (steady : Steady before.situation) :
    Emission.Grows stored ((documented u).elim [] fun metadata =>
      plan.router.fileOf (mapper.map (Path.metadataOfSource u.name)) (Json.render (.array [metadata])) none)
      [] [] before after ∧ Steady after.situation := by
  obtain ⟨metadata, middle, asked, ends⟩ := run_bind_ok ran
  obtain ⟨ready, steadyReady, same, answers⟩ := documents u described before.situation steady
  have reached : (Emission.ofAttempt (host.unitMetadata u)).run.run before =
      (.ok (documented u), ⟨ready, before.routed⟩) := by
    change (let (value, situation) := (host.unitMetadata u).run.run before.situation
      (value, ({ before with situation } : Emission ω))) = _
    rw [answers]
  rw [reached] at asked
  cases asked
  cases known : documented u with
  | none =>
    rw [known] at ends
    cases ends
    exact ⟨(Emission.Grows.refl _).of_stored same, steadyReady⟩
  | some metadata =>
    rw [known] at ends
    obtain ⟨grows, stays⟩ := renders.pass_ok stores ends steadyReady
    exact ⟨grows.of_stored same, stays⟩

omit renders stores in
/-- A step that writes some files, taken only if it is wanted. -/
theorem if_ok {wanted : Bool} {step : EmitM ω Unit} {files : List (String × String)}
    (does : wanted = true → ∀ {before after}, step.run.run before = (.ok (), after) → Steady before.situation →
      Emission.Grows stored files [] [] before after ∧ Steady after.situation)
    {before after : Emission ω} (ran : (if wanted then step else pure ()).run.run before = (.ok (), after))
    (steady : Steady before.situation) :
    Emission.Grows stored (if wanted then files else []) [] [] before after ∧ Steady after.situation := by
  split at ran
  case isTrue wanted =>
    rw [if_pos wanted]
    exact does wanted ran steady
  case isFalse unwanted =>
    rw [if_neg unwanted]
    cases ran
    exact ⟨.refl _, steady⟩

theorem emitRest_ok {host : Host ω} {documented : SourceUnit → Option Json}
    (documents : plan.flags.metadata = true → plan.Documents host stored Steady documented) {mapper : OutputMapper}
    {before after : Emission ω} (ran : (plan.emitRest host mapper).run.run before = (.ok (), after))
    (steady : Steady before.situation) :
    Emission.Grows stored (plan.restFiles documented mapper) [] [] before after ∧ Steady after.situation := by
  rw [emitRest_eq] at ran
  obtain ⟨⟨⟩, middle, first, second⟩ := run_bind_ok ran
  obtain ⟨grows, stays⟩ := if_ok
    (fun _ => forM_ok fun _ _ _ _ passed steady => renders.pass_ok stores passed steady) first steady
  obtain ⟨growsRest, ends⟩ := if_ok
    (fun wanted => forM_ok (renders.passMetadata_ok stores (documents wanted))) second stays
  exact ⟨grows.trans growsRest, ends⟩

end Renders

end EmitPlan

namespace Setup

variable {ω A : Type} (setup : Setup ω A) {program : Program ω} {companions : List Companion} {options : EmitOptions ω}
  {stored : ω → Store} {Steady : Situation ω → Prop} {made : String → List OutputFile}
  {told : Option String → EmitResult}

/-- Templates are shown by the companions, which no lookup changes. -/
theorem withTemplates_congr {before after : Situation ω} (same : after.standing = before.standing)
    (structural : List TemplateDiagnostic) (result : EmitResult) :
    setup.withTemplates after.caches structural result = setup.withTemplates before.caches structural result := by
  have companions : after.caches.companions = before.caches.companions := (congrArg Caches.companions same : _)
  have spans : (Host.spanAt after.caches) = Host.spanAt before.caches := by
    unfold Host.spanAt
    rw [companions]
  rw [withTemplates, withTemplates, spans]

variable (options) in
/-- What an emit writes, and its result. -/
theorem emitPlan_ok (documented : SourceUnit → Option Json)
    (renders : (setup.plan program companions options).Renders stored Steady made told)
    (stores : setup.files.Stores stored) (quiet : Within (Alike stored) setup.clock)
    (documents : options.flags.metadata = true →
      (setup.plan program companions options).Documents setup.host stored Steady documented)
    {structural : List TemplateDiagnostic} {started : Nat} {situation : Situation ω} {result : EmitResult}
    {after : Emission ω} (steady : Steady situation)
    (ran : (setup.emitPlan (setup.plan program companions options) structural started).run.run ⟨situation, {}⟩ =
      (.ok result, after)) :
    let plan := setup.plan program companions options
    stored after.situation.world =
        (stored situation.world).putAll (plan.written setup.options.outDir made documented) ∧
      after.routed.units = plan.router.emittedUnits (plan.emittedNames.flatMap made) ∧
      ∃ shown world,
        setup.withTemplates situation.caches structural (plan.answer told).1 = .ok shown ∧
          result = plan.concluded (plan.mapper? setup.options.outDir made) setup.options.diagnostics
            ((setup.clock.run world).1 - started) (plan.answer told).2 shown := by
  intro plan
  obtain ⟨answer, units, emits, ran⟩ := run_bind_ok ran
  obtain ⟨delivered, stays, told⟩ := renders.emitUnits_ok stores steady emits
  rw [← told]
  rcases answer with ⟨answered, userFiles⟩
  have same : units.situation.standing = situation.standing :=
    (setup.looksUp_emitUnits program companions options).of_run emits
  obtain ⟨_, _, got, ran⟩ := run_bind_ok ran
  cases got
  obtain ⟨shown, middle, answers, ran⟩ := run_bind_ok ran
  rw [setup.withTemplates_congr same] at answers
  obtain ⟨shows, rfl⟩ : setup.withTemplates situation.caches structural answered = .ok shown ∧ units = middle :=
    Prod.mk.inj answers
  obtain ⟨_, _, got, ran⟩ := run_bind_ok ran
  cases got
  have mapping : units.routed.mapping = Router.mapped (plan.emittedNames.flatMap made) := delivered.mapping
  have emitted : units.routed.units = plan.router.emittedUnits (plan.emittedNames.flatMap made) := delivered.units
  rw [mapping] at ran
  rw [EmitPlan.written, EmitPlan.mapper?, Store.putAll_append]
  cases first : (Router.mapped (plan.emittedNames.flatMap made)).head? with
  | none =>
    rw [first] at ran
    cases ran
    exact ⟨delivered.store, emitted, shown, situation.world, shows, rfl⟩
  | some sample =>
    rw [first] at ran
    obtain ⟨output, source⟩ := sample
    obtain ⟨mapper, middle, answers, ran⟩ := run_bind_ok ran
    obtain ⟨mapped, rfl⟩ : (OutputMapper.ofSample setup.options.outDir (some (source, output))).mapError
        BuildError.consistency = .ok mapper ∧ units = middle := Prod.mk.inj answers
    have found : (OutputMapper.ofSample setup.options.outDir (some (source, output))).toOption = some mapper := by
      cases derived : OutputMapper.ofSample setup.options.outDir (some (source, output)) with
      | error fault =>
        rw [derived] at mapped
        cases mapped
      | ok other =>
        rw [derived] at mapped
        cases mapped
        rfl
    obtain ⟨⟨⟩, rest, writes, ran⟩ := run_bind_ok ran
    obtain ⟨grows, -⟩ := renders.emitRest_ok stores documents writes stays
    have restStore : stored rest.situation.world =
        ((stored situation.world).putAll (plan.router.kept (plan.emittedNames.flatMap made))).putAll
          (plan.restFiles documented mapper) := by
      rw [grows.store, delivered.store]
    have restUnits : rest.routed.units = plan.router.emittedUnits (plan.emittedNames.flatMap made) := by
      rw [grows.units, List.append_nil, emitted]
    rw [Option.bind_some, found]
    split at ran
    case isTrue isReported =>
      obtain ⟨now, timed, clocked, ends⟩ := run_bind_ok ran
      cases ends
      obtain ⟨read, rfl⟩ := Prod.mk.inj clocked
      obtain rfl : (setup.clock.run rest.situation.world).1 = now := Except.ok.inj read
      have kept : stored (setup.clock.run rest.situation.world).2 = stored rest.situation.world := quiet _
      refine ⟨kept.trans restStore, restUnits, shown, rest.situation.world, shows, ?_⟩
      rw [EmitPlan.concluded, if_pos isReported]
    case isFalse silent =>
      cases ran
      refine ⟨restStore, restUnits, _, situation.world, shows, ?_⟩
      rw [EmitPlan.concluded, if_neg silent]

end Setup

end CompanionBuild
