import CompanionBuild.Proofs.Build.Rendering

/-! # Emits that succeed

Where the file system takes every file and the compiler renders units, an emit can only fail over diagnostics that point
inside a character.
-/

namespace CompanionBuild

variable {ω A : Type}

/-- Everything can be written. -/
def FileSystem.Accepts (files : FileSystem ω) : Prop :=
  ∀ name text sources world, ((files.write name text sources).run world).1 = .ok ()

namespace Router

variable {router : Router ω} (accepts : router.files.Accepts)

include accepts

theorem pass_succeeds (name text : String) (companion : Option Companion) (sources : List String)
    (before : Emission ω) : Succeeds (Emission.ofRouter (router.pass name text companion sources)) before := by
  rw [Succeeds, pass_run]
  dsimp only
  split
  · exact ⟨(), _, rfl⟩
  · rcases wrote : (router.files.write name text sources).run before.situation.world with ⟨outcome, world⟩
    obtain rfl : outcome = .ok () := by
      have taken := accepts name text sources before.situation.world
      rwa [wrote] at taken
    exact ⟨(), _, rfl⟩

theorem passOutput_succeeds (output : OutputFile) (before : Emission ω) :
    Succeeds (Emission.ofRouter (router.passOutput output)) before := by
  unfold passOutput
  cases source : single? output.sources with
  | none => exact pass_succeeds accepts output.name output.text none output.sources before
  | some name =>
    exact pass_succeeds accepts output.name output.text (router.companions.get? name) output.sources
      { before with routed := { before.routed with
        mapping := before.routed.mapping ++ [(output.name, name)]
        units := before.routed.units ++ (router.emittedUnit? name).toList } }

end Router

namespace EmitPlan.Renders

variable {plan : EmitPlan ω} {stored : ω → Store} {Steady : Situation ω → Prop} {made : String → List OutputFile}
  {told : Option String → EmitResult} (renders : plan.Renders stored Steady made told)
  (stores : plan.router.files.Stores stored) (accepts : plan.router.files.Accepts)

omit renders stores in
include accepts in
theorem passAll_succeeds (outputs : List OutputFile) (before : Emission ω) : Succeeds (plan.passAll outputs) before := by
  induction outputs generalizing before with
  | nil => exact .pure _ _
  | cons output rest ih =>
    exact (Router.passOutput_succeeds accepts output before).bind fun _ middle _ => ih middle

include renders accepts

theorem emitTarget_succeeds (target : Option String) {before : Emission ω} (steady : Steady before.situation) :
    Succeeds (plan.emitTarget target) before := by
  obtain ⟨situation, routed⟩ := before
  cases target with
  | none =>
    obtain ⟨ready, -, -, emits⟩ := renders.all situation routed steady
    rw [Succeeds, emits]
    exact (passAll_succeeds accepts _ _).bind fun _ _ _ => .pure _ _
  | some name =>
    obtain ⟨ready, -, -, emits⟩ := renders.one name situation routed steady
    rw [Succeeds, emits]
    exact (passAll_succeeds accepts _ _).bind fun _ _ _ => .pure _ _

include stores

theorem emitEach_succeeds (names : List String) {before : Emission ω} (steady : Steady before.situation) :
    Succeeds (plan.emitEach names) before := by
  induction names generalizing before with
  | nil => exact .pure _ _
  | cons name rest ih =>
    refine (renders.emitTarget_succeeds accepts (some name) steady).bind fun result middle ran => ?_
    have alone : (plan.emitEach [name]).run.run before = (.ok [result], middle) := by
      have split : plan.emitEach [name] = plan.emitTarget (some name) >>= fun result => pure [result] := rfl
      rw [split, ExceptT.run_bind, StateT.run_bind, ran]
      rfl
    obtain ⟨-, stays, -⟩ := renders.emitEach_ok stores steady alone
    exact (ih stays).bind fun _ _ _ => .pure _ _

theorem emitUnits_succeeds {before : Emission ω} (steady : Steady before.situation) :
    Succeeds plan.emitUnits before := by
  unfold emitUnits
  split
  · exact (renders.emitEach_succeeds stores accepts plan.targets steady).bind fun _ _ _ => .pure _ _
  · exact (renders.emitTarget_succeeds accepts none steady).bind fun _ _ _ => .pure _ _

omit renders stores accepts in
/-- Steps that each succeed, one after the other. -/
theorem forM_succeeds {α : Type} {step : α → EmitM ω Unit} {list : List α}
    (each : ∀ a ∈ list, ∀ before, Steady before.situation → Succeeds (step a) before)
    (stays : ∀ a ∈ list, ∀ before after, (step a).run.run before = (.ok (), after) → Steady before.situation →
      Steady after.situation)
    {before : Emission ω} (steady : Steady before.situation) : Succeeds (list.forM step) before := by
  induction list generalizing before with
  | nil => exact .pure _ _
  | cons a rest ih =>
    refine (each a (List.mem_cons_self ..) before steady).bind fun _ middle ran => ?_
    refine ih (fun b member => each b (List.mem_cons_of_mem _ member))
      (fun b member => stays b (List.mem_cons_of_mem _ member)) ?_
    exact stays a (List.mem_cons_self ..) before middle ran steady

omit renders stores in
theorem passMetadata_succeeds {host : Host ω} {documented : SourceUnit → Option Json}
    (documents : plan.Documents host stored Steady documented) (mapper : OutputMapper) (u : SourceUnit)
    (described : u ∈ plan.described) (before : Emission ω) (steady : Steady before.situation) : Succeeds (plan.passMetadata host mapper u) before := by
  obtain ⟨ready, -, -, answers⟩ := documents u described before.situation steady
  have asked : Succeeds (Emission.ofAttempt (host.unitMetadata u)) before := by
    refine ⟨documented u, ⟨ready, before.routed⟩, ?_⟩
    change (let (value, situation) := (host.unitMetadata u).run.run before.situation
      (value, ({ before with situation } : Emission ω))) = _
    rw [answers]
  refine asked.bind fun metadata middle _ => ?_
  cases metadata with
  | none => exact .pure _ _
  | some metadata => exact Router.pass_succeeds accepts ..

omit renders stores accepts in
theorem if_succeeds {wanted : Bool} {step : EmitM ω Unit} {before : Emission ω}
    (does : wanted = true → Succeeds step before) : Succeeds (if wanted then step else pure ()) before := by
  split
  case isTrue wanted => exact does wanted
  case isFalse => exact .pure _ _

theorem emitRest_succeeds {host : Host ω} {documented : SourceUnit → Option Json}
    (documents : plan.flags.metadata = true → plan.Documents host stored Steady documented) (mapper : OutputMapper)
    {before : Emission ω} (steady : Steady before.situation) : Succeeds (plan.emitRest host mapper) before := by
  have finished (companion : Companion) (before after : Emission ω)
      (passed : (plan.passFinished mapper companion).run.run before = (.ok (), after))
      (steady : Steady before.situation) :
      Emission.Grows stored _ [] [] before after ∧ Steady after.situation :=
    renders.pass_ok stores passed steady
  rw [emitRest_eq]
  refine Succeeds.bind (if_succeeds fun _ => ?_) fun _ middle ran => if_succeeds fun wanted => ?_
  · exact forM_succeeds (fun _ _ _ _ => Router.pass_succeeds accepts ..)
      (fun companion _ _ _ passed steady => (finished companion _ _ passed steady).2) steady
  · obtain ⟨-, stays⟩ := if_ok (fun _ => forM_ok fun companion _ => finished companion) ran steady
    exact forM_succeeds (passMetadata_succeeds accepts (documents wanted) mapper)
      (fun u member _ _ passed steady =>
        (renders.passMetadata_ok stores (documents wanted) u member _ _ passed steady).2) stays

end EmitPlan.Renders

namespace Setup

variable (setup : Setup ω A) {program : Program ω} {companions : List Companion} (options : EmitOptions ω)
  {stored : ω → Store} {Steady : Situation ω → Prop} {made : String → List OutputFile}
  {told : Option String → EmitResult}

theorem emitPlan_succeeds {documented : SourceUnit → Option Json}
    (renders : (setup.plan program companions options).Renders stored Steady made told)
    (stores : setup.files.Stores stored) (accepts : setup.files.Accepts)
    (documents : options.flags.metadata = true →
      (setup.plan program companions options).Documents setup.host stored Steady documented)
    {structural : List TemplateDiagnostic} {situation : Situation ω} {shown : EmitResult} (steady : Steady situation)
    (shows : setup.withTemplates situation.caches structural ((setup.plan program companions options).answer told).1 =
      .ok shown) (started : Nat) :
    Succeeds (setup.emitPlan (setup.plan program companions options) structural started) ⟨situation, {}⟩ := by
  refine (renders.emitUnits_succeeds stores accepts steady).bind fun answer units emits => ?_
  obtain ⟨-, stays, rfl⟩ := renders.emitUnits_ok stores steady emits
  have same : units.situation.standing = situation.standing :=
    (setup.looksUp_emitUnits program companions options).of_run emits
  refine Succeeds.bind ⟨_, _, rfl⟩ fun _ _ got => ?_
  cases got
  refine Succeeds.bind ⟨shown, units, ?_⟩ fun shown middle answers => ?_
  · rw [← setup.withTemplates_congr same] at shows
    exact congrArg (·, units) shows
  · obtain ⟨-, rfl⟩ := Prod.mk.inj answers
    refine Succeeds.bind ⟨_, _, rfl⟩ fun _ _ got => ?_
    cases got
    cases units.routed.mapping.head? with
    | none => exact .pure _ _
    | some sample =>
      obtain ⟨output, source⟩ := sample
      obtain ⟨mapper, mapped⟩ := OutputMapper.exists_ofSample setup.options.outDir (source, output)
      refine Succeeds.bind ⟨mapper, units, ?_⟩ fun mapper middle answers => ?_
      · rw [mapped]
        rfl
      · obtain ⟨-, rfl⟩ := Prod.mk.inj answers
        refine (renders.emitRest_succeeds stores accepts documents mapper stays).bind fun _ rest _ => ?_
        split
        · exact Succeeds.bind ⟨_, _, rfl⟩ fun _ _ _ => .pure _ _
        · exact .pure _ _

end Setup

end CompanionBuild
