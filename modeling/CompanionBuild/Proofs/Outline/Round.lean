import CompanionBuild.Outline.Analyzer
import CompanionBuild.Proofs.Build.Round
import CompanionBuild.Proofs.Emit.Pipeline
import CompanionBuild.Proofs.Outline.Rendering

/-! # Rounds with the compiler of outlines

As long as the transforms make the same of a unit whenever they are asked, every successful emit of the compiler of
outlines is a round. Where the options ask for nothing to be lowered or inlined, they do.
-/

namespace CompanionBuild.Outline

theorem stores (faults : Faults) (directory : String) : (files faults directory).Stores stored where
  write := by
    intro name text sources world after wrote
    by_cases faulty : faults.unwritable.contains name = true
    · have failed : ((files faults directory).write name text sources).run world = (.error "disk full", world) := by
        change (if faults.unwritable.contains name then _ else _ : StateM World (Except String Unit)).run world = _
        rw [if_pos faulty]
        rfl
      rw [failed] at wrote
      cases wrote
    · have done : ((files faults directory).write name text sources).run world =
          (.ok (), { world with
            memory := { world.memory with written := world.memory.written.put name text }
            writes := world.writes ++ [(name, sources)] }) := by
        change (if faults.unwritable.contains name then _ else _ : StateM World (Except String Unit)).run world = _
        rw [if_neg faulty]
        rfl
      rw [done] at wrote
      obtain rfl := congrArg Prod.snd wrote
      funext other
      change (world.memory.written.put name text).get? other =
        Function.update world.memory.written.get? name (some text) other
      rw [Table.get?_put, Function.update_apply]
      simp only [eq_comm]

/-- The options ask for companions to be filled in and for nothing else. -/
structure Plain (options : Options) : Prop where
  inlining : options.enableResourceInlining = false
  lowering : options.disableExpressionLowering = true
  decorators : options.lowersDecorators = false

theorem Plain.transforms {options : Options} (plain : Plain options)
    {resources : ResourceHost (Situation World)} {requests : SourceUnit → StateM (Situation World) Lowering.Requests}
    {Steady : Situation World → Prop} (companions : List Companion) (core : Bool) (units : List SourceUnit) :
    Transforms (.ofOptions options resources requests companions core [] []) units Steady
      (fun u => u.detached.filled companions options.annotateForClosureCompiler) (fun _ => {}) where
  apply u _ situation steady := by
    refine ⟨_, {}, situation, situation, ?_, rfl, steady, rfl⟩
    rw [Pipeline.ofOptions, plain.inlining, plain.lowering, plain.decorators]
    rfl
  name u _ := (u.detached.filled_keeps ..).1

/-- The transforms make the same of the units from a situation on, whatever is noted or written in between. -/
structure Making (pipeline : Pipeline (Situation World)) (units : List SourceUnit) (start : Situation World) where
  Steady : Situation World → Prop
  final : SourceUnit → SourceUnit
  found : SourceUnit → Findings
  transforms : Transforms pipeline (emitted units none) Steady final found
  notes : ∀ line situation, Steady situation → Steady { situation with world := ((note line).run situation.world).2 }
  writes : ∀ name text sources situation, Steady situation →
    Steady { situation with world := (((files {} "/").write name text sources).run situation.world).2 }
  steady : Steady start

/-- A build of some units that is ready to be emitted. -/
def readyWith (settings : Settings) (options : Options) (units : List SourceUnit) (world : World) :
    Build World Analysis where
  phase := .finalBuilt
  oldProgram := none
  program := some (program settings [] options none units)
  analysis := some {}
  situation := ⟨world, {}⟩

def ready : Options → List SourceUnit → World → Build World Analysis :=
  readyWith {}

/-- The setup of builds in which the analyzer makes some companions. -/
def setupWith (settings : Settings) (overrides : Overrides World) (options : Options) (companions : List Companion)
    (previous : Records World) : Setup World Analysis where
  roots := []
  options
  files := files {} "/"
  overrides
  compiler := compiler settings
  analyzer := analyzer { implementations := some companions }
  previous

def setupOf : Options → List Companion → Records World → Setup World Analysis :=
  setupWith {} {}

theorem eq_ok_of_isOk {α : Type} {outcome : Outcome α} {default : α} (succeeds : outcome.isOk = true) :
    outcome = .ok (outcome.toOption.getD default) := by
  cases outcome with
  | ok value => rfl
  | error error => cases succeeds

section

variable (settings : Settings) (overrides : Overrides World) (options : Options) (companions : List Companion)
  (previous : Records World) (units : List SourceUnit) (world : World)

/-- The outcome of an emit. -/
def emission : Outcome EmitResult × Build World Analysis :=
  ((setupWith settings overrides options companions previous).emit {}).on (readyWith settings options units world)

/-- The transforms of an emit. -/
def pipeline : Pipeline (Situation World) :=
  .ofOptions options (setupWith settings overrides options companions previous).host.resources Host.requestsFor
    ((setupWith settings overrides options companions previous).changedCompanions companions) (isCore options units) [] []

/-- The situation when the companions have been made. -/
def begun : Situation World :=
  ⟨((note "impls").run world).2, {}⟩

variable {options} in
def Plain.making (plain : Plain options) (start : Situation World) :
    Making (pipeline settings overrides options companions previous units) units start where
  Steady _ := True
  final u := u.detached.filled ((setupWith settings overrides options companions previous).changedCompanions companions)
    options.annotateForClosureCompiler
  found _ := {}
  transforms := plain.transforms ..
  notes _ _ _ := trivial
  writes _ _ _ _ _ := trivial
  steady := trivial

/-- A successful emit as a round. -/
def round (separate : settings.bundle = none) (distinct : (units.map (·.name)).Nodup)
    (making : Making (pipeline settings overrides options companions previous units) units (begun world))
    (succeeds : (emission settings overrides options companions previous units world).1.isOk = true) :
    Round World Analysis stored where
  setup := setupWith settings overrides options companions previous
  build := readyWith settings options units world
  options := {}
  program := program settings [] options none units
  analysis := {}
  generated := companions
  start := begun world
  result := (emission settings overrides options companions previous units world).1.toOption.getD {}
  after := (emission settings overrides options companions previous units world).2
  Steady := making.Steady
  made name := handed settings options units false making.final (some name)
  told := told settings options units false making.final making.found
  final := rfl
  analyzed := rfl
  usual := rfl
  generates := rfl
  emits := Prod.ext (eq_ok_of_isOk succeeds) rfl
  stores := stores {} "/"
  quiet := .pure _
  untouched := rfl
  renders := renders separate rfl rfl distinct making.notes making.writes making.transforms
  steady := making.steady

variable {settings overrides options companions previous units world} {separate : settings.bundle = none}
  {distinct : (units.map (·.name)).Nodup}
  {making : Making (pipeline settings overrides options companions previous units) units (begun world)}
  (succeeds : (emission settings overrides options companions previous units world).1.isOk = true)

theorem round_setup :
    (round settings overrides options companions previous units world separate distinct making succeeds).setup =
      setupWith settings overrides options companions previous :=
  rfl

theorem round_world :
    (round settings overrides options companions previous units world separate distinct making
      succeeds).build.situation.world = world :=
  rfl

theorem round_units :
    (round settings overrides options companions previous units world separate distinct making succeeds).program.units =
      units :=
  rfl

theorem round_generated :
    (round settings overrides options companions previous units world separate distinct making succeeds).generated =
      companions :=
  rfl

end

/-! ## A small program -/

/-- Options under which companions are filled in and nothing else is done. -/
def plainOptions : Options :=
  { disableExpressionLowering := true, annotationsAs := some .decorators }

theorem plain_plainOptions : Plain plainOptions :=
  ⟨rfl, rfl, rfl⟩

/-- A unit of the user and its companion. -/
def twoUnits : List SourceUnit :=
  [.plain "/a.ts" "a", .plain "/a.axfactory.ts" ""]

theorem nodup_twoUnits : (twoUnits.map (·.name)).Nodup := by
  decide

/-- A factory that binds a given export. -/
def boundFactory (exported : String) : Companion :=
  { base := "/a.ts", name := "/a.axfactory.ts", statements := some [factoryBinding "/a.ts" exported] }

def writtenSummary (text : String) : Companion :=
  { base := "/a.ts", name := "/a.axsummary.json", source := some text }

/-- A factory that binds a given export, and a summary. -/
def companionsOf (exported : String) (summary : String := "summary") : List Companion :=
  [boundFactory exported, writtenSummary summary]

end CompanionBuild.Outline
