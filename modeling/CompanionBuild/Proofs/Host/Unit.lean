import CompanionBuild.Compiler
import CompanionBuild.Proofs.Host.Lookup

/-! # What making units leaves alone

While the compiler asks for units, companions are made, units are attached and errors are parked. What all of this keeps
to follows from what lookups do. Whether the build is degraded is decided by the build alone.
-/

namespace CompanionBuild

namespace Host

variable {ω : Type}

/-- The companions of a file that can be made. -/
def findCompanions (host : Host ω) (generator : Generator ω) (file : String) : HostM ω (List String) := do
  if host.options.noResolve then pure []
  else if ← host.getsCompanions file then do
    let names ← HostM.inWorld (generator.namesFor file)
    host.generatableNames names
  else pure []

theorem companionsOf_eq_memo (host : Host ω) (generator : Generator ω) (file : String) :
    host.companionsOf generator file = .memo (·.companionNames.get? file)
      (fun names caches => { caches with companionNames := caches.companionNames.put file names })
      (host.findCompanions generator file) := rfl

namespace AdmitsLookups

variable {host : Host ω} {R : Situation ω → Situation ω → Prop} [IsPreorder (Situation ω) R]
  (admits : host.AdmitsLookups R)

include admits

theorem generatableNames (names : List String) : Within R (host.generatableNames names) := by
  induction names with
  | nil => exact .pure _
  | cons name rest ih => exact .bind (admits.generatable name) fun _ => .bind ih fun _ => .pure _

theorem findCompanions (generator : Generator ω) (file : String) : Within R (host.findCompanions generator file) := by
  unfold Host.findCompanions
  split
  · exact .pure _
  · refine .bind (admits.getsCompanions file) fun gets => ?_
    split
    · exact .bind (.inWorld admits.world _) fun names => admits.generatableNames names
    · exact .pure _

end AdmitsLookups

/-- A relation that the host keeps to when it gives out units that a generator makes companions for. -/
structure AdmitsSources (host : Host ω) (generator : Generator ω) (R : Situation ω → Situation ω → Prop) : Prop
    extends host.AdmitsLookups R where
  summaryUnit : ∀ file, Within R (host.summaryUnit file)
  companionUnit : ∀ file, Within R (host.companionUnit generator file).run
  fileUnit : ∀ file, Within R (host.fileUnit generator file)
  parked : ∀ parked situation, R situation { situation with caches := { situation.caches with parked } }

theorem AdmitsSources.mono {host : Host ω} {generator : Generator ω} {R S : Situation ω → Situation ω → Prop}
    (admits : host.AdmitsSources generator R) (weaker : ∀ before after, R before after → S before after) :
    host.AdmitsSources generator S where
  toAdmitsLookups := admits.toAdmitsLookups.mono weaker
  summaryUnit file := (admits.summaryUnit file).mono weaker
  companionUnit file := (admits.companionUnit file).mono weaker
  fileUnit file := (admits.fileUnit file).mono weaker
  parked _ _ := weaker _ _ (admits.parked _ _)

namespace AdmitsSources

variable {host : Host ω} {generator : Generator ω} {R : Situation ω → Situation ω → Prop} [IsPreorder (Situation ω) R]
  (admits : host.AdmitsSources generator R)

include admits

theorem sourceUnit (file : String) : Within R (host.sourceUnit generator file).run := by
  refine .bindExcept .caches fun caches => ?_
  dsimp only
  split
  · refine .bindExcept (.pure _) fun made => ?_
    split
    · exact .pure _
    · refine .bindExcept (admits.summaryUnit file) fun u => ?_
      split
      · exact .pure _
      · exact admits.writtenUnit file
  · refine .bindExcept (admits.companionUnit file) fun made => ?_
    split
    · exact .pure _
    · refine .bindExcept (admits.summaryUnit file) fun u => ?_
      split
      · exact .pure _
      · exact admits.fileUnit file

theorem answerCompiler (q : CompilerQuery) : Within R (host.answerCompiler generator q) := by
  cases q with
  | unit file =>
    refine .bind (admits.sourceUnit file) fun outcome => ?_
    split
    · exact .pure _
    · exact .bind (.modifyCaches fun _ => admits.parked _ _) fun _ => .pure _
  | fileExists file => exact admits.fileExists file
  | read file => exact admits.fileText file
  | resolve name containing => exact admits.resolveModule name containing
  | currentDirectory => exact .pure _

end AdmitsSources

/-- A relation that the host keeps to when it reads units and attaches companions to them. -/
structure AdmitsFiles (host : Host ω) (R : Situation ω → Situation ω → Prop) : Prop extends host.AdmitsLookups R where
  summaryUnit : ∀ file, Within R (host.summaryUnit file)
  companionNames : ∀ file names before after, before.caches.companionNames.get? file = none → R before after →
    R before { after with caches := { after.caches with companionNames := after.caches.companionNames.put file names } }
  attached : ∀ attached situation, R situation { situation with caches := { situation.caches with attached } }
  parked : ∀ parked situation, R situation { situation with caches := { situation.caches with parked } }

namespace AdmitsFiles

variable {host : Host ω} {R : Situation ω → Situation ω → Prop} [IsPreorder (Situation ω) R]
  (admits : host.AdmitsFiles R) (generator : Generator ω)

include admits

theorem companionsOf (file : String) : Within R (host.companionsOf generator file) :=
  .memoFresh (admits.companionNames file) (admits.findCompanions generator file)

theorem attach (u : SourceUnit) (companions : List String) :
    Within R (Host.attach u companions : HostM ω SourceUnit) := by
  have keep (made : SourceUnit) : Within R (attach.keep u made : HostM ω SourceUnit) :=
    .bind (.modifyCaches fun _ => admits.attached _ _) fun _ => .pure _
  unfold Host.attach
  split
  · exact .pure _
  · refine .bind .caches fun caches => ?_
    split
    · split
      · exact .pure _
      · exact keep _
    · exact keep _

theorem fileUnit (file : String) : Within R (host.fileUnit generator file) := by
  refine .bind (admits.writtenUnit file) fun u => ?_
  refine .bind (admits.companionsOf generator file) fun companions => ?_
  split
  · exact .bind (admits.attach _ _) fun _ => .pure _
  · exact .pure _

end AdmitsFiles

/-- A relation that the host keeps to when it takes in companions. -/
structure AdmitsIntake (host : Host ω) (R : Situation ω → Situation ω → Prop) : Prop extends host.AdmitsLookups R where
  addCompanion : ∀ companion references, Within R (host.addCompanion companion references).run

namespace AdmitsIntake

variable {host : Host ω} {R : Situation ω → Situation ω → Prop} [IsPreorder (Situation ω) R]
  (admits : host.AdmitsIntake R)

include admits

theorem updateCompanion (companion : Companion) : Within R (host.updateCompanion companion).run := by
  unfold Host.updateCompanion
  split
  · exact .throw _
  · refine .bindExcept .caches fun caches => ?_
    split
    · exact .throw _
    · dsimp only
      split
      · exact admits.addCompanion _ _
      · exact .throw _

theorem companionUnit (generator : Generator ω) (file : String) : Within R (host.companionUnit generator file).run := by
  refine .bindExcept .caches fun caches => ?_
  split
  · exact .pure _
  · refine .bindExcept (admits.generatable file) fun found => ?_
    split
    · exact .pure _
    · refine .bindExcept (admits.consult _) fun companion => ?_
      exact .bindExcept (admits.addCompanion _ _) fun _ => .pure _

end AdmitsIntake

/-- A relation that the host keeps to when it takes in companions, whatever they are. -/
structure AdmitsCompanions (host : Host ω) (R : Situation ω → Situation ω → Prop) : Prop
    extends host.AdmitsLookups R where
  companion : ∀ name companion situation, R situation { situation with
    caches := { situation.caches with companions := situation.caches.companions.put name companion } }

namespace AdmitsCompanions

variable {host : Host ω} {R : Situation ω → Situation ω → Prop} [IsPreorder (Situation ω) R]
  (admits : host.AdmitsCompanions R)

include admits

theorem addCompanion (companion : Companion) (references : Names) :
    Within R (host.addCompanion companion references).run := by
  unfold Host.addCompanion
  split
  · exact .throw _
  · refine .bindExcept (.inWorld admits.world _) fun parsed => .bindExcept ?_ fun moduleName => ?_
    · unfold companionModule
      split
      · split
        · exact .inWorld admits.world _
        · exact .pure _
      · exact .pure _
    · exact .bindExcept (.modifyCachesAttempt fun _ => admits.companion _ _ _) fun _ => .pure _

theorem intake : host.AdmitsIntake R where
  toAdmitsLookups := admits.toAdmitsLookups
  addCompanion := admits.addCompanion

theorem updateCompanion (companion : Companion) : Within R (host.updateCompanion companion).run :=
  admits.intake.updateCompanion companion

theorem companionUnit (generator : Generator ω) (file : String) : Within R (host.companionUnit generator file).run :=
  admits.intake.companionUnit generator file

end AdmitsCompanions

/-- A relation that the host keeps to when it makes units. -/
structure AdmitsUnits (host : Host ω) (R : Situation ω → Situation ω → Prop) : Prop
    extends host.AdmitsFiles R, host.AdmitsCompanions R

namespace AdmitsUnits

variable {host : Host ω} {R : Situation ω → Situation ω → Prop} [IsPreorder (Situation ω) R]
  (admits : host.AdmitsUnits R) (generator : Generator ω)

include admits

/-- What holds whatever is made holds of what a generator makes. -/
theorem sources : host.AdmitsSources generator R where
  toAdmitsLookups := admits.toAdmitsLookups
  summaryUnit := admits.summaryUnit
  companionUnit := admits.companionUnit generator
  fileUnit := admits.fileUnit generator
  parked := admits.parked

theorem sourceUnit (file : String) : Within R (host.sourceUnit generator file).run :=
  (admits.sources generator).sourceUnit file

theorem answerCompiler (q : CompilerQuery) : Within R (host.answerCompiler generator q) :=
  (admits.sources generator).answerCompiler q

end AdmitsUnits

end Host

/-! ## The degree of a build -/

def Situation.isDegraded {ω : Type} (situation : Situation ω) : Bool :=
  situation.caches.isDegraded

theorem Host.keepsDegree {ω : Type} (host : Host ω) : host.AdmitsUnits (Alike Situation.isDegraded) where
  toAdmitsLookups := host.lookups_of_view Caches.isDegraded fun _ => rfl
  summaryUnit file := by
    refine .bind .caches fun caches => ?_
    split
    · exact .pure _
    · split
      · exact .pure _
      · refine .bind (.inWorld (fun _ _ => rfl) _) fun u => ?_
        exact .bind (.modifyCaches fun _ => rfl) fun _ => .pure _
  companion _ _ _ := rfl
  companionNames _ _ _ _ _ same := same
  attached _ _ := rfl
  parked _ _ := rfl

end CompanionBuild
