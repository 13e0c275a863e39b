import CompanionBuild.Companion
import CompanionBuild.Diagnostic.Relocation
import CompanionBuild.Host.Query

/-! # Units for the compiler

A name means a companion, which is made when it is first asked for, or a summary, or a file. A file comes with the names
of its companions attached to its references, so that the compiler takes them in; the references as written are kept
beside them.
-/

namespace CompanionBuild

/-- What makes companions while the compiler asks for units. -/
structure Generator (ω : Type) where
  /-- The first form of a companion, made for a unit or for a style sheet. -/
  generate : String → Option String → HostDialogue ω (Outcome Companion)
  /-- The companions that a file may have. -/
  namesFor : String → StateM ω (List String)

namespace Host

variable {ω : Type} (host : Host ω)

/-! ## Companions -/

/-- The explicit module name of a companion, where the module format asks for one. -/
def companionModule (name : String) : HostM ω (Option String) := do
  if host.options.module.any ModuleFormat.isNamed then
    match host.overrides.companionModule with
    | some find => HostM.inWorld (find name)
    | none =>
      pure (if Text.contains name "node_modules" then
        some (Path.stripPackageFolder (Path.stripExtension name)) else none)
  else pure none

/-- Takes in a companion: its statements are printed, and the text is parsed as a unit. -/
def addCompanion (companion : Companion) (references : Names) : Attempt ω SourceUnit := do
  match companion.statements with
  | none => throw (.usage (.noStatements companion.name))
  | some items => do
    let printed := { SourceUnit.plain companion.name "" with items }.print
    let parsed ← Attempt.inWorld (host.parse companion.name printed.text)
    let moduleName ← host.companionModule companion.name
    let u := { parsed with moduleName }
    Attempt.modifyCaches fun caches =>
      { caches with
        companions := caches.companions.put companion.name
          ⟨companion.base, u, ⟨printed.marks, companion.origins⟩, references⟩ }
    pure u

/-- Takes in a companion in place of an earlier one, which has to import from the same modules. -/
def updateCompanion (companion : Companion) : Attempt ω SourceUnit := do
  if companion.statements.isNone then throw (.usage (.noStatements companion.name))
  else
    match (← Attempt.caches).companions.get? companion.name with
    | none => throw (.consistency (.unknownCompanion companion.name))
    | some old =>
      let references := companion.references
      if references = old.references then host.addCompanion companion references
      else throw (.consistency (.referencesChanged companion.name old.references references))

/-- The span of a template that a place in a companion came from. -/
def spanAt (caches : Caches) : SpanFinder := fun file line column =>
  match caches.companions.get? file with
  | some companion => companion.origins.spanAt line column
  | none => .ok none

variable (generator : Generator ω)

/-- The unit of a companion, which is made if it can be. -/
def companionUnit (file : String) : Attempt ω (Option SourceUnit) := do
  match (← Attempt.caches).companions.get? file with
  | some companion => pure (some companion.unit)
  | none => do
    match ← host.generatable file with
    | .no => pure none
    | .yes base => do
      let companion ← ExceptT.mk (host.consult (generator.generate file base))
      let u ← host.addCompanion companion companion.references
      pure (some u)

/-! ## Other units -/

/-- The unit of a summary, as it was read where the compiler replaced it by another. -/
def summaryUnit (file : String) : HostM ω (Option SourceUnit) := do
  match (← HostM.caches).summaries.get? file with
  | none => pure none
  | some summary => do
    let u ← match summary.unit with
      | some u => pure u
      | none => do
        let u ← HostM.inWorld (host.parse file summary.text)
        HostM.modifyCaches fun caches =>
          { caches with summaries := caches.summaries.put file { summary with unit := some u } }
        pure u
    pure (some (u.asRead.getD u))

/-- The names of some companions that can be generated. -/
def generatableNames : List String → HostM ω (List String)
  | [] => pure []
  | name :: rest => do
    let found ← host.generatable name
    let names ← generatableNames rest
    pure (if found.isYes then name :: names else names)

/-- The companions that go with a file, found out once. -/
def companionsOf (file : String) : HostM ω (List String) :=
  .memo (·.companionNames.get? file)
    (fun names caches => { caches with companionNames := caches.companionNames.put file names }) do
    if host.options.noResolve then pure []
    else if ← host.getsCompanions file then do
      let names ← HostM.inWorld (generator.namesFor file)
      host.generatableNames names
    else pure []

/-- The unit with its companions among its references. -/
def attached (u : SourceUnit) (companions : List String) : SourceUnit :=
  { u with
    references := u.ownReferences ++ companions
    writtenReferences := some u.ownReferences }

/-- Hands out a unit with its companions attached; the same one as before where nothing changed. -/
def attach (u : SourceUnit) (companions : List String) : HostM ω SourceUnit := do
  if companions.isEmpty then pure u
  else
    let made := attached u companions
    match (← HostM.caches).attached.get? u.name with
    | some before =>
      if before.references = made.references ∧ before.text = u.text then pure before
      else keep made
    | none => keep made
where
  keep (made : SourceUnit) : HostM ω SourceUnit := do
    HostM.modifyCaches fun caches => { caches with attached := caches.attached.put u.name made }
    pure made

/-- The unit of a file with its companions attached. -/
def fileUnit (file : String) : HostM ω (Option SourceUnit) := do
  let u ← host.writtenUnit file
  let companions ← host.companionsOf generator file
  match u with
  | some u => do pure (some (← attach u companions))
  | none => pure none

/-- The unit of a name. A degraded build sees no companions. -/
def sourceUnit (file : String) : Attempt ω (Option SourceUnit) := do
  let degraded := (← Attempt.caches).isDegraded
  let made ← if degraded then pure none else host.companionUnit generator file
  match made with
  | some u => pure (some u)
  | none => do
    match ← host.summaryUnit file with
    | some u => pure (some u)
    | none => if degraded then host.writtenUnit file else host.fileUnit generator file

/-- The unit of a name for the compiler; an error is parked. -/
def unitForCompiler (file : String) : HostM ω (Option SourceUnit) := do
  match ← (host.sourceUnit generator file).run with
  | .ok u => pure u
  | .error error => do
    HostM.modifyCaches (·.park error)
    pure none

end Host

end CompanionBuild
