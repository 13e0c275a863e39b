import CompanionBuild.Compiler

/-! # Where outputs go

Every output of an emit passes through here. What is made of declaration files of a library is kept as summaries, so
that later builds find it beside the library. A companion without content is not written.
-/

namespace CompanionBuild

/-- What has passed so far. -/
structure Routed where
  summaries : List LibrarySummary := []
  /-- Outputs made from exactly one unit, with its name. -/
  mapping : List (String × String) := []
  /-- The units that were emitted. -/
  units : List SourceUnit := []
  written : List String := []

structure Router (ω : Type) where
  options : Options
  files : FileSystem ω
  /-- The units of the program. -/
  unit? : String → Option SourceUnit
  companions : Table Companion

/-- Passing an output on; a failure undoes nothing. -/
abbrev RouterM (ω : Type) := ExceptT BuildError (StateT Routed (StateM ω))

/-- The end of the name of a summary. -/
def summarySuffix : String := ".axsummary.json"

/-- The only element of a list. -/
def single? {α : Type} : List α → Option α
  | [a] => some a
  | _ => none

namespace Router

variable {ω : Type} (router : Router ω)

/-- The name of the declaration file of a companion. -/
def declarationName (companion : String) : String :=
  ((Text.dropTail? ".ts" companion).map (· ++ ".d.ts")).getD companion

/-- The summaries that an output makes when its companion belongs to the declaration file `base`. -/
def summariesOf (name text : String) (companion : Companion) (base : SourceUnit) : List LibrarySummary :=
  if !base.isDeclaration then []
  else
    match Text.dropTail? summarySuffix companion.name with
    | some stem =>
      [⟨base.name, base.text, some base⟩, ⟨companion.name, text, none⟩] ++
        (if router.options.declaration then [] else [⟨stem ++ ".axfactory.d.ts", "", none⟩])
    | none =>
      if Text.endsWith name ".d.ts" then [⟨declarationName companion.name, text, none⟩] else []

/-- The summaries that an output makes. -/
def newSummaries (name text : String) (companion : Option Companion) : List LibrarySummary :=
  match companion with
  | some companion =>
    match router.unit? companion.base with
    | some base => router.summariesOf name text companion base
    | none => []
  | none => []

/-- The output is named like a companion, has no content, and is not wanted in that case. -/
def isWithheld (name : String) (companion : Option Companion) : Bool :=
  Path.isCompanion name && !router.options.allowEmptyCodegenFiles && !companion.any Companion.hasStatements

/-- Passes on a text under a name, with the companion it belongs to and the units it was made from. -/
def pass (name text : String) (companion : Option Companion) (sources : List String) : RouterM ω Unit := do
  modify fun routed => { routed with summaries := routed.summaries ++ router.newSummaries name text companion }
  if router.isWithheld name companion then pure ()
  else
    match ← (router.files.write name text sources : StateM ω _) with
    | .error reason => throw (.io name reason)
    | .ok () => modify fun routed => { routed with written := routed.written ++ [name] }

/-- The unit that counts as emitted with an output of a source. -/
def emittedUnit? (source : String) : Option SourceUnit :=
  (router.unit? source).filter fun u => !u.isDeclaration && !Path.isCompanion source

/-- Passes on an output of the compiler. -/
def passOutput (output : OutputFile) : RouterM ω Unit := do
  match single? output.sources with
  | none => router.pass output.name output.text none output.sources
  | some source => do
    modify fun routed =>
      { routed with
        mapping := routed.mapping ++ [(output.name, source)]
        units := routed.units ++ (router.emittedUnit? source).toList }
    router.pass output.name output.text (router.companions.get? source) output.sources

end Router

end CompanionBuild
