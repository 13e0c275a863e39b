import CompanionBuild.Build.Basic
import CompanionBuild.Diagnostic.Relocation

/-! # The diagnostics of a build

Once the structure is loaded, or has failed to load, the program answers for its own files. What it says about
companions is moved onto their templates.
-/

namespace CompanionBuild

/-- The files of a program that are no companions. -/
def Program.userFiles {ω : Type} (program : Program ω) : List String :=
  (program.units.map (·.name)).filter fun name => !Path.isCompanion name

namespace Build

variable {ω A : Type} (build : Build ω A)

/-- The program, as soon as there is one. -/
def typedProgram : Outcome (Program ω) :=
  match build.program with
  | some program => .ok program
  | none => .error (.usage (.noProgram build.phase))

/-- The program after the last phase, for an action that needs it. -/
def finalProgram (action : BuildAction) : Outcome (Program ω) :=
  match build.phase, build.program with
  | .finalBuilt, some program | .emitted, some program | .errored, some program => .ok program
  | phase, _ => .error (.usage (.notLoaded action phase))

def syntactic (file : Option String) (isCancelled : Bool) : Outcome (List Diagnostic) := do
  let program ← build.finalProgram .syntactic
  pure (program.syntactic file isCancelled)

def structuralDiagnostics : Outcome (List Diagnostic) := do
  let _ ← build.finalProgram .structural
  pure (build.structural.map (·.toDiagnostic))

/-- The semantic diagnostics of a file, or of all files that are no companions. -/
def semantic (file : Option String) (isCancelled : Bool) : Outcome (List Diagnostic) := do
  let program ← build.finalProgram .semantic
  let names := file.elim program.userFiles fun file => [file]
  pure (names.flatMap fun name => program.semantic name isCancelled)

/-- Diagnostics sorted into those that stay and those that belong to templates. -/
def relocate (diagnostics : List Diagnostic) : Outcome Relocated :=
  match CompanionBuild.relocate (Host.spanAt build.situation.caches) diagnostics with
  | .ok relocated => .ok relocated
  | .error split => .error (.splitCharacter split.offset)

/-- The semantic diagnostics of companions, on their templates. -/
def templateSemantic (isCancelled : Bool) : Outcome (List TemplateDiagnostic) := do
  let program ← build.finalProgram .templateSemantic
  let companions := program.units.filter fun u => Path.isCompanion u.name && !u.isDeclaration
  let relocated ← build.relocate (companions.flatMap fun u => program.semantic u.name isCancelled)
  pure relocated.moved

end Build

/-- What the program says about the options, and what is wrong with them as such. -/
def Setup.optionDiagnostics {ω A : Type} (setup : Setup ω A) (build : Build ω A) : List Diagnostic :=
  (match build.program, build.stub with
    | some program, _ => program.optionDiagnostics
    | none, some stub => stub.program.optionDiagnostics
    | none, none => []) ++ setup.options.complaints

end CompanionBuild
