import CompanionBuild.Host.Unit
import CompanionBuild.Transform

/-! # The compiler

The build never parses or checks code itself. A compiler makes programs out of the units that the host hands it, says
how much of an old program a new one could take over, and emits. While it emits it has units transformed and hands back
each output.
-/

namespace CompanionBuild

/-! ## Making programs -/

/-- What the compiler may ask while it makes a program. -/
inductive CompilerQuery where
  | unit (file : String)
  | fileExists (file : String)
  | read (file : String)
  | resolve (name containing : String)
  | currentDirectory
deriving DecidableEq, Repr

abbrev CompilerQuery.Reply : CompilerQuery → Type
  | .unit _ => Option SourceUnit
  | .fileExists _ => Bool
  | .read _ => Option String
  | .resolve .. => Option ResolvedModule
  | .currentDirectory => String

abbrev CompilerDialogue (ω : Type) := Dialogue ω CompilerQuery CompilerQuery.Reply

def CompilerDialogue.ask {ω : Type} (q : CompilerQuery) : CompilerDialogue ω q.Reply :=
  .question q

/-- The host's answer to the compiler. -/
def Host.answerCompiler {ω : Type} (host : Host ω) (generator : Generator ω) :
    (q : CompilerQuery) → HostM ω q.Reply
  | .unit file => host.unitForCompiler generator file
  | .fileExists file => host.fileExists file
  | .read file => host.fileText file
  | .resolve name containing => host.resolveModule name containing
  | .currentDirectory => pure host.files.currentDirectory

/-- How much of an old program a new one could take over. -/
inductive Reuse where
  | not
  | safeModules
  | completely
deriving DecidableEq, Repr

def Reuse.text : Reuse → String
  | .not => "Not"
  | .safeModules => "SafeModules"
  | .completely => "Completely"

/-! ## Emitting -/

structure OutputFile where
  name : String
  text : String
  /-- The units that the output was made from. -/
  sources : List String
deriving DecidableEq, Repr

structure EmitResult where
  isSkipped : Bool := false
  diagnostics : List Diagnostic := []
  emitted : List String := []

/-- The results of two emits as one. -/
def EmitResult.append (a b : EmitResult) : EmitResult where
  isSkipped := a.isSkipped || b.isSkipped
  diagnostics := a.diagnostics ++ b.diagnostics
  emitted := a.emitted ++ b.emitted

def EmitResult.concat (results : List EmitResult) : EmitResult :=
  results.foldl EmitResult.append {}

structure EmitRequest where
  /-- The one unit to emit, all of them if none. -/
  target : Option String
  onlyDeclarations : Bool
  /-- The names of the transforms, in order. -/
  transforms : List String
  /-- The caller wants no result any more. -/
  isCancelled : Bool
deriving DecidableEq, Repr

/-- The two groups of transforms, before and after the compiler's own work. -/
inductive Stage where
  | before
  | after
deriving DecidableEq, Repr

/-- What the compiler asks while it emits. -/
inductive EmitQuery where
  /-- Has a unit transformed, adding to the findings so far. -/
  | transform (stage : Stage) (symbols : SymbolResolver) (findings : Findings) (unit : SourceUnit)
  | write (output : OutputFile)

abbrev EmitQuery.Reply : EmitQuery → Type
  | .transform .. => Except TransformError SourceUnit × Findings
  | .write _ => Outcome Unit

abbrev EmitDialogue (ω : Type) := Dialogue ω EmitQuery EmitQuery.Reply

def EmitDialogue.ask {ω : Type} (q : EmitQuery) : EmitDialogue ω q.Reply :=
  .question q

structure Program (ω : Type) where
  roots : List String
  units : List SourceUnit
  unit? : String → Option SourceUnit
  /-- What was taken over from the old program. -/
  reuse : Reuse
  optionDiagnostics : List Diagnostic
  /-- The syntactic diagnostics of a file or of all, none when they are cancelled. -/
  syntactic : Option String → Bool → List Diagnostic
  /-- The semantic diagnostics of a file, none when they are cancelled. -/
  semantic : String → Bool → List Diagnostic
  emit : EmitRequest → EmitDialogue ω (Outcome EmitResult)

structure Compiler (ω : Type) where
  /-- The unit of a name and a text; what is wrong with the text is a diagnostic of the program. -/
  parse : String → String → StateM ω SourceUnit
  /-- The program of some roots, made with an old one at hand. -/
  createProgram : List String → Options → Option (Program ω) → CompilerDialogue ω (Program ω)

end CompanionBuild
