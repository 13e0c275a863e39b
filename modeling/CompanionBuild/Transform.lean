import CompanionBuild.Diagnostic.Basic
import CompanionBuild.Names
import CompanionBuild.Symbol

/-! # Transforms of units

A transform turns a unit into another one. It may ask the world around it, whose state it threads, it may fail, and it
records findings: diagnostics that do not stop it, and the imports that generated code refers to as values.
-/

namespace CompanionBuild

/-- Why a resource could not be put in place. -/
inductive ResourceFault where
  | unresolved (url file : String)
  | deferred
  | urlNotText
  | styleUrlNotLiteral
  | templateUrlNotLiteral
  /-- The host could not load the resource. -/
  | host (reason : String)
deriving DecidableEq, Repr

/-- Why an argument or a piece of metadata was refused. -/
inductive ArgumentFault where
  | styles
  | styleUrls
  | metadataStyles
  | metadataStyleUrls
  /-- A reason given by whoever supplies a transform. -/
  | other (reason : String)
deriving DecidableEq, Repr

inductive TransformError where
  | resource (fault : ResourceFault)
  | argument (fault : ArgumentFault)
deriving DecidableEq, Repr

/-- The sentence that closes every message about a resource that cannot be inlined. -/
def inliningPrecondition : String :=
  "annexCompilerOptions.enableResourceInlining requires all resources to be statically resolvable."

def ResourceFault.message : ResourceFault → String
  | .unresolved url file => "Failed to resolve " ++ url ++ " from " ++ file ++ ". " ++ inliningPrecondition
  | .deferred => "Cannot handle async resource. " ++ inliningPrecondition
  | .urlNotText => "templateUrl and stylesUrl must be string literals. " ++ inliningPrecondition
  | .styleUrlNotLiteral => "Can only accept string literal arguments to styleUrls. " ++ inliningPrecondition
  | .templateUrlNotLiteral => "Can only accept a string literal argument to templateUrl. " ++ inliningPrecondition
  | .host reason => reason

def ArgumentFault.message : ArgumentFault → String
  | .styles => "styles takes an array argument"
  | .styleUrls => "styleUrls takes an array argument"
  | .metadataStyles => "styles should be an array"
  | .metadataStyleUrls => "styleUrls should be an array"
  | .other reason => reason

def TransformError.message : TransformError → String
  | .resource fault => fault.message
  | .argument fault => fault.message

/-- What transforms record beside their result. -/
structure Findings where
  diagnostics : List Diagnostic := []
  /-- Imported names that generated code uses as values. -/
  retained : Names := []

def Findings.add (findings : Findings) (diagnostics : List Diagnostic) (retained : List String) : Findings where
  diagnostics := findings.diagnostics ++ diagnostics
  retained := retained.foldl (fun names name => Names.insert name names) findings.retained

/-- A computation in a world of states `σ` that records findings and may fail; a failure undoes nothing. -/
abbrev TransformM (σ : Type) := ExceptT TransformError (StateT Findings (StateM σ))

structure Transform (σ : Type) where
  name : String
  apply : SymbolResolver → SourceUnit → TransformM σ SourceUnit

/-- A computation that changes nothing but the findings, and cannot fail. -/
def Transform.recording {σ α : Type} (f : Findings → α × Findings) : TransformM σ α :=
  ExceptT.lift (modifyGet f)

/-- The transforms of an emit, in two groups. -/
structure Pipeline (σ : Type) where
  before : List (Transform σ) := []
  after : List (Transform σ) := []

namespace Pipeline

variable {σ : Type}

def isEmpty (pipeline : Pipeline σ) : Bool :=
  pipeline.before.isEmpty && pipeline.after.isEmpty

def names (pipeline : Pipeline σ) : List String :=
  (pipeline.before ++ pipeline.after).map (·.name)

end Pipeline

/-- The transforms one after the other; the first failure ends the run. -/
def Transform.applyAll {σ : Type} (symbols : SymbolResolver) :
    List (Transform σ) → SourceUnit → TransformM σ SourceUnit
  | [], u => pure u
  | transform :: rest, u => do
    let u ← transform.apply symbols u
    applyAll symbols rest u

end CompanionBuild
