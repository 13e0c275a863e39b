import CompanionBuild.Template
import CompanionBuild.Transform

/-! # Why a build fails

One type for every failure, sorted by who has to act on it, with the wording of all of them in one place. A structural
error is the user's to mend and becomes diagnostics; a consistency error means that the build itself went wrong.
-/

namespace CompanionBuild

/-- A template or metadata text that does not parse. -/
structure ParseError where
  span : TemplateSpan
  message : String

/-- A class that is used as a module but has no metadata. -/
structure MissingModule where
  className : String
  file : String
deriving DecidableEq, Repr

/-- Source that the analyzer could not make sense of. -/
structure StructuralError where
  message : String
  parseErrors : List ParseError := []
  chain : Option MessageChain := none
  position : Option Position := none
  missingModule : Option MissingModule := none

inductive Phase where
  | uninitialized
  | stubBuilt
  | analyzed
  | finalBuilt
  | emitted
  /-- A phase failed, and a program without companions is in place. -/
  | errored
deriving DecidableEq, Repr

def Phase.text : Phase → String
  | .uninitialized => "uninitialized"
  | .stubBuilt => "stub-built"
  | .analyzed => "analyzed"
  | .finalBuilt => "final-built"
  | .emitted => "emitted"
  | .errored => "errored"

/-- What a build can be asked to do. -/
inductive BuildAction where
  | buildStub
  | analyze
  | buildTyped
  | syntactic
  | structural
  | semantic
  | templateSemantic
  | emit
deriving DecidableEq, Repr

def BuildAction.text : BuildAction → String
  | .buildStub => "build the stub program"
  | .analyze => "analyze"
  | .buildTyped => "build the typed program"
  | .syntactic => "query syntactic diagnostics"
  | .structural => "query structural diagnostics"
  | .semantic => "query semantic diagnostics"
  | .templateSemantic => "query annex semantic diagnostics"
  | .emit => "emit"

/-- A call out of order or with an argument that cannot be used. -/
inductive UsageFault where
  | sourceFromPackage (imported containing : String)
  | relativeWithoutContaining
  | unresolvedSummary (name library : String)
  | noStatements (companion : String)
  | noProgram (phase : Phase)
  | wrongPhase (action : BuildAction) (phase expected : Phase)
  | notLoaded (action : BuildAction) (phase : Phase)
  | loadedTwice
  | loadedBothWays
  | generatedTooEarly
  /-- A reason given by the compiler or the analyzer. -/
  | other (reason : String)
deriving DecidableEq, Repr

/-- Something that cannot happen in a sound build. -/
inductive ConsistencyFault where
  | unknownCompanion (companion : String)
  | referencesChanged (companion : String) (old new : List String)
  | structureChanged
  | stubMissing
  | noSample
  | other (reason : String)
deriving DecidableEq, Repr

/-- A file that configures the build and cannot be read. -/
inductive ConfigFault where
  | projectText
  | projectNotObject
  | sectionNotObject (name : String)
  | options
  | filesNotTexts
  | filesNotArray
  | metadataText (file : String)
  | other (reason : String)
deriving DecidableEq, Repr

inductive BuildError where
  | consistency (fault : ConsistencyFault)
  | usage (fault : UsageFault)
  | structural (error : StructuralError)
  | transform (error : TransformError)
  | io (path reason : String)
  | config (fault : ConfigFault)
  /-- A place inside a character was asked for. -/
  | splitCharacter (offset : Nat)

def UsageFault.message : UsageFault → String
  | .sourceFromPackage imported containing =>
    "Trying to import a source file from a node_modules package: import " ++ imported ++ " from " ++ containing
  | .relativeWithoutContaining => "Resolution of relative paths requires a containing file."
  | .unresolvedSummary name library => "Could not resolve " ++ name ++ " from " ++ library
  | .noStatements companion => "Invalid Argument: Expected a GenerateFile with statements. " ++ companion
  | .noProgram phase => "The typed program is not available while the build is " ++ phase.text
  | .wrongPhase action phase expected =>
    "Cannot " ++ action.text ++ " while the build is " ++ phase.text ++ " (expected " ++ expected.text ++ ")"
  | .notLoaded action phase =>
    "Cannot " ++ action.text ++ " while the build is " ++ phase.text ++ "; load the structure first"
  | .loadedTwice => "annex structure already loaded"
  | .loadedBothWays => "annex structure loaded both synchronously and asynchronously"
  | .generatedTooEarly => "Cannot generate files before the structure is loaded"
  | .other reason => reason

def ConsistencyFault.message : ConsistencyFault → String
  | .unknownCompanion companion => "Illegal State: previous GeneratedFile not found for " ++ companion ++ "."
  | .referencesChanged companion old new =>
    "Illegal State: external references changed in " ++ companion ++ ".\nOld: " ++ Text.joined "," old ++
      ".\nNew: " ++ Text.joined "," new
  | .structureChanged => "Internal Error: The structure of the program changed during codegen."
  | .stubMissing => "Internal Error: the stub program is missing"
  | .noSample => "Can't calculate the rootDir without a sample srcFileName / outFileName. "
  | .other reason => reason

def ConfigFault.message : ConfigFault → String
  | .projectText => "invalid project file: not a JSON text"
  | .projectNotObject => "project file must be a JSON object"
  | .sectionNotObject name => "\"" ++ name ++ "\" must be an object"
  | .options => "invalid compiler options: a value has the wrong type"
  | .filesNotTexts => "\"files\" must hold strings"
  | .filesNotArray => "\"files\" must be an array"
  | .metadataText file => "Failed to read JSON file " ++ file ++ ": not a JSON text"
  | .other reason => reason

def BuildError.message : BuildError → String
  | .consistency fault => fault.message
  | .usage fault => fault.message
  | .structural error => error.message
  | .transform error => error.message
  | .io path reason => "failed to write " ++ path ++ ": " ++ reason
  | .config fault => fault.message
  | .splitCharacter offset => "offset " ++ Nat.repr offset ++ " lies inside a character"

/-- What can fail in a build. -/
abbrev Outcome := Except BuildError

end CompanionBuild
