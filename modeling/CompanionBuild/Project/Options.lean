import CompanionBuild.Diagnostic.Basic
import CompanionBuild.Json.Basic
import CompanionBuild.Path.Basic

/-! # Compiler options

The options are read from an object and written back as one. An optional one may be `null`, a switch may not. The two
that are chosen from a list take a name they do not know for one that is not supported.
-/

namespace CompanionBuild

/-- How framework decorators survive the emit. -/
inductive DecoratorForm where
  | decorators
  | staticFields
  /-- A form that is not supported. -/
  | unsupported
deriving DecidableEq, Repr

def DecoratorForm.text : DecoratorForm → String
  | .decorators => "decorators"
  | .staticFields => "static fields"
  | .unsupported => "Unsupported"

def DecoratorForm.ofText (text : String) : DecoratorForm :=
  if text = "decorators" then .decorators
  else if text = "static fields" then .staticFields
  else .unsupported

/-- The module format of the output. -/
inductive ModuleFormat where
  | none
  | commonJs
  | amd
  | umd
  | system
  | es2015
  | esNext
  | other
deriving DecidableEq, Repr

namespace ModuleFormat

def text : ModuleFormat → String
  | .none => "none"
  | .commonJs => "commonjs"
  | .amd => "amd"
  | .umd => "umd"
  | .system => "system"
  | .es2015 => "es2015"
  | .esNext => "esnext"
  | .other => "other"

def ofText (text : String) : ModuleFormat :=
  if text = "none" then .none
  else if text = "commonjs" then .commonJs
  else if text = "amd" then .amd
  else if text = "umd" then .umd
  else if text = "system" then .system
  else if text = "es2015" then .es2015
  else if text = "esnext" then .esNext
  else .other

/-- The format gives every module an explicit name. -/
def isNamed : ModuleFormat → Bool
  | .amd | .umd => true
  | _ => false

end ModuleFormat

structure Options where
  basePath : Option String := none
  /-- Only files below this directory get companions. -/
  rootDir : Option String := none
  rootDirs : Option (List String) := none
  outDir : Option String := none
  module : Option ModuleFormat := none
  declaration : Bool := false
  noResolve : Bool := false
  noEmitOnError : Bool := false
  /-- The emit reports how long it took. -/
  diagnostics : Bool := false
  traceResolution : Bool := false
  skipTemplateCodegen : Bool := false
  fullTemplateTypeCheck : Bool := false
  generateCodeForLibraries : Option Bool := none
  allowEmptyCodegenFiles : Bool := false
  enableResourceInlining : Bool := false
  annotationsAs : Option DecoratorForm := none
  annotateForClosureCompiler : Bool := false
  disableExpressionLowering : Bool := false
  /-- The program is the framework's core. -/
  compilingCore : Bool := false
deriving DecidableEq, Repr, Inhabited

namespace Options

/-! ## Reading -/

/-- A value that may be `null`. -/
def optional {α : Type} (read : Json → Option α) : Json → Option (Option α)
  | .null => some none
  | json => (read json).map some

def texts? : Json → Option (List String)
  | .array elements => elements.mapM Json.text?
  | _ => none

/-- A name from a list: a text, or an object whose only field has the name and no value. -/
def choice? : Json → Option String
  | .text name => some name
  | .object [(name, .null)] => some name
  | _ => none

/-- A field that keeps its default when it is missing. -/
def field {α : Type} (table : Table Json) (name : String) (fallback : α) (read : Json → Option α) : Option α :=
  match table.get? name with
  | some json => read json
  | none => some fallback

def switch (table : Table Json) (name : String) : Option Bool :=
  field table name false Json.bool?

def optionalField {α : Type} (table : Table Json) (name : String) (read : Json → Option α) : Option (Option α) :=
  field table name none (optional read)

/-- The options of an object; fields of other names do not count. -/
def read? (table : Table Json) : Option Options := do
  some {
    basePath := ← optionalField table "basePath" Json.text?
    rootDir := ← optionalField table "rootDir" Json.text?
    rootDirs := ← optionalField table "rootDirs" texts?
    outDir := ← optionalField table "outDir" Json.text?
    module := ← optionalField table "module" fun json => (choice? json).map ModuleFormat.ofText
    declaration := ← switch table "declaration"
    noResolve := ← switch table "noResolve"
    noEmitOnError := ← switch table "noEmitOnError"
    diagnostics := ← switch table "diagnostics"
    traceResolution := ← switch table "traceResolution"
    skipTemplateCodegen := ← switch table "skipTemplateCodegen"
    fullTemplateTypeCheck := ← switch table "fullTemplateTypeCheck"
    generateCodeForLibraries := ← optionalField table "generateCodeForLibraries" Json.bool?
    allowEmptyCodegenFiles := ← switch table "allowEmptyCodegenFiles"
    enableResourceInlining := ← switch table "enableResourceInlining"
    annotationsAs := ← optionalField table "annotationsAs" fun json => (choice? json).map DecoratorForm.ofText
    annotateForClosureCompiler := ← switch table "annotateForClosureCompiler"
    disableExpressionLowering := ← switch table "disableExpressionLowering"
    compilingCore := ← switch table "compilingCore" }

/-! ## Writing -/

def optionalText : Option String → Json
  | some text => .text text
  | none => .null

/-- Every option with its value, in the order of declaration. -/
def fields (options : Options) : List (String × Json) := [
  ("basePath", optionalText options.basePath),
  ("rootDir", optionalText options.rootDir),
  ("rootDirs", match options.rootDirs with
    | some dirs => .array (dirs.map .text)
    | none => .null),
  ("outDir", optionalText options.outDir),
  ("module", optionalText (options.module.map ModuleFormat.text)),
  ("declaration", .bool options.declaration),
  ("noResolve", .bool options.noResolve),
  ("noEmitOnError", .bool options.noEmitOnError),
  ("diagnostics", .bool options.diagnostics),
  ("traceResolution", .bool options.traceResolution),
  ("skipTemplateCodegen", .bool options.skipTemplateCodegen),
  ("fullTemplateTypeCheck", .bool options.fullTemplateTypeCheck),
  ("generateCodeForLibraries", match options.generateCodeForLibraries with
    | some value => .bool value
    | none => .null),
  ("allowEmptyCodegenFiles", .bool options.allowEmptyCodegenFiles),
  ("enableResourceInlining", .bool options.enableResourceInlining),
  ("annotationsAs", optionalText (options.annotationsAs.map DecoratorForm.text)),
  ("annotateForClosureCompiler", .bool options.annotateForClosureCompiler),
  ("disableExpressionLowering", .bool options.disableExpressionLowering),
  ("compilingCore", .bool options.compilingCore)]

/-! ## Meaning -/

/-- The directory that relative paths start from. -/
def base (options : Options) : String :=
  options.basePath.getD "."

/-- The root directories, or the base path where there are none. -/
def resolvedRootDirs (options : Options) : List String :=
  match options.rootDirs with
  | some dirs => dirs.map (Path.resolve options.base)
  | none => [Path.normalize options.base]

def isInRootDir (options : Options) (file : String) : Bool :=
  match options.rootDir with
  | none => true
  | some root => (Path.below? (Path.resolve options.base root) file).isSome

/-- Framework decorators are lowered unless they are to stay decorators. -/
def lowersDecorators (options : Options) : Bool :=
  options.annotationsAs ≠ some .decorators

/-- The code of every diagnostic that this program makes itself. -/
def errorCode : Int := 100

/-- Who reports the diagnostics that this program makes itself. -/
def reporter : String := "annex"

/-- What is wrong with the options as such. -/
def complaints (options : Options) : List Diagnostic :=
  if options.annotationsAs = some .unsupported then
    [{ message := "annex compiler options \"annotationsAs\" only supports \"static fields\" and \"decorators\""
       code := errorCode
       source := some reporter }]
  else []

end Options

end CompanionBuild
