import CompanionBuild.Host.Source
import CompanionBuild.Resolution

/-! # Names of modules and the files they mean

Generated code imports a file of its own package by a relative path and a file of another package by the name of that
package. A package whose typings are the imported file needs no path.
-/

namespace CompanionBuild.Host

variable {ω : Type} (host : Host ω)

/-! ## From files to names -/

/-- The path from one file to another without its extension. Files that both lie in root directories are seen from
there. -/
def relativeName (stem containing : String) : String :=
  let roots := host.options.resolvedRootDirs
  let rootedContaining := Path.belowRoots containing roots
  let rootedStem := Path.belowRoots stem roots
  if rootedContaining ≠ containing ∧ rootedStem ≠ stem then
    Path.dotRelative (Path.dirname rootedContaining) rootedStem
  else Path.dotRelative (Path.dirname containing) stem

/-- The typings of the package in `folder`, whose descriptor has the given text, are `file`. -/
def isTypings (folder file text : String) : Bool :=
  ((Descriptor.parse? text).bind (·.publicTypings?)).any fun entry => Path.join folder entry = file

/-- A declaration file is the typings of its package; `deepName` is its name inside the package folder. -/
def isPackageTypings (file stem deepName package : String) : HostM ω Bool := do
  match Text.dropTail? deepName stem with
  | none => pure false
  | some before =>
    let folder := before ++ package
    pure ((← host.readDisk (Path.join folder "package.json")).any (isTypings folder file))

/-- The name of a file in another package. -/
def packageName (file stem package : String) : HostM ω String := do
  let deepName := Path.stripPackageFolder stem
  if Path.isDeclaration file then
    if ← host.isPackageTypings file stem deepName package then pure package else pure deepName
  else pure deepName

def computeModuleName (imported containing : String) : Attempt ω String := do
  let stem := Path.stripExtension imported
  let package := Path.packageOf? stem
  if package = Path.packageOf? containing ∨ Path.isCompanion imported then
    pure (host.relativeName stem containing)
  else
    match package with
    | some package => host.packageName imported stem package
    | none => throw (.usage (.sourceFromPackage imported containing))

/-- The key of a module name in the caches. -/
def moduleNameKey (imported containing : String) : String :=
  imported ++ ":" ++ containing

/-- The name under which code in `containing` imports the file `imported`. -/
def moduleName (imported containing : String) : Attempt ω String :=
  match host.overrides.moduleName with
  | some name => Attempt.inWorld (name imported containing)
  | none =>
    let key := moduleNameKey imported containing
    .memo (·.moduleNames.get? key)
      (fun name caches => { caches with moduleNames := caches.moduleNames.put key name })
      (host.computeModuleName imported containing)

/-! ## From names to files -/

/-- The module that a name means in a file. A declaration file that gets companions is part of the program. -/
def resolveModule (name containing : String) : HostM ω (Option ResolvedModule) := do
  match ← Resolution.resolve host.lookup name (Path.slashes containing) with
  | none => pure none
  | some resolved =>
    if Path.isDeclaration resolved.file then
      if ← host.isSource resolved.file then pure (some { resolved with isExternal := false })
      else pure (some resolved)
    else pure (some resolved)

/-- The file that stands in for a missing containing file; any file serves for a name that is not relative. -/
def standInFile : String :=
  host.roots.head?.getD (Path.join host.files.currentDirectory "index.ts")

/-- The containing file to resolve a name from. -/
def containingFile (name : String) (containing : Option String) : Outcome String :=
  match containing.filter (· ≠ "") with
  | some containing => .ok containing
  | none =>
    if Text.startsWith name "." then .error (.usage .relativeWithoutContaining)
    else .ok host.standInFile

/-- The file that a module name means, seen from a file if one is given. -/
def moduleFile (name : String) (containing : Option String) : Attempt ω (Option String) := do
  let containing ← ExceptT.mk (pure (host.containingFile name containing))
  match host.overrides.moduleFile with
  | some find => Attempt.inWorld (find name containing)
  | none => do
    let resolved ← host.resolveModule name containing
    pure (resolved.map (·.file))

/-- The file that a summary calls by a module name. -/
def summaryFile (name library : String) : Attempt ω String := do
  match ← host.moduleFile name (some library) with
  | some file => pure file
  | none => throw (.usage (.unresolvedSummary name library))

end CompanionBuild.Host
