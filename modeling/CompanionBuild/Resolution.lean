import CompanionBuild.FileSystem.Basic
import CompanionBuild.Path.Naming
import CompanionBuild.Project.Package

/-! # Module resolution

A relative or absolute module name is a path that lacks an extension, or names a directory with an index file. Any other
name starts with the name of a package, which is looked for in the package folders on the way up from the importing
file.
-/

namespace CompanionBuild

structure ResolvedModule where
  file : String
  /-- The file belongs to a package rather than to the project. -/
  isExternal : Bool
deriving DecidableEq, Repr

namespace Resolution

/-- A module name that is a path from the importing file. -/
def isRelative (name : String) : Bool :=
  name = "." || name = ".." || Text.startsWith name "./" || Text.startsWith name "../"

/-- The extensions that a path is tried with, in order. -/
def extensions : List String := [".ts", ".tsx", ".d.ts"]

/-- The files that a path without an extension may mean, in order. -/
def probes (path : String) : List String :=
  (if Path.isTypeScript path then [path] else []) ++
    extensions.map (path ++ ·) ++ extensions.map (path ++ "/index" ++ ·)

/-- An entry file without its extension. -/
def entryStem (entry : String) : String :=
  (Text.dropTail? ".js" entry).getD (Path.stripExtension entry)

/-- The files that an entry of a package descriptor may mean, in order. -/
def entryProbes (folder entry : String) : List String :=
  let path := Path.join folder entry
  (if Path.isTypeScript path then [path] else []) ++ probes (entryStem path)

/-- The entries of a descriptor that can lead to typings, in order. -/
def entries (descriptor : Descriptor) : List String :=
  descriptor.publicTypings?.toList ++ descriptor.main.toList

section

variable {σ : Type} (files : FileLookup σ)

/-- The descriptor of the package in a folder. -/
def descriptor? (folder : String) : StateM σ (Option Descriptor) := do
  let text ← files.read (Path.join folder "package.json")
  pure (text.bind Descriptor.parse?)

/-- The main file of the package in a folder. -/
def packageMain (folder : String) : StateM σ (Option String) := do
  let descriptor ← descriptor? files folder
  let fromEntries := (descriptor.map entries).getD [] |>.flatMap (entryProbes folder)
  files.firstExisting (fromEntries ++ probes (Path.join folder "index"))

/-- The file of a package, or of a path inside it. -/
def packageFile (folder : String) : Option String → StateM σ (Option String)
  | some inside => files.firstExisting (probes (Path.join folder inside))
  | none => packageMain files folder

/-- The folder in which a directory keeps a package; a package folder keeps none. -/
def packageFolder? (package dir : String) : Option String :=
  if Path.basename dir = "node_modules" then none
  else some (Path.join dir ("node_modules/" ++ package))

/-- The file of a package in the first of the directories that has it. -/
def resolvePackage (package : String) (inside : Option String) : List String → StateM σ (Option String)
  | [] => pure none
  | dir :: rest => do
    match packageFolder? package dir with
    | none => resolvePackage package inside rest
    | some folder =>
      if ← files.directoryExists folder then
        match ← packageFile files folder inside with
        | some file => pure (some file)
        | none => resolvePackage package inside rest
      else resolvePackage package inside rest

/-- The file that a module name means in a file. -/
def resolveFile (name containing : String) : StateM σ (Option String) :=
  if isRelative name then files.firstExisting (probes (Path.join (Path.dirname containing) name))
  else if Path.isAbsolute name then files.firstExisting (probes (Path.normalize name))
  else
    let (package, inside) := packageSpecifier name
    resolvePackage files package inside (Path.ancestors (Path.dirname containing))

/-- The module that a name means in a file. -/
def resolve (name containing : String) : StateM σ (Option ResolvedModule) := do
  let file ← resolveFile files name containing
  pure (file.map fun file => ⟨file, Text.contains file "/node_modules/"⟩)

end

end Resolution

end CompanionBuild
