import CompanionBuild.Host.Basic
import CompanionBuild.Path.Naming
import CompanionBuild.Project.Package

/-! # Which files are sources

A source is analyzed and gets companions. Declaration files are sources too, except that of a package with a bundle
index only the index itself is one. A companion can be generated where its base is a source that exists.
-/

namespace CompanionBuild

/-- Whether a companion can be generated, and from which unit; one of a style sheet has none. -/
inductive Generatable where
  | no
  | yes (base : Option String)
deriving DecidableEq, Repr

def Generatable.isYes : Generatable → Bool
  | .yes _ => true
  | .no => false

namespace Host

variable {ω : Type} (host : Host ω)

/-! ## Bundle indexes -/

/-- The typings of the package in a directory and the file of their metadata. -/
def bundleTypings? (dir text : String) : Option (Option (String × String)) := do
  let descriptor ← Descriptor.parse? text
  match descriptor.publicTypings? with
  | none => some none
  | some entry =>
    let typings := Path.join dir entry
    if Path.isDeclaration typings then some (some (typings, Path.metadataOfDeclaration typings)) else some none

/-- Files the typings of a bundle under what their metadata makes of them; true for an index. -/
def recordBundle (typings : String) (bundle : BundleMetadata) : HostM ω Bool := do
  if bundle.isRedirect then
    HostM.modifyCaches fun caches => { caches with bundleRedirects := Names.insert typings caches.bundleRedirects }
    pure false
  else if bundle.importAs.isSome then
    HostM.modifyCaches fun caches => { caches with bundleIndexes := Names.insert typings caches.bundleIndexes }
    pure true
  else pure false

/-- The package whose descriptor is at hand has a bundle index. -/
def readBundle (dir packageFile : String) : HostM ω Bool := do
  match (← host.readDisk packageFile).bind (bundleTypings? dir) with
  | some (some (typings, metadataFile)) =>
    if ← host.exists? metadataFile then
      match (← host.readDisk metadataFile).bind BundleMetadata.parse? with
      | some bundle => recordBundle typings bundle
      | none => pure false
    else pure false
  | _ => pure false

/-- The first of the directories, each the parent of the one before, lies in a package with a bundle index: the nearest
descriptor decides. -/
def isBundled : List String → HostM ω Bool
  | [] => pure false
  | dir :: parents =>
    .memo (·.bundled.get? dir) (fun found caches => { caches with bundled := caches.bundled.put dir found }) do
      if Path.basename dir = "node_modules" then pure false
      else
        let packageFile := Path.join dir "package.json"
        if ← host.exists? packageFile then host.readBundle dir packageFile else isBundled parents

/-! ## Sources -/

/-- A declaration file counts unless it belongs to a bundle and is no index of it. -/
def isSourceDeclaration (file : String) : HostM ω Bool := do
  if host.options.generateCodeForLibraries = some false then pure false
  else if ← host.isBundled (Path.ancestors (Path.dirname file)) then
    let caches ← HostM.caches
    let name := Path.normalize file
    pure (caches.bundleIndexes.contains name || caches.bundleRedirects.contains name)
  else pure true

/-- A file is analyzed and gets companions. -/
def isSource (file : String) : HostM ω Bool := do
  let caches ← HostM.caches
  if caches.isDegraded then pure false
  else if host.options.skipTemplateCodegen && !host.options.fullTemplateTypeCheck then pure false
  else if caches.summaries.has file || Path.isCompanion file then pure false
  else if Path.isDeclaration file then host.isSourceDeclaration file
  else pure true

/-- The first of some files that is a source and exists. -/
def firstSource : List String → HostM ω (Option String)
  | [] => pure none
  | file :: rest => do
    if ← host.isSource file then
      if ← host.exists? file then pure (some file) else firstSource rest
    else firstSource rest

/-- The files a companion of this stem can be generated from. -/
def baseCandidates (stem : String) : List String :=
  [stem ++ ".ts", stem ++ ".tsx", stem ++ ".d.ts"]

def generatable (file : String) : HostM ω Generatable := do
  if !host.options.isInRootDir file then pure .no
  else
    match CompanionName.parse? file with
    | none => pure .no
    | some name =>
      if !name.extension.isScript then pure .no
      else if name.kind.isStyle then do
        if (← HostM.caches).isDegraded then pure .no
        else if ← host.exists? name.base then pure (.yes none)
        else pure .no
      else do
        match ← host.firstSource (baseCandidates name.base) with
        | some base => pure (.yes (some base))
        | none => pure .no

/-- A file gets companions. -/
def getsCompanions (file : String) : HostM ω Bool := do
  if Path.isCompanion file then pure false
  else if ← host.isSource file then pure (host.options.isInRootDir file)
  else pure false

/-- A file exists for the compiler: as a summary, as a companion, or in the file system. -/
def fileExists (file : String) : HostM ω Bool := do
  let caches ← HostM.caches
  if caches.summaries.has file || caches.companions.has file then pure true
  else if (← host.generatable file).isYes then pure true
  else host.exists? file

/-- The files as the compiler sees them. -/
def lookup : FileLookup (Situation ω) where
  fileExists := host.fileExists
  directoryExists dir := HostM.inWorld (host.files.directoryExists dir)
  read := host.fileText

end Host

end CompanionBuild
