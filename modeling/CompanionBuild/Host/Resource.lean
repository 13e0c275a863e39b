import CompanionBuild.Host.Source
import CompanionBuild.Lowering.Metadata

/-! # Resources and metadata

A resource is named by a path from the file that uses it, or, with a leading slash, by a path inside a package. A style
sheet may be there in compiled form only. The metadata of a declaration file lies beside it; any other file's is
collected, and resources and lowered names are put in place.
-/

namespace CompanionBuild.Host

variable {ω : Type} (host : Host ω)

/-! ## Resources -/

/-- The name of a resource in the form in which it is looked up. -/
def resourcePath (name : String) : String :=
  match Text.dropHead? "/" name with
  | some inPackage => inPackage
  | none => if Text.startsWith name "." then name else "./" ++ name

/-- The first of some files that the file system has. -/
def firstOnDisk : List String → HostM ω (Option String)
  | [] => pure none
  | file :: rest => do
    if ← host.exists? file then pure (some file) else firstOnDisk rest

/-- The files that the path of a resource may mean. -/
def resourceCandidates (path containing : String) : List String :=
  let dir := Path.dirname containing
  if Text.startsWith path "." then [Path.join dir path]
  else (Path.ancestors dir).map fun dir => Path.join dir ("node_modules/" ++ path)

/-- The paths under which a resource may be found: its own, and that of its compiled form. -/
def resourcePaths (path : String) : List String :=
  path :: (Path.compiledStyle? path).toList

/-- The file of a resource; one that is not found is reported. -/
def resourceFile (name containing : String) : HostM ω (Option String) := do
  match host.overrides.resourceFile with
  | some find => HostM.inWorld (find name containing)
  | none =>
    let path := resourcePath name
    match ← host.firstOnDisk ((resourcePaths path).flatMap (resourceCandidates · containing)) with
    | some file => pure (some file)
    | none => do
      match host.overrides.reportMissing with
      | some report => HostM.inWorld (report path)
      | none => pure ()
      pure none

/-- The text of a resource. -/
def loadResource (file : String) : Attempt ω ResourceText := do
  match host.overrides.readResource with
  | some read => Attempt.inWorld (read file)
  | none =>
    if ← host.exists? file then
      match ← host.readDisk file with
      | some text => pure (.ready text)
      | none => throw (.io file "file vanished while reading")
    else throw (.structural { message := "Resource file not found: " ++ file })

/-- The host as the transforms see it. -/
def resources : ResourceHost (Situation ω) where
  fileOf name containing := host.resourceFile name containing
  load file := do
    match ← (host.loadResource file).run with
    | .ok (.ready text) => pure (.ok (.text text))
    | .ok (.deferred _) => pure (.ok .deferred)
    | .error error => pure (.error (.resource (.host error.message)))

/-! ## Metadata -/

/-- The requests for a unit, kept for the whole build. -/
def requestsFor (u : SourceUnit) : HostM ω Lowering.Requests := fun situation =>
  let (requests, cache) := Lowering.requestsFor Lowering.defaultFields u situation.caches.requests
  (requests, { situation with caches := { situation.caches with requests := cache } })

/-- The transformers of collected metadata: resources first, then lowered names. -/
def metadataTransformers : List (MetadataTransformer (Situation ω)) :=
  (if host.options.enableResourceInlining then [Resource.inlineMetadata host.resources] else []) ++
    (if host.options.disableExpressionLowering then [] else [Lowering.metadataTransformer requestsFor])

/-- The collected metadata of a unit. -/
def unitMetadata (u : SourceUnit) : Attempt ω (Option Json) :=
  .memo (Table.get? ·.metadata u.name)
    (fun metadata caches => { caches with metadata := Table.put caches.metadata u.name metadata })
    (ExceptT.adapt BuildError.transform
      (collectMetadata (fun u => HostM.inWorld (host.collect u)) host.metadataTransformers u))

/-- The records of a metadata file, which holds one or a list of them. -/
def recordsOf : Json → List Json
  | .array records => records
  | record => [record]

/-- The records beside a declaration file. -/
def declarationRecords (file : String) : Attempt ω (Option (List Json)) := do
  let metadataFile := Path.metadataOfDeclaration file
  if ← host.exists? metadataFile then
    match Json.read? ((← host.readDisk metadataFile).getD "") with
    | some json => pure (some (recordsOf json))
    | none => throw (.config (.metadataText metadataFile))
  else pure none

/-- The records collected from a file. -/
def sourceRecords (file : String) : Attempt ω (Option (List Json)) := do
  match ← host.writtenUnit file with
  | some u => do
    let metadata ← host.unitMetadata u
    pure (metadata.map fun record => [record])
  | none => pure none

/-- The metadata records of a file. -/
def metadataRecords (file : String) : Attempt ω (Option (List Json)) :=
  .memo (·.records.get? file)
    (fun records caches => { caches with records := caches.records.put file records })
    (if Path.isDeclaration file then host.declarationRecords file else host.sourceRecords file)

end CompanionBuild.Host
