import CompanionBuild.Resource.Metadata

/-! # The metadata of modules

What a module's classes and variables are is collected once for each file name. Unless the unit is a declaration file,
the transformers then go over every member in the order of the names. A failure leaves nothing behind, so the next
request collects again.
-/

namespace CompanionBuild

/-- The metadata found so far by file name; a module may have none. -/
abbrev MetadataCache := Table (Option Json)

section

variable {σ : Type}

/-- One transformer over every member of a module, up to the first that fails. -/
def reviseMembers (u : SourceUnit) (transformer : MetadataTransformer σ) (metadata : Json) :
    StateM σ (Revised Json) :=
  metadata.reviseField "metadata" fun members =>
    match members with
    | .object fields => do
      let (fields, error) ← reviseEach
        (fun entry => do
          let (made, error) ← transformer u entry.1 entry.2
          pure ((entry.1, made), error)) fields
      pure (.object fields, error)
    | _ => pure (members, none)

/-- The transformers one after the other. -/
def reviseModule (u : SourceUnit) : List (MetadataTransformer σ) → Json → ResourceM σ Json
  | [], metadata => pure metadata
  | transformer :: rest, metadata => do
    match ← reviseMembers u transformer metadata with
    | (_, some error) => throw error
    | (made, none) => reviseModule u rest made

/-- The metadata of a unit as the transformers leave it. -/
def collectMetadata (collect : SourceUnit → StateM σ (Option Json)) (transformers : List (MetadataTransformer σ))
    (u : SourceUnit) : ResourceM σ (Option Json) := do
  match ← collect u with
  | none => pure none
  | some metadata =>
    if u.isDeclaration then pure (some metadata)
    else
      let made ← reviseModule u transformers metadata
      pure (some made)

/-- The metadata of a unit, from the cache if its name is there. -/
def MetadataCache.get (cache : MetadataCache) (collect : SourceUnit → StateM σ (Option Json))
    (transformers : List (MetadataTransformer σ)) (u : SourceUnit) : ResourceM σ (Option Json × MetadataCache) := do
  match Table.get? cache u.name with
  | some metadata => pure (metadata, cache)
  | none =>
    let metadata ← collectMetadata collect transformers u
    pure (metadata, Table.put cache u.name metadata)

end

end CompanionBuild
