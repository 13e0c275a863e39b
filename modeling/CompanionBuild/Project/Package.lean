import CompanionBuild.Json.Document
import CompanionBuild.Text.Affix

/-! # Package descriptors

A descriptor is read for six of its fields. A field may be missing or `null`; one that is given twice makes the
descriptor unreadable. The other fields are passed over with a look at their form only. A descriptor may also be written
as the list of the six values, the last ones left out.
-/

namespace CompanionBuild

structure Descriptor where
  name : Option String := none
  version : Option String := none
  main : Option String := none
  module : Option String := none
  typings : Option String := none
  types : Option String := none
deriving DecidableEq, Repr

namespace Descriptor

/-- The names of the fields, in their order. -/
def fieldNames : List String := ["name", "version", "main", "module", "typings", "types"]

/-- The value of a field: a text or `null`. -/
def fieldValue? : Json.Document → Option (Option String)
  | .null => some none
  | .text pieces => (Json.Piece.string? pieces).map some
  | _ => none

/-- The values of the six fields, missing ones being none. -/
def ofValues? : List (Option String) → Option Descriptor
  | [name, version, main, module, typings, types] => some { name, version, main, module, typings, types }
  | _ => none

/-- The values of one field among the fields of an object. -/
def occurrences (fields : List (String × Json.Document)) (name : String) : List Json.Document :=
  (fields.filter (·.1 = name)).map (·.2)

/-- The value of a field that occurs at most once. -/
def single? (fields : List (String × Json.Document)) (name : String) : Option (Option String) :=
  match occurrences fields name with
  | [] => some none
  | [document] => fieldValue? document
  | _ => none

def ofDocument? : Json.Document → Option Descriptor
  | .object fields => do
    let fields ← fields.mapM fun field => (Json.Piece.string? field.1).map fun name => (name, field.2)
    ofValues? (← fieldNames.mapM (single? fields))
  | .array elements => do
    let values ← elements.mapM fieldValue?
    if values.length ≤ fieldNames.length then
      ofValues? (values ++ List.replicate (fieldNames.length - values.length) none)
    else none
  | _ => none

def parse? (text : String) : Option Descriptor :=
  (Json.Document.parse? text).bind ofDocument?

/-- The entry of the public typings. -/
def publicTypings? (descriptor : Descriptor) : Option String :=
  descriptor.typings.or descriptor.types

end Descriptor

/-- What a metadata file says about a bundled module. -/
structure BundleMetadata where
  /-- The typings only hand on the real index of the module. -/
  isRedirect : Bool := false
  /-- The name under which the bundle is imported. -/
  importAs : Option String := none
deriving DecidableEq, Repr

/-- The first record of a metadata file, which holds one record or a list of them. -/
def BundleMetadata.parse? (text : String) : Option BundleMetadata :=
  (Json.read? text).map fun json =>
    let record := match json with
      | .array records => records.head?.getD .null
      | other => other
    { isRedirect := ((record.field? "flatModuleIndexRedirect").bind Json.bool?).getD false
      importAs := (record.field? "importAs").bind Json.text? }

/-- A module name as a package name, which is two segments when it has a scope, and what follows it. -/
def packageSpecifier (specifier : String) : String × Option String :=
  match Text.split '/' specifier.toList, Text.startsWith specifier "@" with
  | scope :: name :: rest, true =>
    (String.ofList (scope ++ '/' :: name),
      if rest.isEmpty then none else some (String.ofList (List.intercalate ['/'] rest)))
  | name :: rest, false =>
    (String.ofList name, if rest.isEmpty then none else some (String.ofList (List.intercalate ['/'] rest)))
  | _, _ => (specifier, none)

end CompanionBuild
