import CompanionBuild.Error
import CompanionBuild.Path.Naming
import CompanionBuild.Project.Options

/-! # Diagnostics about generated code

A diagnostic that points into a companion is moved onto the template it came from. Generated code declares much that it
never uses, so the complaint about that is dropped. A structural error becomes diagnostics of its own.
-/

namespace CompanionBuild

/-- A diagnostic that points into a template or a metadata file. -/
structure TemplateDiagnostic where
  message : String
  category : Category := .error
  code : Int := Options.errorCode
  span : Option TemplateSpan := none
  chain : Option MessageChain := none
  position : Option Position := none

/-- The same diagnostic as one of the compiler's; a span becomes a place in the text of its source. -/
def TemplateDiagnostic.toDiagnostic (diagnostic : TemplateDiagnostic) : Diagnostic :=
  let plain : Diagnostic := {
    message := diagnostic.message
    category := diagnostic.category
    code := diagnostic.code
    chain := diagnostic.chain
    position := diagnostic.position
    source := some Options.reporter }
  match diagnostic.span with
  | some span => plain.locatedAt span.start.file span.start.offset span.length
  | none => plain

/-- The span that a line and column of a companion came from. -/
abbrev SpanFinder := String → Nat → Nat → Except Text.SplitCharacter (Option TemplateSpan)

/-- Diagnostics that stay as they are, and those that were moved onto templates. -/
structure Relocated where
  kept : List Diagnostic := []
  moved : List TemplateDiagnostic := []

/-- The code of the complaint about a declaration that is never used. -/
def unusedDeclarationCode : Int := 6133

/-- What becomes of one diagnostic. -/
inductive Verdict where
  | keep
  | drop
  | move (diagnostic : TemplateDiagnostic)

namespace Diagnostic

/-- The companion and the place in it that a diagnostic points to; the very beginning counts as no place. -/
def companionPlace? (diagnostic : Diagnostic) : Option (NamedText × Nat) :=
  match diagnostic.file, diagnostic.start with
  | some file, some (start + 1) => if Path.isCompanion file.name then some (file, start + 1) else none
  | _, _ => none

/-- The diagnostic on a template span. -/
def onto (diagnostic : Diagnostic) (span : TemplateSpan) : TemplateDiagnostic :=
  { message := diagnostic.flatMessage, category := diagnostic.category, span := some span }

def verdict (find : SpanFinder) (diagnostic : Diagnostic) : Except Text.SplitCharacter Verdict := do
  match diagnostic.companionPlace? with
  | none => pure .keep
  | some (file, start) =>
    if diagnostic.code = unusedDeclarationCode then pure .drop
    else
      let place ← Text.lineColumn file.text start
      match ← find file.name place.line place.column with
      | some span => pure (.move (diagnostic.onto span))
      | none => pure .keep

end Diagnostic

/-- Every diagnostic where it belongs, each list in the order of the diagnostics. -/
def relocate (find : SpanFinder) : List Diagnostic → Except Text.SplitCharacter Relocated
  | [] => .ok {}
  | diagnostic :: rest => do
    let verdict ← diagnostic.verdict find
    let relocated ← relocate find rest
    match verdict with
    | .keep => pure { relocated with kept := diagnostic :: relocated.kept }
    | .drop => pure relocated
    | .move moved => pure { relocated with moved := moved :: relocated.moved }

/-! ## Structural errors -/

/-- A static field that only a newer toolchain declares on a module. -/
def newerModuleField : String := "ɵmod"

/-- The declaration of a module comes from a newer toolchain. -/
def MissingModule.isFromNewerToolchain (missing : MissingModule) (find : String → Option SourceUnit) : Bool :=
  (find missing.file).any fun u =>
    u.isDeclaration &&
      u.classes.any fun c => c.name = missing.className && (c.staticField? newerModuleField).isSome

def MissingModule.newerToolchainMessage (missing : MissingModule) : String :=
  "The module '" ++ missing.className ++ "' in '" ++ missing.file ++
    "' is imported by this compilation, but appears to be part of a library compiled by a newer, incompatible annex " ++
    "toolchain. This may occur because:\n\n  1) the library was post-processed for the newer toolchain. Removing and " ++
    "reinstalling node_modules may fix this problem.\n\n  2) the library was published for the newer toolchain only. " ++
    "Check its peer dependencies carefully and ensure that you're using a compatible version of " ++ coreModule ++ ".\n"

/-- The diagnostics of a structural error, `find` looking up the units of the program if there is one. -/
def StructuralError.diagnostics (error : StructuralError) (find : String → Option SourceUnit) :
    List TemplateDiagnostic :=
  if !error.parseErrors.isEmpty then
    error.parseErrors.map fun e => { message := e.message, span := some e.span }
  else if error.chain.isSome then
    [{ message := error.message, chain := error.chain, position := error.position }]
  else
    match error.missingModule with
    | some missing =>
      if missing.isFromNewerToolchain find then [{ message := missing.newerToolchainMessage }]
      else [{ message := error.message }]
    | none => [{ message := error.message }]

end CompanionBuild
