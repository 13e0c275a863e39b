import CompanionBuild.Compiler
import CompanionBuild.Outline.Parser
import CompanionBuild.Outline.World

/-! # A compiler of outlines

A stand-in for a compiler. Its programs hold the units that can be reached from the roots. A comment with a marker in a
text stands for a diagnostic. What it emits of a unit is its text, or the printed tree of a unit that is known as one.
-/

namespace CompanionBuild.Outline

structure Settings where
  /-- The unit of a name and a text where a tree is known for the name. -/
  tree? : String → String → Option SourceUnit := fun _ _ => none
  /-- The one output that all others are put into. -/
  bundle : Option String := none
  /-- No program takes over the whole structure of an old one. -/
  breaksReuse : Bool := false
  optionDiagnostics : List Diagnostic := []
  /-- The number of names that are looked at while a program is made. -/
  limit : Nat := 1000000

/-! ## Diagnostics -/

/-- The lines of a text with their byte offsets, each with its line feed. -/
def lines (offset : Nat) : List (List Char) → List (Nat × List Char)
  | [] => []
  | [last] => if last.isEmpty then [] else [(offset, last)]
  | line :: rest =>
    let line := line ++ ['\n']
    (offset, line) :: lines (offset + Text.byteLength line) rest

/-- The diagnostic of a line that holds a marker: what follows the marker, at its first place. -/
def marked? (marker : String) (code : Int) (u : SourceUnit) (line : Nat × List Char) : Option Diagnostic :=
  (Text.after? marker.toList line.2).map fun rest =>
    let before := line.2.take (line.2.length - rest.length - marker.length)
    ({ message := String.ofList (Text.trim rest), code } : Diagnostic).locatedAt ⟨u.name, u.text⟩
      (line.1 + Text.byteLength before) marker.utf8ByteSize

def marked (marker : String) (code : Int) (u : SourceUnit) : List Diagnostic :=
  (lines 0 (Text.split '\n' u.text.toList)).filterMap (marked? marker code u)

def syntactic (u : SourceUnit) : List Diagnostic :=
  marked "// syntax:" 1005 u

def semantic (u : SourceUnit) : List Diagnostic :=
  marked "// error:" 2339 u ++ marked "// unused:" 6133 u

def emitDiagnostics (u : SourceUnit) : List Diagnostic :=
  marked "// emit:" 4000 u

/-! ## Emitting -/

/-- A unit after the transforms of both stages, with what they found. -/
def transformed {ω : Type} (u : SourceUnit) : EmitDialogue ω (Except TransformError (SourceUnit × Findings)) := do
  match ← EmitDialogue.ask (.transform .before .localOnly {} u) with
  | (.error error, _) => pure (.error error)
  | (.ok u, findings) => do
    match ← EmitDialogue.ask (.transform .after .localOnly findings u) with
    | (.error error, _) => pure (.error error)
    | (.ok u, findings) => pure (.ok (u, findings))

/-- The reference comment for a file. -/
def referenceLine (name reference : String) : String :=
  "/// <reference path=\"" ++ Path.relative (Path.dirname name) reference ++ "\" />\n"

/-- The script of a unit: the printed tree of a companion or of a unit known as one, else the text, preceded by the
references that it does not hold itself. -/
def script (settings : Settings) (u : SourceUnit) : String :=
  if Path.isCompanion u.name || (settings.tree? u.name u.text).isSome then u.print.text
  else
    let written := (parse u.name u.text).references
    String.join ((u.references.filter fun r => !written.contains r).map (referenceLine u.name)) ++ u.text

/-- The name of the outputs of a unit, without an extension. -/
def outputStem (options : Options) (name : String) : String :=
  let stem := Path.stripExtension name
  match options.outDir with
  | some dir => Path.resolve dir (Path.relative options.base stem)
  | none => stem

def outputs (settings : Settings) (options : Options) (onlyDeclarations : Bool) (u : SourceUnit) : List OutputFile :=
  let stem := outputStem options u.name
  (if onlyDeclarations then [] else [⟨stem ++ ".js", script settings u, [u.name]⟩]) ++
    (if options.declaration then [⟨stem ++ ".d.ts", "// dts of " ++ u.name ++ "\n", [u.name]⟩] else [])

/-- Some units transformed one after the other: the diagnostics, and the transformed units. -/
def transformAll {ω : Type} : List SourceUnit → EmitDialogue ω (Outcome (List Diagnostic × List SourceUnit))
  | [] => pure (.ok ([], []))
  | u :: rest => do
    match ← transformed u with
    | .error error => pure (.error (.transform error))
    | .ok (made, findings) => do
      match ← transformAll rest with
      | .error error => pure (.error error)
      | .ok (diagnostics, others) =>
        pure (.ok (findings.diagnostics ++ emitDiagnostics u ++ diagnostics, made :: others))

def writeAll {ω : Type} : List OutputFile → EmitDialogue ω (Outcome Unit)
  | [] => pure (.ok ())
  | output :: rest => do
    match ← EmitDialogue.ask (.write output) with
    | .error error => pure (.error error)
    | .ok () => writeAll rest

/-- All outputs in one, where one is asked for. -/
def bundled (settings : Settings) (outputs : List OutputFile) : List OutputFile :=
  match settings.bundle with
  | some name => [⟨name, String.join (outputs.map (·.text)), outputs.flatMap (·.sources)⟩]
  | none => outputs

def describeEmit (request : EmitRequest) : String :=
  "emit " ++ request.target.getD "*" ++ " dts=" ++ toString request.onlyDeclarations ++
    " [" ++ Text.joined "," request.transforms ++ "]"

def findUnit? (units : List SourceUnit) (name : String) : Option SourceUnit :=
  units.find? fun u => u.name = name

/-- The units that an emit is about: the one of a name, or all, and no declaration files. -/
def emitted (units : List SourceUnit) (target : Option String) : List SourceUnit :=
  (target.elim units fun name => (findUnit? units name).toList).filter fun u => !u.isDeclaration

def emit (settings : Settings) (options : Options) (units : List SourceUnit) (request : EmitRequest) :
    EmitDialogue World (Outcome EmitResult) := do
  Dialogue.act (note (describeEmit request))
  if request.isCancelled then pure (.ok { isSkipped := true })
  else
    match ← transformAll (emitted units request.target) with
    | .error error => pure (.error error)
    | .ok (diagnostics, made) => do
      let outputs := bundled settings (made.flatMap (outputs settings options request.onlyDeclarations))
      match ← writeAll outputs with
      | .error error => pure (.error error)
      | .ok () => pure (.ok { diagnostics, emitted := outputs.map (·.name) })

/-! ## Making programs -/

/-- The files of some module names in a file. -/
def resolveAll {ω : Type} (containing : String) : List String → CompilerDialogue ω (List String)
  | [] => pure []
  | name :: rest => do
    let found ← CompilerDialogue.ask (.resolve name containing)
    let others ← resolveAll containing rest
    pure ((found.map (·.file)).toList ++ others)

/-- The units that can be reached from a queue of names, each name once and breadth first. -/
def reach {ω : Type} (options : Options) : Nat → List String → List SourceUnit → List String →
    CompilerDialogue ω (List SourceUnit)
  | 0, _, units, _ | _, _, units, [] => pure units
  | limit + 1, seen, units, name :: queue => do
    if seen.contains name then reach options limit seen units queue
    else
      match ← CompilerDialogue.ask (.unit name) with
      | none => reach options limit (name :: seen) units queue
      | some u => do
        let resolved ← if options.noResolve then pure [] else resolveAll name u.sources
        reach options limit (name :: seen) (units ++ [u]) (queue ++ u.references ++ resolved)

/-- A unit has the same references and depends on the same modules as one of the same name. -/
def sameStructure {ω : Type} (old : Program ω) (u : SourceUnit) : Bool :=
  old.units.any fun before => before.name = u.name && before.references = u.references && before.sources = u.sources

def reuse {ω : Type} (settings : Settings) (old : Option (Program ω)) (units : List SourceUnit) : Reuse :=
  match old with
  | none => .not
  | some old =>
    if settings.breaksReuse then .safeModules
    else if old.units.length = units.length && units.all (sameStructure old) then .completely
    else .not

def program (settings : Settings) (roots : List String) (options : Options) (old : Option (Program World))
    (units : List SourceUnit) : Program World where
  roots
  units
  unit? := findUnit? units
  reuse := reuse settings old units
  optionDiagnostics := settings.optionDiagnostics
  syntactic file isCancelled :=
    if isCancelled then [] else (units.filter fun u => file.all (· = u.name)).flatMap Outline.syntactic
  semantic file isCancelled :=
    if isCancelled then [] else (findUnit? units file).elim [] Outline.semantic
  emit := emit settings options units

def createProgram (settings : Settings) (roots : List String) (options : Options) (old : Option (Program World)) :
    CompilerDialogue World (Program World) := do
  Dialogue.act (note ("create " ++ Text.joined "," roots ++ " old=" ++ toString old.isSome))
  let units ← reach options settings.limit [] [] roots
  pure (program settings roots options old units)

def parseUnit (settings : Settings) (name text : String) : StateM World SourceUnit := do
  note ("parse " ++ name)
  pure ((settings.tree? name text).getD (parse name text))

def compiler (settings : Settings) : Compiler World where
  parse := parseUnit settings
  createProgram := createProgram settings

end CompanionBuild.Outline
