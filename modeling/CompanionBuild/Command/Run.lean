import CompanionBuild.Command.Basic
import CompanionBuild.Diagnostic.Report
import CompanionBuild.FileSystem.Snapshot
import CompanionBuild.Host.ModuleName
import CompanionBuild.Host.Resource
import CompanionBuild.Json.Printer
import CompanionBuild.Project.File

/-! # Running commands

A command only looks at files. It runs over any way of finding out what is under a name, and replies with what is to be
printed.
-/

namespace CompanionBuild

/-- What a command prints, and whether it succeeded. -/
structure Reply where
  isSuccess : Bool := true
  out : String := ""
  err : String := ""
deriving DecidableEq, Repr

namespace Reply

def printed (line : String) : Reply := { out := line ++ "\n" }

def failed (line : String) : Reply := { isSuccess := false, err := line ++ "\n" }

def error (error : BuildError) : Reply := failed ("Error: " ++ error.message)

end Reply

/-- The companions that files have by their names alone. -/
def companionNamesFor (file : String) : List String :=
  if Path.isTypeScript file || Path.isDeclaration file then
    let stem := Path.stripExtension file
    [stem ++ ".axfactory.ts", stem ++ ".axsummary.ts"]
  else []

section

variable {ω : Type} (find : String → StateM ω Entry) (currentDirectory : String)

/-- The project of a file, or an empty one. -/
def loadProject : Option String → StateM ω (Outcome Project)
  | none => pure (.ok ⟨[], { basePath := some currentDirectory }⟩)
  | some path => do
    match (← find path).text with
    | .error reason => pure (.error (.io path reason))
    | .ok text =>
      let file := Path.resolve currentDirectory (Path.slashes path)
      pure ((Project.read text (Path.dirname file)).mapError .config)

/-- The host of a project, of which only names and places of files are asked. -/
def Project.host (project : Project) : Host ω where
  options := project.options
  roots := project.roots
  files := .readOnly find currentDirectory
  parse name text := pure (.plain name text)
  collect _ := pure none

end

section

variable {ω : Type} (host : Host ω)

def replyModuleName (imported containing : String) : HostM ω Reply := do
  match ← (host.moduleName imported containing).run with
  | .ok name => pure (.printed name)
  | .error error => pure (.error error)

def replyResolve (name : String) (containing : Option String) : HostM ω Reply := do
  match ← (host.moduleFile name containing).run with
  | .ok (some file) => pure (.printed file)
  | .ok none => pure (.failed ("Cannot find module '" ++ name ++ "'"))
  | .error error => pure (.error error)

def replyResource (name containing : String) : HostM ω Reply := do
  match ← host.resourceFile name containing with
  | some file => pure (.printed file)
  | none => pure (.failed ("Resource '" ++ name ++ "' not found from " ++ containing))

/-- The line about a companion. -/
def companionLine (file : String) : Generatable → String
  | .yes (some base) => file ++ ": generated from " ++ base
  | .yes none => file ++ ": generated"
  | .no => file ++ ": not generatable"

/-- The lines about a file. -/
def classifyFile (file : String) : HostM ω (List String) := do
  if Path.isCompanion file then
    pure [companionLine file (← host.generatable file)]
  else
    let line := file ++ if ← host.isSource file then ": source" else ": not a source"
    let companions ← if ← host.getsCompanions file then generatable (companionNamesFor file) else pure []
    pure (line :: companions)
where
  generatable : List String → HostM ω (List String)
    | [] => pure []
    | name :: rest => do
      let found ← host.generatable name
      let others ← generatable rest
      pure (if found.isYes then ("  " ++ name) :: others else others)

def classifyFiles : List String → HostM ω (List String)
  | [] => pure []
  | file :: rest => do
    let lines ← classifyFile host file
    let others ← classifyFiles rest
    pure (lines ++ others)

end

def replyOptions (options : Options) : Reply :=
  let out := Json.pretty "" (.object options.fields) ++ "\n"
  match options.complaints with
  | [] => { out }
  | complaints => { isSuccess := false, out, err := Diagnostic.reportAll complaints ++ "\n" }

/-- The reply to a command of a project; files are seen from the current directory. -/
def Command.run {ω : Type} (host : Host ω) (command : Command) : HostM ω Reply :=
  let absolute := Path.resolve host.files.currentDirectory
  match command with
  | .moduleName imported containing => replyModuleName host (absolute imported) (absolute containing)
  | .resolve name containing => replyResolve host name (containing.map absolute)
  | .resolveResource name containing => replyResource host name (absolute containing)
  | .classify files => do
    let lines ← classifyFiles host (files.map absolute)
    pure { out := String.join (lines.map (· ++ "\n")) }
  | .options => pure (replyOptions host.options)

/-- The reply to a command line, `find` telling what is under a name. -/
def Invocation.run {ω : Type} (find : String → StateM ω Entry) (currentDirectory : String)
    (invocation : Invocation) : StateM ω Reply := do
  match ← loadProject find currentDirectory invocation.project with
  | .error error => pure (.error error)
  | .ok project => fun world =>
    let (reply, situation) := invocation.command.run (project.host find currentDirectory) ⟨world, {}⟩
    (reply, situation.world)

end CompanionBuild
