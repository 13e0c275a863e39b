import CompanionBuild.Error
import CompanionBuild.Json.Document
import CompanionBuild.Project.Options

/-! # Project files

A project file names the root files and holds the options in two sections, the second of which wins. Paths start from
the directory of the file, or from the base path if there is one.
-/

namespace CompanionBuild

structure Project where
  roots : List String
  options : Options
deriving DecidableEq, Repr

namespace Project

/-- The sections of options, a later one winning over an earlier one. -/
def sections : List String := ["compilerOptions", "annexCompilerOptions"]

/-- The options of an earlier section with those of the section `name` put over them. -/
def addSection (root merged : Table Json) (name : String) : Except ConfigFault (Table Json) :=
  match root.get? name with
  | some (.object options) => .ok (options.foldl (fun table entry => table.put entry.1 entry.2) merged)
  | some _ => .error (.sectionNotObject name)
  | none => .ok merged

/-- The root files, seen from `base`. -/
def rootsOf (root : Table Json) (base : String) : Except ConfigFault (List String) :=
  match root.get? "files" with
  | none => .ok []
  | some (.array files) =>
    match files.mapM Json.text? with
    | some files => .ok (files.map (Path.resolve base))
    | none => .error .filesNotTexts
  | some _ => .error .filesNotArray

/-- The project of a file with the given text in the directory `dir`. -/
def read (text dir : String) : Except ConfigFault Project := do
  match Json.read? text with
  | none => .error .projectText
  | some (.object root) =>
    let merged ← sections.foldlM (addSection root) []
    match Options.read? merged with
    | none => .error .options
    | some options =>
      let base := Path.resolve dir options.base
      let roots ← rootsOf root base
      .ok ⟨roots, { options with basePath := some base }⟩
  | some _ => .error .projectNotObject

end Project

end CompanionBuild
