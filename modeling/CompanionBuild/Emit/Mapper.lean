import CompanionBuild.Error
import CompanionBuild.Path.Basic

/-! # From sources to outputs

Where the outputs of further sources go is derived from one source and its output: the directories that the two have in
common at their ends are stripped, and what remains of the source's is the root.
-/

namespace CompanionBuild

inductive OutputMapper where
  /-- Outputs sit beside their sources. -/
  | normalize
  /-- The sample's output was found beside its source. -/
  | identity
  | rooted (outDir rootDir : String)
deriving DecidableEq, Repr

namespace OutputMapper

/-- The segments of `source` without those it shares with `target` at the end. -/
def withoutSharedEnd (source target : List (List Char)) : List (List Char) :=
  (Path.Chars.diverge source.reverse target.reverse).1.reverse

/-- The root directory that a source directory and an output directory, relative to the output root, have in common. -/
def rootOf (sourceDir outputDir : String) : String :=
  String.ofList (Path.Chars.join
    (withoutSharedEnd (Text.split '/' sourceDir.toList) (Text.split '/' outputDir.toList)))

/-- The mapper of an output directory and a sample of a source with its output. -/
def ofSample (outDir : Option String) (sample : Option (String × String)) : Except ConsistencyFault OutputMapper :=
  match outDir, sample with
  | none, _ => .ok .normalize
  | some _, none => .error .noSample
  | some outDir, some (source, output) =>
    let sourceDir := Path.dirname (Path.slashes source)
    let outputDir := Path.dirname (Path.slashes output)
    if sourceDir = outputDir then .ok .identity
    else .ok (.rooted outDir (rootOf sourceDir (Path.relative outDir outputDir)))

def map (mapper : OutputMapper) (file : String) : String :=
  match mapper with
  | .normalize => Path.normalize file
  | .identity => file
  | .rooted outDir rootDir => Path.resolve outDir (Path.relative rootDir file)

end OutputMapper

end CompanionBuild
