import CompanionBuild.Host.ModuleName
import CompanionBuild.Host.Resource

/-! # What an analyzer may ask

The questions of an analyzer and the host's answers. None of them makes a companion, so a generator can ask them while
it makes one.
-/

namespace CompanionBuild

inductive HostQuery where
  | isSource (file : String)
  /-- The unit of a file as it was read. -/
  | unit (file : String)
  | metadata (file : String)
  | summary (file : String)
  | resource (file : String)
  | moduleName (imported containing : String)
  | moduleFile (name : String) (containing : Option String)
  | resourceFile (name containing : String)
  | summaryName (file source : String)
  | summaryFile (name library : String)
  | outputName (file : String)
deriving DecidableEq, Repr

abbrev HostQuery.Reply : HostQuery → Type
  | .isSource _ => Bool
  | .unit _ => Option SourceUnit
  | .metadata _ => Outcome (Option (List Json))
  | .summary _ => Option String
  | .resource _ => Outcome ResourceText
  | .moduleName .. => Outcome String
  | .moduleFile .. => Outcome (Option String)
  | .resourceFile .. => Option String
  | .summaryName .. => Outcome String
  | .summaryFile .. => Outcome String
  | .outputName _ => String

/-- The answer to a question. -/
def Host.answer {ω : Type} (host : Host ω) : (q : HostQuery) → HostM ω q.Reply
  | .isSource file => host.isSource file
  | .unit file => host.writtenUnit file
  | .metadata file => (host.metadataRecords file).run
  | .summary file => host.loadSummary file
  | .resource file => (host.loadResource file).run
  | .moduleName imported containing => (host.moduleName imported containing).run
  | .moduleFile name containing => (host.moduleFile name containing).run
  | .resourceFile name containing => host.resourceFile name containing
  | .summaryName file source => (host.moduleName file source).run
  | .summaryFile name library => (host.summaryFile name library).run
  | .outputName file => pure (host.outputName file)

/-- The work of an analyzer, which asks the host. -/
abbrev HostDialogue (ω : Type) := Dialogue ω HostQuery HostQuery.Reply

def HostDialogue.ask {ω : Type} (q : HostQuery) : HostDialogue ω q.Reply :=
  .question q

/-- The work of an analyzer with its questions answered. -/
def Host.consult {ω α : Type} (host : Host ω) (dialogue : HostDialogue ω α) : HostM ω α :=
  dialogue.run host.answer

end CompanionBuild
