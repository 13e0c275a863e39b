import CompanionBuild.Template
import CompanionBuild.Tree.Printer

/-! # Companions

A companion is generated beside a source: statements to be printed, or a finished text. Two companions are the same when
they have the same name and the same content, statements being compared by their printed text.
-/

namespace CompanionBuild

structure Companion where
  /-- The file it is generated for. -/
  base : String
  name : String
  statements : Option Items := none
  source : Option String := none
  /-- The files that the places of the statements refer to. -/
  origins : List NamedText := []

namespace Companion

/-- The modules that the statements import from. -/
def references (companion : Companion) : Names :=
  match companion.statements with
  | some items => Items.externals items
  | none => []

def hasStatements (companion : Companion) : Bool :=
  companion.statements.any fun items => !items.isEmpty

/-- Same name and same content. -/
def isEquivalent (companion other : Companion) : Bool :=
  companion.name = other.name &&
    match companion.source with
    | some source => other.source = some source
    | none =>
      match companion.statements, other.statements with
      | some items, some others => (Items.print items).text = (Items.print others).text
      | _, _ => false

end Companion

end CompanionBuild
