import CompanionBuild.Transform
import CompanionBuild.Tree.Printer

/-! # Transforms to try pipelines with -/

namespace CompanionBuild.Outline

inductive Probe where
  /-- Warns that a unit was visited. -/
  | visit
  /-- Reports the printed form of a unit. -/
  | print
  /-- Refuses every unit. -/
  | fail
  | setHeader (text : String)
  | nothing
deriving DecidableEq, Repr

def Probe.transform {σ : Type} (probe : Probe) : Transform σ where
  name := "custom"
  apply _ u :=
    let report (d : Diagnostic) : TransformM σ SourceUnit :=
      Transform.recording fun findings => (u, findings.add [d] [])
    match probe with
    | .visit => report { message := "visited " ++ u.name, category := .warning, code := 9000 }
    | .print => report (.remark u.print.text "print")
    | .fail => throw (.argument (.other ("cannot transform " ++ u.name)))
    | .setHeader text => pure { u with header := some text }
    | .nothing => pure u

end CompanionBuild.Outline
