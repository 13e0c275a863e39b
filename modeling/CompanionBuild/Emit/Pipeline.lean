import CompanionBuild.Companion
import CompanionBuild.Lowering.Decorator
import CompanionBuild.Lowering.Expression
import CompanionBuild.Project.Options
import CompanionBuild.Resource.Inline

/-! # The transforms of an emit

Units go through the transforms in a fixed order: the references as written, resources, lowered expressions, the content
of companions, whatever the caller adds, and decorators last, so that a caller's transforms still see them.
-/

namespace CompanionBuild

/-- The block comment at the head of a companion meant for the closure compiler. -/
def closureOverview : String :=
  "*\n * @fileoverview This file was generated by the annex template compiler. Do not edit.\n *\n" ++
    " * @suppress \x7bsuspiciousCode,uselessCode,missingProperties,missingOverride,checkTypes,extraRequire\x7d\n" ++
    " * tslint:disable\n "

/-- The statements that a list of companions has for a unit; of two companions of one name the later counts. -/
def Companion.statementsFor? (companions : List Companion) (name : String) : Option Items :=
  companions.reverse.findSome? fun companion =>
    if companion.name = name then companion.statements else none

/-- The unit with the statements of its companion in place of its own. -/
def SourceUnit.filled (companions : List Companion) (closure : Bool) (u : SourceUnit) : SourceUnit :=
  match Companion.statementsFor? companions u.name with
  | some items => { u with items, header := if closure then some closureOverview else none }
  | none => u

/-- The unit with the references it was written with. -/
def SourceUnit.detached (u : SourceUnit) : SourceUnit :=
  { u with references := u.ownReferences, writtenReferences := none }

namespace Transform

variable {σ : Type}

/-- A transform that only maps units. -/
def ofMap (name : String) (f : SourceUnit → SourceUnit) : Transform σ where
  name
  apply _ u := pure (f u)

def fillingCompanions (companions : List Companion) (closure : Bool) : Transform σ :=
  ofMap "emit-generated-files" (SourceUnit.filled companions closure)

def detachingCompanions : Transform σ :=
  ofMap "original-references" SourceUnit.detached

end Transform

/-- The end of the name of a file that only the framework's core has. -/
def coreSymbolsFile : String := "core/src/core_symbols.ts"

/-- The program is the framework's core, because the options say so or because of its files. -/
def isCore (options : Options) (units : List SourceUnit) : Bool :=
  options.compilingCore || units.any fun u => Text.endsWith u.name coreSymbolsFile

/-- The transforms of an emit with the caller's `before` and `after`. -/
def Pipeline.ofOptions {σ : Type} (options : Options) (resources : ResourceHost σ)
    (requests : SourceUnit → StateM σ Lowering.Requests) (companions : List Companion) (core : Bool)
    (before after : List (Transform σ)) : Pipeline σ where
  before :=
    [.detachingCompanions] ++
    (if options.enableResourceInlining then [Resource.inlining resources] else []) ++
    (if options.disableExpressionLowering then [] else [Lowering.expressions requests]) ++
    [.fillingCompanions companions options.annotateForClosureCompiler] ++
    before ++
    (if options.lowersDecorators then
      [DecoratorLowering.transform ⟨core, options.annotateForClosureCompiler, false⟩]
    else [])
  after

end CompanionBuild
