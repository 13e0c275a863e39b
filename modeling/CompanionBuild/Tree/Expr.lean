import CompanionBuild.Number.Decimal
import CompanionBuild.Tree.Span

/-! # Expressions

The expressions that decorators, metadata and generated units are made of. An external reference names an export of
another module; it is printed through a namespace import at the top of its unit.
-/

namespace CompanionBuild

inductive Literal where
  | number (value : Binary64)
  | string (text : String)
  /-- A template literal without substitutions. -/
  | template (text : String)
  | boolean (value : Bool)
  | null
deriving DecidableEq, Inhabited

mutual

inductive Expr where
  | literal (span : Span) (value : Literal)
  | ident (span : Span) (name : String)
  | call (span : Span) (callee : Expr) (args : List Expr)
  | new (span : Span) (callee : Expr) (args : List Expr)
  | member (span : Span) (object : Expr) (property : String)
  | array (span : Span) (elements : List Expr)
  | object (span : Span) (properties : List Property)
  /-- An arrow function with an expression for its body. -/
  | arrow (span : Span) (params : List String) (body : Expr)
  | paren (span : Span) (inner : Expr)
  | spread (span : Span) (inner : Expr)
  | external (span : Span) (source name : String)

inductive Property where
  | keyValue (key : PropertyName) (value : Expr)
  | shorthand (name : String)
  | spread (value : Expr)

inductive PropertyName where
  | ident (name : String)
  | string (text : String)
  | number (value : Binary64)
  | computed (key : Expr)

end

instance : Inhabited Expr := ⟨.ident .synthetic ""⟩

instance : Inhabited Property := ⟨.shorthand ""⟩

instance : Inhabited PropertyName := ⟨.ident ""⟩

inductive ExprKind where
  | number
  | string
  | template
  | boolean
  | null
  | ident
  | call
  | new
  | member
  | array
  | object
  | arrow
  | paren
  | spread
  | external
deriving DecidableEq, Repr

/-- The name of a kind in messages. -/
def ExprKind.text : ExprKind → String
  | .number => "NumericLiteral"
  | .string => "StringLiteral"
  | .template => "NoSubstitutionTemplateLiteral"
  | .boolean => "BooleanLiteral"
  | .null => "NullKeyword"
  | .ident => "Identifier"
  | .call => "CallExpression"
  | .new => "NewExpression"
  | .member => "PropertyAccessExpression"
  | .array => "ArrayLiteralExpression"
  | .object => "ObjectLiteralExpression"
  | .arrow => "ArrowFunction"
  | .paren => "ParenthesizedExpression"
  | .spread => "SpreadElement"
  | .external => "ExternalReference"

def Literal.kind : Literal → ExprKind
  | .number _ => .number
  | .string _ => .string
  | .template _ => .template
  | .boolean _ => .boolean
  | .null => .null

namespace Expr

def span : Expr → Span
  | .literal span _ | .ident span _ | .call span _ _ | .new span _ _ | .member span _ _ | .array span _
  | .object span _ | .arrow span _ _ | .paren span _ | .spread span _ | .external span _ _ => span

def kind : Expr → ExprKind
  | .literal _ value => value.kind
  | .ident .. => .ident
  | .call .. => .call
  | .new .. => .new
  | .member .. => .member
  | .array .. => .array
  | .object .. => .object
  | .arrow .. => .arrow
  | .paren .. => .paren
  | .spread .. => .spread
  | .external .. => .external

/-- The text of a string literal or of a template without substitutions. -/
def stringLiteral? : Expr → Option String
  | .literal _ (.string text) | .literal _ (.template text) => some text
  | _ => none

def isObject : Expr → Bool
  | .object .. => true
  | _ => false

/-- A made-up identifier. -/
def name (text : String) : Expr :=
  .ident .synthetic text

/-- A made-up string literal. -/
def string (text : String) : Expr :=
  .literal .synthetic (.string text)

end Expr

namespace PropertyName

def ident? : PropertyName → Option String
  | .ident name => some name
  | _ => none

/-- The text of a name that is not computed. -/
def text? : PropertyName → Option String
  | .ident name => some name
  | .string text => some text
  | .number value => some value.numeral
  | .computed _ => none

end PropertyName

/-- A property with an identifier for its key. -/
def Property.named (key : String) (value : Expr) : Property :=
  .keyValue (.ident key) value

end CompanionBuild
