import CompanionBuild.Text.Affix
import CompanionBuild.Tree.Expr

/-! # Type expressions -/

namespace CompanionBuild

inductive KeywordType where
  | any
  | unknown
  | number
  | string
  | boolean
  | object
  | symbol
  | bigint
  | void
  | undefined
  | never
deriving DecidableEq, Repr

def KeywordType.text : KeywordType → String
  | .any => "any"
  | .unknown => "unknown"
  | .number => "number"
  | .string => "string"
  | .boolean => "boolean"
  | .object => "object"
  | .symbol => "symbol"
  | .bigint => "bigint"
  | .void => "void"
  | .undefined => "undefined"
  | .never => "never"

/-- The keyword of a text; a text that is none is read as the widest type. -/
def KeywordType.ofText (text : String) : KeywordType :=
  ([.unknown, .number, .string, .boolean, .object, .symbol, .bigint, .void, .undefined, .never].find?
    fun keyword : KeywordType => keyword.text = text).getD .any

/-- A dotted name: an identifier, or a member of a dotted name. -/
inductive EntityName where
  | ident (name : String)
  | qualified (left : EntityName) (right : String)
deriving DecidableEq, Inhabited

namespace EntityName

/-- The leftmost identifier. -/
def root : EntityName → String
  | .ident name => name
  | .qualified left _ => left.root

def text : EntityName → String
  | .ident name => name
  | .qualified left right => left.text ++ "." ++ right

/-- The dotted name that a text spells. -/
def ofText (text : String) : EntityName :=
  match (Text.split '.' text.toList).map String.ofList with
  | [] => .ident text
  | first :: rest => rest.foldl .qualified (.ident first)

end EntityName

inductive LiteralType where
  | string (text : String)
  | number (value : Binary64)
  | boolean (value : Bool)
  | null
deriving DecidableEq

mutual

inductive TypeExpr where
  | keyword (keyword : KeywordType)
  | array (element : TypeExpr)
  | tuple (elements : List TypeExpr)
  | union (members : List TypeExpr)
  | function (params : List TypeParam) (result : TypeExpr)
  | constructor (params : List TypeParam) (result : TypeExpr)
  /-- A type named without arguments. -/
  | named (name : EntityName)
  /-- A type named with a list of arguments, which may be empty. -/
  | applied (name : EntityName) (args : List TypeExpr)
  | object (members : List TypeMember)
  | literal (value : LiteralType)
  | predicate (param : String) (target : TypeExpr)
  | paren (inner : TypeExpr)

inductive TypeParam where
  | mk (name : String) (type : Option TypeExpr) (optional : Bool)

inductive TypeMember where
  | property (name : PropertyName) (type : TypeExpr) (optional : Bool)
  | index (keyName : String) (keyType valueType : TypeExpr)

end

instance : Inhabited TypeExpr := ⟨.keyword .any⟩

instance : Inhabited TypeParam := ⟨.mk "" none false⟩

instance : Inhabited TypeMember := ⟨.property default default false⟩

namespace TypeExpr

/-- A type that is put in parentheses when it is the element of an array type. -/
def bindsLoosely : TypeExpr → Bool
  | .union _ | .function .. | .constructor .. => true
  | _ => false

/-- A type named by one identifier. -/
def reference (name : String) : TypeExpr :=
  .named (.ident name)

end TypeExpr

end CompanionBuild
