import CompanionBuild.Names
import CompanionBuild.Tree.Unit

/-! # What is to be lowered in a unit

Metadata points at code by name only. Arrow functions in decorators and in module-level code, and values of certain
fields that are no literals, are to be bound to names of their own. A request records the name; it is filed under the
place of its node, so nodes that were made up are never lowered.
-/

namespace CompanionBuild.Lowering

/-- Fields whose values are lowered unless they are literals. -/
def defaultFields : Names :=
  Names.ofList ["useValue", "useFactory", "data", "id", "loadChildren"]

/-- The first character of every name given by the lowering. -/
def mark : Char := 'ɵ'

/-- The name of a binding by its number. -/
def symbol (index : Nat) : String :=
  String.ofList (mark :: (Nat.repr index).toList)

/-- A name of the form that the lowering gives. -/
def isSymbol (name : String) : Bool :=
  match name.toList with
  | c :: digits => c = mark && !digits.isEmpty && digits.all Char.isDigit
  | [] => false

structure Request where
  name : String
  /-- The kind of the node, checked together with its place. -/
  kind : ExprKind
  /-- The variable whose whole initializer the node is; the binding then stands for the variable. -/
  initializerOf : Option String
deriving DecidableEq

/-- Start and end of a node. -/
abbrev Place := Nat × Nat

/-- The requests of a unit in the order of their places. -/
abbrev Requests := List (Place × Request)

namespace Requests

def get? (requests : Requests) (place : Place) : Option Request :=
  (requests.find? (·.1 = place)).map (·.2)

def isBefore (a b : Place) : Bool :=
  a.1 < b.1 || a.1 = b.1 && a.2 < b.2

/-- Files a request; an earlier one at the same place is replaced. -/
def put (requests : Requests) (place : Place) (request : Request) : Requests :=
  match requests with
  | [] => [(place, request)]
  | (other, old) :: rest =>
    if isBefore place other then (place, request) :: (other, old) :: rest
    else if place = other then (place, request) :: rest
    else (other, old) :: put rest place request

/-- The request for a node: one at its place and for its kind. -/
def find? (requests : Requests) (e : Expr) : Option Request :=
  if e.span.isSynthetic then none
  else (requests.get? (e.span.start, e.span.stop)).filter (·.kind = e.kind)

end Requests

/-- Literals, in parentheses or not. -/
def isPrimitive : Expr → Bool
  | .literal .. => true
  | .paren _ inner => isPrimitive inner
  | _ => false

/-- The node cannot be said in metadata: it is no literal, no exported name and no member of one. -/
def needsName (exported : Names) (e : Expr) : Bool :=
  !e.span.isSynthetic && !isPrimitive e &&
    match e with
    | .ident _ name => !exported.contains name && !isSymbol name
    | .member _ (.ident _ name) _ => !exported.contains name
    | _ => true

def isArrow : Expr → Bool
  | .arrow .. => true
  | _ => false

/-- A node to be lowered, with the variable whose whole initializer it is. -/
structure Candidate where
  node : Expr
  initializerOf : Option String

/-- The node itself when it is to be lowered, else what is to be lowered in it. -/
def here (exported : Names) (wanted : Bool) (owner? : Option String) (e : Expr) (inside : List Candidate) :
    List Candidate :=
  if wanted && needsName exported e then [⟨e, owner?⟩] else inside

mutual

/-- The nodes to be lowered in an expression; `inField` says that it is the value of a lowered field. -/
def candidates (fields exported : Names) (inField : Bool) (owner? : Option String) : Expr → List Candidate
  | e@(.literal ..) | e@(.ident ..) | e@(.external ..) => here exported inField owner? e []
  | e@(.arrow ..) => here exported true owner? e []
  | e@(.call _ callee args) | e@(.new _ callee args) =>
    here exported inField owner? e
      (candidates fields exported false none callee ++ candidatesOfList fields exported args)
  | e@(.member _ object _) => here exported inField owner? e (candidates fields exported false none object)
  | e@(.array _ elements) => here exported inField owner? e (candidatesOfList fields exported elements)
  | e@(.object _ properties) => here exported inField owner? e (candidatesOfProperties fields exported properties)
  | e@(.paren _ inner) | e@(.spread _ inner) =>
    here exported inField owner? e (candidates fields exported false none inner)

def candidatesOfList (fields exported : Names) : List Expr → List Candidate
  | [] => []
  | e :: rest => candidates fields exported false none e ++ candidatesOfList fields exported rest

def candidatesOfProperties (fields exported : Names) : List Property → List Candidate
  | [] => []
  | .keyValue key value :: rest =>
    candidates fields exported (key.text?.any fields.contains) none value ++
      candidatesOfProperties fields exported rest
  | .spread value :: rest =>
    candidates fields exported false none value ++ candidatesOfProperties fields exported rest
  | .shorthand _ :: rest => candidatesOfProperties fields exported rest

end

/-- The decorators of a class, its members and their parameters, in the order in which they are written. -/
def decoratorsOfMember : Member → List Expr
  | .constructor c => c.params.flatMap (·.decorators)
  | .method m => m.decorators ++ m.params.flatMap (·.decorators)
  | .field f => f.decorators
  | .accessor a => a.decorators ++ a.params.flatMap (·.decorators)

def decoratorsOfClass (c : ClassDecl) : List Expr :=
  c.decorators ++ c.members.flatMap fun member => decoratorsOfMember member.value

/-- Names that other modules can refer to. -/
def exportedNames (u : SourceUnit) : Names :=
  Names.ofList (u.items.flatMap fun item =>
    match item.value with
    | .exportDecl d => [d.name]
    | .exportNamed specifiers none => specifiers.map (·.name)
    | _ => [])

def isCollection : Expr → Bool
  | .object .. | .array .. | .call .. => true
  | _ => false

/-- The initializer of an exported variable counts only when it is an object, an array or a call. -/
def candidatesOfVariable (fields exported : Names) (isExported : Bool) (decl : VarDecl) : List Candidate :=
  match decl.init with
  | none => []
  | some init =>
    if isExported then if isCollection init then candidates fields exported false none init else []
    else candidates fields exported false (some decl.name) init

def candidatesOfDecl (fields exported : Names) (isExported : Bool) : Decl → List Candidate
  | .classDecl c => (decoratorsOfClass c).flatMap (candidates fields exported false none)
  | .variable d => candidatesOfVariable fields exported isExported d
  | _ => []

def candidatesOfItem (fields exported : Names) : Item → List Candidate
  | .decl d => candidatesOfDecl fields exported false d
  | .exportDecl d => candidatesOfDecl fields exported true d
  | .stmt (.variable d) => candidatesOfVariable fields exported false d
  | .stmt (.expr e) => candidates fields exported false none e
  | _ => []

/-- Files a candidate under the next free name. -/
def Requests.add (requests : Requests) (candidate : Candidate) : Requests :=
  requests.put (candidate.node.span.start, candidate.node.span.stop)
    ⟨symbol requests.length, candidate.node.kind, candidate.initializerOf⟩

/-- The requests of a unit; a declaration file has none. -/
def requestsOf (fields : Names) (u : SourceUnit) : Requests :=
  if u.isDeclaration then []
  else
    (u.items.flatMap fun item => candidatesOfItem fields (exportedNames u) item.value).foldl Requests.add []

end CompanionBuild.Lowering
