import CompanionBuild.Transform

/-! # Decorators as static data

A class loses its framework decorators and gains static fields that say the same: `decorators` for those of the class,
`ctorParameters` for its constructor, `propDecorators` for its members. Other decorators stay where they are. A member
whose name is no identifier keeps its decorators and is reported.
-/

namespace CompanionBuild

structure DecoratorLowering where
  /-- The program is the framework's core, where every decorator counts as the framework's. -/
  isCore : Bool := false
  /-- The constructor's field is protected from being collapsed by a later optimizer. -/
  closureComments : Bool := false
  /-- The decorators of classes stay where they are. -/
  keepClassDecorators : Bool := false
deriving DecidableEq, Repr

/-- A diagnostic at the place of a node in a unit. -/
def SourceUnit.errorAt (u : SourceUnit) (span : Span) (message : String) : Diagnostic :=
  ({ message, code := 0 } : Diagnostic).locatedAt ⟨u.name, u.text⟩ span.start span.length

namespace DecoratorLowering

def isFramework (settings : DecoratorLowering) (u : SourceUnit) (decorator : Expr) : Bool :=
  settings.isCore || (u.importOfDecorator? decorator).any (·.source = coreModule)

/-! ## Records -/

/-- The properties of the record of a decorator: what it is, and its arguments if there are any. -/
def recordProperties : Expr → List Property
  | .ident span name => [.named "type" (.ident span name)]
  | .call _ callee args =>
    .named "type" callee :: if args.isEmpty then [] else [.named "args" (.array .synthetic args)]
  | _ => []

def record (decorator : Expr) : Expr :=
  .object .synthetic (recordProperties decorator)

/-- The complaint about a decorator that is neither a name nor a call. -/
def complaint? (u : SourceUnit) (decorator : Expr) : Option Diagnostic :=
  match decorator with
  | .ident .. | .call .. => none
  | other =>
    some (u.errorAt other.span (other.kind.text ++ " not implemented in gathering decorator metadata."))

/-! ## Types -/

/-- A run-time value with the imported name it keeps alive. -/
structure TypeValue where
  expr : Expr
  retained : Option String

def TypeValue.global (name : String) : TypeValue :=
  ⟨.name name, none⟩

/-- The chain of members that spells a dotted name, when each of its beginnings has a value at run time. -/
def entityValue? (resolve : EntityName → Option SymbolInfo) : EntityName → Option TypeValue
  | .ident name =>
    (resolve (.ident name)).bind fun symbol =>
      if symbol.isRuntimeValue then
        match symbol.declarations.head? with
        | some (.imported bound _) => some ⟨.name bound, some bound⟩
        | _ => some ⟨.name name, none⟩
      else none
  | .qualified left right =>
    (resolve (.qualified left right)).bind fun symbol =>
      if symbol.isRuntimeValue then
        (entityValue? resolve left).map fun container =>
          ⟨.member .synthetic container.expr right, container.retained⟩
      else none

def isNullish : TypeExpr → Bool
  | .literal .null | .keyword .undefined => true
  | _ => false

mutual

/-- The value that stands for a type at run time. -/
def typeValue? (resolve : EntityName → Option SymbolInfo) : TypeExpr → Option TypeValue
  | .function .. | .constructor .. => some (.global "Function")
  | .array _ | .tuple _ => some (.global "Array")
  | .predicate .. | .keyword .boolean | .literal (.boolean _) => some (.global "Boolean")
  | .keyword .string | .literal (.string _) => some (.global "String")
  | .keyword .object => some (.global "Object")
  | .keyword .number | .literal (.number _) => some (.global "Number")
  | .named name | .applied name _ => entityValue? resolve name
  | .union members => unionValue? resolve members
  | .paren inner => typeValue? resolve inner
  | _ => none

/-- The value of the only member that is neither `null` nor `undefined`. -/
def unionValue? (resolve : EntityName → Option SymbolInfo) : List TypeExpr → Option TypeValue
  | [] => none
  | member :: rest =>
    if isNullish member then unionValue? resolve rest
    else if rest.all isNullish then typeValue? resolve member
    else none

end

/-! ## Members -/

variable (settings : DecoratorLowering) (u : SourceUnit)

/-- The framework's decorators of a list. -/
def lowered (decorators : List Expr) : List Expr :=
  decorators.filter (settings.isFramework u)

/-- The decorators of a list that stay. -/
def kept (decorators : List Expr) : List Expr :=
  decorators.filter fun decorator => !settings.isFramework u decorator

/-- The identifier of a member that has framework decorators. -/
def memberName? (member : Member) : Option String :=
  member.name?.bind PropertyName.ident?

def lowerMember (member : Member) : Member :=
  match member with
  | .constructor c =>
    if c.body.isNone then member
    else .constructor { c with
      params := c.params.map fun param => { param with decorators := settings.kept u param.decorators } }
  | _ =>
    if (settings.lowered u member.decorators).isEmpty || (memberName? member).isNone then member
    else member.withDecorators (settings.kept u member.decorators)

/-- The complaint about a member with framework decorators and no identifier for its name. -/
def memberComplaint? (member : Located Member) : Option Diagnostic :=
  if (settings.lowered u member.value.decorators).isEmpty || (memberName? member.value).isSome then none
  else some (u.errorAt member.span "Cannot process decorators for class element with non-analyzable name.")

/-- The framework decorators of a named member. -/
def memberDecorators? (member : Member) : Option (String × List Expr) :=
  let decorators := settings.lowered u member.decorators
  if decorators.isEmpty then none else (memberName? member).map fun name => (name, decorators)

/-- The entries with a new one; a name that has an entry keeps its place and takes the new decorators. -/
def addEntry (entries : List (String × List Expr)) (entry : String × List Expr) : List (String × List Expr) :=
  if entries.any (·.1 = entry.1) then entries.map fun old => if old.1 = entry.1 then entry else old
  else entries ++ [entry]

/-- The framework decorators of the members, by name; of two members with one name the later counts. -/
def memberEntries (members : List (Located Member)) : List (String × List Expr) :=
  (members.filterMap fun member => settings.memberDecorators? u member.value).foldl addEntry []

/-- A constructor parameter as the lowering sees it. -/
structure ParamInfo where
  decorators : List Expr
  type : Option TypeExpr

/-- The parameters of the last constructor that has a body. -/
def constructorParams? (members : List (Located Member)) : Option (List ParamInfo) :=
  members.reverse.findSome? fun member =>
    match member.value with
    | .constructor c =>
      if c.body.isNone then none
      else some (c.params.map fun param => ⟨settings.lowered u param.decorators, param.type⟩)
    | _ => none

/-! ## Static fields -/

def staticField (name : String) (type : TypeExpr) (init : Expr) (comment : Option String) : Located Member :=
  .synthetic (.field { name := .ident name, type := some type, init := some init, isStatic := true, comment })

/-- The type of a list of decorator records. -/
def recordsType : TypeExpr :=
  .array (.object [
    .property (.ident "type") (.reference "Function") false,
    .property (.ident "args") (.array (.keyword .any)) true])

def constructorType : TypeExpr :=
  .function [] (.array (.union [
    .object [
      .property (.ident "type") (.keyword .any) false,
      .property (.ident "decorators") recordsType true],
    .literal .null]))

def membersType : TypeExpr :=
  .object [.index "key" (.keyword .string) recordsType]

def records (decorators : List Expr) : Expr :=
  .array .synthetic (decorators.map record)

/-- The value of a parameter's type, none when it has no type or the type has no value. -/
def paramValue? (resolve : EntityName → Option SymbolInfo) (param : ParamInfo) : Option TypeValue :=
  param.type.bind (typeValue? resolve)

/-- The entry of a parameter: `null` when nothing is known of it. -/
def paramEntry (resolve : EntityName → Option SymbolInfo) (param : ParamInfo) : Expr :=
  if param.type.isNone && param.decorators.isEmpty then .literal .synthetic .null
  else
    let type := match paramValue? resolve param with
      | some value => value.expr
      | none => .name "undefined"
    .object .synthetic (.named "type" type ::
      if param.decorators.isEmpty then [] else [.named "decorators" (records param.decorators)])

def constructorField (resolve : EntityName → Option SymbolInfo) (params : List ParamInfo) : Located Member :=
  staticField "ctorParameters" constructorType
    (.arrow .synthetic [] (.array .synthetic (params.map (paramEntry resolve))))
    (if settings.closureComments then some "* @nocollapse " else none)

def membersField (entries : List (String × List Expr)) : Located Member :=
  staticField "propDecorators" membersType
    (.object .synthetic (entries.map fun (name, decorators) => .named name (records decorators))) none

/-! ## Classes -/

/-- The class decorators that become records. -/
def loweredOfClass (c : ClassDecl) : List Expr :=
  if settings.keepClassDecorators then [] else settings.lowered u c.decorators

/-- The constructor's parameters, when they are to be recorded. -/
def recordedParams? (c : ClassDecl) : Option (List ParamInfo) :=
  (settings.constructorParams? u c.members).filter fun params =>
    !(settings.lowered u c.decorators).isEmpty || params.any fun param => !param.decorators.isEmpty

/-- The static fields of a class, in their order. -/
def staticFields (resolve : EntityName → Option SymbolInfo) (c : ClassDecl) : List (Located Member) :=
  let ofClass := settings.loweredOfClass u c
  let entries := settings.memberEntries u c.members
  (if ofClass.isEmpty then [] else [staticField "decorators" recordsType (records ofClass) none]) ++
    (match settings.recordedParams? u c with
      | some params => [settings.constructorField resolve params]
      | none => []) ++
    if entries.isEmpty then [] else [membersField entries]

def lowerClass (resolve : EntityName → Option SymbolInfo) (c : ClassDecl) : ClassDecl :=
  { c with
    members := (c.members.map fun member => { member with value := settings.lowerMember u member.value }) ++
      settings.staticFields u resolve c
    decorators := if settings.keepClassDecorators then c.decorators else settings.kept u c.decorators }

/-- The complaints about a class: its members, its own decorators, its constructor's, its members'. -/
def complaints (c : ClassDecl) : List Diagnostic :=
  let params := (settings.recordedParams? u c).getD []
  let entries := settings.memberEntries u c.members
  c.members.filterMap (settings.memberComplaint? u) ++
    (settings.loweredOfClass u c ++ params.flatMap (·.decorators) ++ entries.flatMap (·.2)).filterMap (complaint? u)

/-- The imported names that the recorded parameter types keep alive. -/
def retained (resolve : EntityName → Option SymbolInfo) (c : ClassDecl) : List String :=
  ((settings.recordedParams? u c).getD []).filterMap fun param =>
    (paramValue? resolve param).bind (·.retained)

/-! ## Units -/

/-- The classes of a unit, lowered one after the other; each sees the unit as the ones before it left it. -/
def lowerFrom (settings : DecoratorLowering) (symbols : SymbolResolver) (u : SourceUnit) (findings : Findings)
    (done : Items) : Items → SourceUnit × Findings
  | [] => ({ u with items := done }, findings)
  | item :: rest =>
    match item.value.class? with
    | none => lowerFrom settings symbols u findings (done ++ [item]) rest
    | some c =>
      let current := { u with items := done ++ item :: rest }
      let resolve := symbols current
      let item := { item with value := item.value.withClass (settings.lowerClass current resolve c) }
      lowerFrom settings symbols u
        (findings.add (settings.complaints current c) (settings.retained current resolve c)) (done ++ [item]) rest

def lower (settings : DecoratorLowering) (symbols : SymbolResolver) (u : SourceUnit) (findings : Findings) :
    SourceUnit × Findings :=
  settings.lowerFrom symbols u findings [] u.items

def transform {σ : Type} (settings : DecoratorLowering) : Transform σ where
  name := "lower-decorators"
  apply symbols u := Transform.recording (settings.lower symbols u)

end DecoratorLowering

end CompanionBuild
