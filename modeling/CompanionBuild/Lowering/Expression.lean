import CompanionBuild.Lowering.Request
import CompanionBuild.Transform

/-! # Binding expressions to names

Every requested node is taken out and bound to its name right before the item it stood in. A node that is the whole
initializer of a variable stays, and its name is bound to the variable right after it. All names are exported at the
end of the unit.
-/

namespace CompanionBuild.Lowering

/-- A request that was met, with the node it was for. -/
structure Hit where
  request : Request
  node : Expr

variable (requests : Requests)

/-- The request for the node itself, else those inside it. -/
def hitOr (e : Expr) (inside : List Hit) : List Hit :=
  match requests.find? e with
  | some request => [⟨request, e⟩]
  | none => inside

/-- What stands in the place of a node, given the node with its inside replaced. -/
def nameOr (e inside : Expr) : Expr :=
  match requests.find? e with
  | some request => if request.initializerOf.isSome then e else .name request.name
  | none => inside

mutual

/-- The requests met in an expression, a met node not being searched further. -/
def hits : Expr → List Hit
  | e@(.literal ..) | e@(.ident ..) | e@(.arrow ..) | e@(.external ..) => hitOr requests e []
  | e@(.call _ callee args) | e@(.new _ callee args) => hitOr requests e (hits callee ++ hitsOfList args)
  | e@(.member _ object _) => hitOr requests e (hits object)
  | e@(.array _ elements) => hitOr requests e (hitsOfList elements)
  | e@(.object _ properties) => hitOr requests e (hitsOfProperties properties)
  | e@(.paren _ inner) | e@(.spread _ inner) => hitOr requests e (hits inner)

def hitsOfList : List Expr → List Hit
  | [] => []
  | e :: rest => hits e ++ hitsOfList rest

def hitsOfProperties : List Property → List Hit
  | [] => []
  | .keyValue _ value :: rest | .spread value :: rest => hits value ++ hitsOfProperties rest
  | .shorthand _ :: rest => hitsOfProperties rest

end

mutual

/-- The expression with every requested node replaced by its name, unless it is a whole initializer. -/
def replaced : Expr → Expr
  | e@(.literal ..) | e@(.ident ..) | e@(.arrow ..) | e@(.external ..) => nameOr requests e e
  | e@(.call span callee args) => nameOr requests e (.call span (replaced callee) (replacedList args))
  | e@(.new span callee args) => nameOr requests e (.new span (replaced callee) (replacedList args))
  | e@(.member span object property) => nameOr requests e (.member span (replaced object) property)
  | e@(.array span elements) => nameOr requests e (.array span (replacedList elements))
  | e@(.object span properties) => nameOr requests e (.object span (replacedProperties properties))
  | e@(.paren span inner) => nameOr requests e (.paren span (replaced inner))
  | e@(.spread span inner) => nameOr requests e (.spread span (replaced inner))

def replacedList : List Expr → List Expr
  | [] => []
  | e :: rest => replaced e :: replacedList rest

def replacedProperties : List Property → List Property
  | [] => []
  | .keyValue key value :: rest => .keyValue key (replaced value) :: replacedProperties rest
  | .spread value :: rest => .spread (replaced value) :: replacedProperties rest
  | .shorthand name :: rest => .shorthand name :: replacedProperties rest

end

/-! ## Items -/

def replacedParams (params : List Param) : List Param :=
  params.map fun param => { param with decorators := param.decorators.map (replaced requests) }

def replacedMember : Member → Member
  | .constructor c => .constructor { c with params := replacedParams requests c.params }
  | .method m => .method { m with
      decorators := m.decorators.map (replaced requests), params := replacedParams requests m.params }
  | .field f => .field { f with decorators := f.decorators.map (replaced requests) }
  | .accessor a => .accessor { a with
      decorators := a.decorators.map (replaced requests), params := replacedParams requests a.params }

def replacedClass (c : ClassDecl) : ClassDecl :=
  { c with
    decorators := c.decorators.map (replaced requests)
    members := c.members.map fun member => { member with value := replacedMember requests member.value } }

def replacedVariable (d : VarDecl) : VarDecl :=
  { d with init := d.init.map (replaced requests) }

def replacedDecl : Decl → Decl
  | .classDecl c => .classDecl (replacedClass requests c)
  | .variable d => .variable (replacedVariable requests d)
  | d => d

def replacedItem : Item → Item
  | .decl d => .decl (replacedDecl requests d)
  | .exportDecl d => .exportDecl (replacedDecl requests d)
  | .stmt (.variable d) => .stmt (.variable (replacedVariable requests d))
  | .stmt (.expr e) => .stmt (.expr (replaced requests e))
  | item => item

def hitsOfVariable (d : VarDecl) : List Hit :=
  match d.init with
  | some init => hits requests init
  | none => []

def hitsOfDecl : Decl → List Hit
  | .classDecl c => (decoratorsOfClass c).flatMap (hits requests)
  | .variable d => hitsOfVariable requests d
  | _ => []

def hitsOfItem : Item → List Hit
  | .decl d | .exportDecl d => hitsOfDecl requests d
  | .stmt (.variable d) => hitsOfVariable requests d
  | .stmt (.expr e) => hits requests e
  | _ => []

/-- A made-up constant. -/
def binding (name : String) (value : Expr) : Located Item :=
  .synthetic (.decl (.variable { name, init := some value }))

/-- The bindings that go before an item. -/
def hoistedBindings (found : List Hit) : Items :=
  found.filterMap fun hit =>
    match hit.request.initializerOf with
    | none => some (binding hit.request.name hit.node)
    | some _ => none

/-- The bindings that go after an item. -/
def aliasBindings (found : List Hit) : Items :=
  found.filterMap fun hit => hit.request.initializerOf.map fun name => binding hit.request.name (.name name)

/-- An item between the bindings made for it. -/
def lowerItem (item : Located Item) : Items :=
  let found := hitsOfItem requests item.value
  hoistedBindings found ++ { item with value := replacedItem requests item.value } :: aliasBindings found

/-- The names bound in a list of items, in the order in which they are met. -/
def boundNames (items : Items) : List String :=
  items.flatMap fun item => (hitsOfItem requests item.value).map (·.request.name)

def exportOf (names : List String) : Items :=
  if names.isEmpty then []
  else [.synthetic (.exportNamed (names.map fun name => { name }) none)]

/-- The unit with the requested nodes bound to their names. -/
def lowerUnit (u : SourceUnit) : SourceUnit :=
  if requests.isEmpty then u
  else { u with items := u.items.flatMap (lowerItem requests) ++ exportOf (boundNames requests u.items) }

/-! ## Requests of a build -/

/-- The requests of the units seen so far, by file name: the first unit of a name decides. -/
abbrev RequestCache := Table Requests

/-- The requests for a unit, found out the first time its name is seen. -/
def requestsFor (fields : Names) (u : SourceUnit) : StateM RequestCache Requests := do
  match (← get).get? u.name with
  | some requests => pure requests
  | none =>
    let requests := requestsOf fields u
    modify fun cache => cache.put u.name requests
    pure requests

/-- The lowering as a transform, `ask` finding the requests of a unit. -/
def expressions {σ : Type} (ask : SourceUnit → StateM σ Requests) : Transform σ where
  name := "lower-expressions"
  apply _ u := do
    let requests ← ExceptT.lift (StateT.lift (ask u))
    pure (lowerUnit requests u)

end CompanionBuild.Lowering
