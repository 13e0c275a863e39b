import CompanionBuild.Proofs.Tree.Reference

/-! # Trees without places

The unplaced form of a tree has the same nodes, all of them made up: two trees with one unplaced form differ in the
places of their nodes alone. Without its places a tree has the same strokes, except that the marks among them mark
nothing. A mark moves no pen, so some items and their unplaced form have the same text.
-/

namespace CompanionBuild

/-! ## Unplaced forms -/

mutual

/-- The expression with no place in it. -/
def Expr.unplaced : Expr → Expr
  | .literal _ value => .literal .synthetic value
  | .ident _ name => .ident .synthetic name
  | .call _ callee args => .call .synthetic callee.unplaced (Expr.unplacedList args)
  | .new _ callee args => .new .synthetic callee.unplaced (Expr.unplacedList args)
  | .member _ inner property => .member .synthetic inner.unplaced property
  | .array _ elements => .array .synthetic (Expr.unplacedList elements)
  | .object _ properties => .object .synthetic (Property.unplacedList properties)
  | .arrow _ params body => .arrow .synthetic params body.unplaced
  | .paren _ inner => .paren .synthetic inner.unplaced
  | .spread _ inner => .spread .synthetic inner.unplaced
  | .external _ source name => .external .synthetic source name

def Expr.unplacedList : List Expr → List Expr
  | [] => []
  | e :: rest => e.unplaced :: Expr.unplacedList rest

def Property.unplaced : Property → Property
  | .keyValue key value => .keyValue key.unplaced value.unplaced
  | .shorthand name => .shorthand name
  | .spread value => .spread value.unplaced

def Property.unplacedList : List Property → List Property
  | [] => []
  | property :: rest => property.unplaced :: Property.unplacedList rest

def PropertyName.unplaced : PropertyName → PropertyName
  | .ident name => .ident name
  | .string text => .string text
  | .number value => .number value
  | .computed key => .computed key.unplaced

end

mutual

/-- The type with no place in the computed names of its members. -/
def TypeExpr.unplaced : TypeExpr → TypeExpr
  | .keyword keyword => .keyword keyword
  | .array element => .array element.unplaced
  | .tuple elements => .tuple (TypeExpr.unplacedList elements)
  | .union members => .union (TypeExpr.unplacedList members)
  | .function params result => .function (TypeParam.unplacedList params) result.unplaced
  | .constructor params result => .constructor (TypeParam.unplacedList params) result.unplaced
  | .named name => .named name
  | .applied name args => .applied name (TypeExpr.unplacedList args)
  | .object members => .object (TypeMember.unplacedList members)
  | .literal value => .literal value
  | .predicate param target => .predicate param target.unplaced
  | .paren inner => .paren inner.unplaced

def TypeExpr.unplacedList : List TypeExpr → List TypeExpr
  | [] => []
  | type :: rest => type.unplaced :: TypeExpr.unplacedList rest

def TypeParam.unplaced : TypeParam → TypeParam
  | .mk name (some type) optional => .mk name (some type.unplaced) optional
  | .mk name none optional => .mk name none optional

def TypeParam.unplacedList : List TypeParam → List TypeParam
  | [] => []
  | param :: rest => param.unplaced :: TypeParam.unplacedList rest

def TypeMember.unplaced : TypeMember → TypeMember
  | .property name type optional => .property name.unplaced type.unplaced optional
  | .index keyName keyType valueType => .index keyName keyType.unplaced valueType.unplaced

def TypeMember.unplacedList : List TypeMember → List TypeMember
  | [] => []
  | member :: rest => member.unplaced :: TypeMember.unplacedList rest

end

def VarDecl.unplaced (decl : VarDecl) : VarDecl :=
  { decl with type := decl.type.map TypeExpr.unplaced, init := decl.init.map Expr.unplaced }

def Stmt.unplaced : Stmt → Stmt
  | .expr value => .expr value.unplaced
  | .result value => .result (value.map Expr.unplaced)
  | .variable decl => .variable decl.unplaced

def Block.unplaced (body : Block) : Block :=
  body.map fun stmt => .synthetic stmt.value.unplaced

def Param.unplaced (param : Param) : Param :=
  { param with
    span := .synthetic
    type := param.type.map TypeExpr.unplaced
    decorators := param.decorators.map Expr.unplaced }

def Member.unplaced : Member → Member
  | .constructor c => .constructor { params := c.params.map Param.unplaced, body := c.body.map Block.unplaced }
  | .method m => .method { m with
      name := m.name.unplaced
      params := m.params.map Param.unplaced
      result := m.result.map TypeExpr.unplaced
      body := m.body.map Block.unplaced
      decorators := m.decorators.map Expr.unplaced }
  | .field f => .field { f with
      name := f.name.unplaced
      type := f.type.map TypeExpr.unplaced
      init := f.init.map Expr.unplaced
      decorators := f.decorators.map Expr.unplaced }
  | .accessor a => .accessor { a with
      name := a.name.unplaced
      params := a.params.map Param.unplaced
      type := a.type.map TypeExpr.unplaced
      body := a.body.map Block.unplaced
      decorators := a.decorators.map Expr.unplaced }

def ClassDecl.unplaced (decl : ClassDecl) : ClassDecl :=
  { decl with
    base := decl.base.map Expr.unplaced
    members := decl.members.map fun member => .synthetic member.value.unplaced
    decorators := decl.decorators.map Expr.unplaced }

def EnumMember.unplaced (member : EnumMember) : EnumMember :=
  { member with init := member.init.map Expr.unplaced }

def Decl.unplaced : Decl → Decl
  | .function d => .function { d with
      params := d.params.map Param.unplaced
      result := d.result.map TypeExpr.unplaced
      body := d.body.map Block.unplaced }
  | .classDecl d => .classDecl d.unplaced
  | .interface d => .interface { d with members := TypeMember.unplacedList d.members }
  | .typeAlias d => .typeAlias { d with type := d.type.unplaced }
  | .enum d => .enum { d with members := d.members.map EnumMember.unplaced }
  | .variable d => .variable d.unplaced

def Item.unplaced : Item → Item
  | .imports d => .imports d
  | .exportNamed specifiers source => .exportNamed specifiers source
  | .exportAll source => .exportAll source
  | .exportDecl d => .exportDecl d.unplaced
  | .decl d => .decl d.unplaced
  | .stmt s => .stmt s.unplaced

/-- The items with no place in them. -/
def Items.unplaced (items : Items) : Items :=
  items.map fun item => .synthetic item.value.unplaced

/-! ## Strokes without places -/

namespace Stroke

/-- The stroke, a mark made one of nothing. -/
def unplaced : Stroke → Stroke
  | .mark _ => .mark .synthetic
  | stroke => stroke

@[simp] theorem unplaced_write (text : String) : (Stroke.write text).unplaced = .write text := rfl

@[simp] theorem unplaced_newline : Stroke.newline.unplaced = .newline := rfl

@[simp] theorem unplaced_deeper : Stroke.deeper.unplaced = .deeper := rfl

@[simp] theorem unplaced_shallower : Stroke.shallower.unplaced = .shallower := rfl

@[simp] theorem unplaced_mark (span : Span) : (Stroke.mark span).unplaced = .mark .synthetic := rfl

@[simp] theorem map_unplaced_writeIf (condition : Bool) (text : String) :
    (writeIf condition text).map unplaced = writeIf condition text := by
  cases condition <;> rfl

@[simp] theorem map_unplaced_separated (separator : String) (lists : List (List Stroke)) :
    (separated separator lists).map unplaced = separated separator (lists.map (List.map unplaced)) := by
  induction lists with
  | nil => rfl
  | cons strokes rest ih =>
    cases rest with
    | nil => rfl
    | cons next rest =>
      rw [separated, List.map_append, List.map_cons, ih]
      · rfl
      · simp

end Stroke

namespace Page

variable {page other : Page}

/-- Without its place a stroke does the same to the text and to the pen. -/
theorem Level.stroke_unplaced (level : page.Level other) (same : page.text = other.text) (stroke : Stroke) :
    (page.stroke stroke.unplaced).Level (other.stroke stroke) ∧
      (page.stroke stroke.unplaced).text = (other.stroke stroke).text := by
  obtain ⟨added, drawn, drawnToo, after⟩ := level.stroke stroke
  cases stroke with
  | mark span =>
    have kept : (other.stroke (.mark span)).text = other.text := by rw [Page.stroke]; split <;> rfl
    have unmoved : page.Level (other.stroke (.mark span)) := by rw [Page.stroke]; split <;> exact level
    exact ⟨unmoved, same.trans kept.symm⟩
  | _ => exact ⟨after, drawn.trans (same ▸ drawnToo.symm)⟩

/-- Strokes without places draw the same text. -/
theorem Level.text_draw_unplaced (level : page.Level other) (same : page.text = other.text) (strokes : List Stroke) :
    (page.draw (strokes.map Stroke.unplaced)).text = (other.draw strokes).text := by
  induction strokes generalizing page other with
  | nil => exact same
  | cons stroke rest ih =>
    obtain ⟨level, same⟩ := level.stroke_unplaced same stroke
    exact ih level same

end Page

/-! ## The strokes of unplaced forms -/

section

variable (handle : String → String)

theorem Expr.isObject_unplaced (e : Expr) : e.unplaced.isObject = e.isObject := by
  cases e <;> rfl

theorem TypeExpr.bindsLoosely_unplaced (type : TypeExpr) : type.unplaced.bindsLoosely = type.bindsLoosely := by
  cases type <;> rfl

mutual

theorem Expr.strokes_unplaced (e : Expr) : e.unplaced.strokes handle = (e.strokes handle).map Stroke.unplaced := by
  cases e with
  | literal span value => rfl
  | ident span name => rfl
  | call span callee args =>
    simp [Expr.unplaced, Expr.strokes, Expr.strokes_unplaced callee, Expr.strokesList_unplaced args]
  | new span callee args =>
    simp [Expr.unplaced, Expr.strokes, Expr.strokes_unplaced callee, Expr.strokesList_unplaced args]
  | member span inner property => simp [Expr.unplaced, Expr.strokes, Expr.strokes_unplaced inner]
  | array span elements => simp [Expr.unplaced, Expr.strokes, Expr.strokesList_unplaced elements]
  | object span properties =>
    have inner := Property.strokesList_unplaced properties
    cases properties with
    | nil => rfl
    | cons property rest =>
      rw [Property.unplacedList] at inner
      simp [Expr.unplaced, Property.unplacedList, Expr.strokes, inner]
  | arrow span params body =>
    have inner := Expr.strokes_unplaced body
    simp only [Expr.unplaced, Expr.strokes, Expr.isObject_unplaced, inner]
    split <;> simp
  | paren span inner => simp [Expr.unplaced, Expr.strokes, Expr.strokes_unplaced inner]
  | spread span inner => simp [Expr.unplaced, Expr.strokes, Expr.strokes_unplaced inner]
  | external span source name => rfl

theorem Expr.strokesList_unplaced (list : List Expr) :
    Expr.strokesList handle (Expr.unplacedList list) = (Expr.strokesList handle list).map Stroke.unplaced := by
  match list with
  | [] => rfl
  | [e] => exact Expr.strokes_unplaced e
  | e :: next :: rest =>
    have tail := Expr.strokesList_unplaced (next :: rest)
    simp only [Expr.unplacedList] at tail
    simp [Expr.unplacedList, Expr.strokesList, Expr.strokes_unplaced e, tail]

theorem Property.strokes_unplaced (property : Property) :
    property.unplaced.strokes handle = (property.strokes handle).map Stroke.unplaced := by
  cases property with
  | keyValue key value =>
    simp [Property.unplaced, Property.strokes, PropertyName.strokes_unplaced key, Expr.strokes_unplaced value]
  | shorthand name => rfl
  | spread value => simp [Property.unplaced, Property.strokes, Expr.strokes_unplaced value]

theorem Property.strokesList_unplaced (list : List Property) :
    Property.strokesList handle (Property.unplacedList list) =
      (Property.strokesList handle list).map Stroke.unplaced := by
  match list with
  | [] => rfl
  | [property] => exact Property.strokes_unplaced property
  | property :: next :: rest =>
    have tail := Property.strokesList_unplaced (next :: rest)
    simp only [Property.unplacedList] at tail
    simp [Property.unplacedList, Property.strokesList, Property.strokes_unplaced property, tail]

theorem PropertyName.strokes_unplaced (name : PropertyName) :
    name.unplaced.strokes handle = (name.strokes handle).map Stroke.unplaced := by
  cases name with
  | computed key => simp [PropertyName.unplaced, PropertyName.strokes, Expr.strokes_unplaced key]
  | _ => rfl

end

mutual

theorem TypeExpr.strokes_unplaced (type : TypeExpr) :
    type.unplaced.strokes handle = (type.strokes handle).map Stroke.unplaced := by
  cases type with
  | keyword keyword => rfl
  | array element =>
    have inner := TypeExpr.strokes_unplaced element
    simp only [TypeExpr.unplaced, TypeExpr.strokes, TypeExpr.bindsLoosely_unplaced, inner]
    split <;> simp
  | tuple elements => simp [TypeExpr.unplaced, TypeExpr.strokes, TypeExpr.strokesList_unplaced ", " elements]
  | union members => simp [TypeExpr.unplaced, TypeExpr.strokes, TypeExpr.strokesList_unplaced " | " members]
  | function params result =>
    simp [TypeExpr.unplaced, TypeExpr.strokes, TypeParam.strokesList_unplaced params, TypeExpr.strokes_unplaced result]
  | constructor params result =>
    simp [TypeExpr.unplaced, TypeExpr.strokes, TypeParam.strokesList_unplaced params, TypeExpr.strokes_unplaced result]
  | named name => rfl
  | applied name args => simp [TypeExpr.unplaced, TypeExpr.strokes, TypeExpr.strokesList_unplaced ", " args]
  | object members =>
    have inner := TypeMember.strokesList_unplaced members
    cases members with
    | nil => rfl
    | cons member rest =>
      rw [TypeMember.unplacedList] at inner
      simp [TypeExpr.unplaced, TypeMember.unplacedList, TypeExpr.strokes, inner]
  | literal value => rfl
  | predicate param target => simp [TypeExpr.unplaced, TypeExpr.strokes, TypeExpr.strokes_unplaced target]
  | paren inner => simp [TypeExpr.unplaced, TypeExpr.strokes, TypeExpr.strokes_unplaced inner]

theorem TypeExpr.strokesList_unplaced (separator : String) (list : List TypeExpr) :
    TypeExpr.strokesList handle separator (TypeExpr.unplacedList list) =
      (TypeExpr.strokesList handle separator list).map Stroke.unplaced := by
  match list with
  | [] => rfl
  | [type] => exact TypeExpr.strokes_unplaced type
  | type :: next :: rest =>
    have tail := TypeExpr.strokesList_unplaced separator (next :: rest)
    simp only [TypeExpr.unplacedList] at tail
    simp [TypeExpr.unplacedList, TypeExpr.strokesList, TypeExpr.strokes_unplaced type, tail]

theorem TypeParam.strokes_unplaced (param : TypeParam) :
    param.unplaced.strokes handle = (param.strokes handle).map Stroke.unplaced := by
  match param with
  | .mk name none optional => cases optional <;> rfl
  | .mk name (some type) optional =>
    cases optional <;> simp [TypeParam.unplaced, TypeParam.strokes, TypeExpr.strokes_unplaced type]

theorem TypeParam.strokesList_unplaced (list : List TypeParam) :
    TypeParam.strokesList handle (TypeParam.unplacedList list) =
      (TypeParam.strokesList handle list).map Stroke.unplaced := by
  match list with
  | [] => rfl
  | [param] => exact TypeParam.strokes_unplaced param
  | param :: next :: rest =>
    have tail := TypeParam.strokesList_unplaced (next :: rest)
    simp only [TypeParam.unplacedList] at tail
    simp [TypeParam.unplacedList, TypeParam.strokesList, TypeParam.strokes_unplaced param, tail]

theorem TypeMember.strokes_unplaced (member : TypeMember) :
    member.unplaced.strokes handle = (member.strokes handle).map Stroke.unplaced := by
  cases member with
  | property name type optional =>
    cases optional <;>
      simp [TypeMember.unplaced, TypeMember.strokes, PropertyName.strokes_unplaced handle name,
        TypeExpr.strokes_unplaced type]
  | index keyName keyType valueType =>
    simp [TypeMember.unplaced, TypeMember.strokes, TypeExpr.strokes_unplaced keyType,
      TypeExpr.strokes_unplaced valueType]

theorem TypeMember.strokesList_unplaced (list : List TypeMember) :
    TypeMember.strokesList handle (TypeMember.unplacedList list) =
      (TypeMember.strokesList handle list).map Stroke.unplaced := by
  match list with
  | [] => rfl
  | member :: rest =>
    simp [TypeMember.unplacedList, TypeMember.strokesList, TypeMember.strokes_unplaced member,
      TypeMember.strokesList_unplaced rest]

end

attribute [simp] Expr.strokes_unplaced PropertyName.strokes_unplaced TypeExpr.strokes_unplaced

@[simp] theorem TypeExpr.strokesOption_unplaced (type : Option TypeExpr) :
    TypeExpr.strokesOption handle (type.map TypeExpr.unplaced) =
      (TypeExpr.strokesOption handle type).map Stroke.unplaced := by
  cases type <;> simp [TypeExpr.strokesOption]

@[simp] theorem Expr.strokesInit_unplaced (init : Option Expr) :
    Expr.strokesInit handle (init.map Expr.unplaced) = (Expr.strokesInit handle init).map Stroke.unplaced := by
  cases init <;> simp [Expr.strokesInit]

@[simp] theorem Expr.strokesDecorators_unplaced (decorators : List Expr) :
    Expr.strokesDecorators handle (decorators.map Expr.unplaced) =
      (Expr.strokesDecorators handle decorators).map Stroke.unplaced := by
  simp [Expr.strokesDecorators, List.flatMap_map, List.map_flatMap]

@[simp] theorem VarDecl.strokes_unplaced (decl : VarDecl) :
    decl.unplaced.strokes handle = (decl.strokes handle).map Stroke.unplaced := by
  simp [VarDecl.unplaced, VarDecl.strokes]

@[simp] theorem Stmt.strokes_unplaced (stmt : Stmt) :
    stmt.unplaced.strokes handle = (stmt.strokes handle).map Stroke.unplaced := by
  cases stmt with
  | expr value => simp [Stmt.unplaced, Stmt.strokes]
  | result value => cases value <;> simp [Stmt.unplaced, Stmt.strokes]
  | _ => simp [Stmt.unplaced, Stmt.strokes]

@[simp] theorem Block.strokes_unplaced (body : Option Block) :
    Block.strokes handle (body.map Block.unplaced) = (Block.strokes handle body).map Stroke.unplaced := by
  match body with
  | none => rfl
  | some [] => rfl
  | some (stmt :: rest) =>
    simp [Block.unplaced, Block.strokes, Located.synthetic, List.flatMap_map, List.map_flatMap]

@[simp] theorem Param.strokes_unplaced (param : Param) :
    param.unplaced.strokes handle = (param.strokes handle).map Stroke.unplaced := by
  cases access : param.access <;>
    simp [Param.unplaced, Param.strokes, access, List.flatMap_map, List.map_flatMap]

@[simp] theorem strokesCallable_unplaced (params : List Param) (result : Option TypeExpr) (body : Option Block) :
    strokesCallable handle (params.map Param.unplaced) (result.map TypeExpr.unplaced) (body.map Block.unplaced) =
      (strokesCallable handle params result body).map Stroke.unplaced := by
  simp [strokesCallable, Param.strokesList, Function.comp_def]

@[simp] theorem Member.strokes_unplaced (member : Member) :
    member.unplaced.strokes handle = (member.strokes handle).map Stroke.unplaced := by
  cases member with
  | constructor c =>
    have callable := strokesCallable_unplaced handle c.params none c.body
    simp_all [Member.unplaced, Member.strokes]
  | method m => simp [Member.unplaced, Member.strokes]
  | field f => cases comment : f.comment <;> simp [Member.unplaced, Member.strokes, comment, Stroke.comment]
  | accessor a => simp [Member.unplaced, Member.strokes]

@[simp] theorem ClassDecl.strokesBody_unplaced (decl : ClassDecl) :
    decl.unplaced.strokesBody handle = (decl.strokesBody handle).map Stroke.unplaced := by
  cases base : decl.base <;> cases members : decl.members <;>
    simp [ClassDecl.unplaced, ClassDecl.strokesBody, base, members, Located.synthetic, List.flatMap_map,
      List.map_flatMap]

@[simp] theorem Decl.strokes_unplaced (exported : Bool) (decl : Decl) :
    decl.unplaced.strokes handle exported = (decl.strokes handle exported).map Stroke.unplaced := by
  cases decl with
  | interface d =>
    have members := TypeExpr.strokes_unplaced handle (.object d.members)
    rw [TypeExpr.unplaced] at members
    simp [Decl.unplaced, Decl.strokes, TypeMember.strokesBlock, members]
  | enum d =>
    simp [Decl.unplaced, Decl.strokes, EnumMember.unplaced, EnumMember.strokes, Function.comp_def]
  | classDecl d =>
    have decorators : d.unplaced.decorators = d.decorators.map Expr.unplaced := rfl
    simp [Decl.unplaced, Decl.strokes, decorators]
  | _ => simp [Decl.unplaced, Decl.strokes]

@[simp] theorem Item.strokes_unplaced (item : Item) :
    item.unplaced.strokes handle = (item.strokes handle).map Stroke.unplaced := by
  cases item <;> simp [Item.unplaced, Item.strokes]

end

/-! ## The modules that unplaced forms mention -/

mutual

theorem Expr.walk_unplaced (e : Expr) : e.unplaced.walk = e.walk.map Expr.unplaced := by
  cases e with
  | literal span value => rfl
  | ident span name => rfl
  | call span callee args => simp [Expr.unplaced, Expr.walk, Expr.walk_unplaced callee, Expr.walkAll_unplacedList args]
  | new span callee args => simp [Expr.unplaced, Expr.walk, Expr.walk_unplaced callee, Expr.walkAll_unplacedList args]
  | member span inner property => simp [Expr.unplaced, Expr.walk, Expr.walk_unplaced inner]
  | array span elements => simp [Expr.unplaced, Expr.walk, Expr.walkAll_unplacedList elements]
  | object span properties => simp [Expr.unplaced, Expr.walk, Property.walkAll_unplacedList properties]
  | arrow span params body => simp [Expr.unplaced, Expr.walk, Expr.walk_unplaced body]
  | paren span inner => simp [Expr.unplaced, Expr.walk, Expr.walk_unplaced inner]
  | spread span inner => simp [Expr.unplaced, Expr.walk, Expr.walk_unplaced inner]
  | external span source name => rfl

theorem Expr.walkAll_unplacedList (list : List Expr) :
    Expr.walkAll (Expr.unplacedList list) = (Expr.walkAll list).map Expr.unplaced := by
  match list with
  | [] => rfl
  | e :: rest => simp [Expr.unplacedList, Expr.walkAll, Expr.walk_unplaced e, Expr.walkAll_unplacedList rest]

theorem Property.walk_unplaced (property : Property) : property.unplaced.walk = property.walk.map Expr.unplaced := by
  cases property with
  | keyValue key value =>
    simp [Property.unplaced, Property.walk, PropertyName.walk_unplaced key, Expr.walk_unplaced value]
  | shorthand name => rfl
  | spread value => simp [Property.unplaced, Property.walk, Expr.walk_unplaced value]

theorem Property.walkAll_unplacedList (list : List Property) :
    Property.walkAll (Property.unplacedList list) = (Property.walkAll list).map Expr.unplaced := by
  match list with
  | [] => rfl
  | property :: rest =>
    simp [Property.unplacedList, Property.walkAll, Property.walk_unplaced property, Property.walkAll_unplacedList rest]

theorem PropertyName.walk_unplaced (name : PropertyName) : name.unplaced.walk = name.walk.map Expr.unplaced := by
  cases name with
  | computed key => simp [PropertyName.unplaced, PropertyName.walk, Expr.walk_unplaced key]
  | _ => rfl

end

attribute [simp] Expr.walk_unplaced PropertyName.walk_unplaced

@[simp] theorem Expr.walkAll_map_unplaced (list : List Expr) :
    Expr.walkAll (list.map Expr.unplaced) = (Expr.walkAll list).map Expr.unplaced := by
  simp [Expr.walkAll_eq_flatMap, List.flatMap_map, List.map_flatMap]

@[simp] theorem Expr.walkOption_map_unplaced (e : Option Expr) :
    Expr.walkOption (e.map Expr.unplaced) = (Expr.walkOption e).map Expr.unplaced := by
  cases e <;> simp [Expr.walkOption]

@[simp] theorem VarDecl.walk_unplaced (decl : VarDecl) : decl.unplaced.walk = decl.walk.map Expr.unplaced := by
  simp [VarDecl.unplaced, VarDecl.walk]

@[simp] theorem Stmt.walk_unplaced (stmt : Stmt) : stmt.unplaced.walk = stmt.walk.map Expr.unplaced := by
  cases stmt <;> simp [Stmt.unplaced, Stmt.walk]

@[simp] theorem walkCallable_unplaced (params : List Param) (body : Option Block) :
    walkCallable (params.map Param.unplaced) (body.map Block.unplaced) =
      (walkCallable params body).map Expr.unplaced := by
  cases body <;>
    simp [walkCallable, Param.walkAll, Param.unplaced, Block.walk, Block.unplaced, Located.synthetic, List.flatMap_map,
      List.map_flatMap]

@[simp] theorem Member.walk_unplaced (member : Member) : member.unplaced.walk = member.walk.map Expr.unplaced := by
  cases member <;> simp [Member.unplaced, Member.walk, Member.decorators, Member.name?, Expr.walkAll]

@[simp] theorem ClassDecl.walk_unplaced (decl : ClassDecl) : decl.unplaced.walk = decl.walk.map Expr.unplaced := by
  simp [ClassDecl.unplaced, ClassDecl.walk, Located.synthetic, List.flatMap_map, List.map_flatMap]

@[simp] theorem Decl.walk_unplaced (decl : Decl) : decl.unplaced.walk = decl.walk.map Expr.unplaced := by
  cases decl <;> simp [Decl.unplaced, Decl.walk, EnumMember.unplaced, List.flatMap_map, List.map_flatMap]

@[simp] theorem Item.walk_unplaced (item : Item) : item.unplaced.walk = item.walk.map Expr.unplaced := by
  cases item <;> simp [Item.unplaced, Item.walk]

namespace Items

theorem walk_unplaced (items : Items) : walk items.unplaced = (walk items).map Expr.unplaced := by
  simp [unplaced, walk, Located.synthetic, List.flatMap_map, List.map_flatMap]

theorem externalsInOrder_unplaced (items : Items) : externalsInOrder items.unplaced = externalsInOrder items := by
  rw [externalsInOrder, walk_unplaced, List.foldl_map, externalsInOrder]
  congr 1
  funext seen e
  cases e <;> rfl

theorem strokes_unplaced (items : Items) : strokes items.unplaced = (strokes items).map Stroke.unplaced := by
  have imports (position : Nat) (sources : List String) :
      (hoisted position sources).map Stroke.unplaced = hoisted position sources := by
    induction sources generalizing position with
    | nil => rfl
    | cons source rest ih => simp [hoisted, ih]
  rw [strokes, externalsInOrder_unplaced, unplaced, List.flatMap_map]
  simp [strokes, imports, Located.synthetic, List.map_flatMap]

theorem text_print_unplaced (items : Items) : (print items.unplaced).text = (print items).text := by
  have start : ({} : Page).Level {} := ⟨rfl, rfl⟩
  rw [print, strokes_unplaced]
  exact start.text_draw_unplaced rfl (strokes items)

/-- The text of some items depends on no place in them. -/
theorem text_print_eq_of_unplaced_eq {items others : Items} (same : items.unplaced = others.unplaced) :
    (print items).text = (print others).text := by
  rw [← items.text_print_unplaced, same, others.text_print_unplaced]

end Items

end CompanionBuild
