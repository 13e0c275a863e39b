import CompanionBuild.Tree.Printer
import Mathlib.Data.List.Nodup

/-! # External references in printed texts

An external reference is printed through a namespace import at the head of the text. The printer writes every reference
of the items in this way, in order, and nothing else depends on the imports. A walk over the expressions finds the same
references but for those in types: it does not visit types, while the printer writes the computed names of their members.
-/

namespace CompanionBuild

/-! ## References that are printed -/

/-- An external reference in the place where it is printed. -/
structure Mention where
  source : String
  name : String
  /-- The reference stands in a type, in the computed name of a member. -/
  inType : Bool
deriving DecidableEq, Repr

def Expr.mention? (inType : Bool) : Expr → Option Mention
  | .external _ source name => some ⟨source, name, inType⟩
  | _ => none

namespace Mention

def among (inType : Bool) (exprs : List Expr) : List Mention :=
  exprs.filterMap (Expr.mention? inType)

@[simp] theorem among_nil (inType : Bool) : among inType [] = [] := rfl

@[simp] theorem among_append (inType : Bool) (exprs others : List Expr) :
    among inType (exprs ++ others) = among inType exprs ++ among inType others :=
  List.filterMap_append

@[simp] theorem among_flatMap {α : Type} (inType : Bool) (list : List α) (f : α → List Expr) :
    among inType (list.flatMap f) = list.flatMap fun a => among inType (f a) :=
  List.filterMap_flatMap

end Mention

mutual

/-- The references in a type, in the order of the text. -/
def TypeExpr.mentions : TypeExpr → List Mention
  | .keyword _ | .named _ | .literal _ => []
  | .array inner | .predicate _ inner | .paren inner => inner.mentions
  | .tuple types | .union types | .applied _ types => TypeExpr.mentionsOfList types
  | .function params result | .constructor params result => TypeParam.mentionsOfList params ++ result.mentions
  | .object members => TypeMember.mentionsOfList members

def TypeExpr.mentionsOfList : List TypeExpr → List Mention
  | [] => []
  | type :: rest => type.mentions ++ TypeExpr.mentionsOfList rest

def TypeParam.mentionsOfList : List TypeParam → List Mention
  | [] => []
  | .mk _ (some type) _ :: rest => type.mentions ++ TypeParam.mentionsOfList rest
  | .mk _ none _ :: rest => TypeParam.mentionsOfList rest

def TypeMember.mentions : TypeMember → List Mention
  | .property name type _ => Mention.among true name.walk ++ type.mentions
  | .index _ keyType valueType => keyType.mentions ++ valueType.mentions

def TypeMember.mentionsOfList : List TypeMember → List Mention
  | [] => []
  | member :: rest => member.mentions ++ TypeMember.mentionsOfList rest

end

def TypeExpr.mentionsOfOption : Option TypeExpr → List Mention
  | some type => type.mentions
  | none => []

def VarDecl.mentions (decl : VarDecl) : List Mention :=
  TypeExpr.mentionsOfOption decl.type ++ Mention.among false (Expr.walkOption decl.init)

def Stmt.mentions : Stmt → List Mention
  | .expr value => Mention.among false value.walk
  | .result value => Mention.among false (Expr.walkOption value)
  | .variable decl => decl.mentions

def Block.mentions (body : Option Block) : List Mention :=
  (body.getD []).flatMap (·.value.mentions)

def Param.mentions (param : Param) : List Mention :=
  Mention.among false (Expr.walkAll param.decorators) ++ TypeExpr.mentionsOfOption param.type

/-- The references in parameters, in the type of a result and in a body. -/
def mentionsOfCallable (params : List Param) (result : Option TypeExpr) (body : Option Block) : List Mention :=
  params.flatMap Param.mentions ++ TypeExpr.mentionsOfOption result ++ Block.mentions body

def Member.mentions : Member → List Mention
  | .constructor c => mentionsOfCallable c.params none c.body
  | .method m =>
    Mention.among false (Expr.walkAll m.decorators) ++ Mention.among false m.name.walk ++
      mentionsOfCallable m.params m.result m.body
  | .field f =>
    Mention.among false (Expr.walkAll f.decorators) ++ Mention.among false f.name.walk ++
      TypeExpr.mentionsOfOption f.type ++ Mention.among false (Expr.walkOption f.init)
  | .accessor a =>
    Mention.among false (Expr.walkAll a.decorators) ++ Mention.among false a.name.walk ++
      mentionsOfCallable a.params a.type a.body

def Decl.mentions : Decl → List Mention
  | .function d => mentionsOfCallable d.params d.result d.body
  | .classDecl d =>
    Mention.among false (Expr.walkAll d.decorators) ++ Mention.among false (Expr.walkOption d.base) ++
      d.members.flatMap (·.value.mentions)
  | .interface d => TypeMember.mentionsOfList d.members
  | .typeAlias d => d.type.mentions
  | .enum d => d.members.flatMap fun member => Mention.among false (Expr.walkOption member.init)
  | .variable d => d.mentions

def Item.mentions : Item → List Mention
  | .decl d | .exportDecl d => d.mentions
  | .stmt s => s.mentions
  | .imports _ | .exportNamed .. | .exportAll _ => []

/-- The external references that are printed anywhere in the items, in the order of the text. -/
def Items.mentions (items : Items) : List Mention :=
  items.flatMap (·.value.mentions)

/-! ## Strokes with references left open -/

/-- A stroke, or the place of a reference. -/
inductive Piece where
  | drawn (stroke : Stroke)
  | reference (mention : Mention)

namespace Piece

def mention? : Piece → Option Mention
  | .drawn _ => none
  | .reference mention => some mention

/-- The stroke that is drawn when `handle` names the import of each module. -/
def fill (handle : String → String) : Piece → Stroke
  | .drawn stroke => stroke
  | .reference mention => .write (handle mention.source ++ "." ++ mention.name)

end Piece

/-- However the imports are named, these references are what the strokes write through them, in this order. -/
def Prints (strokes : (String → String) → List Stroke) (mentions : List Mention) : Prop :=
  ∃ pieces : List Piece, pieces.filterMap Piece.mention? = mentions ∧
    ∀ handle, strokes handle = pieces.map (Piece.fill handle)

namespace Prints

variable {α : Type} {strokes others : (String → String) → List Stroke} {mentions more : List Mention}

theorem of_eq (prints : Prints strokes mentions) (same : mentions = more) : Prints strokes more :=
  same ▸ prints

theorem fixed (strokes : List Stroke) : Prints (fun _ => strokes) [] := by
  refine ⟨strokes.map .drawn, ?_, fun handle => ?_⟩
  · rw [List.filterMap_map]
    exact List.filterMap_eq_nil_iff.mpr fun _ _ => rfl
  · rw [List.map_map]
    exact (List.map_id strokes).symm

theorem reference (mention : Mention) :
    Prints (fun handle => [.write (handle mention.source ++ "." ++ mention.name)]) [mention] :=
  ⟨[.reference mention], rfl, fun _ => rfl⟩

theorem append (first : Prints strokes mentions) (second : Prints others more) :
    Prints (fun handle => strokes handle ++ others handle) (mentions ++ more) := by
  obtain ⟨pieces, rfl, drawn⟩ := first
  obtain ⟨rest, rfl, drawnRest⟩ := second
  refine ⟨pieces ++ rest, List.filterMap_append, fun handle => ?_⟩
  rw [List.map_append, ← drawn, ← drawnRest]

theorem after (first : List Stroke) (rest : Prints strokes mentions) :
    Prints (fun handle => first ++ strokes handle) mentions :=
  (fixed first).append rest

theorem cons (stroke : Stroke) (rest : Prints strokes mentions) :
    Prints (fun handle => stroke :: strokes handle) mentions :=
  rest.after [stroke]

theorem close (rest : Prints strokes mentions) (last : List Stroke) :
    Prints (fun handle => strokes handle ++ last) mentions :=
  (rest.append (fixed last)).of_eq (List.append_nil _)

theorem flatMap {list : List α} {f : α → (String → String) → List Stroke} {g : α → List Mention}
    (each : ∀ a, Prints (f a) (g a)) : Prints (fun handle => list.flatMap fun a => f a handle) (list.flatMap g) := by
  induction list with
  | nil => exact fixed []
  | cons a rest ih => exact (each a).append ih

theorem separated (separator : String) {list : List α} {f : (String → String) → α → List Stroke} {g : α → List Mention}
    (each : ∀ a, Prints (fun handle => f handle a) (g a)) :
    Prints (fun handle => Stroke.separated separator (list.map (f handle))) (list.flatMap g) := by
  induction list with
  | nil => exact fixed []
  | cons a rest ih =>
    cases rest with
    | nil => exact (each a).of_eq (List.append_nil _).symm
    | cons b rest => exact (each a).append (ih.cons _)

end Prints

/-! ## What the printer writes -/

mutual

theorem Expr.prints (inType : Bool) (e : Expr) : Prints (fun handle => e.strokes handle) (Mention.among inType e.walk) := by
  cases e with
  | literal span value => exact .fixed _
  | ident span name => exact .fixed _
  | call span callee args =>
    simp only [Expr.strokes]
    refine (Prints.append ((Expr.prints inType callee).cons _) ((Expr.prints_list inType args).cons _)).close _ |>.of_eq ?_
    exact (Mention.among_append ..).symm
  | new span callee args =>
    simp only [Expr.strokes]
    refine (Prints.append ((Expr.prints inType callee).cons _ |>.cons _)
      ((Expr.prints_list inType args).cons _)).close _ |>.of_eq ?_
    exact (Mention.among_append ..).symm
  | member span object property =>
    simp only [Expr.strokes]
    exact ((Expr.prints inType object).cons _).close _
  | array span elements =>
    simp only [Expr.strokes]
    exact ((Expr.prints_list inType elements).cons _ |>.cons _).close _
  | object span properties =>
    simp only [Expr.strokes]
    cases properties with
    | nil => exact .fixed _
    | cons property rest => exact ((Property.prints_list inType (property :: rest)).cons _ |>.cons _).close _
  | arrow span params body =>
    have inner := Expr.prints inType body
    simp only [Expr.strokes]
    refine .cons _ (.cons _ ?_)
    split
    · exact (inner.cons _).close _
    · exact inner
  | paren span inner =>
    simp only [Expr.strokes]
    exact ((Expr.prints inType inner).cons _ |>.cons _).close _
  | spread span inner =>
    simp only [Expr.strokes]
    exact (Expr.prints inType inner).cons _ |>.cons _
  | external span source name => exact (Prints.reference ⟨source, name, inType⟩).cons _

theorem Expr.prints_list (inType : Bool) (list : List Expr) :
    Prints (fun handle => Expr.strokesList handle list) (Mention.among inType (Expr.walkAll list)) := by
  match list with
  | [] => exact .fixed _
  | [e] => exact (Expr.prints inType e).of_eq (by simp [Expr.walkAll])
  | e :: next :: rest =>
    have tail := Expr.prints_list inType (next :: rest)
    simp only [Expr.strokesList]
    exact ((Expr.prints inType e).append (tail.cons _)).of_eq (by simp [Expr.walkAll])

theorem Property.prints (inType : Bool) (property : Property) :
    Prints (fun handle => property.strokes handle) (Mention.among inType property.walk) := by
  cases property with
  | keyValue key value =>
    simp only [Property.strokes]
    exact ((PropertyName.prints inType key).append ((Expr.prints inType value).cons _)).of_eq
      (by simp [Property.walk])
  | shorthand name => exact .fixed _
  | spread value =>
    simp only [Property.strokes]
    exact (Expr.prints inType value).cons _

theorem Property.prints_list (inType : Bool) (list : List Property) :
    Prints (fun handle => Property.strokesList handle list) (Mention.among inType (Property.walkAll list)) := by
  match list with
  | [] => exact .fixed _
  | [property] => exact (Property.prints inType property).of_eq (by simp [Property.walkAll])
  | property :: next :: rest =>
    have tail := Property.prints_list inType (next :: rest)
    simp only [Property.strokesList]
    exact ((Property.prints inType property).append (tail.cons _)).of_eq (by simp [Property.walkAll])

theorem PropertyName.prints (inType : Bool) (name : PropertyName) :
    Prints (fun handle => name.strokes handle) (Mention.among inType name.walk) := by
  cases name with
  | computed key =>
    simp only [PropertyName.strokes]
    exact ((Expr.prints inType key).cons _).close _
  | _ => exact .fixed _

end

mutual

theorem TypeExpr.prints (type : TypeExpr) : Prints (fun handle => type.strokes handle) type.mentions := by
  cases type with
  | array element =>
    have inner := TypeExpr.prints element
    simp only [TypeExpr.strokes]
    refine Prints.close ?_ _
    split
    · exact (inner.cons _).close _
    · exact inner
  | tuple elements =>
    simp only [TypeExpr.strokes]
    exact ((TypeExpr.prints_list ", " elements).cons _).close _
  | union members =>
    simp only [TypeExpr.strokes]
    exact TypeExpr.prints_list " | " members
  | function params result =>
    simp only [TypeExpr.strokes]
    exact .append ((TypeParam.prints_list params).cons _) ((TypeExpr.prints result).cons _)
  | constructor params result =>
    simp only [TypeExpr.strokes]
    exact .append ((TypeParam.prints_list params).cons _ |>.cons _) ((TypeExpr.prints result).cons _)
  | applied name args =>
    simp only [TypeExpr.strokes]
    exact ((TypeExpr.prints_list ", " args).cons _ |>.cons _).close _
  | object members =>
    simp only [TypeExpr.strokes]
    cases members with
    | nil => exact .fixed _
    | cons member rest => exact ((TypeMember.prints_list (member :: rest)).cons _).close _
  | predicate param target =>
    simp only [TypeExpr.strokes]
    exact (TypeExpr.prints target).cons _
  | paren inner =>
    simp only [TypeExpr.strokes]
    exact ((TypeExpr.prints inner).cons _).close _
  | _ => exact .fixed _

theorem TypeExpr.prints_list (separator : String) (list : List TypeExpr) :
    Prints (fun handle => TypeExpr.strokesList handle separator list) (TypeExpr.mentionsOfList list) := by
  match list with
  | [] => exact .fixed _
  | [type] => exact (TypeExpr.prints type).of_eq (List.append_nil _).symm
  | type :: next :: rest =>
    have tail := TypeExpr.prints_list separator (next :: rest)
    simp only [TypeExpr.strokesList]
    exact (TypeExpr.prints type).append (tail.cons _)

theorem TypeParam.prints_list (list : List TypeParam) :
    Prints (fun handle => TypeParam.strokesList handle list) (TypeParam.mentionsOfList list) := by
  have one {type : TypeExpr} (prints : Prints (fun handle => type.strokes handle) type.mentions) (name : String)
      (optional : Bool) : Prints (fun handle => (TypeParam.mk name (some type) optional).strokes handle) type.mentions := by
    simp only [TypeParam.strokes]
    exact (prints.cons _).after _
  match list with
  | [] => exact .fixed _
  | [.mk name (some type) optional] =>
    exact (one (TypeExpr.prints type) name optional).of_eq (List.append_nil _).symm
  | [.mk name none optional] => exact .fixed _
  | .mk name (some type) optional :: next :: rest =>
    have tail := TypeParam.prints_list (next :: rest)
    simp only [TypeParam.strokesList]
    exact (one (TypeExpr.prints type) name optional).append (tail.cons _)
  | .mk name none optional :: next :: rest =>
    have tail := TypeParam.prints_list (next :: rest)
    simp only [TypeParam.strokesList]
    exact (Prints.fixed _).append (tail.cons _)

theorem TypeMember.prints (member : TypeMember) : Prints (fun handle => member.strokes handle) member.mentions := by
  cases member with
  | property name type optional =>
    simp only [TypeMember.strokes]
    exact ((PropertyName.prints true name).close _).append ((TypeExpr.prints type).cons _)
  | index keyName keyType valueType =>
    simp only [TypeMember.strokes]
    exact ((TypeExpr.prints keyType).cons _).append ((TypeExpr.prints valueType).cons _)

theorem TypeMember.prints_list (list : List TypeMember) :
    Prints (fun handle => TypeMember.strokesList handle list) (TypeMember.mentionsOfList list) := by
  cases list with
  | nil => exact .fixed _
  | cons member rest =>
    simp only [TypeMember.strokesList]
    exact (TypeMember.prints member).append ((TypeMember.prints_list rest).cons _)

end

theorem TypeExpr.prints_option (type : Option TypeExpr) :
    Prints (fun handle => TypeExpr.strokesOption handle type) (TypeExpr.mentionsOfOption type) := by
  cases type with
  | none => exact .fixed _
  | some type => exact (TypeExpr.prints type).cons _

theorem Expr.prints_init (init : Option Expr) :
    Prints (fun handle => Expr.strokesInit handle init) (Mention.among false (Expr.walkOption init)) := by
  cases init with
  | none => exact .fixed _
  | some value => exact (Expr.prints false value).cons _

theorem Expr.walkAll_eq_flatMap (list : List Expr) : Expr.walkAll list = list.flatMap Expr.walk := by
  induction list with
  | nil => rfl
  | cons e rest ih => rw [Expr.walkAll, ih, List.flatMap_cons]

/-- Decorators, each with a sign before it and something after it. -/
theorem Expr.prints_decorators (last : Stroke) (decorators : List Expr) :
    Prints (fun handle => decorators.flatMap fun decorator => .write "@" :: decorator.strokes handle ++ [last])
      (Mention.among false (Expr.walkAll decorators)) := by
  rw [Expr.walkAll_eq_flatMap, Mention.among_flatMap]
  exact .flatMap fun decorator => ((Expr.prints false decorator).cons _).close _

theorem VarDecl.prints (decl : VarDecl) : Prints (fun handle => decl.strokes handle) decl.mentions := by
  unfold VarDecl.strokes
  exact (Prints.append (.after _ ((TypeExpr.prints_option decl.type).cons _)) (Expr.prints_init decl.init)).close _

theorem Stmt.prints (stmt : Stmt) : Prints (fun handle => stmt.strokes handle) stmt.mentions := by
  match stmt with
  | .expr value => exact (Expr.prints false value).close _
  | .result none => exact .fixed _
  | .result (some value) => exact ((Expr.prints false value).cons _ |>.cons _).close _
  | .variable decl => exact decl.prints

theorem Block.prints (body : Option Block) : Prints (fun handle => Block.strokes handle body) (Block.mentions body) := by
  match body with
  | none => exact .fixed _
  | some [] => exact .fixed _
  | some (first :: rest) =>
    have each (stmt : Located Stmt) :
        Prints (fun handle => .newline :: .mark stmt.span :: stmt.value.strokes handle) stmt.value.mentions :=
      stmt.value.prints.cons _ |>.cons _
    simp only [Block.strokes]
    exact ((Prints.flatMap each).cons _ |>.cons _).close _

theorem Param.prints (param : Param) : Prints (fun handle => param.strokes handle) param.mentions := by
  unfold Param.strokes
  exact .append (((Expr.prints_decorators (.write " ") param.decorators).close _).close _ |>.close _)
    (TypeExpr.prints_option param.type)

theorem prints_callable (params : List Param) (result : Option TypeExpr) (body : Option Block) :
    Prints (fun handle => strokesCallable handle params result body) (mentionsOfCallable params result body) := by
  unfold strokesCallable
  exact .append (.append (.separated ", " Param.prints) ((TypeExpr.prints_option result).cons _)) (Block.prints body)

theorem Member.prints (member : Member) : Prints (fun handle => member.strokes handle) member.mentions := by
  cases member with
  | constructor c => exact (prints_callable c.params none c.body).cons _
  | method m =>
    exact .append (.append ((Expr.prints_decorators .newline m.decorators).close _) (m.name.prints false))
      ((prints_callable m.params m.result m.body).cons _)
  | field f =>
    exact (Prints.append (.append (.append (((Expr.prints_decorators .newline f.decorators).after _).close _)
      (f.name.prints false)) (TypeExpr.prints_option f.type)) (Expr.prints_init f.init)).close _
  | accessor a =>
    exact .append (.append ((Expr.prints_decorators .newline a.decorators).close _) ((a.name.prints false).cons _))
      ((prints_callable a.params a.type a.body).cons _)

/-- A class from its keyword on. -/
theorem ClassDecl.prints_body (decl : ClassDecl) : Prints (fun handle => decl.strokesBody handle)
    (Mention.among false (Expr.walkOption decl.base) ++ decl.members.flatMap (·.value.mentions)) := by
  have each (member : Located Member) :
      Prints (fun handle => .newline :: .mark member.span :: member.value.strokes handle) member.value.mentions :=
    member.value.prints.cons _ |>.cons _
  unfold ClassDecl.strokesBody
  refine (Prints.append (.after _ (.cons _ ?_)) ((Prints.flatMap each).cons _ |>.cons _)).close _ |>.close _
  cases decl.base with
  | none => exact .fixed _
  | some base => exact (base.prints false).cons _

theorem Decl.prints (exported : Bool) (decl : Decl) : Prints (fun handle => decl.strokes handle exported) decl.mentions := by
  match decl with
  | .classDecl d =>
    exact (Prints.append ((Expr.prints_decorators .newline d.decorators).close _) d.prints_body).of_eq
      (List.append_assoc ..).symm
  | .function d => exact ((prints_callable d.params d.result d.body).cons _).after _
  | .variable d => exact d.prints.after _
  | .interface d => exact ((TypeExpr.prints (.object d.members)).cons _).after _
  | .typeAlias d => exact ((d.type.prints.cons _).after _).close _
  | .enum d =>
    have each (member : EnumMember) : Prints (fun handle => member.strokes handle)
        (Mention.among false (Expr.walkOption member.init)) := (Expr.prints_init member.init).cons _
    exact ((Prints.separated "," each).cons _ |>.after _).close _

theorem Item.prints (item : Item) : Prints (fun handle => item.strokes handle) item.mentions := by
  match item with
  | .decl d => exact d.prints false
  | .exportDecl d => exact d.prints true
  | .stmt s => exact s.prints
  | .imports _ | .exportNamed .. | .exportAll _ => exact .fixed _

/-- The strokes of the items, each on its own line, without the imports before them. -/
def Items.body (items : Items) (handle : String → String) : List Stroke :=
  items.flatMap fun item => .mark item.span :: item.value.strokes handle ++ [.newline]

/-- The printer writes the references of the items, in order, and nothing else through the imports. -/
theorem Items.body_prints (items : Items) : Prints items.body items.mentions :=
  .flatMap fun item => (item.value.prints.cons _).close _

/-! ## What the walk finds -/

namespace Mention

/-- The references outside of types. -/
def outside (mentions : List Mention) : List Mention :=
  mentions.filter (!·.inType)

@[simp] theorem outside_nil : outside [] = [] := rfl

@[simp] theorem outside_append (mentions more : List Mention) :
    outside (mentions ++ more) = outside mentions ++ outside more :=
  List.filter_append ..

@[simp] theorem outside_flatMap {α : Type} (list : List α) (f : α → List Mention) :
    outside (list.flatMap f) = list.flatMap fun a => outside (f a) :=
  List.filter_flatMap ..

theorem inType_of_mem_among {inType : Bool} {exprs : List Expr} {mention : Mention}
    (member : mention ∈ among inType exprs) : mention.inType = inType := by
  obtain ⟨e, -, found⟩ := List.mem_filterMap.mp member
  cases e with
  | external span source name =>
    cases found
    rfl
  | _ => cases found

@[simp] theorem outside_among_true (exprs : List Expr) : outside (among true exprs) = [] := by
  refine List.filter_eq_nil_iff.mpr fun mention member => ?_
  rw [inType_of_mem_among member]
  exact Bool.false_ne_true

@[simp] theorem outside_among_false (exprs : List Expr) : outside (among false exprs) = among false exprs := by
  refine List.filter_eq_self.mpr fun mention member => ?_
  rw [inType_of_mem_among member]
  rfl

end Mention

mutual

@[simp] theorem TypeExpr.outside_mentions (type : TypeExpr) : Mention.outside type.mentions = [] := by
  cases type with
  | array inner => exact TypeExpr.outside_mentions inner
  | tuple types => exact TypeExpr.outside_mentionsOfList types
  | union types => exact TypeExpr.outside_mentionsOfList types
  | function params result =>
    simp only [TypeExpr.mentions, Mention.outside_append]
    rw [TypeParam.outside_mentionsOfList params, TypeExpr.outside_mentions result, List.append_nil]
  | constructor params result =>
    simp only [TypeExpr.mentions, Mention.outside_append]
    rw [TypeParam.outside_mentionsOfList params, TypeExpr.outside_mentions result, List.append_nil]
  | applied name args => exact TypeExpr.outside_mentionsOfList args
  | object members => exact TypeMember.outside_mentionsOfList members
  | predicate param target => exact TypeExpr.outside_mentions target
  | paren inner => exact TypeExpr.outside_mentions inner
  | _ => rfl

theorem TypeExpr.outside_mentionsOfList (list : List TypeExpr) : Mention.outside (TypeExpr.mentionsOfList list) = [] := by
  cases list with
  | nil => rfl
  | cons type rest =>
    rw [TypeExpr.mentionsOfList, Mention.outside_append, TypeExpr.outside_mentions type,
      TypeExpr.outside_mentionsOfList rest, List.append_nil]

theorem TypeParam.outside_mentionsOfList (list : List TypeParam) :
    Mention.outside (TypeParam.mentionsOfList list) = [] := by
  match list with
  | [] => rfl
  | .mk _ (some type) _ :: rest =>
    rw [TypeParam.mentionsOfList, Mention.outside_append, TypeExpr.outside_mentions type,
      TypeParam.outside_mentionsOfList rest, List.append_nil]
  | .mk _ none _ :: rest => exact TypeParam.outside_mentionsOfList rest

theorem TypeMember.outside_mentions (member : TypeMember) : Mention.outside member.mentions = [] := by
  cases member with
  | property name type optional =>
    rw [TypeMember.mentions, Mention.outside_append, TypeExpr.outside_mentions type, Mention.outside_among_true,
      List.append_nil]
  | index keyName keyType valueType =>
    rw [TypeMember.mentions, Mention.outside_append, TypeExpr.outside_mentions keyType,
      TypeExpr.outside_mentions valueType, List.append_nil]

@[simp] theorem TypeMember.outside_mentionsOfList (list : List TypeMember) :
    Mention.outside (TypeMember.mentionsOfList list) = [] := by
  cases list with
  | nil => rfl
  | cons member rest =>
    rw [TypeMember.mentionsOfList, Mention.outside_append, TypeMember.outside_mentions member,
      TypeMember.outside_mentionsOfList rest, List.append_nil]

end

@[simp] theorem TypeExpr.outside_mentionsOfOption (type : Option TypeExpr) :
    Mention.outside (TypeExpr.mentionsOfOption type) = [] := by
  cases type with
  | none => rfl
  | some type => exact type.outside_mentions

theorem Stmt.outside_mentions (stmt : Stmt) : Mention.outside stmt.mentions = Mention.among false stmt.walk := by
  cases stmt <;> simp [Stmt.mentions, Stmt.walk, VarDecl.mentions, VarDecl.walk]

theorem outside_mentionsOfCallable (params : List Param) (result : Option TypeExpr) (body : Option Block) :
    Mention.outside (mentionsOfCallable params result body) = Mention.among false (walkCallable params body) := by
  simp [mentionsOfCallable, Param.mentions, Block.mentions, walkCallable, Param.walkAll, Block.walk,
    Stmt.outside_mentions]

theorem Member.outside_mentions (member : Member) :
    Mention.outside member.mentions = Mention.among false member.walk := by
  cases member <;>
    simp [Member.mentions, Member.walk, Member.name?, Member.decorators, outside_mentionsOfCallable, Expr.walkAll]

theorem Decl.outside_mentions (decl : Decl) : Mention.outside decl.mentions = Mention.among false decl.walk := by
  cases decl <;>
    simp [Decl.mentions, Decl.walk, ClassDecl.walk, VarDecl.mentions, VarDecl.walk, outside_mentionsOfCallable,
      Member.outside_mentions]

theorem Items.outside_mentions (items : Items) :
    Mention.outside items.mentions = Mention.among false items.walk := by
  have each (item : Item) : Mention.outside item.mentions = Mention.among false item.walk := by
    cases item <;> simp [Item.mentions, Item.walk, Decl.outside_mentions, Stmt.outside_mentions]
  simp only [Items.mentions, Items.walk, Mention.outside_flatMap, Mention.among_flatMap, each]

end CompanionBuild
