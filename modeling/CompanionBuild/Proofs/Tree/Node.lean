import CompanionBuild.Proofs.Tree.Mention

/-! # Marks of nodes

The items of a unit, the members of its classes, the statements of bodies, the expressions and the names of parameters are
the nodes that the printer marks. It marks every one of them in the order of the text, right before the strokes of the
node; and where it does so the pen stands inside a line, or writes before it leaves the line.
-/

namespace CompanionBuild

/-! ## Nodes in the order of the text -/

/-- A part of a unit with a place of its own. -/
inductive Node where
  | item (item : Located Item)
  | member (member : Located Member)
  | stmt (stmt : Located Stmt)
  | expr (e : Expr)
  /-- The name of a parameter. -/
  | param (param : Param)

namespace Node

def span : Node → Span
  | .item i => i.span
  | .member m => m.span
  | .stmt s => s.span
  | .expr e => e.span
  | .param p => p.span

/-- The strokes that print a node, from its mark on. -/
def strokes (handle : String → String) : Node → List Stroke
  | .item i => .mark i.span :: i.value.strokes handle
  | .member m => .mark m.span :: m.value.strokes handle
  | .stmt s => .mark s.span :: s.value.strokes handle
  | .expr e => e.strokes handle
  | .param p => [.mark p.span, .write p.name]

def exprs (list : List Expr) : List Node :=
  list.map .expr

@[simp] theorem exprs_cons (e : Expr) (list : List Expr) : exprs (e :: list) = .expr e :: exprs list := rfl

@[simp] theorem exprs_append (list others : List Expr) : exprs (list ++ others) = exprs list ++ exprs others :=
  List.map_append

end Node

mutual

/-- The expressions in a type: the computed names of members and all expressions in them. -/
def TypeExpr.exprs : TypeExpr → List Expr
  | .keyword _ | .named _ | .literal _ => []
  | .array inner | .predicate _ inner | .paren inner => inner.exprs
  | .tuple types | .union types | .applied _ types => TypeExpr.exprsOfList types
  | .function params result | .constructor params result => TypeParam.exprsOfList params ++ result.exprs
  | .object members => TypeMember.exprsOfList members

def TypeExpr.exprsOfList : List TypeExpr → List Expr
  | [] => []
  | type :: rest => type.exprs ++ TypeExpr.exprsOfList rest

def TypeParam.exprsOfList : List TypeParam → List Expr
  | [] => []
  | .mk _ (some type) _ :: rest => type.exprs ++ TypeParam.exprsOfList rest
  | .mk _ none _ :: rest => TypeParam.exprsOfList rest

def TypeMember.exprs : TypeMember → List Expr
  | .property name type _ => name.walk ++ type.exprs
  | .index _ keyType valueType => keyType.exprs ++ valueType.exprs

def TypeMember.exprsOfList : List TypeMember → List Expr
  | [] => []
  | member :: rest => member.exprs ++ TypeMember.exprsOfList rest

end

def TypeExpr.exprsOfOption : Option TypeExpr → List Expr
  | some type => type.exprs
  | none => []

def VarDecl.exprs (decl : VarDecl) : List Expr :=
  TypeExpr.exprsOfOption decl.type ++ Expr.walkOption decl.init

def Stmt.exprs : Stmt → List Expr
  | .expr value => value.walk
  | .result value => Expr.walkOption value
  | .variable decl => decl.exprs

/-- The statements of a body, each before its expressions. -/
def Block.nodes (body : Option Block) : List Node :=
  (body.getD []).flatMap fun stmt => .stmt stmt :: Node.exprs stmt.value.exprs

/-- The decorators of a parameter, its name and the expressions in its type. -/
def Param.nodes (param : Param) : List Node :=
  Node.exprs (Expr.walkAll param.decorators) ++ .param param :: Node.exprs (TypeExpr.exprsOfOption param.type)

/-- The nodes of parameters, of the type of a result and of a body. -/
def nodesOfCallable (params : List Param) (result : Option TypeExpr) (body : Option Block) : List Node :=
  params.flatMap Param.nodes ++ Node.exprs (TypeExpr.exprsOfOption result) ++ Block.nodes body

def Member.nodes : Member → List Node
  | .constructor c => nodesOfCallable c.params none c.body
  | .method m =>
    Node.exprs (Expr.walkAll m.decorators) ++ Node.exprs m.name.walk ++ nodesOfCallable m.params m.result m.body
  | .field f =>
    Node.exprs (Expr.walkAll f.decorators) ++ Node.exprs f.name.walk ++ Node.exprs (TypeExpr.exprsOfOption f.type) ++
      Node.exprs (Expr.walkOption f.init)
  | .accessor a =>
    Node.exprs (Expr.walkAll a.decorators) ++ Node.exprs a.name.walk ++ nodesOfCallable a.params a.type a.body

/-- A base class and members, each before its own nodes. -/
def ClassDecl.nodesOfBody (decl : ClassDecl) : List Node :=
  Node.exprs (Expr.walkOption decl.base) ++ decl.members.flatMap fun member => .member member :: member.value.nodes

def Decl.nodes : Decl → List Node
  | .function d => nodesOfCallable d.params d.result d.body
  | .classDecl d => Node.exprs (Expr.walkAll d.decorators) ++ d.nodesOfBody
  | .interface d => Node.exprs (TypeMember.exprsOfList d.members)
  | .typeAlias d => Node.exprs d.type.exprs
  | .enum d => d.members.flatMap fun member => Node.exprs (Expr.walkOption member.init)
  | .variable d => Node.exprs d.exprs

def Item.nodes : Item → List Node
  | .decl d | .exportDecl d => d.nodes
  | .stmt s => Node.exprs s.exprs
  | .imports _ | .exportNamed .. | .exportAll _ => []

/-- Every node of the items, a parent before its parts and everything in the order of the text. -/
def Items.nodes (items : Items) : List Node :=
  items.flatMap fun item => .item item :: item.value.nodes

/-! ## Strokes with marks -/

namespace Stroke

def isMark : Stroke → Bool
  | .mark _ => true
  | _ => false

/-- Some text is written before anything else is done but marking. -/
def writesNext : List Stroke → Bool
  | .mark _ :: rest => writesNext rest
  | .write text :: rest => text ≠ "" || writesNext rest
  | _ => false

@[simp] theorem writesNext_mark (span : Span) (rest : List Stroke) :
    writesNext (.mark span :: rest) = writesNext rest := rfl

@[simp] theorem writesNext_write (text : String) (rest : List Stroke) :
    writesNext (.write text :: rest) = (decide (text ≠ "") || writesNext rest) := rfl

@[simp] theorem writesNext_writeIf (condition : Bool) (text : String) (rest : List Stroke) :
    writesNext (writeIf condition text ++ rest) = (condition && decide (text ≠ "") || writesNext rest) := by
  cases condition <;> rfl

theorem writesNext_append {strokes : List Stroke} (writes : writesNext strokes = true) (rest : List Stroke) :
    writesNext (strokes ++ rest) = true := by
  induction strokes with
  | nil => cases writes
  | cons stroke strokes ih =>
    cases stroke with
    | mark span => exact ih writes
    | write text =>
      rw [writesNext_write, Bool.or_eq_true] at writes
      rw [List.cons_append, writesNext_write, Bool.or_eq_true]
      exact writes.imp_right ih
    | _ => cases writes

/-- A text that leaves the pen inside a line. -/
def endsInLine (text : String) : Bool :=
  text.toList.getLast?.any (· ≠ '\n')

theorem endsInLine_append (text : String) {last : String} (ends : endsInLine last = true) :
    endsInLine (text ++ last) = true := by
  unfold endsInLine at *
  rw [String.toList_append, List.getLast?_append]
  cases found : last.toList.getLast? with
  | none =>
    rw [found] at ends
    cases ends
  | some c =>
    rw [found] at ends
    exact ends

end Stroke

theorem Text.LineColumn.after_column_ne_zero {text : String} (ends : Stroke.endsInLine text = true)
    (here : Text.LineColumn) (chars : List Char) : (here.after (chars ++ text.toList)).column ≠ 0 := by
  obtain ⟨last, found, visible⟩ := (Option.any_eq_true _ _).mp ends
  obtain ⟨head, split⟩ := List.getLast?_eq_some_iff.mp found
  have size := last.utf8Size_pos
  rw [split, ← List.append_assoc, Text.LineColumn.after, List.foldl_append, List.foldl_cons, List.foldl_nil,
    Text.LineColumn.advance, if_neg (by simpa using visible)]
  show _ + last.utf8Size ≠ 0
  omega

@[simp] theorem Page.here_stroke_mark (page : Page) (span : Span) : (page.stroke (.mark span)).here = page.here := by
  rw [Page.stroke]
  split <;> rfl

theorem Page.column_stroke_write (page : Page) {text : String} (ends : Stroke.endsInLine text = true) :
    (page.stroke (.write text)).here.column ≠ 0 := by
  have visible : text ≠ "" := by
    rintro rfl
    cases ends
  rw [Page.stroke, if_neg visible]
  exact Text.LineColumn.after_column_ne_zero ends page.here page.margin

section

variable (handle : String → String)

/-- Drawn on the page, the strokes mark these nodes in order. A mark comes right before the strokes of its node, where the
pen stands inside a line or is about to write. -/
inductive Marked : Page → List Node → List Stroke → Prop
  | done (page : Page) : Marked page [] []
  | node {page : Page} {node : Node} {nodes : List Node} {rest : List Stroke}
    (printed : node.strokes handle <+: .mark node.span :: rest)
    (anchored : page.here.column ≠ 0 ∨ Stroke.writesNext rest = true)
    (later : Marked (page.stroke (.mark node.span)) nodes rest) :
    Marked page (node :: nodes) (.mark node.span :: rest)
  | plain {page : Page} {stroke : Stroke} {nodes : List Node} {rest : List Stroke} (unmarked : stroke.isMark = false)
    (later : Marked (page.stroke stroke) nodes rest) : Marked page nodes (stroke :: rest)

/-- The strokes mark these nodes wherever they are drawn, and whatever is drawn after them. -/
def MarksAnywhere (strokes : List Stroke) (nodes : List Node) : Prop :=
  ∀ page rest more, (∀ page, Marked handle page more rest) → Marked handle page (nodes ++ more) (strokes ++ rest)

/-- The strokes mark these nodes if the pen stands inside a line or the first text is about to be written. -/
def MarksInLine (strokes : List Stroke) (nodes : List Node) : Prop :=
  ∀ page rest more, page.here.column ≠ 0 ∨ Stroke.writesNext (strokes ++ rest) = true →
    (∀ page, Marked handle page more rest) → Marked handle page (nodes ++ more) (strokes ++ rest)

end

variable {handle : String → String} {strokes others : List Stroke} {nodes more : List Node}

namespace MarksAnywhere

theorem inLine (marks : MarksAnywhere handle strokes nodes) : MarksInLine handle strokes nodes :=
  fun page rest more _ => marks page rest more

theorem plain (strokes : List Stroke) (unmarked : ∀ stroke ∈ strokes, stroke.isMark = false) :
    MarksAnywhere handle strokes [] := by
  intro page rest more later
  induction strokes generalizing page with
  | nil => exact later page
  | cons stroke strokes ih =>
    exact .plain (unmarked _ (List.mem_cons_self ..)) (ih (fun s member => unmarked s (List.mem_cons_of_mem _ member)) _)

theorem nil : MarksAnywhere handle [] [] :=
  plain [] nofun

theorem write {text : String} : MarksAnywhere handle [.write text] [] :=
  plain _ (by simp [Stroke.isMark])

theorem newline : MarksAnywhere handle [.newline] [] :=
  plain _ (by simp [Stroke.isMark])

theorem writeIf {condition : Bool} {text : String} : MarksAnywhere handle (Stroke.writeIf condition text) [] := by
  cases condition with
  | true => exact write
  | false => exact nil

theorem append (first : MarksAnywhere handle strokes nodes) (second : MarksAnywhere handle others more) :
    MarksAnywhere handle (strokes ++ others) (nodes ++ more) := by
  intro page rest last later
  rw [List.append_assoc, List.append_assoc]
  exact first page _ _ fun page => second page rest last later

theorem after (first : MarksAnywhere handle strokes []) (second : MarksAnywhere handle others nodes) :
    MarksAnywhere handle (strokes ++ others) nodes :=
  first.append second

theorem close (first : MarksAnywhere handle strokes nodes) (second : MarksAnywhere handle others []) :
    MarksAnywhere handle (strokes ++ others) nodes :=
  List.append_nil nodes ▸ first.append second

theorem flatMap {α : Type} {list : List α} {f : α → List Stroke} {g : α → List Node}
    (each : ∀ a, MarksAnywhere handle (f a) (g a)) : MarksAnywhere handle (list.flatMap f) (list.flatMap g) := by
  induction list with
  | nil => exact nil
  | cons a rest ih => exact (each a).append ih

end MarksAnywhere

namespace MarksInLine

/-- A mark before the strokes of its node. -/
theorem node (node : Node) (printed : node.strokes handle = .mark node.span :: strokes)
    (marks : MarksInLine handle strokes nodes) : MarksInLine handle (.mark node.span :: strokes) (node :: nodes) := by
  intro page rest more anchored later
  refine .node ⟨rest, by rw [printed]; rfl⟩ anchored (marks _ rest more ?_ later)
  rw [Page.here_stroke_mark]
  exact anchored

theorem expr (e : Expr) (printed : e.strokes handle = .mark e.span :: strokes)
    (marks : MarksInLine handle strokes nodes) : MarksInLine handle (.mark e.span :: strokes) (.expr e :: nodes) :=
  node (.expr e) printed marks

theorem append (first : MarksInLine handle strokes nodes) (second : MarksAnywhere handle others more) :
    MarksInLine handle (strokes ++ others) (nodes ++ more) := by
  intro page rest last anchored later
  rw [List.append_assoc] at anchored
  rw [List.append_assoc, List.append_assoc]
  exact first page _ _ anchored fun page => second page rest last later

theorem close (first : MarksInLine handle strokes nodes) (second : MarksAnywhere handle others []) :
    MarksInLine handle (strokes ++ others) nodes :=
  List.append_nil nodes ▸ first.append second

/-- After a text that ends inside a line. -/
theorem afterText {text : String} (marks : MarksInLine handle strokes nodes) (ends : Stroke.endsInLine text = true) :
    MarksAnywhere handle (.write text :: strokes) nodes :=
  fun page rest more later => .plain rfl (marks _ rest more (.inl (page.column_stroke_write ends)) later)

/-- At the beginning of a text that is written wherever it stands. -/
theorem anywhere (marks : MarksInLine handle strokes nodes) (writes : Stroke.writesNext strokes = true) :
    MarksAnywhere handle strokes nodes :=
  fun page rest more later => marks page rest more (.inr (Stroke.writesNext_append writes rest)) later

/-- After a text that may be missing. -/
theorem afterOptional (marks : MarksInLine handle strokes nodes) (condition : Bool) (text : String)
    (ends : Stroke.endsInLine text = true) : MarksInLine handle (Stroke.writeIf condition text ++ strokes) nodes := by
  cases condition with
  | true => exact (marks.afterText ends).inLine
  | false => exact marks

theorem separated {α : Type} {separator : String} {list : List α} {f : α → List Stroke} {g : α → List Node}
    (each : ∀ a, MarksInLine handle (f a) (g a)) (ends : Stroke.endsInLine separator = true) :
    MarksInLine handle (Stroke.separated separator (list.map f)) (list.flatMap g) := by
  induction list with
  | nil => exact MarksAnywhere.nil.inLine
  | cons a rest ih =>
    cases rest with
    | nil =>
      rw [List.flatMap_singleton]
      exact each a
    | cons b rest => exact (each a).append (ih.afterText ends)

end MarksInLine

/-! ## What the printer marks -/

mutual

theorem Expr.marks (e : Expr) : MarksInLine handle (e.strokes handle) (Node.exprs e.walk) := by
  cases e with
  | literal span value => exact .expr _ rfl MarksAnywhere.write.inLine
  | ident span name => exact .expr _ rfl MarksAnywhere.write.inLine
  | call span callee args =>
    simp only [Expr.strokes, Expr.walk, Node.exprs_cons, Node.exprs_append]
    exact .expr _ (by rw [Expr.strokes]; rfl)
      (((Expr.marks callee).append ((Expr.marks_list args).afterText rfl)).close .write)
  | new span callee args =>
    simp only [Expr.strokes, Expr.walk, Node.exprs_cons, Node.exprs_append]
    exact .expr _ (by rw [Expr.strokes]; rfl)
      ((((Expr.marks callee).afterText rfl).append ((Expr.marks_list args).afterText rfl)).close .write).inLine
  | member span object property =>
    simp only [Expr.strokes, Expr.walk, Node.exprs_cons]
    exact .expr _ (by rw [Expr.strokes]; rfl) ((Expr.marks object).close .write)
  | array span elements =>
    simp only [Expr.strokes, Expr.walk, Node.exprs_cons]
    exact .expr _ (by rw [Expr.strokes]; rfl) (((Expr.marks_list elements).afterText rfl).close .write).inLine
  | object span properties =>
    cases properties with
    | nil => exact .expr _ rfl MarksAnywhere.write.inLine
    | cons property rest =>
      simp only [Expr.strokes, Expr.walk, Node.exprs_cons]
      exact .expr _ (by rw [Expr.strokes]; rfl)
        (((Property.marks_list (property :: rest)).afterText rfl).close .write).inLine
  | arrow span params body =>
    have inner := Expr.marks body
    simp only [Expr.strokes, Expr.walk, Node.exprs_cons]
    refine .expr _ (by rw [Expr.strokes]; rfl) (MarksInLine.afterText ?_ (Stroke.endsInLine_append _ rfl)).inLine
    split
    · exact ((inner.afterText rfl).close .write).inLine
    · exact inner
  | paren span inner =>
    simp only [Expr.strokes, Expr.walk, Node.exprs_cons]
    exact .expr _ (by rw [Expr.strokes]; rfl) (((Expr.marks inner).afterText rfl).close .write).inLine
  | spread span inner =>
    simp only [Expr.strokes, Expr.walk, Node.exprs_cons]
    exact .expr _ (by rw [Expr.strokes]; rfl) ((Expr.marks inner).afterText rfl).inLine
  | external span source name => exact .expr _ rfl MarksAnywhere.write.inLine

theorem Expr.marks_list (list : List Expr) :
    MarksInLine handle (Expr.strokesList handle list) (Node.exprs (Expr.walkAll list)) := by
  match list with
  | [] => exact MarksAnywhere.nil.inLine
  | [e] =>
    simp only [Expr.strokesList, Expr.walkAll, List.append_nil]
    exact Expr.marks e
  | e :: next :: rest =>
    have tail := Expr.marks_list (next :: rest)
    rw [Expr.strokesList, Expr.walkAll, Node.exprs_append]
    · exact (Expr.marks e).append (tail.afterText rfl)
    · simp

theorem Property.marks (property : Property) :
    MarksAnywhere handle (property.strokes handle) (Node.exprs property.walk) := by
  cases property with
  | keyValue key value =>
    simp only [Property.strokes, Property.walk, Node.exprs_append]
    exact (PropertyName.marks key).append ((Expr.marks value).afterText rfl)
  | shorthand name => exact .write
  | spread value =>
    simp only [Property.strokes, Property.walk]
    exact (Expr.marks value).afterText rfl

theorem Property.marks_list (list : List Property) :
    MarksInLine handle (Property.strokesList handle list) (Node.exprs (Property.walkAll list)) := by
  match list with
  | [] => exact MarksAnywhere.nil.inLine
  | [property] =>
    simp only [Property.strokesList, Property.walkAll, List.append_nil]
    exact (Property.marks property).inLine
  | property :: next :: rest =>
    have tail := Property.marks_list (next :: rest)
    rw [Property.strokesList, Property.walkAll, Node.exprs_append]
    · exact (Property.marks property).inLine.append (tail.afterText rfl)
    · simp

theorem PropertyName.marks (name : PropertyName) :
    MarksAnywhere handle (name.strokes handle) (Node.exprs name.walk) := by
  cases name with
  | computed key =>
    simp only [PropertyName.strokes, PropertyName.walk]
    exact ((Expr.marks key).afterText rfl).close .write
  | _ => exact .write

end

mutual

/-- A type is marked in the computed names of members only. -/
theorem TypeExpr.marks (type : TypeExpr) : MarksAnywhere handle (type.strokes handle) (Node.exprs type.exprs) := by
  cases type with
  | array element =>
    have inner := TypeExpr.marks element
    simp only [TypeExpr.strokes, TypeExpr.exprs]
    refine MarksAnywhere.close ?_ .write
    split
    · exact (MarksAnywhere.write.after inner).close .write
    · exact inner
  | tuple elements =>
    simp only [TypeExpr.strokes, TypeExpr.exprs]
    exact (MarksAnywhere.write.after (TypeExpr.marks_list ", " elements)).close .write
  | union members =>
    simp only [TypeExpr.strokes, TypeExpr.exprs]
    exact TypeExpr.marks_list " | " members
  | function params result =>
    simp only [TypeExpr.strokes, TypeExpr.exprs, Node.exprs_append]
    exact (MarksAnywhere.write.after (TypeParam.marks_list params)).append
      (MarksAnywhere.write.after (TypeExpr.marks result))
  | constructor params result =>
    simp only [TypeExpr.strokes, TypeExpr.exprs, Node.exprs_append]
    exact (MarksAnywhere.write.after (MarksAnywhere.write.after (TypeParam.marks_list params))).append
      (MarksAnywhere.write.after (TypeExpr.marks result))
  | applied name args =>
    simp only [TypeExpr.strokes, TypeExpr.exprs]
    exact (MarksAnywhere.write.after (MarksAnywhere.write.after (TypeExpr.marks_list ", " args))).close .write
  | object members =>
    cases members with
    | nil => exact .write
    | cons member rest =>
      simp only [TypeExpr.strokes, TypeExpr.exprs]
      exact (MarksAnywhere.write.after (TypeMember.marks_list (member :: rest))).close .write
  | predicate param target =>
    simp only [TypeExpr.strokes, TypeExpr.exprs]
    exact MarksAnywhere.write.after (TypeExpr.marks target)
  | paren inner =>
    simp only [TypeExpr.strokes, TypeExpr.exprs]
    exact (MarksAnywhere.write.after (TypeExpr.marks inner)).close .write
  | _ => exact .write

theorem TypeExpr.marks_list (separator : String) (list : List TypeExpr) :
    MarksAnywhere handle (TypeExpr.strokesList handle separator list) (Node.exprs (TypeExpr.exprsOfList list)) := by
  match list with
  | [] => exact .nil
  | [type] =>
    simp only [TypeExpr.strokesList, TypeExpr.exprsOfList, List.append_nil]
    exact TypeExpr.marks type
  | type :: next :: rest =>
    have tail := TypeExpr.marks_list separator (next :: rest)
    rw [TypeExpr.strokesList, TypeExpr.exprsOfList, Node.exprs_append]
    · exact (TypeExpr.marks type).append (MarksAnywhere.write.after tail)
    · simp

theorem TypeParam.marks_list (list : List TypeParam) :
    MarksAnywhere handle (TypeParam.strokesList handle list) (Node.exprs (TypeParam.exprsOfList list)) := by
  have typed {type : TypeExpr} (marks : MarksAnywhere handle (type.strokes handle) (Node.exprs type.exprs))
      (name : String) (optional : Bool) :
      MarksAnywhere handle ((TypeParam.mk name (some type) optional).strokes handle) (Node.exprs type.exprs) := by
    simp only [TypeParam.strokes]
    exact (MarksAnywhere.write.after .writeIf).after (MarksAnywhere.write.after marks)
  have untyped (name : String) (optional : Bool) :
      MarksAnywhere handle ((TypeParam.mk name none optional).strokes handle) [] := by
    simp only [TypeParam.strokes]
    exact MarksAnywhere.write.after .writeIf
  match list with
  | [] => exact .nil
  | [.mk name (some type) optional] =>
    simp only [TypeParam.strokesList, TypeParam.exprsOfList, List.append_nil]
    exact typed (TypeExpr.marks type) name optional
  | [.mk name none optional] => exact untyped name optional
  | .mk name (some type) optional :: next :: rest =>
    have tail := TypeParam.marks_list (next :: rest)
    rw [TypeParam.strokesList, TypeParam.exprsOfList, Node.exprs_append]
    · exact (typed (TypeExpr.marks type) name optional).append (MarksAnywhere.write.after tail)
    · simp
  | .mk name none optional :: next :: rest =>
    have tail := TypeParam.marks_list (next :: rest)
    rw [TypeParam.strokesList, TypeParam.exprsOfList]
    · exact (untyped name optional).after (MarksAnywhere.write.after tail)
    · simp

theorem TypeMember.marks (member : TypeMember) :
    MarksAnywhere handle (member.strokes handle) (Node.exprs member.exprs) := by
  cases member with
  | property name type optional =>
    simp only [TypeMember.strokes, TypeMember.exprs, Node.exprs_append]
    exact ((PropertyName.marks name).close .writeIf).append
      (MarksAnywhere.write.after (TypeExpr.marks type))
  | index keyName keyType valueType =>
    simp only [TypeMember.strokes, TypeMember.exprs, Node.exprs_append]
    exact (MarksAnywhere.write.after (TypeExpr.marks keyType)).append
      (MarksAnywhere.write.after (TypeExpr.marks valueType))

theorem TypeMember.marks_list (list : List TypeMember) :
    MarksAnywhere handle (TypeMember.strokesList handle list) (Node.exprs (TypeMember.exprsOfList list)) := by
  cases list with
  | nil => exact .nil
  | cons member rest =>
    simp only [TypeMember.strokesList, TypeMember.exprsOfList, Node.exprs_append]
    exact (TypeMember.marks member).append (MarksAnywhere.write.after (TypeMember.marks_list rest))

end

theorem TypeExpr.marks_option (type : Option TypeExpr) :
    MarksAnywhere handle (TypeExpr.strokesOption handle type) (Node.exprs (TypeExpr.exprsOfOption type)) := by
  cases type with
  | none => exact .nil
  | some type => exact MarksAnywhere.write.after type.marks

theorem Expr.marks_init (init : Option Expr) :
    MarksAnywhere handle (Expr.strokesInit handle init) (Node.exprs (Expr.walkOption init)) := by
  cases init with
  | none => exact .nil
  | some value => exact value.marks.afterText rfl

theorem Expr.marks_decorators (decorators : List Expr) :
    MarksAnywhere handle (Expr.strokesDecorators handle decorators) (Node.exprs (Expr.walkAll decorators)) := by
  induction decorators with
  | nil => exact .nil
  | cons decorator rest ih =>
    rw [Expr.walkAll, Node.exprs_append]
    exact ((decorator.marks.afterText rfl).close .newline).append ih

theorem VarDecl.marks (decl : VarDecl) : MarksAnywhere handle (decl.strokes handle) (Node.exprs decl.exprs) := by
  unfold VarDecl.strokes VarDecl.exprs
  rw [Node.exprs_append]
  exact ((MarksAnywhere.writeIf.after (MarksAnywhere.write.after (TypeExpr.marks_option decl.type))).append
    (Expr.marks_init decl.init)).close .write

theorem Stmt.marks (stmt : Stmt) : MarksInLine handle (stmt.strokes handle) (Node.exprs stmt.exprs) := by
  match stmt with
  | .expr value => exact value.marks.close .write
  | .result none => exact (MarksAnywhere.write.after .write).inLine
  | .result (some value) =>
    exact ((MarksAnywhere.write.after (value.marks.afterText rfl)).close .write).inLine
  | .variable decl => exact decl.marks.inLine

/-! ### Nodes at the beginning of a line -/

/-- An expression before a text does not leave its line unwritten. -/
theorem Expr.writesNext (e : Expr) {text : String} (visible : text ≠ "") (rest : List Stroke) :
    Stroke.writesNext (e.strokes handle ++ .write text :: rest) = true := by
  match e with
  | .literal .. | .ident .. | .external .. => simp [Expr.strokes, visible]
  | .call span callee args =>
    have first := callee.writesNext (show "(" ≠ "" by decide)
      (Expr.strokesList handle args ++ .write ")" :: .write text :: rest)
    simpa [Expr.strokes] using first
  | .member span inner property =>
    have dotted : "." ++ property ≠ "" := by simp
    have first := inner.writesNext dotted (.write text :: rest)
    simpa [Expr.strokes] using first
  | .object span [] | .object span (_ :: _) => simp [Expr.strokes]
  | .new .. | .array .. | .arrow .. | .paren .. | .spread .. => simp [Expr.strokes]

theorem Stmt.writesNext (stmt : Stmt) : Stroke.writesNext (stmt.strokes handle) = true := by
  match stmt with
  | .expr value => exact value.writesNext (by decide) []
  | .result none | .result (some _) => simp [Stmt.strokes]
  | .variable decl => simp [Stmt.strokes, VarDecl.strokes]

theorem PropertyName.writesNext (name : PropertyName) {rest : List Stroke} (writes : Stroke.writesNext rest = true) :
    Stroke.writesNext (name.strokes handle ++ rest) = true := by
  cases name <;> simp [PropertyName.strokes, writes]

@[simp] theorem Expr.writesNext_decorators (decorators : List Expr) (rest : List Stroke) :
    Stroke.writesNext (Expr.strokesDecorators handle decorators ++ rest) =
      (!decorators.isEmpty || Stroke.writesNext rest) := by
  cases decorators <;> simp [Expr.strokesDecorators]

theorem Member.writesNext (member : Member) : Stroke.writesNext (member.strokes handle) = true := by
  cases member with
  | constructor c => simp [Member.strokes]
  | method m =>
    have named : Stroke.writesNext (m.name.strokes handle ++
        .write "(" :: strokesCallable handle m.params m.result m.body) = true := m.name.writesNext rfl
    simp [Member.strokes, named]
  | field f =>
    obtain ⟨name, type, init, isStatic, decorators, comment⟩ := f
    have ended : Stroke.writesNext (TypeExpr.strokesOption handle type ++ (Expr.strokesInit handle init ++ [.write ";"])) =
        true := by
      cases type <;> cases init <;> simp [TypeExpr.strokesOption, Expr.strokesInit]
    cases comment with
    | some comment => simp [Member.strokes, Stroke.comment]
    | none => simp [Member.strokes, name.writesNext ended]
  | accessor a => cases setter : a.isSetter <;> simp [Member.strokes, setter]

theorem Block.marks (body : Option Block) : MarksAnywhere handle (Block.strokes handle body) (Block.nodes body) := by
  match body with
  | none => exact .write
  | some [] => exact .write
  | some (first :: rest) =>
    have each (stmt : Located Stmt) : MarksAnywhere handle (.newline :: .mark stmt.span :: stmt.value.strokes handle)
        (.stmt stmt :: Node.exprs stmt.value.exprs) :=
      MarksAnywhere.newline.after ((MarksInLine.node (.stmt stmt) rfl stmt.value.marks).anywhere stmt.value.writesNext)
    simp only [Block.strokes, Block.nodes, Option.getD_some]
    exact ((MarksAnywhere.plain [.write _, .deeper] (by simp [Stroke.isMark])).after (.flatMap each)).close
      (.plain _ (by simp [Stroke.isMark]))

/-- After decorators in the same line. -/
theorem MarksInLine.afterDecorators (marks : MarksInLine handle strokes nodes) (decorators : List Expr) :
    MarksInLine handle
      ((decorators.flatMap fun decorator => .write "@" :: decorator.strokes handle ++ [.write " "]) ++ strokes)
      (Node.exprs (Expr.walkAll decorators) ++ nodes) := by
  induction decorators with
  | nil => exact marks
  | cons decorator rest ih =>
    rw [Expr.walkAll, Node.exprs_append, List.flatMap_cons, List.append_assoc, List.append_assoc, List.append_assoc]
    exact ((decorator.marks.afterText rfl).append (ih.afterText rfl)).inLine

theorem Param.marks (param : Param) : MarksInLine handle (param.strokes handle) param.nodes := by
  obtain ⟨name, span, type, optional, access, isReadonly, decorators⟩ := param
  have named : MarksInLine handle
      (.mark span :: .write name :: (Stroke.writeIf optional "?" ++ TypeExpr.strokesOption handle type))
      (.param ⟨name, span, type, optional, access, isReadonly, decorators⟩ ::
        Node.exprs (TypeExpr.exprsOfOption type)) :=
    (MarksInLine.node (.param ⟨name, span, type, optional, access, isReadonly, decorators⟩) rfl
      MarksAnywhere.write.inLine).append (MarksAnywhere.writeIf.after (TypeExpr.marks_option type))
  have readonly := named.afterOptional isReadonly "readonly " rfl
  simp only [Param.strokes, Param.nodes, List.append_assoc]
  refine MarksInLine.afterDecorators ?_ decorators
  cases access with
  | none => exact readonly
  | some access => exact (readonly.afterText (Stroke.endsInLine_append _ rfl)).inLine

theorem marks_callable (params : List Param) (result : Option TypeExpr) (body : Option Block) :
    MarksInLine handle (strokesCallable handle params result body) (nodesOfCallable params result body) := by
  unfold strokesCallable nodesOfCallable
  exact ((MarksInLine.separated Param.marks rfl).append
    (MarksAnywhere.write.after (TypeExpr.marks_option result))).append (Block.marks body)

theorem Member.marks (member : Member) : MarksAnywhere handle (member.strokes handle) member.nodes := by
  cases member with
  | constructor c => exact (marks_callable c.params none c.body).afterText rfl
  | method m =>
    exact (((Expr.marks_decorators m.decorators).close .writeIf).append m.name.marks).append
      ((marks_callable m.params m.result m.body).afterText rfl)
  | field f =>
    obtain ⟨name, type, init, isStatic, decorators, comment⟩ := f
    refine (((((MarksAnywhere.after ?_ (Expr.marks_decorators decorators)).close .writeIf).append name.marks).append
      (TypeExpr.marks_option type)).append (Expr.marks_init init)).close .write
    cases comment with
    | some comment => exact MarksAnywhere.write.after .newline
    | none => exact .nil
  | accessor a =>
    exact (((Expr.marks_decorators a.decorators).close .writeIf).append
      (MarksAnywhere.write.after a.name.marks)).append ((marks_callable a.params a.type a.body).afterText rfl)

theorem ClassDecl.marks_body (decl : ClassDecl) : MarksAnywhere handle (decl.strokesBody handle) decl.nodesOfBody := by
  have each (member : Located Member) :
      MarksAnywhere handle (.newline :: .mark member.span :: member.value.strokes handle)
        (.member member :: member.value.nodes) :=
    MarksAnywhere.newline.after
      ((MarksInLine.node (.member member) rfl member.value.marks.inLine).anywhere member.value.writesNext)
  obtain ⟨name, base, members, decorators, isDeclare⟩ := decl
  have listed : MarksAnywhere handle (.write " \x7b" :: .deeper ::
      members.flatMap fun member => .newline :: .mark member.span :: member.value.strokes handle)
      (members.flatMap fun member => .member member :: member.value.nodes) :=
    (MarksAnywhere.plain [.write _, .deeper] (by simp [Stroke.isMark])).after (.flatMap each)
  refine (((MarksAnywhere.writeIf.after (MarksAnywhere.write.after ?_)).append listed).close
    (.plain _ ?_)).close .write
  · cases base with
    | none => exact .nil
    | some base => exact base.marks.afterText rfl
  · cases members <;> simp [Stroke.isMark]

theorem Decl.marks (exported : Bool) (decl : Decl) : MarksAnywhere handle (decl.strokes handle exported) decl.nodes := by
  match decl with
  | .classDecl d => exact ((Expr.marks_decorators d.decorators).close .writeIf).append d.marks_body
  | .function d =>
    exact (MarksAnywhere.writeIf.after .writeIf).after
      ((marks_callable d.params d.result d.body).afterText (Stroke.endsInLine_append _ rfl))
  | .variable d => exact MarksAnywhere.writeIf.after d.marks
  | .interface d =>
    exact (MarksAnywhere.writeIf.after .writeIf).after
      (MarksAnywhere.write.after (TypeExpr.marks (.object d.members)))
  | .typeAlias d =>
    exact ((MarksAnywhere.writeIf.after .writeIf).after (MarksAnywhere.write.after d.type.marks)).close
      .write
  | .enum d =>
    have each (member : EnumMember) :
        MarksInLine handle (member.strokes handle) (Node.exprs (Expr.walkOption member.init)) :=
      (MarksAnywhere.write.after (Expr.marks_init member.init)).inLine
    exact (((MarksAnywhere.writeIf.after .writeIf).after .writeIf).after
      ((MarksInLine.separated each rfl).afterText (Stroke.endsInLine_append _ rfl))).close .write

theorem Item.marks (item : Item) : MarksInLine handle (item.strokes handle) item.nodes := by
  match item with
  | .decl d => exact (d.marks false).inLine
  | .exportDecl d => exact (d.marks true).inLine
  | .stmt s => exact s.marks
  | .imports _ | .exportNamed .. | .exportAll _ => exact MarksAnywhere.write.inLine

theorem Decl.writesNext (exported : Bool) (decl : Decl) : Stroke.writesNext (decl.strokes handle exported) = true := by
  cases decl <;> simp [Decl.strokes, ClassDecl.strokesBody, VarDecl.strokes]

theorem Item.writesNext (item : Item) : Stroke.writesNext (item.strokes handle) = true := by
  match item with
  | .decl d => exact d.writesNext false
  | .exportDecl d => exact d.writesNext true
  | .stmt s => exact s.writesNext
  | .imports _ | .exportNamed .. | .exportAll _ => simp [Item.strokes, ImportDecl.text]

/-- The printer marks every node of the items. -/
theorem Items.marks_body (items : Items) : MarksAnywhere handle (items.body handle) items.nodes :=
  .flatMap fun item =>
    ((MarksInLine.node (.item item) rfl item.value.marks).anywhere item.value.writesNext).close .newline

end CompanionBuild
