import CompanionBuild.Proofs.Resource.Decorator
import CompanionBuild.Proofs.Resource.Loading

/-! # The component arguments of a unit

The objects that inlining works on stand in two places: in the call of a component decorator, and in the record of one
in a field `decorators`. Emptying them leaves the rest of the unit. Inlining fills them again, one after the other, and
leaves the rest as it is.
-/

namespace CompanionBuild.Resource

/-- A piece of a unit with its component arguments emptied, and the properties they had, in order. -/
structure Hollow (α : Type) where
  rest : α
  arguments : List (List Property)

namespace Hollow

variable {α β : Type}

/-- A piece that has no component arguments. -/
def solid (piece : α) : Hollow α :=
  ⟨piece, []⟩

def map (f : α → β) (piece : Hollow α) : Hollow β :=
  ⟨f piece.rest, piece.arguments⟩

def all (pieces : List (Hollow α)) : Hollow (List α) :=
  ⟨pieces.map (·.rest), pieces.flatMap (·.arguments)⟩

end Hollow

/-! ## Where component arguments stand -/

def hollowArguments : List Expr → Hollow (List Expr)
  | [.object span properties] => ⟨[.object span []], [properties]⟩
  | args => .solid args

def hollowRecordProperty : Property → Hollow Property
  | .keyValue (.ident "args") (.array span elements) =>
    (hollowArguments elements).map fun elements => .keyValue (.ident "args") (.array span elements)
  | property => .solid property

section

variable (u : SourceUnit)

def hollowDecorator : Expr → Hollow Expr
  | .call span callee args =>
    if isComponent u callee then (hollowArguments args).map (.call span callee) else .solid (.call span callee args)
  | decorator => .solid decorator

def hollowRecord : Expr → Hollow Expr
  | .object span properties =>
    if isComponentRecord u properties then (Hollow.all (properties.map hollowRecordProperty)).map (.object span)
    else .solid (.object span properties)
  | annotated => .solid annotated

def hollowInit (name : PropertyName) (init : Option Expr) : Hollow (Option Expr) :=
  if name.ident? = some "decorators" then
    match init with
    | some (.array span records) =>
      (Hollow.all (records.map (hollowRecord u))).map fun records => some (.array span records)
    | _ => .solid init
  else .solid init

def hollowMember (member : Located Member) : Hollow (Located Member) :=
  match member.value with
  | .field f => (hollowInit u f.name f.init).map fun init => { member with value := .field { f with init } }
  | _ => .solid member

def hollowClass (c : ClassDecl) : Hollow ClassDecl :=
  let decorators := Hollow.all (c.decorators.map (hollowDecorator u))
  let members := Hollow.all (c.members.map (hollowMember u))
  ⟨{ c with decorators := decorators.rest, members := members.rest }, decorators.arguments ++ members.arguments⟩

def hollowItem (item : Located Item) : Hollow (Located Item) :=
  match item.value.class? with
  | some c => (hollowClass u c).map fun c => { item with value := item.value.withClass c }
  | none => .solid item

/-- A unit with its component arguments emptied, and their properties. -/
def hollowUnit : Hollow SourceUnit :=
  (Hollow.all (u.items.map (hollowItem u))).map fun items => { u with items }

end

/-- Where the component arguments of an item stand depends on the imports alone. -/
theorem hollowItem_congr {u u' : SourceUnit} (same : u.imports = u'.imports) : hollowItem u = hollowItem u' := by
  have component : isComponent u = isComponent u' := isComponent_congr same
  have decorator : hollowDecorator u = hollowDecorator u' := by
    funext d
    unfold hollowDecorator
    rw [component]
  have record : hollowRecord u = hollowRecord u' := by
    funext e
    unfold hollowRecord isComponentRecord
    rw [component]
  have member : hollowMember u = hollowMember u' := by
    funext member
    unfold hollowMember hollowInit
    rw [record]
  funext item
  unfold hollowItem hollowClass
  rw [decorator, member]

/-- The type of a record is not among its arguments. -/
theorem isComponentRecord_rest (u : SourceUnit) (properties : List Property) :
    isComponentRecord u (Hollow.all (properties.map hollowRecordProperty)).rest = isComponentRecord u properties := by
  unfold isComponentRecord Hollow.all
  rw [List.map_map, List.any_map]
  congr 1
  funext property
  rw [Function.comp_apply, Function.comp_apply]
  fun_cases hollowRecordProperty property <;> rfl

theorem hollowItem_withClass {item : Located Item} {c : ClassDecl} (isClass : item.value.class? = some c)
    (u : SourceUnit) (other : ClassDecl) : hollowItem u { item with value := item.value.withClass other } =
      (hollowClass u other).map fun c => { item with value := item.value.withClass c } := by
  simp only [hollowItem, Item.class?_withClass isClass, Item.withClass_withClass]

/-! ## Filling them -/

/-- The arguments of a piece are filled anew, one after the other, and the rest is the same. -/
structure Refilled {α : Type} (P : List Property → Log → List Property → Prop) (before : Hollow α) (log : Log)
    (after : Hollow α) : Prop where
  rest : after.rest = before.rest
  arguments : InTurn P before.arguments log after.arguments

namespace Refilled

variable {α β : Type} {P : List Property → Log → List Property → Prop} {log : Log}

theorem solid (piece : α) : Refilled P (.solid piece) [] (.solid piece) :=
  ⟨rfl, .nil⟩

theorem map {before after : Hollow α} (f : α → β) (refilled : Refilled P before log after) :
    Refilled P (before.map f) log (after.map f) :=
  ⟨congrArg f refilled.rest, refilled.arguments⟩

theorem all {f : α → Hollow β} {list made : List α}
    (each : InTurn (fun a log b => Refilled P (f a) log (f b)) list log made) :
    Refilled P (.all (list.map f)) log (.all (made.map f)) := by
  induction each with
  | nil => exact ⟨rfl, .nil⟩
  | cons first _ ih => exact ⟨congrArg₂ List.cons first.rest ih.rest, first.arguments.append ih.arguments⟩

end Refilled

/-- The property that holds all styles, if there are any. -/
def stylesProperty (styles : List Expr) : List Property :=
  if styles.isEmpty then [] else [.named "styles" (.array .synthetic styles)]

/-- The properties of a component argument with their resources in place. -/
def inlineObject {σ : Type} (load : String → ResourceM σ String) (properties : List Property) :
    ResourceM σ (List Property) := do
  let (kept, styles) ← inlineProperties load properties
  pure (kept ++ stylesProperty styles)

theorem inlineArguments_object {σ : Type} (load : String → ResourceM σ String) (span : Span)
    (properties : List Property) : inlineArguments load [.object span properties] =
      inlineObject load properties >>= fun made => pure [.object span made] := by
  simp only [inlineArguments, inlineObject, stylesProperty, bind_assoc, pure_bind]

/-- Arguments are a single object, or inlining lets them be. -/
theorem arguments_cases (args : List Expr) : (∃ span properties, args = [.object span properties]) ∨
    hollowArguments args = .solid args ∧
      ∀ (σ : Type) (load : String → ResourceM σ String), inlineArguments load args = pure args := by
  fun_cases hollowArguments args with
  | case1 span properties => exact .inl ⟨span, properties, rfl⟩
  | case2 _ other =>
    refine .inr ⟨rfl, fun σ load => ?_⟩
    unfold inlineArguments
    split
    · exact (other _ _ rfl).elim
    · rfl

section

variable {σ : Type} {load : String → ResourceM σ String} {P : List Property → Log → List Property → Prop}
  (each : ∀ properties, Gives load (inlineObject load properties) (P properties))

include each

theorem gives_inlineArguments (args : List Expr) : Gives load (inlineArguments load args) fun log made =>
    Refilled P (hollowArguments args) log (hollowArguments made) := by
  obtain ⟨span, properties, rfl⟩ | ⟨solid, stays⟩ := arguments_cases args
  · rw [inlineArguments_object]
    exact (each properties).map fun log made fits => ⟨rfl, .singleton fits⟩
  · rw [stays]
    refine .pure ?_
    rw [solid]
    exact .solid args

theorem gives_inlineRecordProperty (property : Property) : Gives load (inlineRecordProperty load property)
    fun log made => Refilled P (hollowRecordProperty property) log (hollowRecordProperty made) := by
  fun_cases inlineRecordProperty load property with
  | case1 span elements =>
    exact (gives_inlineArguments each elements).map fun log made refilled =>
      refilled.map fun elements => Property.keyValue (.ident "args") (.array span elements)
  | case2 property other =>
    have solid : hollowRecordProperty property = .solid property := by
      unfold hollowRecordProperty
      split
      · exact (other _ _ rfl).elim
      · rfl
    refine .pure ?_
    rw [solid]
    exact .solid property

variable (u : SourceUnit)

theorem gives_inlineDecorator (decorator : Expr) : Gives load (inlineDecorator load u decorator) fun log made =>
    Refilled P (hollowDecorator u decorator) log (hollowDecorator u made) := by
  cases decorator with
  | call span callee args =>
    by_cases component : isComponent u callee
    · simp only [inlineDecorator, component, if_true]
      refine (gives_inlineArguments each args).map fun log made refilled => ?_
      simp only [hollowDecorator, component, if_true]
      exact refilled.map _
    · simp only [inlineDecorator, component]
      refine .pure ?_
      simp only [hollowDecorator, component]
      exact .solid _
  | _ => exact .pure (.solid _)

theorem gives_inlineRecord (annotated : Expr) : Gives load (inlineRecord load u annotated) fun log made =>
    Refilled P (hollowRecord u annotated) log (hollowRecord u made) := by
  cases annotated with
  | object span properties =>
    by_cases component : isComponentRecord u properties
    · simp only [inlineRecord, component, if_true]
      refine (Gives.mapM (gives_inlineRecordProperty each) properties).map fun log made refilled => ?_
      have filled : Refilled P _ log _ := .all refilled
      -- The properties that tell the type of the record are in the rest, which is the same.
      have stays : isComponentRecord u made = true := by
        rw [← isComponentRecord_rest, filled.rest, isComponentRecord_rest, component]
      simp only [hollowRecord, component, stays, if_true]
      exact filled.map _
    · simp only [inlineRecord, component]
      refine .pure ?_
      simp only [hollowRecord, component]
      exact .solid _
  | _ => exact .pure (.solid _)

theorem gives_inlineInit (name : PropertyName) (init : Option Expr) : Gives load (inlineInit load u name init)
    fun log made => Refilled P (hollowInit u name init) log (hollowInit u name made) := by
  by_cases named : name.ident? = some "decorators"
  · simp only [inlineInit, hollowInit, named, if_true]
    cases init with
    | none => exact .pure (.solid _)
    | some value =>
      cases value with
      | array span records =>
        exact (Gives.mapM (gives_inlineRecord each u) records).map fun log made refilled => (Refilled.all refilled).map _
      | _ => exact .pure (.solid _)
  · simp only [inlineInit, hollowInit, named]
    exact .pure (.solid _)

theorem gives_inlineMember (member : Located Member) : Gives load (inlineMember load u member) fun log made =>
    Refilled P (hollowMember u member) log (hollowMember u made) := by
  obtain ⟨span, value⟩ := member
  cases value with
  | field f =>
    rw [inlineMember_field]
    exact (gives_inlineInit each u f.name f.init).map fun log made refilled =>
      refilled.map fun init => (⟨span, .field { f with init }⟩ : Located Member)
  | _ => exact .pure (.solid _)

theorem gives_inlineClass (c : ClassDecl) : Gives load (inlineClass load u c) fun log made =>
    Refilled P (hollowClass u c) log (hollowClass u made) := by
  refine .bind (Gives.mapM (gives_inlineDecorator each u) c.decorators) fun decorators => ?_
  refine (Gives.mapM (gives_inlineMember each u) c.members).map fun log members ofMembers before ofDecorators => ?_
  have decoratorsFilled : Refilled P _ before _ := .all ofDecorators
  have membersFilled : Refilled P _ log _ := .all ofMembers
  refine ⟨?_, decoratorsFilled.arguments.append membersFilled.arguments⟩
  simp only [hollowClass, decoratorsFilled.rest, membersFilled.rest]

theorem gives_inlineItem (item : Located Item) : Gives load (inlineItem load u item) fun log made =>
    Refilled P (hollowItem u item) log (hollowItem u made) := by
  unfold inlineItem
  split
  case h_1 c isClass =>
    refine (gives_inlineClass each u c).map fun log made refilled => ?_
    rw [hollowItem_withClass isClass]
    simp only [hollowItem, isClass]
    exact refilled.map _
  case h_2 none =>
    refine .pure ?_
    simp only [hollowItem, none]
    exact .solid item

end

/-- Inlining changes the items of a unit, and none of its imports. -/
theorem exists_of_inlineUnit {σ : Type} {host : ResourceHost σ} {u made : SourceUnit} {state after : σ}
    (ran : (inlineUnit host u).run.run state = (.ok made, after)) :
    ∃ items, (u.items.mapM (inlineItem (host.get u.name) u)).run.run state = (.ok items, after) ∧
      made = { u with items } ∧ made.imports = u.imports := by
  obtain ⟨items, middle, inlined, rest⟩ := run_bind_ok ran
  cases rest
  exact ⟨items, inlined, rfl, SourceUnit.imports_eq (bare_of_inlined (Yields.forall₂_of_mapM ⟨state, _, inlined⟩))⟩

/-- Inlining fills the component arguments of a unit, one after the other, and leaves the rest as it is. -/
theorem gives_inlineUnit {σ : Type} (host : ResourceHost σ) (u : SourceUnit)
    {P : List Property → Log → List Property → Prop}
    (each : ∀ properties, Gives (host.get u.name) (inlineObject (host.get u.name) properties) (P properties)) :
    Gives (host.get u.name) (inlineUnit host u) fun log made => Refilled P (hollowUnit u) log (hollowUnit made) := by
  intro state made after ran
  obtain ⟨items, inlined, rfl, imports⟩ := exists_of_inlineUnit ran
  obtain ⟨log, loaded, related, replays⟩ := Gives.mapM (gives_inlineItem each u) u.items state items after inlined
  refine ⟨log, loaded, ?_, fun other last loads => run_bind_of_ok (replays other last loads)⟩
  -- With the same imports, the component arguments of the two units stand in the same places.
  dsimp only [hollowUnit]
  rw [hollowItem_congr imports]
  exact (Refilled.all related).map fun items => { u with items }

/-! ## Nothing left to fill -/

/-- Nothing is loaded for these properties, and they stay as they are. -/
def Settled (properties : List Property) : Prop :=
  ∀ (σ : Type) (load : String → ResourceM σ String), inlineObject load properties = pure properties

/-- All component arguments of a piece are settled. -/
def Hollow.Settled {α : Type} (piece : Hollow α) : Prop :=
  ∀ properties ∈ piece.arguments, Resource.Settled properties

section

variable {σ : Type} {load : String → ResourceM σ String}

/-- A list of pieces stays when each of them stays. -/
theorem mapM_of_settled {α : Type} {f : α → Hollow α} {step : α → ResourceM σ α} {list : List α}
    (each : ∀ a, (f a).Settled → step a = pure a) (settled : (Hollow.all (list.map f)).Settled) :
    list.mapM step = pure list := by
  induction list with
  | nil => rfl
  | cons a rest ih =>
    have first : (f a).Settled := fun properties mem => settled properties (List.mem_append_left _ mem)
    have others : (Hollow.all (rest.map f)).Settled := fun properties mem =>
      settled properties (List.mem_append_right _ mem)
    rw [List.mapM_cons, each a first, pure_bind, ih others, pure_bind]

theorem inlineArguments_of_settled {args : List Expr} (settled : (hollowArguments args).Settled) :
    inlineArguments load args = pure args := by
  obtain ⟨span, properties, rfl⟩ | ⟨-, stays⟩ := arguments_cases args
  · rw [inlineArguments_object, settled properties (List.mem_singleton_self _), pure_bind]
  · exact stays σ load

theorem inlineRecordProperty_of_settled {property : Property} (settled : (hollowRecordProperty property).Settled) :
    inlineRecordProperty load property = pure property := by
  fun_cases inlineRecordProperty load property with
  | case1 span elements => rw [inlineArguments_of_settled settled, pure_bind]
  | case2 => rfl

variable {u : SourceUnit}

theorem inlineDecorator_of_settled {decorator : Expr} (settled : (hollowDecorator u decorator).Settled) :
    inlineDecorator load u decorator = pure decorator := by
  fun_cases inlineDecorator load u decorator with
  | case1 span callee args component =>
    simp only [hollowDecorator, component, if_true] at settled
    rw [inlineArguments_of_settled settled, pure_bind]
  | case2 => rfl
  | case3 => rfl

theorem inlineRecord_of_settled {annotated : Expr} (settled : (hollowRecord u annotated).Settled) :
    inlineRecord load u annotated = pure annotated := by
  fun_cases inlineRecord load u annotated with
  | case1 span properties component =>
    simp only [hollowRecord, component, if_true] at settled
    rw [mapM_of_settled (fun _ => inlineRecordProperty_of_settled) settled, pure_bind]
  | case2 => rfl
  | case3 => rfl

theorem inlineInit_of_settled {name : PropertyName} {init : Option Expr} (settled : (hollowInit u name init).Settled) :
    inlineInit load u name init = pure init := by
  fun_cases inlineInit load u name init with
  | case1 named span records =>
    simp only [hollowInit, named, if_true] at settled
    rw [mapM_of_settled (fun _ => inlineRecord_of_settled) settled, pure_bind]
  | case2 => rfl
  | case3 => rfl

theorem inlineMember_of_settled {member : Located Member} (settled : (hollowMember u member).Settled) :
    inlineMember load u member = pure member := by
  obtain ⟨span, value⟩ := member
  cases value with
  | field f => rw [inlineMember_field, inlineInit_of_settled settled, pure_bind]
  | _ => rfl

theorem inlineClass_of_settled {c : ClassDecl} (settled : (hollowClass u c).Settled) :
    inlineClass load u c = pure c := by
  have decorators : (Hollow.all (c.decorators.map (hollowDecorator u))).Settled := fun properties mem =>
    settled properties (List.mem_append_left _ mem)
  have members : (Hollow.all (c.members.map (hollowMember u))).Settled := fun properties mem =>
    settled properties (List.mem_append_right _ mem)
  rw [inlineClass, mapM_of_settled (fun _ => inlineDecorator_of_settled) decorators, pure_bind,
    mapM_of_settled (fun _ => inlineMember_of_settled) members, pure_bind]

theorem inlineItem_of_settled {item : Located Item} (settled : (hollowItem u item).Settled) :
    inlineItem load u item = pure item := by
  unfold inlineItem
  split
  case h_1 c isClass =>
    simp only [hollowItem, isClass] at settled
    rw [inlineClass_of_settled settled, pure_bind, Item.withClass_self isClass]
  case h_2 => rfl

/-- A unit without anything to fill stays as it is, whatever the host. -/
theorem inlineUnit_of_settled (settled : (hollowUnit u).Settled) (host : ResourceHost σ) :
    inlineUnit host u = pure u := by
  rw [inlineUnit, mapM_of_settled (fun _ => inlineItem_of_settled) settled, pure_bind]
  cases u
  rfl

end

end CompanionBuild.Resource
