import CompanionBuild.Lowering.Expression
import CompanionBuild.Tree.Walk
import Mathlib.Data.List.Flatten
import Mathlib.Data.List.Nodup

/-! # The nodes to be lowered

Lowering looks at the decorators, initializers and statements of a unit. The nodes to be lowered there are met in the
order in which the unit is walked, none was made up, and one that stands for a variable is its whole initializer.
-/

namespace CompanionBuild

/-- Start and end of a node. -/
def Expr.place (e : Expr) : Lowering.Place :=
  (e.span.start, e.span.stop)

/-- The places of the nodes that were not made up. -/
def places (nodes : List Expr) : List Lowering.Place :=
  (nodes.filter fun e => !e.span.isSynthetic).map Expr.place

theorem places_append (nodes others : List Expr) : places (nodes ++ others) = places nodes ++ places others := by
  rw [places, List.filter_append, List.map_append]
  rfl

theorem places_sublist {nodes others : List Expr} (sublist : nodes.Sublist others) :
    (places nodes).Sublist (places others) :=
  (sublist.filter _).map _

theorem mem_places {nodes : List Expr} {e : Expr} (member : e ∈ nodes) (real : e.span.isSynthetic = false) :
    e.place ∈ places nodes :=
  List.mem_map_of_mem (List.mem_filter.mpr ⟨member, by rw [real]; rfl⟩)

/-- Where places are distinct, a node is known by its place. -/
theorem eq_of_place_eq {nodes : List Expr} (distinct : (places nodes).Nodup) {e e' : Expr} (member : e ∈ nodes)
    (member' : e' ∈ nodes) (real : e.span.isSynthetic = false) (real' : e'.span.isSynthetic = false)
    (same : e.place = e'.place) : e = e' :=
  List.inj_on_of_nodup_map distinct (List.mem_filter.mpr ⟨member, by rw [real]; rfl⟩)
    (List.mem_filter.mpr ⟨member', by rw [real']; rfl⟩) same

namespace Lowering

variable {fields exported : Names}

theorem mem_here {wanted : Bool} {owner? : Option String} {e : Expr} {inside : List Candidate} {c : Candidate}
    (member : c ∈ here exported wanted owner? e inside) :
    c = ⟨e, owner?⟩ ∧ wanted = true ∧ needsName exported e = true ∨ c ∈ inside := by
  rw [here] at member
  split at member
  case isTrue asked =>
    obtain ⟨wanted, needed⟩ := (Bool.and_eq_true _ _).mp asked
    exact .inl ⟨List.mem_singleton.mp member, wanted, needed⟩
  case isFalse => exact .inr member

theorem here_sublist {wanted : Bool} {owner? : Option String} {e : Expr} {inside : List Candidate} {nodes : List Expr}
    (sublist : (inside.map (·.node)).Sublist nodes) :
    ((here exported wanted owner? e inside).map (·.node)).Sublist (e :: nodes) := by
  rw [here]
  split
  · exact (List.nil_sublist nodes).cons_cons e
  · exact sublist.cons e

mutual

/-- The nodes to be lowered come in the order of the walk. -/
theorem candidates_sublist (inField : Bool) (owner? : Option String) (e : Expr) :
    ((candidates fields exported inField owner? e).map (·.node)).Sublist e.walk := by
  cases e with
  | call span callee args =>
    refine here_sublist ?_
    rw [List.map_append]
    exact (candidates_sublist false none callee).append (candidatesOfList_sublist args)
  | new span callee args =>
    refine here_sublist ?_
    rw [List.map_append]
    exact (candidates_sublist false none callee).append (candidatesOfList_sublist args)
  | member span object property => exact here_sublist (candidates_sublist false none object)
  | array span elements => exact here_sublist (candidatesOfList_sublist elements)
  | object span properties => exact here_sublist (candidatesOfProperties_sublist properties)
  | paren span inner => exact here_sublist (candidates_sublist false none inner)
  | spread span inner => exact here_sublist (candidates_sublist false none inner)
  | _ => exact here_sublist (List.nil_sublist _)

theorem candidatesOfList_sublist (list : List Expr) :
    ((candidatesOfList fields exported list).map (·.node)).Sublist (Expr.walkAll list) := by
  cases list with
  | nil => exact List.nil_sublist _
  | cons e rest =>
    rw [candidatesOfList, List.map_append]
    exact (candidates_sublist false none e).append (candidatesOfList_sublist rest)

theorem candidatesOfProperties_sublist (properties : List Property) :
    ((candidatesOfProperties fields exported properties).map (·.node)).Sublist (Property.walkAll properties) := by
  cases properties with
  | nil => exact List.nil_sublist _
  | cons property rest =>
    cases property with
    | keyValue key value =>
      rw [candidatesOfProperties, List.map_append]
      exact ((candidates_sublist _ none value).trans (List.sublist_append_right ..)).append
        (candidatesOfProperties_sublist rest)
    | shorthand name => exact candidatesOfProperties_sublist rest
    | spread value =>
      rw [candidatesOfProperties, List.map_append]
      exact (candidates_sublist false none value).append (candidatesOfProperties_sublist rest)

end

/-- A candidate was not made up, and only the whole expression stands for the variable that owns it. -/
def Candidate.IsOwn (owner? : Option String) (e : Expr) (c : Candidate) : Prop :=
  c.node.span.isSynthetic = false ∧ (c = ⟨e, owner?⟩ ∨ c.initializerOf = none)

theorem real_of_needsName {e : Expr} (needed : needsName exported e = true) : e.span.isSynthetic = false := by
  unfold needsName at needed
  rw [Bool.and_assoc, Bool.and_eq_true, Bool.not_eq_true'] at needed
  exact needed.1

theorem isOwn_of_mem_here {wanted : Bool} {owner? : Option String} {e : Expr} {inside : List Candidate} {c : Candidate}
    (parts : c ∈ inside → c.node.span.isSynthetic = false ∧ c.initializerOf = none)
    (member : c ∈ here exported wanted owner? e inside) : c.IsOwn owner? e := by
  obtain ⟨rfl, -, needed⟩ | member := mem_here member
  · exact ⟨real_of_needsName needed, .inl rfl⟩
  · obtain ⟨real, free⟩ := parts member
    exact ⟨real, .inr free⟩

/-- Inside an expression nothing owns a candidate. -/
theorem Candidate.IsOwn.free {e : Expr} {c : Candidate} (own : c.IsOwn none e) :
    c.node.span.isSynthetic = false ∧ c.initializerOf = none := by
  obtain ⟨real, rfl | free⟩ := own
  · exact ⟨real, rfl⟩
  · exact ⟨real, free⟩

mutual

theorem isOwn_of_mem_candidates {inField : Bool} {owner? : Option String} (e : Expr) {c : Candidate}
    (member : c ∈ candidates fields exported inField owner? e) : c.IsOwn owner? e := by
  cases e with
  | call span callee args =>
    refine isOwn_of_mem_here (fun inside => ?_) member
    obtain inside | inside := List.mem_append.mp inside
    · exact (isOwn_of_mem_candidates callee inside).free
    · exact free_of_mem_candidatesOfList args inside
  | new span callee args =>
    refine isOwn_of_mem_here (fun inside => ?_) member
    obtain inside | inside := List.mem_append.mp inside
    · exact (isOwn_of_mem_candidates callee inside).free
    · exact free_of_mem_candidatesOfList args inside
  | member span object property =>
    exact isOwn_of_mem_here (fun inside => (isOwn_of_mem_candidates object inside).free) member
  | array span elements => exact isOwn_of_mem_here (fun inside => free_of_mem_candidatesOfList elements inside) member
  | object span properties =>
    exact isOwn_of_mem_here (fun inside => free_of_mem_candidatesOfProperties properties inside) member
  | paren span inner => exact isOwn_of_mem_here (fun inside => (isOwn_of_mem_candidates inner inside).free) member
  | spread span inner => exact isOwn_of_mem_here (fun inside => (isOwn_of_mem_candidates inner inside).free) member
  | _ => exact isOwn_of_mem_here (fun none => by cases none) member

theorem free_of_mem_candidatesOfList (list : List Expr) {c : Candidate}
    (member : c ∈ candidatesOfList fields exported list) :
    c.node.span.isSynthetic = false ∧ c.initializerOf = none := by
  cases list with
  | nil => cases member
  | cons e rest =>
    obtain member | member := List.mem_append.mp member
    · exact (isOwn_of_mem_candidates e member).free
    · exact free_of_mem_candidatesOfList rest member

theorem free_of_mem_candidatesOfProperties (properties : List Property) {c : Candidate}
    (member : c ∈ candidatesOfProperties fields exported properties) :
    c.node.span.isSynthetic = false ∧ c.initializerOf = none := by
  cases properties with
  | nil => cases member
  | cons property rest =>
    cases property with
    | keyValue key value =>
      obtain member | member := List.mem_append.mp member
      · exact (isOwn_of_mem_candidates value member).free
      · exact free_of_mem_candidatesOfProperties rest member
    | shorthand name => exact free_of_mem_candidatesOfProperties rest member
    | spread value =>
      obtain member | member := List.mem_append.mp member
      · exact (isOwn_of_mem_candidates value member).free
      · exact free_of_mem_candidatesOfProperties rest member

end

/-! ## Items -/

/-- The expressions of a declaration that lowering looks at. -/
def rootsOfDecl : Decl → List Expr
  | .classDecl c => decoratorsOfClass c
  | .variable d => d.init.toList
  | _ => []

/-- The expressions of an item that lowering looks at. -/
def rootsOfItem : Item → List Expr
  | .decl d | .exportDecl d => rootsOfDecl d
  | .stmt (.variable d) => d.init.toList
  | .stmt (.expr e) => [e]
  | _ => []

/-- All nodes that lowering may meet. -/
def nodesOf (items : Items) : List Expr :=
  items.flatMap fun item => (rootsOfItem item.value).flatMap Expr.walk

/-- The nodes to be lowered in some items. -/
def candidatesOf (fields exported : Names) (items : Items) : List Candidate :=
  items.flatMap fun item => candidatesOfItem fields exported item.value

theorem walkAll_eq_flatMap (list : List Expr) : Expr.walkAll list = list.flatMap Expr.walk := by
  induction list with
  | nil => rfl
  | cons e rest ih => rw [Expr.walkAll, ih, List.flatMap_cons]

theorem flatMap_toList (init : Option Expr) : init.toList.flatMap Expr.walk = Expr.walkOption init := by
  cases init with
  | none => rfl
  | some e => exact List.flatMap_singleton ..

theorem decoratorsOfMember_sublist (member : Member) :
    ((decoratorsOfMember member).flatMap Expr.walk).Sublist member.walk := by
  have params (list : List Param) : (list.flatMap (·.decorators)).flatMap Expr.walk = Param.walkAll list := by
    rw [List.flatMap_assoc, Param.walkAll]
    exact List.flatMap_congr fun param _ => (walkAll_eq_flatMap _).symm
  have callable (list : List Param) (body : Option Block) :
      ((list.flatMap (·.decorators)).flatMap Expr.walk).Sublist (walkCallable list body) := by
    rw [params]
    exact List.sublist_append_left ..
  unfold Member.walk
  cases member with
  | constructor c => exact callable c.params c.body
  | method m =>
    rw [decoratorsOfMember, List.flatMap_append, ← walkAll_eq_flatMap]
    exact (List.sublist_append_left ..).append (callable m.params m.body)
  | field f =>
    rw [decoratorsOfMember, ← walkAll_eq_flatMap, List.append_assoc]
    exact List.sublist_append_left ..
  | accessor a =>
    rw [decoratorsOfMember, List.flatMap_append, ← walkAll_eq_flatMap]
    exact (List.sublist_append_left ..).append (callable a.params a.body)

theorem decoratorsOfClass_sublist (c : ClassDecl) : ((decoratorsOfClass c).flatMap Expr.walk).Sublist c.walk := by
  rw [decoratorsOfClass, List.flatMap_append, ← walkAll_eq_flatMap, List.flatMap_assoc, ClassDecl.walk]
  refine (List.sublist_append_left ..).append (List.Sublist.flatMap_right _ fun member _ => ?_)
  exact decoratorsOfMember_sublist member.value

theorem rootsOfDecl_sublist (d : Decl) : ((rootsOfDecl d).flatMap Expr.walk).Sublist d.walk := by
  cases d with
  | classDecl c => exact decoratorsOfClass_sublist c
  | «variable» d =>
    rw [rootsOfDecl, flatMap_toList]
    exact .refl _
  | _ => exact List.nil_sublist _

theorem rootsOfItem_sublist (item : Item) : ((rootsOfItem item).flatMap Expr.walk).Sublist item.walk := by
  cases item with
  | decl d => exact rootsOfDecl_sublist d
  | exportDecl d => exact rootsOfDecl_sublist d
  | stmt statement =>
    cases statement with
    | «variable» d =>
      rw [rootsOfItem, flatMap_toList]
      exact .refl _
    | expr e =>
      rw [rootsOfItem, List.flatMap_singleton]
      exact .refl _
    | result value => exact List.nil_sublist _
  | _ => exact List.nil_sublist _

/-- Lowering meets nodes in the order of the walk. -/
theorem nodesOf_sublist (items : Items) : (nodesOf items).Sublist items.walk :=
  List.Sublist.flatMap_right _ fun item _ => rootsOfItem_sublist item.value

theorem candidatesOfVariable_sublist (isExported : Bool) (d : VarDecl) :
    ((candidatesOfVariable fields exported isExported d).map (·.node)).Sublist (d.init.toList.flatMap Expr.walk) := by
  rw [flatMap_toList, candidatesOfVariable]
  cases d.init with
  | none => exact List.nil_sublist _
  | some init =>
    dsimp only
    split
    · split
      · exact candidates_sublist false none init
      · exact List.nil_sublist _
    · exact candidates_sublist false (some d.name) init

theorem candidatesOfDecl_sublist (isExported : Bool) (d : Decl) :
    ((candidatesOfDecl fields exported isExported d).map (·.node)).Sublist ((rootsOfDecl d).flatMap Expr.walk) := by
  cases d with
  | classDecl c =>
    rw [candidatesOfDecl, List.map_flatMap]
    exact List.Sublist.flatMap_right _ fun e _ => candidates_sublist false none e
  | «variable» d => exact candidatesOfVariable_sublist isExported d
  | _ => exact List.nil_sublist _

theorem candidatesOfItem_sublist (item : Item) :
    ((candidatesOfItem fields exported item).map (·.node)).Sublist ((rootsOfItem item).flatMap Expr.walk) := by
  cases item with
  | decl d => exact candidatesOfDecl_sublist false d
  | exportDecl d => exact candidatesOfDecl_sublist true d
  | stmt statement =>
    cases statement with
    | «variable» d => exact candidatesOfVariable_sublist false d
    | expr e =>
      rw [rootsOfItem, List.flatMap_singleton]
      exact candidates_sublist false none e
    | result value => exact List.nil_sublist _
  | _ => exact List.nil_sublist _

theorem candidatesOf_sublist (items : Items) :
    ((candidatesOf fields exported items).map (·.node)).Sublist (nodesOf items) := by
  rw [candidatesOf, List.map_flatMap]
  exact List.Sublist.flatMap_right _ fun item _ => candidatesOfItem_sublist item.value

/-- The variable that an item declares for itself. -/
def ownVariable? : Item → Option VarDecl
  | .decl (.variable d) | .stmt (.variable d) => some d
  | _ => none

theorem isOwn_of_mem_candidatesOfVariable {isExported : Bool} {d : VarDecl} {c : Candidate}
    (member : c ∈ candidatesOfVariable fields exported isExported d) :
    c.node.span.isSynthetic = false ∧
      (c.initializerOf = none ∨ isExported = false ∧ c.initializerOf = some d.name ∧ d.init = some c.node) := by
  rw [candidatesOfVariable] at member
  cases init : d.init with
  | none =>
    rw [init] at member
    cases member
  | some e =>
    rw [init] at member
    dsimp only at member
    split at member
    · split at member
      · obtain ⟨real, free⟩ := (isOwn_of_mem_candidates e member).free
        exact ⟨real, .inl free⟩
      · cases member
    case isFalse own =>
      obtain ⟨real, rfl | free⟩ := isOwn_of_mem_candidates e member
      · exact ⟨real, .inr ⟨Bool.not_eq_true _ ▸ own, rfl, rfl⟩⟩
      · exact ⟨real, .inl free⟩

/-- A candidate was not made up, and one that stands for a variable is the initializer of its item. -/
theorem isOwn_of_mem_candidatesOfItem {item : Item} {c : Candidate}
    (member : c ∈ candidatesOfItem fields exported item) :
    c.node.span.isSynthetic = false ∧ ∀ name, c.initializerOf = some name →
      ∃ d, ownVariable? item = some d ∧ d.name = name ∧ d.init = some c.node := by
  have freely (free : c.node.span.isSynthetic = false ∧ c.initializerOf = none) :
      c.node.span.isSynthetic = false ∧ ∀ name, c.initializerOf = some name →
        ∃ d, ownVariable? item = some d ∧ d.name = name ∧ d.init = some c.node := by
    refine ⟨free.1, fun name owned => ?_⟩
    rw [free.2] at owned
    cases owned
  have ofClass {decl : ClassDecl}
      (member : c ∈ (decoratorsOfClass decl).flatMap (candidates fields exported false none)) :
      c.node.span.isSynthetic = false ∧ c.initializerOf = none := by
    obtain ⟨e, -, member⟩ := List.mem_flatMap.mp member
    exact (isOwn_of_mem_candidates e member).free
  have ofVariable {d : VarDecl} (own : ownVariable? item = some d)
      (member : c ∈ candidatesOfVariable fields exported false d) :
      c.node.span.isSynthetic = false ∧ ∀ name, c.initializerOf = some name →
        ∃ d, ownVariable? item = some d ∧ d.name = name ∧ d.init = some c.node := by
    obtain ⟨real, free | ⟨-, owner, init⟩⟩ := isOwn_of_mem_candidatesOfVariable member
    · exact freely ⟨real, free⟩
    · refine ⟨real, fun name owned => ⟨d, own, ?_, init⟩⟩
      exact Option.some.inj (owner.symm.trans owned)
  cases item with
  | decl d =>
    cases d with
    | classDecl decl => exact freely (ofClass member)
    | «variable» d => exact ofVariable rfl member
    | _ => cases member
  | exportDecl d =>
    cases d with
    | classDecl decl => exact freely (ofClass member)
    | «variable» d =>
      obtain ⟨real, free | ⟨exported, -⟩⟩ := isOwn_of_mem_candidatesOfVariable member
      · exact freely ⟨real, free⟩
      · cases exported
    | _ => cases member
  | stmt statement =>
    cases statement with
    | «variable» d => exact ofVariable rfl member
    | expr e => exact freely (isOwn_of_mem_candidates e member).free
    | result value => cases member
  | _ => cases member

theorem real_of_mem_candidatesOf {items : Items} {c : Candidate} (member : c ∈ candidatesOf fields exported items) :
    c.node.span.isSynthetic = false := by
  obtain ⟨item, -, member⟩ := List.mem_flatMap.mp member
  exact (isOwn_of_mem_candidatesOfItem member).1

variable (fields exported) in
/-- Where places are distinct, so are those of the candidates. -/
theorem nodup_candidatesOf {items : Items} (distinct : (places (nodesOf items)).Nodup) :
    ((candidatesOf fields exported items).map (·.node.place)).Nodup := by
  have all : places ((candidatesOf fields exported items).map (·.node)) =
      (candidatesOf fields exported items).map (·.node.place) := by
    rw [places, List.filter_eq_self.mpr ?_, List.map_map]
    · rfl
    · intro e member
      obtain ⟨c, candidate, rfl⟩ := List.mem_map.mp member
      rw [real_of_mem_candidatesOf candidate]
      rfl
  rw [← all]
  exact distinct.sublist (places_sublist (candidatesOf_sublist items))

end Lowering

end CompanionBuild
