import CompanionBuild.Proofs.Lowering.Layout

/-! # Lowering preserves a unit

A node that is taken out of its place is never taken out of an arrow function, so none of the names it uses loses its
meaning. The bindings stand right beside the item they were taken from, under numbered names that the export lists in
their order, and with their values put back the unit is what it was.
-/

namespace CompanionBuild.Lowering

/-! ## Nodes outside of arrow functions -/

/-- The nodes include the parts of each of them. -/
def Closed (nodes : List Expr) : Prop :=
  ∀ e ∈ nodes, e.walk ⊆ nodes

namespace Closed

theorem nil : Closed [] :=
  fun e none => by cases none

theorem append {nodes others : List Expr} (closed : Closed nodes) (closed' : Closed others) :
    Closed (nodes ++ others) := by
  intro e member
  obtain member | member := List.mem_append.mp member
  · exact List.subset_append_of_subset_left _ (closed e member)
  · exact List.subset_append_of_subset_right _ (closed' e member)

theorem cons {e : Expr} {nodes : List Expr} (walk : e.walk = e :: nodes) (closed : Closed nodes) :
    Closed (e :: nodes) := by
  intro part member
  obtain rfl | member := List.mem_cons.mp member
  · rw [walk]
    exact List.Subset.refl _
  · exact List.subset_cons_of_subset _ (closed part member)

theorem flatMap {α : Type} {f : α → List Expr} {list : List α} (closed : ∀ a ∈ list, Closed (f a)) :
    Closed (list.flatMap f) := by
  induction list with
  | nil => exact nil
  | cons a rest ih =>
    rw [List.flatMap_cons]
    exact (closed a (List.mem_cons_self ..)).append (ih fun a member => closed a (List.mem_cons_of_mem _ member))

end Closed

mutual

theorem closed_walk (e : Expr) : Closed e.walk := by
  cases e with
  | call span callee args => exact .cons rfl ((closed_walk callee).append (closed_walkAll args))
  | new span callee args => exact .cons rfl ((closed_walk callee).append (closed_walkAll args))
  | member span object property => exact .cons rfl (closed_walk object)
  | array span elements => exact .cons rfl (closed_walkAll elements)
  | object span properties => exact .cons rfl (closed_walkProperties properties)
  | arrow span params body => exact .cons rfl (closed_walk body)
  | paren span inner => exact .cons rfl (closed_walk inner)
  | spread span inner => exact .cons rfl (closed_walk inner)
  | _ => exact .cons rfl .nil

theorem closed_walkAll (list : List Expr) : Closed (Expr.walkAll list) := by
  cases list with
  | nil => exact .nil
  | cons e rest => exact (closed_walk e).append (closed_walkAll rest)

theorem closed_walkProperties (properties : List Property) : Closed (Property.walkAll properties) := by
  cases properties with
  | nil => exact .nil
  | cons property rest => exact (closed_walkProperty property).append (closed_walkProperties rest)

theorem closed_walkProperty (property : Property) : Closed property.walk := by
  cases property with
  | keyValue key value => exact (closed_walkName key).append (closed_walk value)
  | shorthand name => exact .nil
  | spread value => exact closed_walk value

theorem closed_walkName (key : PropertyName) : Closed key.walk := by
  cases key with
  | computed key => exact closed_walk key
  | _ => exact .nil

end

theorem closed_walkOption (e? : Option Expr) : Closed (Expr.walkOption e?) := by
  cases e? with
  | none => exact .nil
  | some e => exact closed_walk e

theorem closed_walkStmt (statement : Stmt) : Closed statement.walk := by
  cases statement with
  | expr value => exact closed_walk value
  | result value => exact closed_walkOption value
  | «variable» d => exact closed_walkOption d.init

theorem closed_walkParams (params : List Param) : Closed (Param.walkAll params) :=
  .flatMap fun param _ => closed_walkAll param.decorators

theorem closed_walkBlock (body : Block) : Closed body.walk :=
  .flatMap fun statement _ => closed_walkStmt statement.value

/-- The nodes can be divided so that some are on one side, and the body of every arrow function is on the other. -/
def Apart (nodes taken : List Expr) : Prop :=
  ∃ outer inner, nodes.Perm (outer ++ inner) ∧ taken ⊆ outer ∧
    ∀ span params body, .arrow span params body ∈ nodes → body.walk ⊆ inner

namespace Apart

variable {nodes others taken taken' : List Expr}

/-- A node that was taken lies in no arrow function. -/
theorem not_mem (apart : Apart nodes taken) (distinct : (places nodes).Nodup) {e : Expr} (member : e ∈ taken)
    (real : e.span.isSynthetic = false) {span : Span} {params : List String} {body : Expr}
    (arrow : .arrow span params body ∈ nodes) : e ∉ body.walk := by
  obtain ⟨outer, inner, same, within, bodies⟩ := apart
  intro inside
  have divided : (places (outer ++ inner)).Nodup := (((same.filter _).map _).nodup_iff).mp distinct
  rw [places_append, List.nodup_append] at divided
  exact divided.2.2 _ (mem_places (within member) real) _ (mem_places (bodies _ _ _ arrow inside) real) rfl

theorem of_closed (closed : Closed nodes) : Apart nodes [] := by
  refine ⟨[], nodes, .refl _, List.nil_subset _, fun span params body arrow => ?_⟩
  exact List.Subset.trans (List.subset_cons_self ..) (closed _ arrow)

theorem mono (apart : Apart nodes taken) (subset : taken' ⊆ taken) : Apart nodes taken' := by
  obtain ⟨outer, inner, same, within, bodies⟩ := apart
  exact ⟨outer, inner, same, List.Subset.trans subset within, bodies⟩

theorem append (apart : Apart nodes taken) (apart' : Apart others taken') :
    Apart (nodes ++ others) (taken ++ taken') := by
  obtain ⟨outer, inner, same, within, bodies⟩ := apart
  obtain ⟨outer', inner', same', within', bodies'⟩ := apart'
  refine ⟨outer ++ outer', inner ++ inner', ?_, List.append_subset.mpr ⟨?_, ?_⟩, fun span params body arrow => ?_⟩
  · exact (same.append same').trans (Resource.perm_interchange ..)
  · exact List.subset_append_of_subset_left _ within
  · exact List.subset_append_of_subset_right _ within'
  · obtain arrow | arrow := List.mem_append.mp arrow
    · exact List.subset_append_of_subset_left _ (bodies _ _ _ arrow)
    · exact List.subset_append_of_subset_right _ (bodies' _ _ _ arrow)

/-- Nodes of which nothing is taken may stand beside. -/
theorem beside (apart : Apart nodes taken) (closed : Closed others) : Apart (nodes ++ others) taken :=
  (apart.append (of_closed closed)).mono (List.subset_append_left ..)

theorem flatMap {α : Type} {f g : α → List Expr} {list : List α} (apart : ∀ a ∈ list, Apart (f a) (g a)) :
    Apart (list.flatMap f) (list.flatMap g) := by
  induction list with
  | nil => exact .of_closed .nil
  | cons a rest ih =>
    rw [List.flatMap_cons, List.flatMap_cons]
    exact (apart a (List.mem_cons_self ..)).append (ih fun a member => apart a (List.mem_cons_of_mem _ member))

/-- An expression as a whole may be taken. -/
theorem whole {e : Expr} (walk : e.walk = e :: nodes) (closed : Closed nodes) : Apart (e :: nodes) [e] := by
  refine ⟨[e], nodes, .refl _, List.Subset.refl _, fun span params body arrow => ?_⟩
  obtain rfl | arrow := List.mem_cons.mp arrow
  · rw [Expr.walk, List.cons.injEq] at walk
    rw [walk.2]
    exact List.Subset.refl _
  · exact List.Subset.trans (List.subset_cons_self ..) (closed _ arrow)

theorem cons {e : Expr} (plain : isArrow e = false) (apart : Apart nodes taken) : Apart (e :: nodes) taken := by
  obtain ⟨outer, inner, same, within, bodies⟩ := apart
  refine ⟨e :: outer, inner, same.cons e, List.subset_cons_of_subset _ within, fun span params body arrow => ?_⟩
  obtain rfl | arrow := List.mem_cons.mp arrow
  · cases plain
  · exact bodies _ _ _ arrow

end Apart

variable {fields exported : Names}

theorem apart_here {wanted : Bool} {owner? : Option String} {e : Expr} {inside : List Candidate} {nodes : List Expr}
    (walk : e.walk = e :: nodes) (closed : Closed nodes) (plain : isArrow e = false)
    (apart : Apart nodes (inside.map (·.node))) :
    Apart (e :: nodes) ((here exported wanted owner? e inside).map (·.node)) := by
  rw [here]
  split
  · exact .whole walk closed
  · exact apart.cons plain

theorem apart_here_nil {wanted : Bool} {owner? : Option String} {e : Expr} {nodes : List Expr}
    (walk : e.walk = e :: nodes) (closed : Closed nodes) :
    Apart (e :: nodes) ((here exported wanted owner? e []).map (·.node)) := by
  rw [here]
  split
  · exact .whole walk closed
  · exact (Apart.whole walk closed).mono (List.nil_subset _)

mutual

/-- The nodes to be lowered in an expression lie in none of its arrow functions. -/
theorem apart_candidates (inField : Bool) (owner? : Option String) (e : Expr) :
    Apart e.walk ((candidates fields exported inField owner? e).map (·.node)) := by
  cases e with
  | call span callee args =>
    refine apart_here rfl ((closed_walk callee).append (closed_walkAll args)) rfl ?_
    rw [List.map_append]
    exact (apart_candidates false none callee).append (apart_candidatesOfList args)
  | new span callee args =>
    refine apart_here rfl ((closed_walk callee).append (closed_walkAll args)) rfl ?_
    rw [List.map_append]
    exact (apart_candidates false none callee).append (apart_candidatesOfList args)
  | member span object property => exact apart_here rfl (closed_walk object) rfl (apart_candidates false none object)
  | array span elements => exact apart_here rfl (closed_walkAll elements) rfl (apart_candidatesOfList elements)
  | object span properties =>
    exact apart_here rfl (closed_walkProperties properties) rfl (apart_candidatesOfProperties properties)
  | arrow span params body => exact apart_here_nil rfl (closed_walk body)
  | paren span inner => exact apart_here rfl (closed_walk inner) rfl (apart_candidates false none inner)
  | spread span inner => exact apart_here rfl (closed_walk inner) rfl (apart_candidates false none inner)
  | _ => exact apart_here_nil rfl .nil

theorem apart_candidatesOfList (list : List Expr) :
    Apart (Expr.walkAll list) ((candidatesOfList fields exported list).map (·.node)) := by
  cases list with
  | nil => exact .of_closed .nil
  | cons e rest =>
    rw [candidatesOfList, List.map_append]
    exact (apart_candidates false none e).append (apart_candidatesOfList rest)

theorem apart_candidatesOfProperties (properties : List Property) :
    Apart (Property.walkAll properties) ((candidatesOfProperties fields exported properties).map (·.node)) := by
  cases properties with
  | nil => exact .of_closed .nil
  | cons property rest =>
    cases property with
    | keyValue key value =>
      rw [candidatesOfProperties, List.map_append]
      exact ((Apart.of_closed (closed_walkName key)).append (apart_candidates _ none value)).append
        (apart_candidatesOfProperties rest)
    | shorthand name => exact apart_candidatesOfProperties rest
    | spread value =>
      rw [candidatesOfProperties, List.map_append]
      exact (apart_candidates false none value).append (apart_candidatesOfProperties rest)

end

/-- The nodes to be lowered in some decorators. -/
def nodesIn (fields exported : Names) (list : List Expr) : List Expr :=
  (list.flatMap (candidates fields exported false none)).map (·.node)

theorem nodesIn_append (list others : List Expr) :
    nodesIn fields exported (list ++ others) = nodesIn fields exported list ++ nodesIn fields exported others := by
  rw [nodesIn, List.flatMap_append, List.map_append]
  rfl

theorem nodesIn_flatMap {α : Type} (f : α → List Expr) (list : List α) :
    nodesIn fields exported (list.flatMap f) = list.flatMap fun a => nodesIn fields exported (f a) := by
  rw [nodesIn, List.flatMap_assoc, List.map_flatMap]
  rfl

theorem apart_nodesIn (list : List Expr) : Apart (Expr.walkAll list) (nodesIn fields exported list) := by
  rw [walkAll_eq_flatMap, nodesIn, List.map_flatMap]
  exact .flatMap fun e _ => apart_candidates false none e

theorem apart_callable (params : List Param) (body : Option Block) :
    Apart (walkCallable params body) (nodesIn fields exported (params.flatMap (·.decorators))) := by
  have apart : Apart (Param.walkAll params) (nodesIn fields exported (params.flatMap (·.decorators))) := by
    rw [nodesIn_flatMap]
    exact .flatMap fun param _ => apart_nodesIn param.decorators
  exact apart.beside (closed_walkBlock (body.getD []))

theorem apart_member (member : Member) : Apart member.walk (nodesIn fields exported (decoratorsOfMember member)) := by
  unfold Member.walk
  cases member with
  | constructor c => exact apart_callable c.params c.body
  | method m =>
    rw [decoratorsOfMember, nodesIn_append]
    exact ((apart_nodesIn m.decorators).beside (closed_walkName m.name)).append (apart_callable m.params m.body)
  | field f =>
    exact ((apart_nodesIn f.decorators).beside (closed_walkName f.name)).beside (closed_walkOption f.init)
  | accessor a =>
    rw [decoratorsOfMember, nodesIn_append]
    exact ((apart_nodesIn a.decorators).beside (closed_walkName a.name)).append (apart_callable a.params a.body)

theorem apart_class (c : ClassDecl) : Apart c.walk (nodesIn fields exported (decoratorsOfClass c)) := by
  rw [decoratorsOfClass, nodesIn_append, nodesIn_flatMap]
  exact ((apart_nodesIn c.decorators).beside (closed_walkOption c.base)).append
    (.flatMap fun member _ => apart_member member.value)

theorem apart_variable (isExported : Bool) (d : VarDecl) :
    Apart d.walk ((candidatesOfVariable fields exported isExported d).map (·.node)) := by
  rw [VarDecl.walk, candidatesOfVariable]
  cases d.init with
  | none => exact .of_closed .nil
  | some init =>
    dsimp only
    split
    · split
      · exact apart_candidates false none init
      · exact .of_closed (closed_walk init)
    · exact apart_candidates false (some d.name) init

theorem apart_decl (isExported : Bool) (d : Decl) :
    Apart d.walk ((candidatesOfDecl fields exported isExported d).map (·.node)) := by
  cases d with
  | function d => exact .of_closed ((closed_walkParams d.params).append (closed_walkBlock _))
  | classDecl c => exact apart_class c
  | enum d => exact .of_closed (.flatMap fun member _ => closed_walkOption member.init)
  | «variable» d => exact apart_variable isExported d
  | _ => exact .of_closed .nil

theorem apart_item (item : Item) : Apart item.walk ((candidatesOfItem fields exported item).map (·.node)) := by
  cases item with
  | decl d => exact apart_decl false d
  | exportDecl d => exact apart_decl true d
  | stmt statement =>
    cases statement with
    | «variable» d => exact apart_variable false d
    | expr e => exact apart_candidates false none e
    | result value => exact .of_closed (closed_walkOption value)
  | _ => exact .of_closed .nil

/-- No node to be lowered lies in an arrow function of the unit. -/
theorem apart_items (items : Items) : Apart items.walk ((candidatesOf fields exported items).map (·.node)) := by
  rw [candidatesOf, List.map_flatMap]
  exact .flatMap fun item _ => apart_item item.value

/-! ## Names left behind -/

variable {requests : Requests}

theorem mem_walk_nameOr {e inside : Expr} {found : List Hit} {hit : Hit} (met : hit ∈ hitOr requests e found)
    (free : hit.request.initializerOf = none)
    (rest : hit ∈ found → Expr.name hit.request.name ∈ inside.walk) :
    Expr.name hit.request.name ∈ (nameOr requests e inside).walk := by
  rw [hitOr] at met
  rw [nameOr]
  split at met
  case h_1 request _ =>
    obtain rfl := List.mem_singleton.mp met
    dsimp only at free ⊢
    rw [free, Option.isSome_none, if_neg Bool.false_ne_true]
    exact List.mem_singleton_self _
  case h_2 => exact rest met

mutual

/-- A hit leaves its name behind. -/
theorem mem_walk_replaced (e : Expr) {hit : Hit} (met : hit ∈ hits requests e)
    (free : hit.request.initializerOf = none) : Expr.name hit.request.name ∈ (replaced requests e).walk := by
  cases e with
  | call span callee args =>
    refine mem_walk_nameOr met free fun inside => List.mem_cons_of_mem _ ?_
    obtain inside | inside := List.mem_append.mp inside
    · exact List.mem_append_left _ (mem_walk_replaced callee inside free)
    · exact List.mem_append_right _ (mem_walkAll_replacedList args inside free)
  | new span callee args =>
    refine mem_walk_nameOr met free fun inside => List.mem_cons_of_mem _ ?_
    obtain inside | inside := List.mem_append.mp inside
    · exact List.mem_append_left _ (mem_walk_replaced callee inside free)
    · exact List.mem_append_right _ (mem_walkAll_replacedList args inside free)
  | member span object property =>
    exact mem_walk_nameOr met free fun inside => List.mem_cons_of_mem _ (mem_walk_replaced object inside free)
  | array span elements =>
    exact mem_walk_nameOr met free fun inside => List.mem_cons_of_mem _ (mem_walkAll_replacedList elements inside free)
  | object span properties =>
    exact mem_walk_nameOr met free fun inside =>
      List.mem_cons_of_mem _ (mem_walkAll_replacedProperties properties inside free)
  | paren span inner =>
    exact mem_walk_nameOr met free fun inside => List.mem_cons_of_mem _ (mem_walk_replaced inner inside free)
  | spread span inner =>
    exact mem_walk_nameOr met free fun inside => List.mem_cons_of_mem _ (mem_walk_replaced inner inside free)
  | _ => exact mem_walk_nameOr met free fun none => by cases none

theorem mem_walkAll_replacedList (list : List Expr) {hit : Hit} (met : hit ∈ hitsOfList requests list)
    (free : hit.request.initializerOf = none) :
    Expr.name hit.request.name ∈ Expr.walkAll (replacedList requests list) := by
  cases list with
  | nil => cases met
  | cons e rest =>
    obtain met | met := List.mem_append.mp met
    · exact List.mem_append_left _ (mem_walk_replaced e met free)
    · exact List.mem_append_right _ (mem_walkAll_replacedList rest met free)

theorem mem_walkAll_replacedProperties (properties : List Property) {hit : Hit}
    (met : hit ∈ hitsOfProperties requests properties) (free : hit.request.initializerOf = none) :
    Expr.name hit.request.name ∈ Property.walkAll (replacedProperties requests properties) := by
  cases properties with
  | nil => cases met
  | cons property rest =>
    cases property with
    | keyValue key value =>
      obtain met | met := List.mem_append.mp met
      · exact List.mem_append_left _ (List.mem_append_right _ (mem_walk_replaced value met free))
      · exact List.mem_append_right _ (mem_walkAll_replacedProperties rest met free)
    | shorthand name => exact mem_walkAll_replacedProperties rest met free
    | spread value =>
      obtain met | met := List.mem_append.mp met
      · exact List.mem_append_left _ (mem_walk_replaced value met free)
      · exact List.mem_append_right _ (mem_walkAll_replacedProperties rest met free)

end

section

variable (f : Expr → Expr)

theorem decoratorsOfMember_mapMember (member : Member) :
    decoratorsOfMember (mapMember f member) = (decoratorsOfMember member).map f := by
  have params (list : List Param) : (mapParams f list).flatMap (·.decorators) =
      (list.flatMap (·.decorators)).map f := by
    rw [mapParams, List.flatMap_map, List.map_flatMap]
  cases member <;> simp only [mapMember, decoratorsOfMember, params, List.map_append]

theorem rootsOfDecl_mapDecl (d : Decl) : rootsOfDecl (mapDecl f d) = (rootsOfDecl d).map f := by
  cases d with
  | classDecl c =>
    simp only [mapDecl, rootsOfDecl, decoratorsOfClass, List.flatMap_map, List.map_append, List.map_flatMap,
      decoratorsOfMember_mapMember]
  | «variable» d => cases init : d.init <;> simp only [mapDecl, rootsOfDecl, init] <;> rfl
  | _ => rfl

theorem rootsOfItem_mapItem (item : Item) : rootsOfItem (mapItem f item) = (rootsOfItem item).map f := by
  cases item with
  | decl d => exact rootsOfDecl_mapDecl f d
  | exportDecl d => exact rootsOfDecl_mapDecl f d
  | stmt statement =>
    cases statement with
    | «variable» d => exact rootsOfDecl_mapDecl f (.variable d)
    | _ => rfl
  | _ => rfl

end

/-- The item refers to what was taken out of it. -/
theorem mem_walk_replacedItem {item : Item} {hit : Hit} (met : hit ∈ hitsOfItem requests item)
    (free : hit.request.initializerOf = none) : Expr.name hit.request.name ∈ (replacedItem requests item).walk := by
  rw [hitsOfItem_eq_flatMap] at met
  obtain ⟨e, root, met⟩ := List.mem_flatMap.mp met
  have left : replaced requests e ∈ rootsOfItem (replacedItem requests item) := by
    rw [replacedItem_eq, rootsOfItem_mapItem]
    exact List.mem_map_of_mem root
  exact (rootsOfItem_sublist _).subset (List.mem_flatMap.mpr ⟨_, left, mem_walk_replaced e met free⟩)

/-- An item with a whole initializer that was asked for stays as it is. -/
theorem replacedItem_eq_self {item : Item} {d : VarDecl} (own : ownVariable? item = some d) {e : Expr}
    (init : d.init = some e) (whole : replaced requests e = e) : replacedItem requests item = item := by
  have same : replacedVariable requests d = d := by
    rw [replacedVariable, init, Option.map_some, whole, ← init]
  cases item with
  | decl decl =>
    cases decl with
    | «variable» d' =>
      obtain rfl := Option.some.inj own
      rw [replacedItem, replacedDecl, same]
    | _ => cases own
  | stmt statement =>
    cases statement with
    | «variable» d' =>
      obtain rfl := Option.some.inj own
      rw [replacedItem, same]
    | _ => cases own
  | _ => cases own

/-! ## Units -/

/-- An item of a unit with the bindings made for it: before it those of the nodes taken out of it, which lay in no arrow
function, and after it those that stand for the variable it declares. -/
structure Slot.Surrounds (u : SourceUnit) (item : Located Item) (slot : Slot) : Prop where
  place : slot.item.span = item.span
  hoisted : ∀ b ∈ slot.before, ∃ i node, b = binding (symbol i) node ∧ .name (symbol i) ∈ slot.item.value.walk ∧
    node ∈ item.value.walk ∧ ∀ span params body, .arrow span params body ∈ u.items.walk → node ∉ body.walk
  aliased : ∀ b ∈ slot.after, ∃ i d, b = binding (symbol i) (.name d.name) ∧ ownVariable? item.value = some d ∧
    d.init.isSome = true ∧ slot.item = item

/-- A unit is lowered with a number of requests, and nothing of it is lost. -/
structure Preserves (u lowered : SourceUnit) (count : Nat) : Prop where
  undone : restored lowered = u
  rest : lowered = { u with items := lowered.items }
  layout : ∃ slots, lowered.items = slots.flatMap Slot.layout ++ exportOf ((List.range count).map symbol) ∧
    List.Forall₂ (Slot.Surrounds u) u.items slots
  unchanged : count = 0 → lowered = u

theorem preserves_self {u : SourceUnit} (unmarked : Unmarked u.items) : Preserves u u 0 where
  undone := restored_of_unmarked unmarked
  rest := by cases u; rfl
  layout := by
    refine ⟨u.items.map (⟨[], ·, []⟩), ?_, ?_⟩
    · rw [List.flatMap_map]
      exact ((List.append_nil _).trans (List.flatMap_singleton' u.items)).symm
    · rw [List.forall₂_map_right_iff, List.forall₂_same]
      exact fun item _ => ⟨rfl, (fun b none => by cases none), (fun b none => by cases none)⟩
  unchanged _ := rfl

/-- Every item stands between the bindings that were made for it. -/
theorem surrounds_slotOf {u : SourceUnit} (separate : (places u.items.walk).Nodup) {count : Nat}
    (bound : boundNames requests u.items = (List.range count).map symbol)
    (serves : requests.Serves (candidatesOf fields exported u.items)) {item : Located Item} (member : item ∈ u.items) :
    (slotOf requests item).Surrounds u item := by
  have distinct := separate.sublist (places_sublist (nodesOf_sublist u.items))
  refine ⟨rfl, fun b hoisted => ?_, fun b aliased => ?_⟩
  · obtain ⟨hit, met, free, rfl⟩ := mem_hoistedBindings.mp hoisted
    obtain ⟨i, -, name⟩ := exists_symbol bound member met
    obtain ⟨c, candidate, node, -, -⟩ := (mem_hitsOfItem serves distinct member).mp met
    have taken : hit.node ∈ (candidatesOf fields exported u.items).map (·.node) :=
      List.mem_map.mpr ⟨c, List.mem_flatMap.mpr ⟨item, member, candidate⟩, node⟩
    have real : hit.node.span.isSynthetic = false := node ▸ (isOwn_of_mem_candidatesOfItem candidate).1
    have inside : hit.node ∈ item.value.walk := by
      refine (rootsOfItem_sublist item.value).subset ?_
      rw [← node]
      exact mem_of_sublist (candidatesOfItem_sublist item.value) c candidate
    refine ⟨i, hit.node, by rw [name], ?_, inside, fun span params body arrow => ?_⟩
    · rw [← name]
      exact mem_walk_replacedItem met free
    · exact (apart_items u.items).not_mem separate taken real arrow
  · obtain ⟨hit, met, x, owned, rfl⟩ := mem_aliasBindings.mp aliased
    obtain ⟨i, -, name⟩ := exists_symbol bound member met
    obtain ⟨c, candidate, node, found, owner⟩ := (mem_hitsOfItem serves distinct member).mp met
    obtain ⟨d, own, rfl, init⟩ := (isOwn_of_mem_candidatesOfItem candidate).2 x (owner.symm.trans owned)
    have whole : replaced requests c.node = c.node := by
      rw [node]
      exact replaced_eq_self found (by rw [owned]; rfl)
    refine ⟨i, d, by rw [name], own, by rw [init]; rfl, ?_⟩
    rw [slotOf, replacedItem_eq_self own init whole]

/-- A unit lowered with its own requests loses nothing. -/
theorem preserves_lowerUnit {u : SourceUnit} (separate : (places u.items.walk).Nodup) (unmarked : Unmarked u.items) :
    Preserves u (lowerUnit (requestsOf fields u) u) (requestsOf fields u).length := by
  cases none : (requestsOf fields u).isEmpty with
  | true =>
    rw [List.isEmpty_iff.mp none]
    exact preserves_self unmarked
  | false =>
    have distinct := separate.sublist (places_sublist (nodesOf_sublist u.items))
    have defines : u.isDeclaration = false := by
      cases declares : u.isDeclaration with
      | false => rfl
      | true => simp [requestsOf, declares] at none
    have serves : (requestsOf fields u).Serves _ := serves_requestsOf distinct defines
    have bound : boundNames (requestsOf fields u) u.items = _ := boundNames_requestsOf distinct
    have count : (requestsOf fields u).length ≠ 0 := by
      intro zero
      rw [List.eq_nil_of_length_eq_zero zero] at none
      cases none
    have lowered : lowerUnit (requestsOf fields u) u = { u with
        items := u.items.flatMap (lowerItem (requestsOf fields u)) ++
          exportOf (boundNames (requestsOf fields u) u.items) } := by
      rw [lowerUnit, none, if_neg Bool.false_ne_true]
    rw [lowered]
    refine ⟨restored_lowered unmarked bound serves distinct rfl count, rfl, ?_, fun zero => (count zero).elim⟩
    refine ⟨u.items.map (slotOf (requestsOf fields u)), by rw [layout_slots, bound], ?_⟩
    rw [List.forall₂_map_right_iff, List.forall₂_same]
    exact fun item member => surrounds_slotOf separate bound serves member

/-- The lowering of expressions succeeds on every unit and loses nothing: with the inserted bindings taken out and their
values put back, the unit is what it was. Every binding stands beside the item it was made for, the export lists them by
their numbers, and nothing was taken out of an arrow function. -/
theorem expressions_preserves {symbols : SymbolResolver} {u : SourceUnit} {findings : Findings} {cache : RequestCache}
    (separate : (places u.items.walk).Nodup) (unmarked : Unmarked u.items)
    (own : ∀ kept, cache.get? u.name = some kept → kept = requestsOf fields u) :
    ∃ lowered cache', (((expressions (requestsFor fields)).apply symbols u).run.run findings).run cache =
      ((.ok lowered, findings), cache') ∧ Preserves u lowered (requestsOf fields u).length := by
  obtain ⟨cache', ran⟩ := expressions_run own
  exact ⟨lowerUnit (requestsOf fields u) u, cache', ran, preserves_lowerUnit separate unmarked⟩

/-- A variable with an arrow function, a class with a factory in its decorator, and an exported list of handlers. -/
def handlerUnit : SourceUnit where
  name := "/app.ts"
  text := ""
  isDeclaration := false
  items := [
    ⟨⟨0, 20, some 0⟩, .decl (.variable {
      name := "make"
      init := some (.arrow ⟨8, 19, some 0⟩ ["x"] (.ident ⟨15, 16, some 0⟩ "x")) })⟩,
    ⟨⟨20, 60, some 0⟩, .exportDecl (.classDecl {
      name := "App"
      decorators := [.call ⟨21, 50, some 0⟩ (.ident ⟨22, 24, some 0⟩ "Module") [.object ⟨25, 49, some 0⟩ [
        .named "useFactory" (.arrow ⟨26, 36, some 0⟩ ["y"]
          (.array ⟨30, 35, some 0⟩ [.arrow ⟨31, 34, some 0⟩ [] (.ident ⟨32, 33, some 0⟩ "y")])),
        .named "data" (.ident ⟨40, 44, some 0⟩ "make")]]] })⟩,
    ⟨⟨60, 90, some 0⟩, .exportDecl (.variable {
      name := "handlers"
      init := some (.array ⟨70, 89, some 0⟩ [.arrow ⟨71, 80, some 0⟩ [] (.ident ⟨75, 76, some 0⟩ "App")]) })⟩]

/-- Four nodes are lowered, one of them the whole initializer of a variable. -/
theorem handlerUnit_preserves :
    (requestsOf defaultFields handlerUnit).length = 4 ∧
      ∃ lowered cache', (((expressions (requestsFor defaultFields)).apply .localOnly handlerUnit).run.run {}).run [] =
        ((.ok lowered, {}), cache') ∧ Preserves handlerUnit lowered (requestsOf defaultFields handlerUnit).length :=
  ⟨by decide, expressions_preserves (by decide) (unmarked_of_isSymbol (by decide)) fun kept none => by cases none⟩

end CompanionBuild.Lowering
