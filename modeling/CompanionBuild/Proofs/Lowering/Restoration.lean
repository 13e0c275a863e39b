import CompanionBuild.Proofs.Lowering.Binding

/-! # Undoing the lowering

The bindings that lowering inserts can be told from the export at the end of a unit. Taking them out and putting their
values back gives the unit as it was, as long as it used none of the names itself.
-/

namespace CompanionBuild

mutual

/-- The expression with every name that has a value replaced by it. -/
def Expr.withValues (values : String → Option Expr) : Expr → Expr
  | .literal span value => .literal span value
  | .ident span name => (values name).getD (.ident span name)
  | .call span callee args => .call span (callee.withValues values) (Expr.withValuesAll values args)
  | .new span callee args => .new span (callee.withValues values) (Expr.withValuesAll values args)
  | .member span object property => .member span (object.withValues values) property
  | .array span elements => .array span (Expr.withValuesAll values elements)
  | .object span properties => .object span (Property.withValuesAll values properties)
  | .arrow span params body => .arrow span params (body.withValues values)
  | .paren span inner => .paren span (inner.withValues values)
  | .spread span inner => .spread span (inner.withValues values)
  | .external span source name => .external span source name

def Expr.withValuesAll (values : String → Option Expr) : List Expr → List Expr
  | [] => []
  | e :: rest => e.withValues values :: Expr.withValuesAll values rest

def Property.withValues (values : String → Option Expr) : Property → Property
  | .keyValue key value => .keyValue (key.withValues values) (value.withValues values)
  | .shorthand name => .shorthand name
  | .spread value => .spread (value.withValues values)

def Property.withValuesAll (values : String → Option Expr) : List Property → List Property
  | [] => []
  | property :: rest => property.withValues values :: Property.withValuesAll values rest

def PropertyName.withValues (values : String → Option Expr) : PropertyName → PropertyName
  | .ident name => .ident name
  | .string text => .string text
  | .number value => .number value
  | .computed key => .computed (key.withValues values)

end

/-- None of the names used in some nodes has a value. -/
def Spares (values : String → Option Expr) (nodes : List Expr) : Prop :=
  ∀ span name, Expr.ident span name ∈ nodes → values name = none

theorem Spares.mono {values : String → Option Expr} {nodes others : List Expr} (spares : Spares values others)
    (subset : nodes ⊆ others) : Spares values nodes :=
  fun span name used => spares span name (subset used)

theorem Spares.tail {values : String → Option Expr} {e : Expr} {nodes : List Expr} (spares : Spares values (e :: nodes)) :
    Spares values nodes :=
  spares.mono (List.subset_cons_self ..)

theorem Spares.left {values : String → Option Expr} {nodes others : List Expr}
    (spares : Spares values (nodes ++ others)) : Spares values nodes :=
  spares.mono (List.subset_append_left ..)

theorem Spares.right {values : String → Option Expr} {nodes others : List Expr}
    (spares : Spares values (nodes ++ others)) : Spares values others :=
  spares.mono (List.subset_append_right ..)

section

variable {values : String → Option Expr}

mutual

/-- An expression that uses no name with a value stays. -/
theorem Expr.withValues_eq_self (e : Expr) (spares : Spares values e.walk) : e.withValues values = e := by
  cases e with
  | literal span value => rfl
  | ident span name => rw [Expr.withValues, spares span name (List.mem_singleton_self _), Option.getD_none]
  | call span callee args =>
    rw [Expr.withValues, callee.withValues_eq_self spares.tail.left, Expr.withValuesAll_eq_self args spares.tail.right]
  | new span callee args =>
    rw [Expr.withValues, callee.withValues_eq_self spares.tail.left, Expr.withValuesAll_eq_self args spares.tail.right]
  | member span object property => rw [Expr.withValues, object.withValues_eq_self spares.tail]
  | array span elements => rw [Expr.withValues, Expr.withValuesAll_eq_self elements spares.tail]
  | object span properties => rw [Expr.withValues, Property.withValuesAll_eq_self properties spares.tail]
  | arrow span params body => rw [Expr.withValues, body.withValues_eq_self spares.tail]
  | paren span inner => rw [Expr.withValues, inner.withValues_eq_self spares.tail]
  | spread span inner => rw [Expr.withValues, inner.withValues_eq_self spares.tail]
  | external span source name => rfl

theorem Expr.withValuesAll_eq_self (list : List Expr) (spares : Spares values (Expr.walkAll list)) :
    Expr.withValuesAll values list = list := by
  cases list with
  | nil => rfl
  | cons e rest =>
    rw [Expr.withValuesAll, e.withValues_eq_self spares.left, Expr.withValuesAll_eq_self rest spares.right]

theorem Property.withValues_eq_self (property : Property) (spares : Spares values property.walk) :
    property.withValues values = property := by
  cases property with
  | keyValue key value =>
    rw [Property.withValues, key.withValues_eq_self spares.left, value.withValues_eq_self spares.right]
  | shorthand name => rfl
  | spread value => rw [Property.withValues, value.withValues_eq_self spares]

theorem Property.withValuesAll_eq_self (properties : List Property)
    (spares : Spares values (Property.walkAll properties)) : Property.withValuesAll values properties = properties := by
  cases properties with
  | nil => rfl
  | cons property rest =>
    rw [Property.withValuesAll, property.withValues_eq_self spares.left,
      Property.withValuesAll_eq_self rest spares.right]

theorem PropertyName.withValues_eq_self (key : PropertyName) (spares : Spares values key.walk) :
    key.withValues values = key := by
  cases key with
  | computed key => rw [PropertyName.withValues, key.withValues_eq_self spares]
  | _ => rfl

end

end

namespace Lowering

/-! ## Expressions -/

section

variable {requests : Requests} {values : String → Option Expr}

/-- Every hit that leaves its name behind has its node for the value of the name. -/
def Keeps (values : String → Option Expr) (found : List Hit) : Prop :=
  ∀ hit ∈ found, hit.request.initializerOf = none → values hit.request.name = some hit.node

theorem Keeps.left {found others : List Hit} (keeps : Keeps values (found ++ others)) : Keeps values found :=
  fun hit member => keeps hit (List.mem_append_left _ member)

theorem Keeps.right {found others : List Hit} (keeps : Keeps values (found ++ others)) : Keeps values others :=
  fun hit member => keeps hit (List.mem_append_right _ member)

theorem withValues_nameOr {e inside : Expr} {found : List Hit} (spares : Spares values e.walk)
    (keeps : Keeps values (hitOr requests e found)) (rest : Keeps values found → inside.withValues values = e) :
    (nameOr requests e inside).withValues values = e := by
  rw [hitOr] at keeps
  rw [nameOr]
  cases met : requests.find? e with
  | none =>
    rw [met] at keeps
    exact rest keeps
  | some request =>
    rw [met] at keeps
    dsimp only
    cases owned : request.initializerOf with
    | none =>
      have value : values request.name = some e := keeps _ (List.mem_singleton_self _) owned
      rw [if_neg (by simp), Expr.name, Expr.withValues, value, Option.getD_some]
    | some x =>
      rw [if_pos (by rfl)]
      exact e.withValues_eq_self spares

mutual

/-- Putting the nodes back in the place of their names gives the expression as it was. -/
theorem withValues_replaced (e : Expr) (spares : Spares values e.walk) (keeps : Keeps values (hits requests e)) :
    (replaced requests e).withValues values = e := by
  cases e with
  | call span callee args =>
    refine withValues_nameOr spares keeps fun keeps => ?_
    rw [Expr.withValues, withValues_replaced callee spares.tail.left keeps.left,
      withValuesAll_replacedList args spares.tail.right keeps.right]
  | new span callee args =>
    refine withValues_nameOr spares keeps fun keeps => ?_
    rw [Expr.withValues, withValues_replaced callee spares.tail.left keeps.left,
      withValuesAll_replacedList args spares.tail.right keeps.right]
  | member span object property =>
    refine withValues_nameOr spares keeps fun keeps => ?_
    rw [Expr.withValues, withValues_replaced object spares.tail keeps]
  | array span elements =>
    refine withValues_nameOr spares keeps fun keeps => ?_
    rw [Expr.withValues, withValuesAll_replacedList elements spares.tail keeps]
  | object span properties =>
    refine withValues_nameOr spares keeps fun keeps => ?_
    rw [Expr.withValues, withValuesAll_replacedProperties properties spares.tail keeps]
  | paren span inner =>
    refine withValues_nameOr spares keeps fun keeps => ?_
    rw [Expr.withValues, withValues_replaced inner spares.tail keeps]
  | spread span inner =>
    refine withValues_nameOr spares keeps fun keeps => ?_
    rw [Expr.withValues, withValues_replaced inner spares.tail keeps]
  | _ => exact withValues_nameOr spares keeps fun _ => Expr.withValues_eq_self _ spares

theorem withValuesAll_replacedList (list : List Expr) (spares : Spares values (Expr.walkAll list))
    (keeps : Keeps values (hitsOfList requests list)) :
    Expr.withValuesAll values (replacedList requests list) = list := by
  cases list with
  | nil => rfl
  | cons e rest =>
    rw [replacedList, Expr.withValuesAll, withValues_replaced e spares.left keeps.left,
      withValuesAll_replacedList rest spares.right keeps.right]

theorem withValuesAll_replacedProperties (properties : List Property)
    (spares : Spares values (Property.walkAll properties)) (keeps : Keeps values (hitsOfProperties requests properties)) :
    Property.withValuesAll values (replacedProperties requests properties) = properties := by
  cases properties with
  | nil => rfl
  | cons property rest =>
    cases property with
    | keyValue key value =>
      rw [replacedProperties, Property.withValuesAll, Property.withValues, key.withValues_eq_self spares.left.left,
        withValues_replaced value spares.left.right keeps.left,
        withValuesAll_replacedProperties rest spares.right keeps.right]
    | shorthand name =>
      rw [replacedProperties, Property.withValuesAll, Property.withValues,
        withValuesAll_replacedProperties rest spares.right keeps]
    | spread value =>
      rw [replacedProperties, Property.withValuesAll, Property.withValues,
        withValues_replaced value spares.left keeps.left,
        withValuesAll_replacedProperties rest spares.right keeps.right]

end

end

/-! ## Items -/

section

variable (f : Expr → Expr)

def mapParams (params : List Param) : List Param :=
  params.map fun param => { param with decorators := param.decorators.map f }

def mapMember : Member → Member
  | .constructor c => .constructor { c with params := mapParams f c.params }
  | .method m => .method { m with decorators := m.decorators.map f, params := mapParams f m.params }
  | .field d => .field { d with decorators := d.decorators.map f }
  | .accessor a => .accessor { a with decorators := a.decorators.map f, params := mapParams f a.params }

def mapDecl : Decl → Decl
  | .classDecl c => .classDecl { c with
      decorators := c.decorators.map f
      members := c.members.map fun member => { member with value := mapMember f member.value } }
  | .variable d => .variable { d with init := d.init.map f }
  | d => d

/-- The item with other expressions in the place of those that lowering looks at. -/
def mapItem : Item → Item
  | .decl d => .decl (mapDecl f d)
  | .exportDecl d => .exportDecl (mapDecl f d)
  | .stmt (.variable d) => .stmt (.variable { d with init := d.init.map f })
  | .stmt (.expr e) => .stmt (.expr (f e))
  | item => item

end

theorem replacedMember_eq (requests : Requests) (member : Member) :
    replacedMember requests member = mapMember (replaced requests) member := by
  cases member <;> rfl

theorem replacedDecl_eq (requests : Requests) (d : Decl) : replacedDecl requests d = mapDecl (replaced requests) d := by
  cases d with
  | classDecl c =>
    rw [replacedDecl, replacedClass, mapDecl]
    simp only [replacedMember_eq]
  | _ => rfl

theorem replacedItem_eq (requests : Requests) (item : Item) :
    replacedItem requests item = mapItem (replaced requests) item := by
  cases item with
  | decl d => rw [replacedItem, mapItem, replacedDecl_eq]
  | exportDecl d => rw [replacedItem, mapItem, replacedDecl_eq]
  | stmt statement => cases statement <;> rfl
  | _ => rfl

section

variable {f g : Expr → Expr}

theorem map_map_eq_self {α : Type} {f g : α → α} {list : List α} (back : ∀ a ∈ list, g (f a) = a) :
    (list.map f).map g = list := by
  rw [List.map_map]
  exact (List.map_congr_left back).trans (List.map_id list)

theorem mapParams_mapParams {params : List Param} (back : ∀ e ∈ params.flatMap (·.decorators), g (f e) = e) :
    mapParams g (mapParams f params) = params := by
  refine map_map_eq_self fun param member => ?_
  rw [map_map_eq_self fun e here => back e (List.mem_flatMap.mpr ⟨param, member, here⟩)]

theorem mapMember_mapMember {member : Member} (back : ∀ e ∈ decoratorsOfMember member, g (f e) = e) :
    mapMember g (mapMember f member) = member := by
  cases member with
  | constructor c => rw [mapMember, mapMember, mapParams_mapParams back]
  | method m =>
    rw [mapMember, mapMember, mapParams_mapParams fun e here => back e (List.mem_append_right _ here),
      map_map_eq_self fun e here => back e (List.mem_append_left _ here)]
  | field d =>
    rw [decoratorsOfMember] at back
    rw [mapMember, mapMember, map_map_eq_self back]
  | accessor a =>
    rw [mapMember, mapMember, mapParams_mapParams fun e here => back e (List.mem_append_right _ here),
      map_map_eq_self fun e here => back e (List.mem_append_left _ here)]

theorem map_map_init {init : Option Expr} (back : ∀ e ∈ init.toList, g (f e) = e) : (init.map f).map g = init := by
  cases init with
  | none => rfl
  | some e => rw [Option.map_some, Option.map_some, back e (List.mem_singleton_self e)]

theorem mapDecl_mapDecl {d : Decl} (back : ∀ e ∈ rootsOfDecl d, g (f e) = e) : mapDecl g (mapDecl f d) = d := by
  cases d with
  | classDecl c =>
    have members : (c.members.map fun member => { member with value := mapMember f member.value }).map
        (fun member => { member with value := mapMember g member.value }) = c.members := by
      refine map_map_eq_self fun member inside => ?_
      rw [mapMember_mapMember fun e here =>
        back e (List.mem_append_right _ (List.mem_flatMap.mpr ⟨member, inside, here⟩))]
    rw [mapDecl, mapDecl, members, map_map_eq_self fun e here => back e (List.mem_append_left _ here)]
  | «variable» d => rw [mapDecl, mapDecl, map_map_init back]
  | _ => rfl

/-- A map that undoes another one on the expressions of an item undoes it on the item. -/
theorem mapItem_mapItem {item : Item} (back : ∀ e ∈ rootsOfItem item, g (f e) = e) :
    mapItem g (mapItem f item) = item := by
  cases item with
  | decl d => rw [mapItem, mapItem, mapDecl_mapDecl back]
  | exportDecl d => rw [mapItem, mapItem, mapDecl_mapDecl back]
  | stmt statement =>
    cases statement with
    | «variable» d => rw [mapItem, mapItem, map_map_init back]
    | expr e => rw [mapItem, mapItem, back e (List.mem_singleton_self e)]
    | result value => rfl
  | _ => rfl

end

/-! ## Units -/

/-- The value that an item binds a name to. -/
def boundValue? (name : String) : Item → Option Expr
  | .decl (.variable d) => if d.name = name then d.init else none
  | _ => none

/-- The names that lowering has bound: those of the last item, where it exports them in their order. -/
def insertedNames (items : Items) : List String :=
  match items.getLast? with
  | some ⟨_, .exportNamed specifiers none⟩ =>
    let names := (List.range specifiers.length).map symbol
    if specifiers = names.map ({ name := · }) then names else []
  | _ => []

/-- The item binds one of the names. -/
def isInserted (names : List String) (item : Located Item) : Bool :=
  names.any fun name => (boundValue? name item.value).isSome

/-- The value that is bound to one of the names. -/
def valueOf? (names : List String) (items : Items) (name : String) : Option Expr :=
  if names.contains name then items.findSome? (boundValue? name ·.value) else none

/-- A unit without the bindings that lowering inserted, their values being back in the place of their names. -/
def restored (u : SourceUnit) : SourceUnit :=
  let names := insertedNames u.items
  if names.isEmpty then u
  else
    { u with
      items := (u.items.dropLast.filter (!isInserted names ·)).map fun item =>
        { item with value := mapItem (Expr.withValues (valueOf? names u.items)) item.value } }

/-- The names that an item uses in its expressions, declares, or exports on its own. -/
def namesOf (item : Item) : List String :=
  item.walk.filterMap (fun | .ident _ name => some name | _ => none) ++ (declaredName? item).toList ++
    match item with
    | .exportNamed specifiers none => specifiers.map (·.name)
    | _ => []

/-- No item uses a name that lowering gives. -/
def Unmarked (items : Items) : Prop :=
  ∀ item ∈ items, ∀ i, symbol i ∉ namesOf item.value

theorem isSymbol_symbol (i : Nat) : isSymbol (symbol i) = true := by
  have digits : ∀ c ∈ Nat.toDigits 10 i, c.isDigit = true := fun c member =>
    Nat.isDigit_of_mem_toDigits (by decide) (by decide) member
  rw [isSymbol, symbol, String.toList_ofList, Nat.toList_repr]
  simpa [Nat.toDigits_ne_nil] using digits

/-- Names that do not have the form of those that lowering gives are none of them. -/
theorem unmarked_of_isSymbol {items : Items}
    (plain : ∀ item ∈ items, ∀ name ∈ namesOf item.value, isSymbol name = false) : Unmarked items := by
  intro item member i used
  have clash := plain item member _ used
  rw [isSymbol_symbol] at clash
  cases clash

theorem declaredName?_of_boundValue? {name : String} {item : Item} {value : Expr}
    (bound : boundValue? name item = some value) : declaredName? item = some name := by
  unfold boundValue? at bound
  split at bound
  case h_1 d =>
    split at bound
    case isTrue same => exact congrArg some same
    case isFalse => cases bound
  case h_2 => cases bound

theorem boundValue?_binding (name other : String) (value : Expr) :
    boundValue? name (binding other value).value = if other = name then some value else none :=
  rfl

theorem findSome?_eq_some_of_unique {α β : Type} {f : α → Option β} {list : List α} {a : α} {b : β} (member : a ∈ list)
    (found : f a = some b) (only : ∀ a' ∈ list, ∀ b', f a' = some b' → b' = b) : list.findSome? f = some b := by
  cases first : list.findSome? f with
  | none =>
    rw [List.findSome?_eq_none_iff.mp first a member] at found
    cases found
  | some b' =>
    obtain ⟨a', member', found'⟩ := List.exists_of_findSome?_eq_some first
    rw [only a' member' b' found']

/-- Without an export of its own names, nothing is taken out of a unit. -/
theorem restored_of_unmarked {u : SourceUnit} (unmarked : Unmarked u.items) : restored u = u := by
  have none : insertedNames u.items = [] := by
    unfold insertedNames
    split
    case h_1 span specifiers last =>
      dsimp only
      split
      case isTrue same =>
        cases specifiers with
        | nil => rfl
        | cons first rest =>
          have used := unmarked _ (List.mem_of_getLast? last) 0
          refine (used (List.mem_append_right _ ?_)).elim
          rw [same]
          simp only [List.map_map, List.mem_map, List.mem_range, Function.comp_apply]
          exact ⟨0, Nat.succ_pos _, rfl⟩
      case isFalse => rfl
    case h_2 => rfl
  rw [restored, none]
  rfl

variable {requests : Requests} {fields exported : Names}

theorem hitsOfItem_eq_flatMap (item : Item) : hitsOfItem requests item = (rootsOfItem item).flatMap (hits requests) := by
  have ofVariable (d : VarDecl) : hitsOfVariable requests d = d.init.toList.flatMap (hits requests) := by
    rw [hitsOfVariable]
    cases d.init with
    | none => rfl
    | some e => exact (List.flatMap_singleton ..).symm
  have ofDecl (d : Decl) : hitsOfDecl requests d = (rootsOfDecl d).flatMap (hits requests) := by
    cases d with
    | «variable» d => exact ofVariable d
    | _ => rfl
  cases item with
  | decl d => exact ofDecl d
  | exportDecl d => exact ofDecl d
  | stmt statement =>
    cases statement with
    | «variable» d => exact ofVariable d
    | expr e => exact (List.flatMap_singleton ..).symm
    | result value => rfl
  | _ => rfl

theorem filterMap_eq_map_range {α β : Type} {f : α → Option β} {g : Nat → β} {list : List α}
    (numbered : ∀ (i : Nat) (a : α), list[i]? = some a → f a = some (g i)) :
    list.filterMap f = (List.range list.length).map g := by
  induction list using List.reverseRecOn with
  | nil => rfl
  | append_singleton rest last ih =>
    have before : rest.filterMap f = (List.range rest.length).map g := ih fun i a found =>
      numbered i a (List.getElem?_append_left (List.getElem?_eq_some_iff.mp found).1 ▸ found)
    have here : f last = some (g rest.length) := numbered rest.length last List.getElem?_concat_length
    rw [List.filterMap_append, before, List.filterMap_cons_some here, List.length_append, List.length_singleton,
      List.range_succ, List.map_append]
    rfl

/-- The candidates of some items are bound to numbered names in their order. -/
theorem boundNames_foldl_add {items : Items} (distinct : (places (nodesOf items)).Nodup) :
    boundNames ((candidatesOf fields exported items).foldl Requests.add []) items =
      (List.range (candidatesOf fields exported items).length).map symbol := by
  have apart := nodup_candidatesOf fields exported distinct
  obtain ⟨-, numbered⟩ := get?_foldl_add apart
  rw [boundNames_eq (serves_foldl_add apart) distinct]
  refine filterMap_eq_map_range fun i c found => ?_
  have real := real_of_mem_candidatesOf (List.mem_of_getElem? found)
  rw [Requests.find?_eq_some.mpr ⟨real, numbered i c found, rfl⟩, Option.map_some]

theorem exists_symbol {items : Items} {count : Nat} (bound : boundNames requests items = (List.range count).map symbol)
    {item : Located Item} (member : item ∈ items) {hit : Hit} (met : hit ∈ hitsOfItem requests item.value) :
    ∃ i < count, hit.request.name = symbol i := by
  have name : hit.request.name ∈ boundNames requests items :=
    List.mem_flatMap.mpr ⟨item, member, List.mem_map_of_mem met⟩
  rw [bound, List.mem_map] at name
  obtain ⟨i, below, same⟩ := name
  exact ⟨i, List.mem_range.mp below, same.symm⟩

theorem declaredName?_ne_symbol {items : Items} (unmarked : Unmarked items) {item : Located Item} (member : item ∈ items)
    (i : Nat) : declaredName? item.value ≠ some (symbol i) := by
  intro declared
  refine unmarked item member i (List.mem_append_left _ (List.mem_append_right _ ?_))
  rw [declared]
  exact List.mem_singleton_self _

section

variable {items : Items} {count : Nat} (unmarked : Unmarked items)
  (bound : boundNames requests items = (List.range count).map symbol)

include unmarked bound

/-- Of the items that stand for one, only the item itself binds no name that was given. -/
theorem filter_lowerItem {item : Located Item} (member : item ∈ items) :
    (lowerItem requests item).filter (!isInserted ((List.range count).map symbol) ·) =
      [{ item with value := replacedItem requests item.value }] := by
  have inserted {hit : Hit} (met : hit ∈ hitsOfItem requests item.value) (value : Expr) :
      isInserted ((List.range count).map symbol) (binding hit.request.name value) = true := by
    obtain ⟨i, below, name⟩ := exists_symbol bound member met
    refine List.any_eq_true.mpr ⟨symbol i, List.mem_map_of_mem (List.mem_range.mpr below), ?_⟩
    rw [boundValue?_binding, if_pos name, Option.isSome_some]
  have kept : isInserted ((List.range count).map symbol)
      { item with value := replacedItem requests item.value } = false := by
    refine List.any_eq_false.mpr fun name given present => ?_
    obtain ⟨i, -, rfl⟩ := List.mem_map.mp given
    obtain ⟨value, bound⟩ := Option.isSome_iff_exists.mp present
    have declared := declaredName?_of_boundValue? bound
    rw [declaredName?_replacedItem] at declared
    exact declaredName?_ne_symbol unmarked member i declared
  rw [lowerItem, List.filter_append, List.filter_cons_of_pos (by rw [kept]; rfl), List.filter_eq_nil_iff.mpr ?before,
    List.filter_eq_nil_iff.mpr ?after, List.nil_append]
  case before =>
    intro b hoisted
    obtain ⟨hit, met, -, rfl⟩ := mem_hoistedBindings.mp hoisted
    rw [inserted met]
    exact Bool.false_ne_true
  case after =>
    intro b aliased
    obtain ⟨hit, met, x, -, rfl⟩ := mem_aliasBindings.mp aliased
    rw [inserted met]
    exact Bool.false_ne_true

variable (serves : requests.Serves (candidatesOf fields exported items)) (distinct : (places (nodesOf items)).Nodup)

include serves distinct

/-- The name left behind for a node is bound to it and to nothing else. -/
theorem keeps_valueOf? {exports : Items} (quiet : ∀ item ∈ exports, ∀ name, boundValue? name item.value = none)
    {item : Located Item} (member : item ∈ items) :
    Keeps (valueOf? ((List.range count).map symbol) (items.flatMap (lowerItem requests) ++ exports))
      (hitsOfItem requests item.value) := by
  intro hit met free
  obtain ⟨i, below, name⟩ := exists_symbol bound member met
  obtain ⟨c, candidate, node, found, -⟩ := (mem_hitsOfItem serves distinct member).mp met
  -- Two hits of one name are for nodes at one place, and so for one node.
  have same {other : Located Item} (member' : other ∈ items) {hit' : Hit} (met' : hit' ∈ hitsOfItem requests other.value)
      (named : hit'.request.name = hit.request.name) : hit' = hit := by
    obtain ⟨c', candidate', node', found', -⟩ := (mem_hitsOfItem serves distinct member').mp met'
    obtain ⟨real, asked, -⟩ := Requests.find?_eq_some.mp found
    obtain ⟨real', asked', -⟩ := Requests.find?_eq_some.mp found'
    have place := serves.named _ _ _ _ asked' asked named
    have inside := mem_of_sublist (candidatesOf_sublist items) c (List.mem_flatMap.mpr ⟨item, member, candidate⟩)
    have inside' := mem_of_sublist (candidatesOf_sublist items) c' (List.mem_flatMap.mpr ⟨other, member', candidate'⟩)
    rw [node] at inside
    rw [node'] at inside'
    have nodes := eq_of_place_eq distinct inside' inside real' real place
    have requests := Option.some.inj ((nodes ▸ found').symm.trans found)
    calc hit' = ⟨hit'.request, hit'.node⟩ := rfl
      _ = ⟨hit.request, hit.node⟩ := by rw [nodes, requests]
  rw [valueOf?, if_pos (by simpa [name] using ⟨i, below, rfl⟩)]
  refine findSome?_eq_some_of_unique (List.mem_append_left _ (List.mem_flatMap.mpr ⟨item, member,
    List.mem_append_left _ (mem_hoistedBindings.mpr ⟨hit, met, free, rfl⟩)⟩)) ?_ fun b inside value bound => ?_
  · rw [boundValue?_binding, if_pos rfl]
  obtain inside | inside := List.mem_append.mp inside
  · obtain ⟨other, member', inside⟩ := List.mem_flatMap.mp inside
    rw [lowerItem, List.mem_append, List.mem_cons] at inside
    obtain hoisted | rfl | aliased := inside
    · obtain ⟨hit', met', -, rfl⟩ := mem_hoistedBindings.mp hoisted
      rw [boundValue?_binding] at bound
      split at bound
      case isTrue named =>
        rw [← Option.some.inj bound, same member' met' named]
      case isFalse => cases bound
    · have declared := declaredName?_of_boundValue? bound
      rw [declaredName?_replacedItem, name] at declared
      exact (declaredName?_ne_symbol unmarked member' i declared).elim
    · obtain ⟨hit', met', x, owned, rfl⟩ := mem_aliasBindings.mp aliased
      rw [boundValue?_binding] at bound
      split at bound
      case isTrue named =>
        rw [same member' met' named, free] at owned
        cases owned
      case isFalse => cases bound
  · rw [quiet b inside] at bound
    cases bound

/-- Restoring the items of a lowered unit gives each of them back. -/
theorem mapItem_replacedItem {exports : Items} (quiet : ∀ item ∈ exports, ∀ name, boundValue? name item.value = none)
    {item : Located Item} (member : item ∈ items) :
    mapItem (Expr.withValues (valueOf? ((List.range count).map symbol) (items.flatMap (lowerItem requests) ++ exports)))
      (replacedItem requests item.value) = item.value := by
  have keeps := keeps_valueOf? unmarked bound serves distinct quiet member
  rw [hitsOfItem_eq_flatMap] at keeps
  rw [replacedItem_eq]
  refine mapItem_mapItem fun e root => withValues_replaced e (fun span name used => ?_) fun hit met =>
    keeps hit (List.mem_flatMap.mpr ⟨e, root, met⟩)
  rw [valueOf?, if_neg]
  intro given
  obtain ⟨i, -, rfl⟩ := List.mem_map.mp (List.contains_iff_mem.mp given)
  have walked := (rootsOfItem_sublist item.value).subset (List.mem_flatMap.mpr ⟨e, root, used⟩)
  exact unmarked item member i (List.mem_append_left _ (List.mem_append_left _ (List.mem_filterMap.mpr ⟨_, walked, rfl⟩)))

/-- Taking the bindings out again and putting their values back gives the items as they were. -/
theorem restored_lowered {u : SourceUnit} (items_eq : u.items = items) (some : count ≠ 0) :
    restored { u with items := items.flatMap (lowerItem requests) ++ exportOf (boundNames requests items) } = u := by
  have nonempty : ((List.range count).map symbol).isEmpty = false := by
    simpa using some
  have exports : exportOf (boundNames requests items) =
      [.synthetic (.exportNamed (((List.range count).map symbol).map ({ name := · })) none)] := by
    rw [bound, exportOf, nonempty, if_neg Bool.false_ne_true]
  have quiet : ∀ item ∈ exportOf (boundNames requests items), ∀ name, boundValue? name item.value = none := by
    intro item member name
    rw [exports, List.mem_singleton] at member
    rw [member]
    rfl
  have inserted : insertedNames (items.flatMap (lowerItem requests) ++ exportOf (boundNames requests items)) =
      (List.range count).map symbol := by
    rw [exports, insertedNames, List.getLast?_concat]
    simp [Located.synthetic]
  have kept : (items.flatMap (lowerItem requests)).filter (!isInserted ((List.range count).map symbol) ·) =
      items.map fun item => { item with value := replacedItem requests item.value } := by
    rw [List.filter_flatMap, List.flatMap_congr fun item member => filter_lowerItem unmarked bound member]
    exact List.flatMap_pure_eq_map ..
  rw [restored]
  dsimp only
  rw [inserted, nonempty, if_neg Bool.false_ne_true]
  have dropped : (items.flatMap (lowerItem requests) ++ exportOf (boundNames requests items)).dropLast =
      items.flatMap (lowerItem requests) := by
    rw [exports, List.dropLast_concat]
  rw [dropped, kept, map_map_eq_self fun item member =>
    congrArg (Located.mk item.span) (mapItem_replacedItem unmarked bound serves distinct quiet member), ← items_eq]
  cases u
  rfl

end

end Lowering

end CompanionBuild
