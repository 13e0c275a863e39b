import CompanionBuild.Proofs.Lowering.Expression
import CompanionBuild.Proofs.Lowering.Inline
import CompanionBuild.Proofs.Lowering.Metadata

/-! # The bindings of an emitted unit

Lowering inserts bindings around the items of a unit and exports them at its end. A name is bound to a node when exactly
one inserted binding declares it, the export lists it, and its value is the node itself, or a variable that has the node
for its initializer. The nodes with a request are exactly those that are bound.
-/

namespace CompanionBuild.Lowering

/-- An item of an emitted unit with the bindings inserted around it. -/
structure Slot where
  before : Items
  item : Located Item
  after : Items

namespace Slot

def bindings (slot : Slot) : Items :=
  slot.before ++ slot.after

def layout (slot : Slot) : Items :=
  slot.before ++ slot.item :: slot.after

end Slot

/-- The name that an item declares. -/
def declaredName? : Item → Option String
  | .decl d | .exportDecl d => some d.name
  | .stmt (.variable d) => some d.name
  | _ => none

/-- An item declares a variable with a given initializer. -/
def Defines (item : Item) (name : String) (value : Expr) : Prop :=
  ∃ d, ownVariable? item = some d ∧ d.name = name ∧ d.init = some value

/-- An emitted unit has the items of a unit in their order, with bindings around them and an export at the end. -/
structure Inserts (u emitted : SourceUnit) (slots : List Slot) : Prop where
  items : ∃ exports, emitted.items = slots.flatMap Slot.layout ++ exports ∧ exports.length ≤ 1
  kept : List.Forall₂ (fun item slot =>
    slot.item.span = item.span ∧ declaredName? slot.item.value = declaredName? item.value) u.items slots

/-- A name is bound to a node in an emitted unit. -/
structure Binds (emitted : SourceUnit) (slots : List Slot) (name : String) (node : Expr) : Prop where
  once : (slots.flatMap Slot.bindings).countP (fun b => declaredName? b.value = some name) = 1
  listed : ∃ specifiers, emitted.items.getLast? = some (.synthetic (.exportNamed specifiers none)) ∧
    { name } ∈ specifiers
  value : (∃ slot ∈ slots, ∃ b ∈ slot.before, Defines b.value name node) ∨
    ∃ slot ∈ slots, ∃ b ∈ slot.after, ∃ x, Defines slot.item.value x node ∧ Defines b.value name (.name x)

theorem Defines.eq {item : Item} {name name' : String} {value value' : Expr} (first : Defines item name value)
    (second : Defines item name' value') : name' = name ∧ value' = value := by
  obtain ⟨d, own, rfl, init⟩ := first
  obtain ⟨d', own', rfl, init'⟩ := second
  obtain rfl := Option.some.inj (own.symm.trans own')
  exact ⟨rfl, Option.some.inj (init'.symm.trans init)⟩

theorem defines_binding (name : String) (value : Expr) : Defines (binding name value).value name value :=
  ⟨_, rfl, rfl, rfl⟩

/-! ## Items -/

variable {requests : Requests} {fields exported : Names}

/-- An item as lowering leaves it. -/
def slotOf (requests : Requests) (item : Located Item) : Slot where
  before := hoistedBindings (hitsOfItem requests item.value)
  item := { item with value := replacedItem requests item.value }
  after := aliasBindings (hitsOfItem requests item.value)

/-- A whole initializer stays. -/
theorem replaced_eq_self {e : Expr} {request : Request} (found : requests.find? e = some request)
    (owned : request.initializerOf.isSome = true) : replaced requests e = e := by
  cases e <;> simp only [replaced, nameOr, found, owned, if_true]

theorem ownVariable?_replacedItem (item : Item) :
    ownVariable? (replacedItem requests item) = (ownVariable? item).map (replacedVariable requests) := by
  cases item with
  | decl d => cases d <;> rfl
  | exportDecl d => cases d <;> rfl
  | stmt statement => cases statement <;> rfl
  | _ => rfl

theorem declaredName?_replacedItem (item : Item) :
    declaredName? (replacedItem requests item) = declaredName? item := by
  cases item with
  | decl d => cases d <;> rfl
  | exportDecl d => cases d <;> rfl
  | stmt statement => cases statement <;> rfl
  | _ => rfl

theorem declaredName?_binding (name : String) (value : Expr) : declaredName? (binding name value).value = some name :=
  rfl

/-- Every hit makes one binding. -/
theorem countP_bindings (found : List Hit) (name : String) :
    (hoistedBindings found ++ aliasBindings found).countP (fun b => declaredName? b.value = some name) =
      (found.map (·.request.name)).count name := by
  induction found with
  | nil => rfl
  | cons hit rest ih =>
    rw [List.countP_append] at ih ⊢
    rw [List.map_cons, List.count_cons, ← ih]
    cases owned : hit.request.initializerOf with
    | none =>
      have hoisted : hoistedBindings (hit :: rest) = binding hit.request.name hit.node :: hoistedBindings rest := by
        simp only [hoistedBindings, List.filterMap_cons, owned]
      have aliased : aliasBindings (hit :: rest) = aliasBindings rest := by
        simp only [aliasBindings, List.filterMap_cons, owned, Option.map_none]
      rw [hoisted, aliased, List.countP_cons, declaredName?_binding]
      simp only [Option.some.injEq, decide_eq_true_eq, beq_iff_eq]
      omega
    | some x =>
      have hoisted : hoistedBindings (hit :: rest) = hoistedBindings rest := by
        simp only [hoistedBindings, List.filterMap_cons, owned]
      have aliased : aliasBindings (hit :: rest) = binding hit.request.name (.name x) :: aliasBindings rest := by
        simp only [aliasBindings, List.filterMap_cons, owned, Option.map_some]
      rw [hoisted, aliased, List.countP_cons, declaredName?_binding]
      simp only [Option.some.injEq, decide_eq_true_eq, beq_iff_eq]
      omega

theorem mem_hoistedBindings {found : List Hit} {b : Located Item} :
    b ∈ hoistedBindings found ↔
      ∃ hit ∈ found, hit.request.initializerOf = none ∧ binding hit.request.name hit.node = b := by
  rw [hoistedBindings, List.mem_filterMap]
  refine exists_congr fun hit => and_congr_right fun _ => ?_
  cases hit.request.initializerOf <;> simp

theorem mem_aliasBindings {found : List Hit} {b : Located Item} :
    b ∈ aliasBindings found ↔
      ∃ hit ∈ found, ∃ x, hit.request.initializerOf = some x ∧ binding hit.request.name (.name x) = b := by
  rw [aliasBindings, List.mem_filterMap]
  refine exists_congr fun hit => and_congr_right fun _ => ?_
  rw [Option.map_eq_some_iff]

/-! ## Units -/

theorem countP_slots (items : Items) (name : String) :
    ((items.map (slotOf requests)).flatMap Slot.bindings).countP (fun b => declaredName? b.value = some name) =
      (boundNames requests items).count name := by
  induction items with
  | nil => rfl
  | cons item rest ih =>
    have names : boundNames requests (item :: rest) =
        (hitsOfItem requests item.value).map (·.request.name) ++ boundNames requests rest :=
      List.flatMap_cons
    rw [List.map_cons, List.flatMap_cons, List.countP_append, ih, names, List.count_append, ← countP_bindings]
    rfl

theorem layout_slots (items : Items) :
    (items.map (slotOf requests)).flatMap Slot.layout = items.flatMap (lowerItem requests) := by
  rw [List.flatMap_map]
  rfl

theorem getLast?_exportOf {names : List String} {name : String} (member : name ∈ names) (items : Items) :
    ∃ specifiers, (items ++ exportOf names).getLast? = some (.synthetic (.exportNamed specifiers none)) ∧
      { name } ∈ specifiers := by
  refine ⟨names.map fun name => { name }, ?_, List.mem_map_of_mem member⟩
  rw [exportOf, List.isEmpty_eq_false_iff.mpr (List.ne_nil_of_mem member), if_neg Bool.false_ne_true,
    List.getLast?_concat]

section

variable {items : Items} (serves : requests.Serves (candidatesOf fields exported items))
  (distinct : (places (nodesOf items)).Nodup)

include serves distinct

/-- The hits of an item are the requests of its candidates. -/
theorem mem_hitsOfItem {item : Located Item} (member : item ∈ items) {hit : Hit} :
    hit ∈ hitsOfItem requests item.value ↔
      ∃ c ∈ candidatesOfItem fields exported item.value, c.node = hit.node ∧
        requests.find? hit.node = some hit.request ∧ hit.request.initializerOf = c.initializerOf := by
  rw [hitsOfItems_eq (serves.fits distinct) item member, List.mem_filterMap]
  refine exists_congr fun c => and_congr_right fun candidate => ?_
  obtain ⟨request, asked, -, owner⟩ := serves.granted c (List.mem_flatMap.mpr ⟨item, member, candidate⟩)
  rw [hitOf?, Option.map_eq_some_iff]
  constructor
  · rintro ⟨met, found, rfl⟩
    obtain ⟨-, same, -⟩ := Requests.find?_eq_some.mp found
    obtain rfl := Option.some.inj (asked.symm.trans same)
    exact ⟨rfl, found, owner⟩
  · rintro ⟨same, found, -⟩
    exact ⟨hit.request, same ▸ found, by rw [same]⟩

/-- A hit for a whole initializer leaves it in place. -/
theorem defines_replacedItem {item : Located Item} (member : item ∈ items) {hit : Hit}
    (met : hit ∈ hitsOfItem requests item.value) {x : String} (owned : hit.request.initializerOf = some x) :
    Defines (replacedItem requests item.value) x hit.node := by
  obtain ⟨c, candidate, node, found, owner⟩ := (mem_hitsOfItem serves distinct member).mp met
  obtain ⟨d, own, name, init⟩ := (isOwn_of_mem_candidatesOfItem candidate).2 x (owner.symm.trans owned)
  refine ⟨replacedVariable requests d, ?_, name, ?_⟩
  · rw [ownVariable?_replacedItem, own]
    rfl
  · rw [replacedVariable, init, node, Option.map_some, replaced_eq_self found (by rw [owned]; rfl)]

/-- The names bound are those of the candidates. -/
theorem boundNames_eq : boundNames requests items =
    (candidatesOf fields exported items).filterMap fun c => (requests.find? c.node).map (·.name) := by
  rw [candidatesOf, List.filterMap_flatMap, boundNames]
  refine List.flatMap_congr fun item member => ?_
  rw [hitsOfItems_eq (serves.fits distinct) item member, List.map_filterMap]
  simp only [hitOf?, Option.map_map]
  rfl

/-- No two hits are given one name. -/
theorem nodup_boundNames : (boundNames requests items).Nodup := by
  have apart := List.pairwise_map.mp (nodup_candidatesOf fields exported distinct)
  rw [boundNames_eq serves distinct]
  refine apart.filterMap _ fun c c' different name given name' given' same => different ?_
  obtain ⟨request, found, rfl⟩ := Option.map_eq_some_iff.mp given
  obtain ⟨request', found', rfl⟩ := Option.map_eq_some_iff.mp given'
  exact serves.named _ _ _ _ (Requests.find?_eq_some.mp found).2.1 (Requests.find?_eq_some.mp found').2.1 same

/-- A name that is bound belongs to the request for its node. -/
theorem find?_of_binds {emitted : SourceUnit} {name : String} {e : Expr}
    (binds : Binds emitted (items.map (slotOf requests)) name e) :
    (requests.find? e).map (·.name) = some name := by
  have given {item : Located Item} (member : item ∈ items) {hit : Hit} (met : hit ∈ hitsOfItem requests item.value) :
      (requests.find? hit.node).map (·.name) = some hit.request.name := by
    obtain ⟨c, -, -, found, -⟩ := (mem_hitsOfItem serves distinct member).mp met
    rw [found, Option.map_some]
  obtain ⟨slot, inside, b, before, defines⟩ | ⟨slot, inside, b, after, x, defines, aliased⟩ := binds.value
  · obtain ⟨item, member, rfl⟩ := List.mem_map.mp inside
    obtain ⟨hit, met, -, rfl⟩ := mem_hoistedBindings.mp before
    obtain ⟨rfl, rfl⟩ := (defines_binding _ _).eq defines
    exact given member met
  · obtain ⟨item, member, rfl⟩ := List.mem_map.mp inside
    obtain ⟨hit, met, x', owned, rfl⟩ := mem_aliasBindings.mp after
    obtain ⟨rfl, -⟩ := (defines_binding _ _).eq aliased
    obtain ⟨-, rfl⟩ := (defines_replacedItem serves distinct member met owned).eq defines
    exact given member met

/-- The node of a candidate is bound to the name of its request. -/
theorem binds_of_find? {emitted : SourceUnit}
    (emits : emitted.items = items.flatMap (lowerItem requests) ++ exportOf (boundNames requests items))
    {c : Candidate} (candidate : c ∈ candidatesOf fields exported items) {request : Request}
    (found : requests.find? c.node = some request) :
    Binds emitted (items.map (slotOf requests)) request.name c.node := by
  obtain ⟨item, member, candidate⟩ := List.mem_flatMap.mp candidate
  obtain ⟨request', asked, -, owner⟩ := serves.granted c (List.mem_flatMap.mpr ⟨item, member, candidate⟩)
  obtain rfl := Option.some.inj (asked.symm.trans (Requests.find?_eq_some.mp found).2.1)
  have met : ⟨request', c.node⟩ ∈ hitsOfItem requests item.value :=
    (mem_hitsOfItem serves distinct member).mpr ⟨c, candidate, rfl, found, owner⟩
  have named : request'.name ∈ boundNames requests items :=
    List.mem_flatMap.mpr ⟨item, member, List.mem_map.mpr ⟨_, met, rfl⟩⟩
  have slot : slotOf requests item ∈ items.map (slotOf requests) := List.mem_map_of_mem member
  refine ⟨?_, ?_, ?_⟩
  · rw [countP_slots]
    exact List.count_eq_one_of_mem (nodup_boundNames serves distinct) named
  · rw [emits]
    exact getLast?_exportOf named _
  · cases owned : request'.initializerOf with
    | none =>
      exact .inl ⟨_, slot, _, mem_hoistedBindings.mpr ⟨_, met, owned, rfl⟩, defines_binding _ _⟩
    | some x =>
      exact .inr ⟨_, slot, _, mem_aliasBindings.mpr ⟨_, met, x, owned, rfl⟩, x,
        defines_replacedItem serves distinct member met owned, defines_binding _ _⟩

/-- The nodes with a request are those that are bound. -/
theorem agree_binds {emitted : SourceUnit}
    (emits : emitted.items = items.flatMap (lowerItem requests) ++ exportOf (boundNames requests items))
    {nodes : List Expr} (separate : (places nodes).Nodup)
    (within : ∀ c ∈ candidatesOf fields exported items, c.node ∈ nodes) :
    requests.Agree (Binds emitted (items.map (slotOf requests))) nodes := by
  intro e member name
  refine ⟨find?_of_binds serves distinct, fun given => ?_⟩
  obtain ⟨request, found, rfl⟩ := Option.map_eq_some_iff.mp given
  obtain ⟨real, asked, -⟩ := Requests.find?_eq_some.mp found
  obtain ⟨c, candidate, place⟩ := serves.asked _ _ asked
  obtain rfl := eq_of_place_eq separate (within c candidate) member (real_of_mem_candidatesOf candidate) real place
  exact binds_of_find? serves distinct emits candidate found

end

/-! ## Metadata and emitted units -/

/-- The items of a unit with its resources in place declare the same names. -/
theorem declaredName?_of_inlined {item made : Located Item} (inlined : Resource.Inlined exported item made) :
    made.span = item.span ∧ declaredName? made.value = declaredName? item.value := by
  cases inlined with
  | same => exact ⟨rfl, rfl⟩
  | ofClass span name decorators wrap wrapped =>
    obtain rfl | rfl := wrapped
    · exact ⟨rfl, congrArg some name⟩
    · exact ⟨rfl, congrArg some name⟩

/-- Requests that a unit may be lowered with: none for a declaration file, and else one for every candidate. -/
inductive Requests.Suits (requests : Requests) (u : SourceUnit) : Prop
  | declaration (declares : u.isDeclaration = true) (none : requests = [])
  | source (defines : u.isDeclaration = false)
      (serves : requests.Serves (candidatesOf defaultFields (exportedNames u) u.items))

section

variable {u made : SourceUnit} (separate : (places u.items.walk).Nodup)
  (inlined : List.Forall₂ (Resource.Inlined (exportedNames u)) u.items made.items)

include separate inlined

/-- Resources in place make no two nodes share a place. -/
theorem nodup_places_of_inlined : (places (nodesOf made.items)).Nodup := by
  obtain ⟨list, same, sublist⟩ := (Resource.rearranges_of_inlined _ inlined).placed
  have written := separate.sublist (places_sublist (nodesOf_sublist u.items))
  exact same.nodup_iff.mp (written.sublist sublist)

/-- The requests of a unit suit it, whether they are found out before or after resources are put in place. -/
theorem suits_requestsOf (same : made.isDeclaration = u.isDeclaration) : (requestsOf defaultFields made).Suits u := by
  rw [requestsOf]
  split
  case isTrue declares => exact .declaration (same ▸ declares) rfl
  case isFalse defines =>
    have distinct := nodup_places_of_inlined separate inlined
    have serves := serves_foldl_add (nodup_candidatesOf defaultFields (exportedNames u) distinct)
    have moved := (Resource.rearranges_of_inlined _ inlined).lowered
    rw [Resource.exportedNames_eq _ inlined]
    exact .source (same ▸ Bool.not_eq_true _ ▸ defines) (serves.of_mem_iff fun c => moved.symm.mem_iff)

end

/-- The metadata of a member lowered with some requests. -/
def loweredMember (requests : Requests) (u : SourceUnit) (name : String) (json : Json) : Json :=
  if requests.isEmpty then json else lowerMember requests u name json

/-- Where nothing is to be lowered, nothing is inserted and nothing bound. -/
theorem refersMember_lowerUnit_nil {u made : SourceUnit}
    (inlined : List.Forall₂ (Resource.Inlined exported) u.items made.items) :
    ∃ slots, Inserts u (lowerUnit [] made) slots ∧
      ∀ name json, RefersMember (Binds (lowerUnit [] made) slots) u name json json := by
  refine ⟨made.items.map (⟨[], ·, []⟩), ⟨⟨[], ?_, Nat.zero_le _⟩, ?_⟩, fun name json => refersMember_self ?_ name json⟩
  · rw [List.flatMap_map, List.append_nil]
    exact (List.flatMap_singleton' made.items).symm
  · rw [List.forall₂_map_right_iff]
    exact inlined.imp fun _ _ same => declaredName?_of_inlined same
  · intro n _ name binds
    have none : (made.items.map (⟨[], ·, []⟩ : Located Item → Slot)).flatMap Slot.bindings = [] := by
      rw [List.flatMap_map]
      exact List.flatMap_eq_nil_iff.mpr fun _ _ => rfl
    have once := binds.once
    rw [none] at once
    cases once

/-- Whatever the resources, metadata lowered with some requests refers to the bindings of the unit lowered with them. -/
theorem refersMember_lowerUnit {u made : SourceUnit} (separate : (places u.items.walk).Nodup)
    (inlined : List.Forall₂ (Resource.Inlined (exportedNames u)) u.items made.items) (suits : requests.Suits u) :
    ∃ slots, Inserts u (lowerUnit requests made) slots ∧
      ∀ name json,
        RefersMember (Binds (lowerUnit requests made) slots) u name json (loweredMember requests u name json) := by
  by_cases empty : requests = []
  · subst empty
    exact refersMember_lowerUnit_nil inlined
  have some : requests.isEmpty = false := List.isEmpty_eq_false_iff.mpr empty
  -- The candidates are those of the unit as written, and no two of them share a place.
  have moved := Resource.rearranges_of_inlined _ inlined
  have serves : requests.Serves (candidatesOf defaultFields (exportedNames u) made.items) := by
    cases suits with
    | declaration _ none => exact (empty none).elim
    | source _ serves => exact serves.of_mem_iff fun c => moved.lowered.mem_iff
  have distinct := nodup_places_of_inlined separate inlined
  have within : ∀ c ∈ candidatesOf defaultFields (exportedNames u) made.items, c.node ∈ u.items.walk := by
    intro c candidate
    have node := mem_of_sublist (candidatesOf_sublist u.items) c (moved.lowered.mem_iff.mp candidate)
    exact (nodesOf_sublist u.items).subset node
  have emits : (lowerUnit requests made).items =
      made.items.flatMap (lowerItem requests) ++ exportOf (boundNames requests made.items) := by
    rw [lowerUnit, some]
    rfl
  refine ⟨made.items.map (slotOf requests), ⟨⟨exportOf (boundNames requests made.items), ?_, ?_⟩, ?_⟩, ?_⟩
  · rw [layout_slots, emits]
  · rw [exportOf]
    split
    · exact Nat.zero_le _
    · exact Nat.le_refl _
  · rw [List.forall₂_map_right_iff]
    refine inlined.imp fun item made same => ?_
    obtain ⟨span, name⟩ := declaredName?_of_inlined same
    exact ⟨span, (declaredName?_replacedItem made.value).trans name⟩
  · intro name json
    rw [loweredMember, some, if_neg Bool.false_ne_true]
    exact refersMember_lowerMember (agree_binds serves distinct emits separate within) name json

end CompanionBuild.Lowering
