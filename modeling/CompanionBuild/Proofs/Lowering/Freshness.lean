import CompanionBuild.Proofs.Lowering.Layout

/-! # Fresh names

Lowering numbers the names it gives from zero, whatever the unit binds already. A name is declared by every item of the
unit that bound it before, and once more for every node that was lowered under it. So the names are fresh exactly where
the unit binds none of them and no two nodes were lowered under one name.
-/

namespace CompanionBuild.Lowering

/-- The names that an item binds in its unit: its declaration, its variable, or what it imports. -/
def bindingsOfItem : Item → List String
  | .imports d => d.specifiers.map (·.localName)
  | item => (declaredName? item).toList

/-- The number of items that bind a name. -/
def bindingCount (items : Items) (name : String) : Nat :=
  items.countP fun item => name ∈ bindingsOfItem item.value

variable {requests : Requests} {fields : Names}

theorem bindingCount_append (items others : Items) (name : String) :
    bindingCount (items ++ others) name = bindingCount items name + bindingCount others name :=
  List.countP_append

theorem bindingCount_eq_zero_iff {items : Items} {name : String} :
    bindingCount items name = 0 ↔ ∀ item ∈ items, name ∉ bindingsOfItem item.value := by
  rw [bindingCount, List.countP_eq_zero]
  simp

/-! ## Items -/

theorem bindingsOfItem_replacedItem (item : Item) :
    bindingsOfItem (replacedItem requests item) = bindingsOfItem item := by
  cases item with
  | imports d => rfl
  | decl d => exact congrArg Option.toList (declaredName?_replacedItem (.decl d))
  | exportDecl d => exact congrArg Option.toList (declaredName?_replacedItem (.exportDecl d))
  | stmt statement => cases statement <;> rfl
  | _ => rfl

/-- Inserted bindings bind the names they declare. -/
theorem bindingCount_inserted {items : Items} (inserted : ∀ b ∈ items, ∃ name value, b = binding name value)
    (name : String) :
    bindingCount items name = items.countP (fun b => declaredName? b.value = some name) := by
  apply List.countP_congr
  intro b member
  obtain ⟨other, value, rfl⟩ := inserted b member
  simp [bindingsOfItem, declaredName?, binding, Located.synthetic, Decl.name, eq_comm]

theorem bindingCount_exportOf (names : List String) (name : String) : bindingCount (exportOf names) name = 0 := by
  rw [bindingCount_eq_zero_iff, exportOf]
  split
  · simp
  · simp [bindingsOfItem, declaredName?, Located.synthetic]

theorem inserted_slotOf (item : Located Item) :
    ∀ b ∈ (slotOf requests item).bindings, ∃ name value, b = binding name value := by
  intro b among
  obtain hoisted | aliased := List.mem_append.mp among
  · obtain ⟨hit, -, -, rfl⟩ := mem_hoistedBindings.mp hoisted
    exact ⟨_, _, rfl⟩
  · obtain ⟨hit, -, x, -, rfl⟩ := mem_aliasBindings.mp aliased
    exact ⟨_, _, rfl⟩

theorem bindingCount_layout (slot : Slot) (name : String) :
    bindingCount slot.layout name = bindingCount [slot.item] name + bindingCount slot.bindings name := by
  have split : slot.layout = slot.before ++ ([slot.item] ++ slot.after) := rfl
  rw [split, Slot.bindings, bindingCount_append, bindingCount_append, bindingCount_append]
  omega

/-- An item and the bindings around it bind what the item bound before, and a name for every hit. -/
theorem bindingCount_slotOf (item : Located Item) (name : String) :
    bindingCount (slotOf requests item).layout name = bindingCount [item] name +
      ((hitsOfItem requests item.value).map (·.request.name)).count name := by
  have kept : bindingCount [(slotOf requests item).item] name = bindingCount [item] name := by
    simp only [bindingCount, slotOf, List.countP_singleton, bindingsOfItem_replacedItem]
  rw [bindingCount_layout, kept, bindingCount_inserted (inserted_slotOf item)]
  exact congrArg _ (countP_bindings _ name)

/-! ## Units -/

theorem bindingCount_slots (items : Items) (name : String) :
    bindingCount ((items.map (slotOf requests)).flatMap Slot.layout) name =
      bindingCount items name + (boundNames requests items).count name := by
  induction items with
  | nil => rfl
  | cons item rest ih =>
    have names : boundNames requests (item :: rest) =
        (hitsOfItem requests item.value).map (·.request.name) ++ boundNames requests rest :=
      List.flatMap_cons
    have items : bindingCount (item :: rest) name = bindingCount [item] name + bindingCount rest name :=
      bindingCount_append [item] rest name
    rw [List.map_cons, List.flatMap_cons, bindingCount_append, bindingCount_slotOf, ih, names, List.count_append, items]
    omega

/-- In a lowered unit a name is bound as often as before, and once for every node that was lowered under it. -/
theorem bindingCount_lowerUnit (u : SourceUnit) (name : String) :
    bindingCount (lowerUnit requests u).items name =
      bindingCount u.items name + (boundNames requests u.items).count name := by
  rw [items_lowerUnit, bindingCount_append, bindingCount_slots, bindingCount_exportOf, Nat.add_zero]

/-- Every request has a name of the form that lowering gives. -/
theorem exists_symbol_of_get? {candidates : List Candidate} {place : Place} {request : Request}
    (found : (candidates.foldl Requests.add []).get? place = some request) : ∃ i, request.name = symbol i := by
  induction candidates using List.reverseRecOn with
  | nil => cases found
  | append_singleton others last ih =>
    rw [List.foldl_append, List.foldl_cons, List.foldl_nil, Requests.get?_add] at found
    split at found
    · cases found
      exact ⟨_, rfl⟩
    · exact ih found

theorem exists_symbol_of_mem_boundNames {u : SourceUnit} {name : String}
    (given : name ∈ boundNames (requestsOf fields u) u.items) : ∃ i, name = symbol i := by
  obtain ⟨item, -, given⟩ := List.mem_flatMap.mp given
  obtain ⟨hit, met, rfl⟩ := List.mem_map.mp given
  rw [hitsOfItem_eq_flatMap] at met
  obtain ⟨e, -, met⟩ := List.mem_flatMap.mp met
  obtain ⟨-, found, -⟩ := Requests.find?_eq_some.mp (isAmong_of_mem_hits e hit met).2
  rw [requestsOf] at found
  split at found
  · cases found
  · exact exists_symbol_of_get? found

/-- A lowered unit has the items of a unit, in which only expressions may be others, between bindings of numbered names,
and exports these names at its end. -/
structure Introduces (u lowered : SourceUnit) (names : List String) : Prop where
  numbered : ∀ name ∈ names, ∃ i, name = symbol i
  layout : ∃ slots, lowered.items = slots.flatMap Slot.layout ++ exportOf names ∧
    List.Forall₂ (fun item slot => ∃ f, slot.item = { item with value := mapItem f item.value }) u.items slots ∧
    (∀ b ∈ slots.flatMap Slot.bindings, ∃ name value, b = binding name value) ∧
    ∀ name, (slots.flatMap Slot.bindings).countP (fun b => declaredName? b.value = some name) = names.count name

theorem introduces_lowerUnit (u : SourceUnit) :
    Introduces u (lowerUnit (requestsOf fields u) u) (boundNames (requestsOf fields u) u.items) where
  numbered name given := exists_symbol_of_mem_boundNames given
  layout := by
    refine ⟨_, items_lowerUnit (requestsOf fields u) u, ?_, fun b member => ?_, countP_slots u.items⟩
    · rw [List.forall₂_map_right_iff, List.forall₂_same]
      intro item _
      exact ⟨replaced (requestsOf fields u), by rw [slotOf, replacedItem_eq]⟩
    · obtain ⟨slot, among, member⟩ := List.mem_flatMap.mp member
      obtain ⟨item, -, rfl⟩ := List.mem_map.mp among
      exact inserted_slotOf item b member

/-- Names are fresh: the unit binds none of them, and one item of the lowered unit declares each. -/
structure Fresh (u lowered : SourceUnit) (names : List String) : Prop where
  unused : ∀ name ∈ names, ∀ item ∈ u.items, name ∉ bindingsOfItem item.value
  once : ∀ name ∈ names, bindingCount lowered.items name = 1

theorem fresh_lowerUnit_iff (u : SourceUnit) :
    Fresh u (lowerUnit requests u) (boundNames requests u.items) ↔ (boundNames requests u.items).Nodup ∧
      ∀ name ∈ boundNames requests u.items, ∀ item ∈ u.items, name ∉ bindingsOfItem item.value := by
  constructor
  · intro fresh
    refine ⟨List.nodup_iff_count_le_one.mpr fun name => ?_, fresh.unused⟩
    by_cases given : name ∈ boundNames requests u.items
    · have once := fresh.once name given
      rw [bindingCount_lowerUnit] at once
      omega
    · rw [List.count_eq_zero_of_not_mem given]
      exact Nat.zero_le 1
  · rintro ⟨apart, unused⟩
    refine ⟨unused, fun name given => ?_⟩
    rw [bindingCount_lowerUnit, bindingCount_eq_zero_iff.mpr (unused name given), List.count_eq_one_of_mem apart given]

/-- Where no two nodes share a place, the names are fresh exactly if the unit binds none of the first numbered names, as
many as there are nodes to lower. -/
theorem fresh_lowerUnit_iff_of_separate {u : SourceUnit} (separate : (places u.items.walk).Nodup) :
    Fresh u (lowerUnit (requestsOf fields u) u) (boundNames (requestsOf fields u) u.items) ↔
      ∀ i < (requestsOf fields u).length, ∀ item ∈ u.items, symbol i ∉ bindingsOfItem item.value := by
  have distinct := separate.sublist (places_sublist (nodesOf_sublist u.items))
  have apart : ((List.range (requestsOf fields u).length).map symbol).Nodup :=
    List.nodup_range.map fun _ _ same => symbol_injective same
  rw [fresh_lowerUnit_iff, boundNames_requestsOf distinct, and_iff_right apart, List.forall_mem_map]
  simp only [List.mem_range]

/-- Lowering gives fresh names exactly if no two nodes are lowered under one name and the unit binds none of the names.
Where no two nodes share a place, these are the first numbered names, as many as there are nodes to lower. -/
theorem lowered_names_fresh_iff {symbols : SymbolResolver} {u : SourceUnit} {findings : Findings}
    {cache : RequestCache} (own : ∀ kept, cache.get? u.name = some kept → kept = requestsOf fields u) :
    ∃ lowered cache' names, (((expressions (requestsFor fields)).apply symbols u).run.run findings).run cache =
        ((.ok lowered, findings), cache') ∧
      Introduces u lowered names ∧
      (Fresh u lowered names ↔
        names.Nodup ∧ ∀ name ∈ names, ∀ item ∈ u.items, name ∉ bindingsOfItem item.value) ∧
      ((places u.items.walk).Nodup → (Fresh u lowered names ↔
        ∀ i < (requestsOf fields u).length, ∀ item ∈ u.items, symbol i ∉ bindingsOfItem item.value)) := by
  obtain ⟨cache', run⟩ := expressions_run own
  exact ⟨_, cache', _, run, introduces_lowerUnit u, fresh_lowerUnit_iff u, fresh_lowerUnit_iff_of_separate⟩

/-- A unit that was lowered before: its class refers to a factory by the name that was given to it. -/
def loggerUnit : SourceUnit where
  name := "/app.module.ts"
  text := ""
  isDeclaration := false
  items := [
    ⟨⟨0, 34, some 0⟩, .decl (.variable {
      name := "ɵ0"
      init := some (.arrow ⟨15, 33, some 0⟩ [] (.new ⟨21, 33, some 0⟩ (.ident ⟨25, 31, some 0⟩ "Logger") [])) })⟩,
    ⟨⟨35, 125, some 0⟩, .exportDecl (.classDecl {
      name := "AppModule"
      decorators := [.call ⟨36, 98, some 0⟩ (.ident ⟨36, 44, some 0⟩ "NgModule") [.object ⟨45, 97, some 0⟩ [
        .named "provide" (.ident ⟨70, 76, some 0⟩ "Logger"),
        .named "useFactory" (.ident ⟨90, 93, some 0⟩ "ɵ0")]]] })⟩,
    .synthetic (.exportNamed [{ name := "ɵ0" }] none)]

/-- The function of the unit is lowered again, under the name that it has already. -/
theorem loggerUnit_not_fresh :
    ∃ lowered cache' names,
      (((expressions (requestsFor defaultFields)).apply .localOnly loggerUnit).run.run {}).run [] =
          ((.ok lowered, {}), cache') ∧
        Introduces loggerUnit lowered names ∧ ¬ Fresh loggerUnit lowered names := by
  obtain ⟨lowered, cache', names, run, introduces, -, numbered⟩ :=
    @lowered_names_fresh_iff defaultFields .localOnly loggerUnit {} [] fun kept none => by cases none
  refine ⟨lowered, cache', names, run, introduces, fun fresh => ?_⟩
  have unused := (numbered (by decide)).mp fresh 0 (by decide) _ (List.mem_cons_self ..)
  exact unused (by decide)

end CompanionBuild.Lowering
