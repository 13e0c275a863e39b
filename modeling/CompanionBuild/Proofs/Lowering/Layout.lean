import CompanionBuild.Proofs.Lowering.Restoration

/-! # The layout of a lowered unit

Every unit is lowered item by item, with the bindings around each item and the export at the end, also where nothing is
asked for. As long as no two nodes share a place, the requests of a unit serve its candidates and number their names.
-/

namespace CompanionBuild.Lowering

variable {requests : Requests} {fields : Names}

/-! ## Without requests -/

mutual

/-- An expression without requests stays as it is. -/
theorem replaced_of_unmet (e : Expr) (unmet : ∀ node ∈ e.walk, requests.find? node = none) :
    replaced requests e = e := by
  have stays : ∀ inside, nameOr requests e inside = inside := fun inside => by
    rw [nameOr, unmet e (by cases e <;> exact List.mem_cons_self ..)]
  cases e with
  | call span callee args =>
    obtain ⟨first, rest⟩ := List.forall_mem_append.mp (List.forall_mem_cons.mp unmet).2
    rw [replaced, stays, replaced_of_unmet callee first, replacedList_of_unmet args rest]
  | new span callee args =>
    obtain ⟨first, rest⟩ := List.forall_mem_append.mp (List.forall_mem_cons.mp unmet).2
    rw [replaced, stays, replaced_of_unmet callee first, replacedList_of_unmet args rest]
  | member span object property =>
    rw [replaced, stays, replaced_of_unmet object (List.forall_mem_cons.mp unmet).2]
  | array span elements =>
    rw [replaced, stays, replacedList_of_unmet elements (List.forall_mem_cons.mp unmet).2]
  | object span properties =>
    rw [replaced, stays, replacedProperties_of_unmet properties (List.forall_mem_cons.mp unmet).2]
  | paren span inner => rw [replaced, stays, replaced_of_unmet inner (List.forall_mem_cons.mp unmet).2]
  | spread span inner => rw [replaced, stays, replaced_of_unmet inner (List.forall_mem_cons.mp unmet).2]
  | _ => rw [replaced, stays]

theorem replacedList_of_unmet (list : List Expr) (unmet : ∀ node ∈ Expr.walkAll list, requests.find? node = none) :
    replacedList requests list = list := by
  cases list with
  | nil => rfl
  | cons e rest =>
    obtain ⟨first, others⟩ := List.forall_mem_append.mp unmet
    rw [replacedList, replaced_of_unmet e first, replacedList_of_unmet rest others]

theorem replacedProperties_of_unmet (properties : List Property)
    (unmet : ∀ node ∈ Property.walkAll properties, requests.find? node = none) :
    replacedProperties requests properties = properties := by
  cases properties with
  | nil => rfl
  | cons property rest =>
    obtain ⟨first, others⟩ := List.forall_mem_append.mp unmet
    cases property with
    | keyValue key value =>
      rw [replacedProperties, replaced_of_unmet value (List.forall_mem_append.mp first).2,
        replacedProperties_of_unmet rest others]
    | shorthand name => rw [replacedProperties, replacedProperties_of_unmet rest others]
    | spread value => rw [replacedProperties, replaced_of_unmet value first, replacedProperties_of_unmet rest others]

end

theorem mapMember_id (member : Member) : mapMember id member = member := by
  cases member <;> simp [mapMember, mapParams]

theorem mapDecl_id (d : Decl) : mapDecl id d = d := by
  cases d <;> simp [mapDecl, mapMember_id]

theorem mapItem_id (item : Item) : mapItem id item = item := by
  cases item with
  | decl d => rw [mapItem, mapDecl_id]
  | exportDecl d => rw [mapItem, mapDecl_id]
  | stmt statement => cases statement <;> simp [mapItem]
  | _ => rfl

theorem find?_nil (e : Expr) : Requests.find? [] e = none := by
  cases found : Requests.find? [] e with
  | none => rfl
  | some request => cases (Requests.find?_eq_some.mp found).2.1

theorem replacedItem_nil (item : Item) : replacedItem [] item = item := by
  have same : replaced [] = id := funext fun e => replaced_of_unmet e fun node _ => find?_nil node
  rw [replacedItem_eq, same, mapItem_id]

theorem hitsOfItem_nil (item : Item) : hitsOfItem [] item = [] := by
  rw [hitsOfItem_eq_flatMap, List.flatMap_eq_nil_iff]
  intro e _
  rw [List.eq_nil_iff_forall_not_mem]
  intro hit met
  have found := (isAmong_of_mem_hits e hit met).2
  rw [find?_nil] at found
  cases found

theorem boundNames_nil (items : Items) : boundNames [] items = [] := by
  simp only [boundNames, hitsOfItem_nil, List.map_nil]
  exact List.flatMap_eq_nil_iff.mpr fun _ _ => rfl

/-! ## Units -/

/-- The items of a lowered unit. -/
theorem items_lowerUnit (requests : Requests) (u : SourceUnit) : (lowerUnit requests u).items =
    (u.items.map (slotOf requests)).flatMap Slot.layout ++ exportOf (boundNames requests u.items) := by
  rw [layout_slots, lowerUnit]
  split
  case isTrue none =>
    rw [List.isEmpty_iff.mp none]
    have stays (item : Located Item) : lowerItem [] item = [item] := by
      rw [lowerItem, hitsOfItem_nil, replacedItem_nil]
      rfl
    have kept : u.items.flatMap (lowerItem []) = u.items :=
      (List.flatMap_congr fun item _ => stays item).trans (List.flatMap_singleton' u.items)
    rw [kept, boundNames_nil]
    exact (List.append_nil _).symm
  case isFalse => rfl

section

variable {u : SourceUnit} (distinct : (places (nodesOf u.items)).Nodup)

include distinct

theorem serves_requestsOf (defines : u.isDeclaration = false) :
    (requestsOf fields u).Serves (candidatesOf fields (exportedNames u) u.items) := by
  rw [requestsOf, defines]
  exact serves_foldl_add (nodup_candidatesOf fields (exportedNames u) distinct)

/-- The names of the bindings are numbered in their order. -/
theorem boundNames_requestsOf :
    boundNames (requestsOf fields u) u.items = (List.range (requestsOf fields u).length).map symbol := by
  rw [requestsOf]
  split
  case isTrue => exact boundNames_nil u.items
  case isFalse =>
    have length := (get?_foldl_add (nodup_candidatesOf fields (exportedNames u) distinct)).1
    exact (boundNames_foldl_add distinct).trans (congrArg (fun count => (List.range count).map symbol) length.symm)

end

/-- The requests found for a unit are its own, unless another unit of its name was seen first. -/
theorem requestsFor_own {u : SourceUnit} {cache : RequestCache}
    (own : ∀ kept, cache.get? u.name = some kept → kept = requestsOf fields u) :
    ∃ cache', (requestsFor fields u).run cache = (requestsOf fields u, cache') := by
  cases kept : cache.get? u.name with
  | none =>
    refine ⟨cache.put u.name (requestsOf fields u), ?_⟩
    simp only [requestsFor, StateT.run_bind, StateT.run_get, pure_bind, kept]
    rfl
  | some requests =>
    refine ⟨cache, ?_⟩
    simp only [requestsFor, StateT.run_bind, StateT.run_get, pure_bind, kept]
    rw [own requests kept]
    rfl

/-- The lowering of expressions succeeds with the requests of the unit. -/
theorem expressions_run {symbols : SymbolResolver} {u : SourceUnit} {findings : Findings} {cache : RequestCache}
    (own : ∀ kept, cache.get? u.name = some kept → kept = requestsOf fields u) :
    ∃ cache', (((expressions (requestsFor fields)).apply symbols u).run.run findings).run cache =
      ((.ok (lowerUnit (requestsOf fields u) u), findings), cache') := by
  obtain ⟨cache', asked⟩ := requestsFor_own own
  have run : (((expressions (requestsFor fields)).apply symbols u).run.run findings).run cache =
      ((.ok (lowerUnit ((requestsFor fields u).run cache).1 u), findings), ((requestsFor fields u).run cache).2) := rfl
  exact ⟨cache', by rw [run, asked]⟩

end CompanionBuild.Lowering
