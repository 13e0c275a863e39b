import CompanionBuild.Proofs.Lowering.Request

/-! # Which requests are met

Rewriting a unit meets exactly the nodes to be lowered, each once and in the same order.
-/

namespace CompanionBuild.Lowering

variable {fields exported : Names} {requests : Requests}

theorem Requests.find?_eq_some {e : Expr} {request : Request} :
    requests.find? e = some request ↔
      e.span.isSynthetic = false ∧ requests.get? e.place = some request ∧ request.kind = e.kind := by
  rw [find?]
  split
  case isTrue made => simp [made]
  case isFalse real =>
    rw [Option.filter_eq_some_iff, decide_eq_true_iff]
    simp only [Bool.not_eq_true] at real
    simp [real, Expr.place]

/-- The requests among some nodes are those of the candidates, which are among the nodes. -/
structure Requests.Fits (requests : Requests) (nodes : List Expr) (candidates : List Candidate) : Prop where
  distinct : (places nodes).Nodup
  granted : ∀ c ∈ candidates, c.node.span.isSynthetic = false ∧ (requests.find? c.node).isSome = true
  only : ∀ e ∈ nodes, (requests.find? e).isSome = true → ∃ c ∈ candidates, c.node = e

/-- The hit for a candidate. -/
def hitOf? (requests : Requests) (c : Candidate) : Option Hit :=
  (requests.find? c.node).map fun request => ⟨request, c.node⟩

namespace Requests.Fits

variable {nodes others : List Expr} {inside beside : List Candidate}

theorem find?_eq_none (fits : requests.Fits nodes []) : ∀ e ∈ nodes, requests.find? e = none := by
  intro e member
  cases found : requests.find? e with
  | none => rfl
  | some request =>
    obtain ⟨c, candidate, -⟩ := fits.only e member (by rw [found]; rfl)
    cases candidate

/-- A candidate lies among one part of the nodes only. -/
theorem not_mem_right (fits : requests.Fits (nodes ++ others) (inside ++ beside)) {c : Candidate}
    (member : c.node ∈ nodes) (real : c.node.span.isSynthetic = false) : c.node ∉ others := by
  intro twice
  have distinct := fits.distinct
  rw [places_append, List.nodup_append] at distinct
  exact distinct.2.2 _ (mem_places member real) _ (mem_places twice real) rfl

theorem left (fits : requests.Fits (nodes ++ others) (inside ++ beside))
    (within : ∀ c ∈ beside, c.node ∈ others) : requests.Fits nodes inside where
  distinct := by
    have distinct := fits.distinct
    rw [places_append] at distinct
    exact distinct.of_append_left
  granted c member := fits.granted c (List.mem_append_left _ member)
  only e member found := by
    obtain ⟨c, candidate, rfl⟩ := fits.only e (List.mem_append_left _ member) found
    obtain candidate | candidate := List.mem_append.mp candidate
    · exact ⟨c, candidate, rfl⟩
    · have real := (fits.granted c (List.mem_append_right _ candidate)).1
      exact (fits.not_mem_right member real (within c candidate)).elim

theorem right (fits : requests.Fits (nodes ++ others) (inside ++ beside))
    (within : ∀ c ∈ inside, c.node ∈ nodes) : requests.Fits others beside where
  distinct := by
    have distinct := fits.distinct
    rw [places_append] at distinct
    exact distinct.of_append_right
  granted c member := fits.granted c (List.mem_append_right _ member)
  only e member found := by
    obtain ⟨c, candidate, rfl⟩ := fits.only e (List.mem_append_right _ member) found
    obtain candidate | candidate := List.mem_append.mp candidate
    · have real := (fits.granted c (List.mem_append_left _ candidate)).1
      exact (fits.not_mem_right (within c candidate) real member).elim
    · exact ⟨c, candidate, rfl⟩

theorem of_mem {α : Type} {f : α → List Expr} {g : α → List Candidate} {list : List α}
    (fits : requests.Fits (list.flatMap f) (list.flatMap g)) (within : ∀ a, ∀ c ∈ g a, c.node ∈ f a) {a : α}
    (member : a ∈ list) : requests.Fits (f a) (g a) := by
  induction list with
  | nil => cases member
  | cons first rest ih =>
    rw [List.flatMap_cons, List.flatMap_cons] at fits
    obtain rfl | member := List.mem_cons.mp member
    · refine fits.left fun c candidate => ?_
      obtain ⟨b, inside, candidate⟩ := List.mem_flatMap.mp candidate
      exact List.mem_flatMap.mpr ⟨b, inside, within b c candidate⟩
    · exact ih (fits.right (within first)) member

/-- Nodes without candidates may be left out. -/
theorem drop (fits : requests.Fits (nodes ++ others) beside) : requests.Fits others beside := by
  have fits : requests.Fits (nodes ++ others) ([] ++ beside) := fits
  exact fits.right fun c member => by cases member

end Requests.Fits

theorem mem_of_sublist {inside : List Candidate} {nodes : List Expr} (sublist : (inside.map (·.node)).Sublist nodes) :
    ∀ c ∈ inside, c.node ∈ nodes :=
  fun _ member => sublist.subset (List.mem_map_of_mem member)

/-- A node is met if it is to be lowered, and else what is inside it. -/
theorem hitOr_eq {wanted : Bool} {owner? : Option String} {e : Expr} {inside : List Candidate} {nodes : List Expr}
    {found : List Hit} (fits : requests.Fits (e :: nodes) (here exported wanted owner? e inside))
    (sublist : (inside.map (·.node)).Sublist nodes)
    (rest : requests.Fits nodes inside → found = inside.filterMap (hitOf? requests)) :
    hitOr requests e found = (here exported wanted owner? e inside).filterMap (hitOf? requests) := by
  rw [here] at fits ⊢
  split at fits
  case isTrue asked =>
    obtain ⟨request, met⟩ := Option.isSome_iff_exists.mp (fits.granted _ (List.mem_singleton_self _)).2
    dsimp only at met
    rw [if_pos asked, hitOr, met, List.filterMap_cons, hitOf?, met]
    rfl
  case isFalse unasked =>
    have apart : requests.Fits ([e] ++ nodes) ([] ++ inside) := fits
    have missed : requests.find? e = none :=
      (apart.left (mem_of_sublist sublist)).find?_eq_none e (List.mem_singleton_self e)
    rw [if_neg unasked, hitOr, missed]
    exact rest apart.drop

mutual

/-- The requests met in an expression are those of its candidates. -/
theorem hits_eq {inField : Bool} {owner? : Option String} (e : Expr)
    (fits : requests.Fits e.walk (candidates fields exported inField owner? e)) :
    hits requests e = (candidates fields exported inField owner? e).filterMap (hitOf? requests) := by
  cases e with
  | call span callee args =>
    refine hitOr_eq fits (candidatesOfList_sublist (callee :: args)) fun fits => ?_
    rw [List.filterMap_append, hits_eq callee (fits.left (mem_of_sublist (candidatesOfList_sublist args))),
      hitsOfList_eq args (fits.right (mem_of_sublist (candidates_sublist false none callee)))]
  | new span callee args =>
    refine hitOr_eq fits (candidatesOfList_sublist (callee :: args)) fun fits => ?_
    rw [List.filterMap_append, hits_eq callee (fits.left (mem_of_sublist (candidatesOfList_sublist args))),
      hitsOfList_eq args (fits.right (mem_of_sublist (candidates_sublist false none callee)))]
  | member span object property => exact hitOr_eq fits (candidates_sublist false none object) (hits_eq object)
  | array span elements => exact hitOr_eq fits (candidatesOfList_sublist elements) (hitsOfList_eq elements)
  | object span properties =>
    exact hitOr_eq fits (candidatesOfProperties_sublist properties) (hitsOfProperties_eq properties)
  | paren span inner => exact hitOr_eq fits (candidates_sublist false none inner) (hits_eq inner)
  | spread span inner => exact hitOr_eq fits (candidates_sublist false none inner) (hits_eq inner)
  | _ => exact hitOr_eq fits (List.nil_sublist _) fun _ => rfl

theorem hitsOfList_eq (list : List Expr)
    (fits : requests.Fits (Expr.walkAll list) (candidatesOfList fields exported list)) :
    hitsOfList requests list = (candidatesOfList fields exported list).filterMap (hitOf? requests) := by
  cases list with
  | nil => rfl
  | cons e rest =>
    rw [candidatesOfList] at fits
    rw [hitsOfList, candidatesOfList, List.filterMap_append,
      hits_eq e (fits.left (mem_of_sublist (candidatesOfList_sublist rest))),
      hitsOfList_eq rest (fits.right (mem_of_sublist (candidates_sublist false none e)))]

theorem hitsOfProperties_eq (properties : List Property)
    (fits : requests.Fits (Property.walkAll properties) (candidatesOfProperties fields exported properties)) :
    hitsOfProperties requests properties =
      (candidatesOfProperties fields exported properties).filterMap (hitOf? requests) := by
  cases properties with
  | nil => rfl
  | cons property rest =>
    cases property with
    | keyValue key value =>
      rw [candidatesOfProperties] at fits
      have ofValue := fits.left (mem_of_sublist (candidatesOfProperties_sublist rest))
      have within : ∀ c ∈ candidates fields exported (key.text?.any fields.contains) none value,
          c.node ∈ key.walk ++ value.walk :=
        fun c member => List.mem_append_right _ (mem_of_sublist (candidates_sublist _ none value) c member)
      rw [hitsOfProperties, candidatesOfProperties, List.filterMap_append, hits_eq value ofValue.drop,
        hitsOfProperties_eq rest (fits.right within)]
    | shorthand name => exact hitsOfProperties_eq rest fits
    | spread value =>
      rw [candidatesOfProperties] at fits
      rw [hitsOfProperties, candidatesOfProperties, List.filterMap_append,
        hits_eq value (fits.left (mem_of_sublist (candidatesOfProperties_sublist rest))),
        hitsOfProperties_eq rest (fits.right (mem_of_sublist (candidates_sublist false none value)))]

end

/-! ## Items -/

theorem hitsOfRoots_eq {exprs : List Expr} (fits : requests.Fits (exprs.flatMap Expr.walk)
    (exprs.flatMap (candidates fields exported false none))) :
    exprs.flatMap (hits requests) =
      (exprs.flatMap (candidates fields exported false none)).filterMap (hitOf? requests) := by
  induction exprs with
  | nil => rfl
  | cons e rest ih =>
    have sublist : ((rest.flatMap (candidates fields exported false none)).map (·.node)).Sublist
        (rest.flatMap Expr.walk) := by
      rw [List.map_flatMap]
      exact List.Sublist.flatMap_right _ fun e _ => candidates_sublist false none e
    rw [List.flatMap_cons, List.flatMap_cons] at fits
    rw [List.flatMap_cons, List.flatMap_cons, List.filterMap_append, hits_eq e (fits.left (mem_of_sublist sublist)),
      ih (fits.right (mem_of_sublist (candidates_sublist false none e)))]

/-- A hit is for a node among some others. -/
def Hit.IsAmong (requests : Requests) (nodes : List Expr) (hit : Hit) : Prop :=
  hit.node ∈ nodes ∧ requests.find? hit.node = some hit.request

theorem Hit.IsAmong.mono {nodes others : List Expr} {hit : Hit} (among : hit.IsAmong requests nodes)
    (subset : nodes ⊆ others) : hit.IsAmong requests others :=
  ⟨subset among.1, among.2⟩

theorem isAmong_of_mem_hitOr {e : Expr} {found : List Hit} {nodes : List Expr}
    (inside : ∀ hit ∈ found, hit.IsAmong requests nodes) :
    ∀ hit ∈ hitOr requests e found, hit.IsAmong requests (e :: nodes) := by
  intro hit member
  rw [hitOr] at member
  split at member
  case h_1 request met =>
    obtain rfl := List.mem_singleton.mp member
    exact ⟨List.mem_cons_self .., met⟩
  case h_2 => exact (inside hit member).mono (List.subset_cons_self ..)

theorem isAmong_of_mem_append {found others : List Hit} {nodes nodes' : List Expr}
    (left : ∀ hit ∈ found, hit.IsAmong requests nodes) (right : ∀ hit ∈ others, hit.IsAmong requests nodes') :
    ∀ hit ∈ found ++ others, hit.IsAmong requests (nodes ++ nodes') := by
  intro hit member
  obtain member | member := List.mem_append.mp member
  · exact (left hit member).mono (List.subset_append_left ..)
  · exact (right hit member).mono (List.subset_append_right ..)

mutual

theorem isAmong_of_mem_hits (e : Expr) : ∀ hit ∈ hits requests e, hit.IsAmong requests e.walk := by
  cases e with
  | call span callee args =>
    exact isAmong_of_mem_hitOr (isAmong_of_mem_append (isAmong_of_mem_hits callee) (isAmong_of_mem_hitsOfList args))
  | new span callee args =>
    exact isAmong_of_mem_hitOr (isAmong_of_mem_append (isAmong_of_mem_hits callee) (isAmong_of_mem_hitsOfList args))
  | member span object property => exact isAmong_of_mem_hitOr (isAmong_of_mem_hits object)
  | array span elements => exact isAmong_of_mem_hitOr (isAmong_of_mem_hitsOfList elements)
  | object span properties => exact isAmong_of_mem_hitOr (isAmong_of_mem_hitsOfProperties properties)
  | paren span inner => exact isAmong_of_mem_hitOr (isAmong_of_mem_hits inner)
  | spread span inner => exact isAmong_of_mem_hitOr (isAmong_of_mem_hits inner)
  | _ => exact isAmong_of_mem_hitOr fun hit none => by cases none

theorem isAmong_of_mem_hitsOfList (list : List Expr) :
    ∀ hit ∈ hitsOfList requests list, hit.IsAmong requests (Expr.walkAll list) := by
  cases list with
  | nil => exact fun hit none => by cases none
  | cons e rest => exact isAmong_of_mem_append (isAmong_of_mem_hits e) (isAmong_of_mem_hitsOfList rest)

theorem isAmong_of_mem_hitsOfProperties (properties : List Property) :
    ∀ hit ∈ hitsOfProperties requests properties, hit.IsAmong requests (Property.walkAll properties) := by
  cases properties with
  | nil => exact fun hit none => by cases none
  | cons property rest =>
    cases property with
    | keyValue key value =>
      refine isAmong_of_mem_append (fun hit member => ?_) (isAmong_of_mem_hitsOfProperties rest)
      exact (isAmong_of_mem_hits value hit member).mono (List.subset_append_right ..)
    | shorthand name => exact isAmong_of_mem_hitsOfProperties rest
    | spread value => exact isAmong_of_mem_append (isAmong_of_mem_hits value) (isAmong_of_mem_hitsOfProperties rest)

end

/-- Without candidates nothing is met. -/
theorem hits_eq_nil {e : Expr} (fits : requests.Fits e.walk []) : hits requests e = [] := by
  rw [List.eq_nil_iff_forall_not_mem]
  intro hit member
  obtain ⟨node, met⟩ := isAmong_of_mem_hits e hit member
  rw [fits.find?_eq_none _ node] at met
  cases met

theorem hitsOfVariable_eq {isExported : Bool} {d : VarDecl} (fits : requests.Fits (d.init.toList.flatMap Expr.walk)
    (candidatesOfVariable fields exported isExported d)) : hitsOfVariable requests d =
      (candidatesOfVariable fields exported isExported d).filterMap (hitOf? requests) := by
  rw [flatMap_toList] at fits
  rw [candidatesOfVariable] at fits ⊢
  rw [hitsOfVariable]
  cases init : d.init with
  | none => rfl
  | some e =>
    rw [init] at fits
    revert fits
    dsimp only
    split
    · split
      · exact hits_eq e
      · exact hits_eq_nil
    · exact hits_eq e

theorem hitsOfDecl_eq {isExported : Bool} {d : Decl} (fits : requests.Fits ((rootsOfDecl d).flatMap Expr.walk)
    (candidatesOfDecl fields exported isExported d)) : hitsOfDecl requests d =
      (candidatesOfDecl fields exported isExported d).filterMap (hitOf? requests) := by
  cases d with
  | classDecl c => exact hitsOfRoots_eq fits
  | «variable» d => exact hitsOfVariable_eq fits
  | _ => rfl

theorem hitsOfItem_eq {item : Item} (fits : requests.Fits ((rootsOfItem item).flatMap Expr.walk)
    (candidatesOfItem fields exported item)) : hitsOfItem requests item =
      (candidatesOfItem fields exported item).filterMap (hitOf? requests) := by
  cases item with
  | decl d => exact hitsOfDecl_eq fits
  | exportDecl d => exact hitsOfDecl_eq fits
  | stmt statement =>
    cases statement with
    | «variable» d => exact hitsOfVariable_eq fits
    | expr e =>
      rw [rootsOfItem, List.flatMap_singleton] at fits
      exact hits_eq e fits
    | result value => rfl
  | _ => rfl

theorem hitsOfItems_eq {items : Items} (fits : requests.Fits (nodesOf items) (candidatesOf fields exported items)) :
    ∀ item ∈ items, hitsOfItem requests item.value =
      (candidatesOfItem fields exported item.value).filterMap (hitOf? requests) := by
  intro item member
  apply hitsOfItem_eq
  exact fits.of_mem (fun item => mem_of_sublist (candidatesOfItem_sublist item.value)) member

/-- Requests that serve the candidates of some items fit them, as long as places are distinct. -/
theorem Requests.Serves.fits {items : Items} (serves : requests.Serves (candidatesOf fields exported items))
    (distinct : (places (nodesOf items)).Nodup) :
    requests.Fits (nodesOf items) (candidatesOf fields exported items) := by
  refine ⟨distinct, fun c member => ⟨real_of_mem_candidatesOf member, ?_⟩, fun e member found => ?_⟩
  · obtain ⟨request, found, kind, -⟩ := serves.granted c member
    rw [Requests.find?_eq_some.mpr ⟨real_of_mem_candidatesOf member, found, kind⟩]
    rfl
  · obtain ⟨request, met⟩ := Option.isSome_iff_exists.mp found
    obtain ⟨here, found, -⟩ := Requests.find?_eq_some.mp met
    obtain ⟨c, asked, same⟩ := serves.asked _ _ found
    have inside := mem_of_sublist (candidatesOf_sublist items) c asked
    exact ⟨c, asked, eq_of_place_eq distinct inside member (real_of_mem_candidatesOf asked) here same⟩

end CompanionBuild.Lowering
