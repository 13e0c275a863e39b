import CompanionBuild.Proofs.Lowering.Preservation
import Mathlib.Logic.Relation

/-! # What lowering leaves to metadata

Metadata is collected from decorators and from module-level code, and follows the parts of an expression outside of
functions. After lowering it meets no function there, other than the whole initializer of a variable, and no value of a
lowered field that it cannot say.
-/

namespace CompanionBuild

/-- The value of a property, if it is written out. -/
def Property.value? : Property → Option Expr
  | .keyValue _ value | .spread value => some value
  | .shorthand _ => none

/-- The direct parts of an expression. The body of a function and the computed name of a property are none. -/
def Expr.parts : Expr → List Expr
  | .call _ callee args | .new _ callee args => callee :: args
  | .member _ inner _ => [inner]
  | .array _ elements => elements
  | .object _ properties => properties.filterMap Property.value?
  | .paren _ inner | .spread _ inner => [inner]
  | .literal .. | .ident .. | .arrow .. | .external .. => []

/-- A node is met on the way from an expression through its parts. -/
def Expr.Reaches : Expr → Expr → Prop :=
  Relation.ReflTransGen fun e part => part ∈ e.parts

namespace Lowering

/-- A literal, in parentheses or not. -/
inductive IsLiteral : Expr → Prop
  | literal (span : Span) (value : Literal) : IsLiteral (.literal span value)
  | paren (span : Span) {inner : Expr} (inside : IsLiteral inner) : IsLiteral (.paren span inner)

/-- Metadata can say a node that was made up, a literal, an exported name, a member of one, and a name that lowering
gives. -/
inductive Sayable (exported : Names) : Expr → Prop
  | made {e : Expr} (synthetic : e.span.isSynthetic = true) : Sayable exported e
  | literal {e : Expr} (written : IsLiteral e) : Sayable exported e
  | name (span : Span) {name : String} (known : name ∈ exported) : Sayable exported (.ident span name)
  | member (span inner : Span) {name : String} (property : String) (known : name ∈ exported) :
    Sayable exported (.member span (.ident inner name) property)
  | symbol (span : Span) {name : String} (given : isSymbol name = true) : Sayable exported (.ident span name)

/-- Metadata can be collected from a node: it is no function, and the values of its lowered fields can be said. -/
structure Settled (fields exported : Names) (node : Expr) : Prop where
  plain : isArrow node = true → node.span.isSynthetic = true
  values : ∀ span properties, node = .object span properties → ∀ key value, .keyValue key value ∈ properties →
    ∀ field ∈ fields, key.text? = some field → Sayable exported value

/-- Metadata can be collected from everything in an expression. -/
def Expressible (fields exported : Names) (e : Expr) : Prop :=
  ∀ node, e.Reaches node → Settled fields exported node

variable {fields exported : Names} {requests : Requests}

theorem Expressible.of_parts {e : Expr} (settled : Settled fields exported e)
    (parts : ∀ part ∈ e.parts, Expressible fields exported part) : Expressible fields exported e := by
  intro node reached
  obtain rfl | ⟨part, direct, reached⟩ := Relation.ReflTransGen.cases_head reached
  · exact settled
  · exact parts part direct node reached

/-- An expression that is neither a function nor an object is as expressible as its parts. -/
theorem Expressible.of_plain {e : Expr} (noArrow : isArrow e = false) (noObject : e.isObject = false)
    (parts : ∀ part ∈ e.parts, Expressible fields exported part) : Expressible fields exported e := by
  refine .of_parts ⟨fun arrow => ?_, fun span properties same => ?_⟩ parts
  · rw [noArrow] at arrow
    cases arrow
  · subst same
    cases noObject

theorem expressible_name (text : String) : Expressible fields exported (.name text) := by
  apply Expressible.of_plain rfl rfl
  intro part direct
  cases direct

theorem isPrimitive_iff (e : Expr) : isPrimitive e = true ↔ IsLiteral e := by
  constructor
  · intro primitive
    match e with
    | .literal span value => exact .literal span value
    | .paren span inner => exact .paren span ((isPrimitive_iff inner).mp primitive)
  · intro written
    induction written with
    | literal span value => rfl
    | paren span inside ih => exact ih

theorem candidates_eq_singleton {inField : Bool} {owner? : Option String} {e : Expr}
    (wanted : (inField || isArrow e) = true) (needed : needsName exported e = true) :
    candidates fields exported inField owner? e = [⟨e, owner?⟩] := by
  cases e <;> simp_all [candidates, here, isArrow]

theorem candidates_eq_plain {inField : Bool} {owner? : Option String} {e : Expr}
    (spared : ((inField || isArrow e) && needsName exported e) = false) :
    candidates fields exported inField owner? e = candidates fields exported false none e := by
  cases e <;> simp_all [candidates, here, isArrow]

theorem replaced_of_met {e : Expr} {request : Request} (met : requests.find? e = some request)
    (free : request.initializerOf = none) : replaced requests e = .name request.name := by
  cases e <;> simp [replaced, nameOr, met, free]

theorem span_replaced {e : Expr} (unmet : requests.find? e = none) : (replaced requests e).span = e.span := by
  cases e <;> simp [replaced, nameOr, unmet, Expr.span]

/-- The requests for the candidates are for the variables that they stand for. -/
def Requests.Owns (requests : Requests) (candidates : List Candidate) : Prop :=
  ∀ c ∈ candidates, ∀ request, requests.find? c.node = some request → request.initializerOf = c.initializerOf

/-- A node that needs no name can be said. -/
theorem sayable_of_known {e : Expr} (known : needsName exported e = false) : Sayable exported e := by
  by_cases synthetic : e.span.isSynthetic = true
  · exact .made synthetic
  by_cases primitive : isPrimitive e = true
  · exact .literal ((isPrimitive_iff e).mp primitive)
  simp only [Bool.not_eq_true] at synthetic primitive
  cases e with
  | ident span name =>
    simp [needsName, synthetic, primitive] at known
    by_cases written : name ∈ exported
    · exact .name span written
    · exact .symbol span (known written)
  | member span inner property =>
    cases inner with
    | ident inner name =>
      simp [needsName, synthetic, primitive] at known
      exact .member span inner property known
    | _ => simp [needsName, synthetic, primitive] at known
  | _ => simp [needsName, synthetic, primitive] at known

theorem candidates_of_isLiteral {e : Expr} (written : IsLiteral e) (inField : Bool) (owner? : Option String) :
    candidates fields exported inField owner? e = [] := by
  have known : needsName exported e = false := by simp [needsName, (isPrimitive_iff e).mpr written]
  induction written generalizing inField owner? with
  | literal span value => simp [candidates, here, known]
  | @paren span inner inside ih =>
    have within : needsName exported inner = false := by simp [needsName, (isPrimitive_iff inner).mpr inside]
    simp [candidates, here, known, ih false none within]

/-- Nothing is to be lowered in a node that needs no name, unless it was made up. -/
theorem candidates_of_known {e : Expr} (known : needsName exported e = false) (real : e.span.isSynthetic = false)
    (inField : Bool) : candidates fields exported inField none e = [] := by
  cases sayable_of_known known with
  | made synthetic => rw [real] at synthetic; cases synthetic
  | literal written => exact candidates_of_isLiteral written inField none
  | member span inner property => simp [candidates, here, known]
  | _ => simp [candidates, here, known]

/-- What stands for the value of a lowered field can be said. -/
theorem sayable_replaced {e : Expr} (fits : requests.Fits e.walk (candidates fields exported true none e))
    (owns : requests.Owns (candidates fields exported true none e)) : Sayable exported (replaced requests e) := by
  by_cases needed : needsName exported e = true
  · rw [candidates_eq_singleton rfl needed] at fits owns
    obtain ⟨request, met⟩ := Option.isSome_iff_exists.mp (fits.granted _ (List.mem_singleton_self _)).2
    rw [replaced_of_met met (owns _ (List.mem_singleton_self _) request met)]
    exact .made rfl
  · rw [Bool.not_eq_true] at needed
    cases made : e.span.isSynthetic with
    | true =>
      have unmet : requests.find? e = none := by rw [Requests.find?, if_pos made]
      exact .made (span_replaced unmet ▸ made)
    | false =>
      rw [candidates_of_known needed made] at fits
      rw [replaced_of_unmet e fits.find?_eq_none]
      exact sayable_of_known needed

/-! ## Expressions -/

/-- A node leaves its name behind if it is to be lowered, and else what becomes of it. -/
theorem expressible_nameOr {wanted : Bool} {e inside : Expr} {cs : List Candidate} {nodes : List Expr}
    (fits : requests.Fits (e :: nodes) (here exported wanted none e cs))
    (owns : requests.Owns (here exported wanted none e cs)) (sublist : (cs.map (·.node)).Sublist nodes)
    (rest : (wanted && needsName exported e) = false → requests.Fits nodes cs → requests.Owns cs →
      Expressible fields exported inside) :
    Expressible fields exported (nameOr requests e inside) := by
  rw [here] at fits owns
  split at fits
  case isTrue asked =>
    rw [if_pos asked] at owns
    obtain ⟨request, met⟩ := Option.isSome_iff_exists.mp (fits.granted _ (List.mem_singleton_self _)).2
    have free := owns _ (List.mem_singleton_self _) request met
    rw [nameOr, met]
    dsimp only at free ⊢
    rw [free]
    exact expressible_name request.name
  case isFalse unasked =>
    rw [if_neg unasked] at owns
    have apart : requests.Fits ([e] ++ nodes) ([] ++ cs) := fits
    have missed : requests.find? e = none :=
      (apart.left (mem_of_sublist sublist)).find?_eq_none e (List.mem_singleton_self e)
    rw [nameOr, missed]
    exact rest (Bool.not_eq_true _ ▸ unasked) apart.drop owns

theorem Requests.Owns.left {inside beside : List Candidate} (owns : requests.Owns (inside ++ beside)) :
    requests.Owns inside :=
  fun c member => owns c (List.mem_append_left _ member)

theorem Requests.Owns.right {inside beside : List Candidate} (owns : requests.Owns (inside ++ beside)) :
    requests.Owns beside :=
  fun c member => owns c (List.mem_append_right _ member)

mutual

/-- Metadata can be collected from what lowering leaves of an expression. -/
theorem expressible_replaced (inField : Bool) (e : Expr)
    (fits : requests.Fits e.walk (candidates fields exported inField none e))
    (owns : requests.Owns (candidates fields exported inField none e)) :
    Expressible fields exported (replaced requests e) := by
  cases e with
  | call span callee args =>
    refine expressible_nameOr fits owns (candidatesOfList_sublist (callee :: args)) fun _ fits owns => ?_
    refine .of_plain rfl rfl (List.forall_mem_cons.mpr ⟨?_, ?_⟩)
    · exact expressible_replaced false callee (fits.left (mem_of_sublist (candidatesOfList_sublist args))) owns.left
    · exact expressible_replacedList args (fits.right (mem_of_sublist (candidates_sublist false none callee))) owns.right
  | new span callee args =>
    refine expressible_nameOr fits owns (candidatesOfList_sublist (callee :: args)) fun _ fits owns => ?_
    refine .of_plain rfl rfl (List.forall_mem_cons.mpr ⟨?_, ?_⟩)
    · exact expressible_replaced false callee (fits.left (mem_of_sublist (candidatesOfList_sublist args))) owns.left
    · exact expressible_replacedList args (fits.right (mem_of_sublist (candidates_sublist false none callee))) owns.right
  | member span object property =>
    refine expressible_nameOr fits owns (candidates_sublist false none object) fun _ fits owns => .of_plain rfl rfl ?_
    exact List.forall_mem_singleton.mpr (expressible_replaced false object fits owns)
  | array span elements =>
    refine expressible_nameOr fits owns (candidatesOfList_sublist elements) fun _ fits owns => .of_plain rfl rfl ?_
    exact expressible_replacedList elements fits owns
  | object span properties =>
    refine expressible_nameOr fits owns (candidatesOfProperties_sublist properties) fun _ fits owns => ?_
    obtain ⟨values, sayable⟩ := expressible_replacedProperties properties fits owns
    refine .of_parts ⟨(fun arrow => by cases arrow), ?_⟩ ?_
    · rintro _ _ ⟨⟩ key value member field lowered named
      exact sayable key value member field lowered named
    · intro part direct
      obtain ⟨property, member, written⟩ := List.mem_filterMap.mp direct
      exact values property member part written
  | paren span inner =>
    refine expressible_nameOr fits owns (candidates_sublist false none inner) fun _ fits owns => .of_plain rfl rfl ?_
    exact List.forall_mem_singleton.mpr (expressible_replaced false inner fits owns)
  | spread span inner =>
    refine expressible_nameOr fits owns (candidates_sublist false none inner) fun _ fits owns => .of_plain rfl rfl ?_
    exact List.forall_mem_singleton.mpr (expressible_replaced false inner fits owns)
  | arrow span params body =>
    refine expressible_nameOr fits owns (List.nil_sublist _) fun unasked _ _ => .of_parts ⟨fun _ => ?_, ?_⟩ ?_
    · simpa [needsName, isPrimitive] using unasked
    · intro span properties same
      cases same
    · intro part direct
      cases direct
  | _ =>
    refine expressible_nameOr fits owns (List.nil_sublist _) fun _ _ _ => .of_plain rfl rfl ?_
    intro part direct
    cases direct

theorem expressible_replacedList (list : List Expr)
    (fits : requests.Fits (Expr.walkAll list) (candidatesOfList fields exported list))
    (owns : requests.Owns (candidatesOfList fields exported list)) :
    ∀ e ∈ replacedList requests list, Expressible fields exported e := by
  cases list with
  | nil => exact fun e none => by cases none
  | cons e rest =>
    rw [candidatesOfList] at fits owns
    refine List.forall_mem_cons.mpr ⟨?_, ?_⟩
    · exact expressible_replaced false e (fits.left (mem_of_sublist (candidatesOfList_sublist rest))) owns.left
    · exact expressible_replacedList rest (fits.right (mem_of_sublist (candidates_sublist false none e))) owns.right

theorem expressible_replacedProperties (properties : List Property)
    (fits : requests.Fits (Property.walkAll properties) (candidatesOfProperties fields exported properties))
    (owns : requests.Owns (candidatesOfProperties fields exported properties)) :
    (∀ property ∈ replacedProperties requests properties, ∀ value, property.value? = some value →
      Expressible fields exported value) ∧
    ∀ key value, .keyValue key value ∈ replacedProperties requests properties →
      ∀ field ∈ fields, key.text? = some field → Sayable exported value := by
  cases properties with
  | nil => exact ⟨(fun _ none => by cases none), (fun _ _ none => by cases none)⟩
  | cons property rest =>
    cases property with
    | keyValue key value =>
      rw [candidatesOfProperties] at fits owns
      have ofValue := (fits.left (mem_of_sublist (candidatesOfProperties_sublist rest))).drop
      have within : ∀ c ∈ candidates fields exported (key.text?.any fields.contains) none value,
          c.node ∈ key.walk ++ value.walk :=
        fun c member => List.mem_append_right _ (mem_of_sublist (candidates_sublist _ none value) c member)
      obtain ⟨values, sayable⟩ := expressible_replacedProperties rest (fits.right within) owns.right
      constructor
      · refine List.forall_mem_cons.mpr ⟨?_, values⟩
        rintro _ ⟨⟩
        exact expressible_replaced _ value ofValue owns.left
      · intro key' value' member field lowered named
        obtain same | member := List.mem_cons.mp member
        · cases same
          have wanted : key.text?.any fields.contains = true := by simp [named, lowered]
          rw [wanted] at ofValue owns
          exact sayable_replaced ofValue owns.left
        · exact sayable key' value' member field lowered named
    | shorthand name =>
      obtain ⟨values, sayable⟩ := expressible_replacedProperties rest fits owns
      constructor
      · refine List.forall_mem_cons.mpr ⟨?_, values⟩
        rintro _ ⟨⟩
      · intro key value member
        obtain same | member := List.mem_cons.mp member
        · cases same
        · exact sayable key value member
    | spread value =>
      rw [candidatesOfProperties] at fits owns
      have ofValue := fits.left (mem_of_sublist (candidatesOfProperties_sublist rest))
      obtain ⟨values, sayable⟩ := expressible_replacedProperties rest
        (fits.right (mem_of_sublist (candidates_sublist false none value))) owns.right
      constructor
      · refine List.forall_mem_cons.mpr ⟨?_, values⟩
        rintro _ ⟨⟩
        exact expressible_replaced false value ofValue owns.left
      · intro key value member
        obtain same | member := List.mem_cons.mp member
        · cases same
        · exact sayable key value member

end

/-! ## Items -/

/-- The expressions of an item that metadata is collected from: its decorators, a statement, and an initializer, for an
exported variable only if it is an object, an array or a call. -/
def scopeOfItem : Item → List Expr
  | .decl (.classDecl c) | .exportDecl (.classDecl c) => decoratorsOfClass c
  | .decl (.variable d) | .stmt (.variable d) => d.init.toList
  | .exportDecl (.variable d) => d.init.toList.filter isCollection
  | .stmt (.expr e) => [e]
  | _ => []

/-- The item declares a variable for itself that has a function for its whole initializer. -/
def HoldsArrow (item : Item) (e : Expr) : Prop :=
  isArrow e = true ∧ ∃ d, ownVariable? item = some d ∧ d.init = some e

theorem isCollection_of_replaced {e : Expr} (collection : isCollection (replaced requests e) = true) :
    isCollection e = true := by
  cases e with
  | call => rfl
  | array => rfl
  | object => rfl
  | _ =>
    simp only [replaced, nameOr] at collection
    split at collection
    · split at collection <;> cases collection
    · cases collection

theorem expressible_decorators {c : ClassDecl}
    (fits : requests.Fits ((decoratorsOfClass c).flatMap Expr.walk)
      ((decoratorsOfClass c).flatMap (candidates fields exported false none)))
    (owns : requests.Owns ((decoratorsOfClass c).flatMap (candidates fields exported false none))) :
    ∀ root ∈ decoratorsOfClass (replacedClass requests c), Expressible fields exported root := by
  have mapped : decoratorsOfClass (replacedClass requests c) = (decoratorsOfClass c).map (replaced requests) := by
    have roots := rootsOfDecl_mapDecl (replaced requests) (.classDecl c)
    rwa [← replacedDecl_eq] at roots
  rw [mapped]
  intro root left
  obtain ⟨e, decorates, rfl⟩ := List.mem_map.mp left
  refine expressible_replaced false e (fits.of_mem (fun e => ?_) decorates) fun c candidate => ?_
  · exact mem_of_sublist (candidates_sublist false none e)
  · exact owns c (List.mem_flatMap.mpr ⟨e, decorates, candidate⟩)

/-- The initializer of a variable that is not exported stays if it is a function, and else is expressible. -/
theorem expressible_ownVariable {item : Item} {d : VarDecl} (own : ownVariable? item = some d)
    (fits : requests.Fits (d.init.toList.flatMap Expr.walk) (candidatesOfVariable fields exported false d))
    (owns : requests.Owns (candidatesOfVariable fields exported false d)) :
    ∀ root ∈ (d.init.map (replaced requests)).toList,
      Expressible fields exported root ∨ HoldsArrow (replacedItem requests item) root := by
  rw [flatMap_toList] at fits
  intro root initial
  rw [Option.mem_toList, Option.map_eq_some_iff] at initial
  obtain ⟨e, init, rfl⟩ := initial
  rw [init] at fits
  simp only [candidatesOfVariable, init, Bool.false_eq_true, if_false] at fits owns
  by_cases asked : (isArrow e && needsName exported e) = true
  · obtain ⟨arrow, needed⟩ := (Bool.and_eq_true _ _).mp asked
    rw [candidates_eq_singleton (by simpa using arrow) needed] at fits owns
    obtain ⟨request, met⟩ := Option.isSome_iff_exists.mp (fits.granted _ (List.mem_singleton_self _)).2
    have stays : replaced requests e = e := by
      apply replaced_eq_self met
      rw [owns _ (List.mem_singleton_self _) request met]
      rfl
    refine .inr ⟨by rw [stays]; exact arrow, replacedVariable requests d, ?_, ?_⟩
    · rw [ownVariable?_replacedItem, own, Option.map_some]
    · rw [replacedVariable, init, Option.map_some]
  · rw [candidates_eq_plain (by simpa using asked)] at fits owns
    exact .inl (expressible_replaced false e fits owns)

theorem expressible_item {item : Item}
    (fits : requests.Fits ((rootsOfItem item).flatMap Expr.walk) (candidatesOfItem fields exported item))
    (owns : requests.Owns (candidatesOfItem fields exported item)) :
    ∀ root ∈ scopeOfItem (replacedItem requests item),
      Expressible fields exported root ∨ HoldsArrow (replacedItem requests item) root := by
  cases item with
  | decl d =>
    cases d with
    | classDecl c => exact fun root found => .inl (expressible_decorators fits owns root found)
    | «variable» d => exact expressible_ownVariable rfl fits owns
    | _ => exact fun root none => by cases none
  | exportDecl d =>
    cases d with
    | classDecl c => exact fun root found => .inl (expressible_decorators fits owns root found)
    | «variable» d =>
      intro root found
      obtain ⟨initial, collection⟩ := List.mem_filter.mp found
      obtain ⟨e, init, rfl⟩ := Option.map_eq_some_iff.mp (Option.mem_toList.mp initial)
      have written := isCollection_of_replaced collection
      rw [rootsOfItem, rootsOfDecl, flatMap_toList, init] at fits
      simp only [candidatesOfItem, candidatesOfDecl, candidatesOfVariable, init, written, if_true] at fits owns
      exact .inl (expressible_replaced false e fits owns)
    | _ => exact fun root none => by cases none
  | stmt statement =>
    cases statement with
    | «variable» d => exact expressible_ownVariable rfl fits owns
    | expr e =>
      rw [rootsOfItem, List.flatMap_singleton] at fits
      exact List.forall_mem_singleton.mpr (.inl (expressible_replaced false e fits owns))
    | result value => exact fun root none => by cases none
  | _ => exact fun root none => by cases none

/-! ## Units -/

theorem Requests.Serves.owns {candidates : List Candidate} (serves : requests.Serves candidates) :
    requests.Owns candidates := by
  intro c candidate request met
  obtain ⟨asked, found, -, owner⟩ := serves.granted c candidate
  obtain rfl := Option.some.inj (found.symm.trans (Requests.find?_eq_some.mp met).2.1)
  exact owner

/-- An item of a unit as it stands among the inserted bindings: only the expressions that lowering looks at may be
others, and metadata can be collected from it. -/
structure Slot.Expresses (fields exported : Names) (item : Located Item) (slot : Slot) : Prop where
  rewritten : ∃ f, slot.item = { item with value := mapItem f item.value }
  inserted : ∀ b ∈ slot.bindings, ∃ i value, b = binding (symbol i) value
  expressible : ∀ root ∈ scopeOfItem slot.item.value,
    Expressible fields exported root ∨ HoldsArrow slot.item.value root

theorem expresses_slotOf {u : SourceUnit} {count : Nat} (distinct : (places (nodesOf u.items)).Nodup)
    (serves : requests.Serves (candidatesOf fields exported u.items))
    (bound : boundNames requests u.items = (List.range count).map symbol) {item : Located Item}
    (member : item ∈ u.items) : (slotOf requests item).Expresses fields exported item where
  rewritten := ⟨replaced requests, by rw [slotOf, replacedItem_eq]⟩
  inserted b among := by
    obtain hoisted | aliased := List.mem_append.mp among
    · obtain ⟨hit, met, -, rfl⟩ := mem_hoistedBindings.mp hoisted
      obtain ⟨i, -, name⟩ := exists_symbol bound member met
      exact ⟨i, _, by rw [name]⟩
    · obtain ⟨hit, met, x, -, rfl⟩ := mem_aliasBindings.mp aliased
      obtain ⟨i, -, name⟩ := exists_symbol bound member met
      exact ⟨i, _, by rw [name]⟩
  expressible := by
    have within (item : Located Item) : ∀ c ∈ candidatesOfItem fields exported item.value,
        c.node ∈ (rootsOfItem item.value).flatMap Expr.walk :=
      mem_of_sublist (candidatesOfItem_sublist item.value)
    refine expressible_item ((serves.fits distinct).of_mem within member) fun c candidate => ?_
    exact serves.owns c (List.mem_flatMap.mpr ⟨item, member, candidate⟩)

/-- After lowering, metadata meets no function in the decorators and in the module-level code of a unit, except where it
is the whole initializer of a variable, and no value of a lowered field that it cannot say. -/
theorem lowering_expressible {symbols : SymbolResolver} {u : SourceUnit} {findings : Findings} {cache : RequestCache}
    (defines : u.isDeclaration = false) (separate : (places u.items.walk).Nodup)
    (own : ∀ kept, cache.get? u.name = some kept → kept = requestsOf fields u) :
    ∃ lowered cache', (((expressions (requestsFor fields)).apply symbols u).run.run findings).run cache =
        ((.ok lowered, findings), cache') ∧
      ∃ slots names, lowered.items = slots.flatMap Slot.layout ++ exportOf names ∧
        List.Forall₂ (Slot.Expresses fields (exportedNames u)) u.items slots := by
  obtain ⟨cache', run⟩ := expressions_run own
  refine ⟨_, cache', run, _, _, items_lowerUnit (requestsOf fields u) u, ?_⟩
  have distinct := separate.sublist (places_sublist (nodesOf_sublist u.items))
  rw [List.forall₂_map_right_iff, List.forall₂_same]
  intro item member
  exact expresses_slotOf distinct (serves_requestsOf distinct defines) (boundNames_requestsOf distinct) member

/-- A class with providers of all kinds, a variable with a function, and exported variables with and without a list. -/
def providersUnit : SourceUnit where
  name := "/app.ts"
  text := ""
  isDeclaration := false
  items := [
    ⟨⟨0, 20, some 0⟩, .decl (.variable {
      name := "make"
      init := some (.arrow ⟨8, 19, some 0⟩ ["x"] (.ident ⟨15, 16, some 0⟩ "x")) })⟩,
    ⟨⟨20, 200, some 0⟩, .exportDecl (.classDecl {
      name := "App"
      decorators := [.call ⟨21, 190, some 0⟩ (.ident ⟨22, 28, some 0⟩ "Module") [.array ⟨30, 180, some 0⟩ [
        .object ⟨31, 50, some 0⟩ [.named "useFactory" (.arrow ⟨32, 49, some 0⟩ [] (.ident ⟨40, 41, some 0⟩ "y"))],
        .object ⟨51, 70, some 0⟩ [.named "useValue" (.paren ⟨52, 69, some 0⟩ (.ident ⟨53, 68, some 0⟩ "make"))],
        .object ⟨71, 90, some 0⟩ [.named "id" (.paren ⟨72, 89, some 0⟩ (.literal ⟨73, 88, some 0⟩ (.string "a")))],
        .object ⟨91, 110, some 0⟩ [.named "data" (.member ⟨92, 109, some 0⟩ (.ident ⟨93, 96, some 0⟩ "App") "x")],
        .object ⟨111, 130, some 0⟩ [.named "data" (.ident ⟨112, 129, some 0⟩ "ɵ7")],
        .spread ⟨131, 150, some 0⟩ (.object ⟨132, 149, some 0⟩ [.named "loadChildren"
          (.call .synthetic (.name "load") [.arrow ⟨133, 148, some 0⟩ [] (.ident ⟨140, 141, some 0⟩ "z")])])]]]
      members := [⟨⟨191, 199, some 0⟩, .constructor {
        params := [{
          name := "logger"
          decorators := [.call ⟨192, 198, some 0⟩ (.ident ⟨193, 194, some 0⟩ "Inject")
            [.arrow ⟨195, 197, some 0⟩ [] (.ident ⟨196, 197, some 0⟩ "App")]] }]
        body := some [] }⟩] })⟩,
    ⟨⟨200, 220, some 0⟩, .exportDecl (.variable {
      name := "handlers"
      init := some (.array ⟨210, 219, some 0⟩ [.arrow ⟨211, 218, some 0⟩ [] (.ident ⟨215, 216, some 0⟩ "App")]) })⟩,
    ⟨⟨220, 240, some 0⟩, .exportDecl (.variable {
      name := "eager"
      init := some (.arrow ⟨230, 239, some 0⟩ [] (.ident ⟨235, 236, some 0⟩ "App")) })⟩]

theorem providersUnit_expressible :
    (requestsOf defaultFields providersUnit).map (·.1.1) = [8, 32, 52, 133, 195, 211] ∧
      ∃ lowered cache', (((expressions (requestsFor defaultFields)).apply .localOnly providersUnit).run.run {}).run [] =
          ((.ok lowered, {}), cache') ∧
        ∃ slots names, lowered.items = slots.flatMap Slot.layout ++ exportOf names ∧
          List.Forall₂ (Slot.Expresses defaultFields (exportedNames providersUnit)) providersUnit.items slots :=
  ⟨by decide, lowering_expressible rfl (by decide) fun kept none => by cases none⟩

end Lowering

end CompanionBuild
