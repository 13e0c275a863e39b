import CompanionBuild.Proofs.Lowering.Conservation
import CompanionBuild.Proofs.Names
import CompanionBuild.Proofs.Symbol

/-! # Recorded types exist at run time

For a parameter of a recorded constructor, lowering records its type as a value: a standard global, the dotted name that
the type comes down to, or nothing known. A dotted name is recorded only where the unit itself tells that it has a value.
Where it starts with an imported name, that import has to stay, and no other import is kept for the sake of lowering.
-/

namespace CompanionBuild

/-- The members that spell a dotted name. -/
def EntityName.chain : EntityName → Expr
  | .ident name => .name name
  | .qualified left right => .member .synthetic left.chain right

namespace TypeExpr

/-- The type that is meant by a type: inside parentheses, the only member of a union that is neither `null` nor
`undefined`, else the type itself. A union with several such members, or none, means no one type. -/
inductive ComesDownTo : TypeExpr → TypeExpr → Prop
  | self {type : TypeExpr} (noUnion : ∀ members, type ≠ .union members) (noParen : ∀ inner, type ≠ .paren inner) :
    ComesDownTo type type
  | paren {inner type : TypeExpr} (inside : ComesDownTo inner type) : ComesDownTo (.paren inner) type
  | union {before after : List TypeExpr} {member type : TypeExpr}
    (others : ∀ other ∈ before ++ after, DecoratorLowering.isNullish other = true)
    (concrete : DecoratorLowering.isNullish member = false) (only : ComesDownTo member type) :
    ComesDownTo (.union (before ++ member :: after)) type

/-- The standard global that stands for a type. -/
def global? : TypeExpr → Option String
  | .function .. | .constructor .. => some "Function"
  | .array _ | .tuple _ => some "Array"
  | .predicate .. | .keyword .boolean | .literal (.boolean _) => some "Boolean"
  | .keyword .string | .literal (.string _) => some "String"
  | .keyword .object => some "Object"
  | .keyword .number | .literal (.number _) => some "Number"
  | _ => none

/-- The dotted name that a type refers to. -/
def entity? : TypeExpr → Option EntityName
  | .named name | .applied name _ => some name
  | _ => none

theorem comesDownTo_reference (name : String) : (reference name).ComesDownTo (reference name) :=
  .self (fun _ same => by cases same) fun _ same => by cases same

end TypeExpr

/-- The parameters that are recorded: those of the last constructor with a body, if the class or one of them has a
decorator in question. -/
def ClassDecl.recorded? (framework : Expr → Bool) (c : ClassDecl) : Option (List Param) :=
  (c.implementation?.map (·.params)).filter fun params =>
    c.decorators.any framework || params.any fun param => param.decorators.any framework

namespace DecoratorLowering

/-- The value that is recorded for a type, and the dotted name that it spells if it does. -/
inductive Captured (u : SourceUnit) : Option TypeExpr → Expr → Option EntityName → Prop
  | chain {type core : TypeExpr} {name : EntityName} (down : type.ComesDownTo core) (refers : core.entity? = some name)
    (values : ∀ beginning ∈ name.beginnings, u.hasValue beginning = true) (root : u.ExistsAtRunTime name.root) :
    Captured u (some type) name.chain (some name)
  | global {type core : TypeExpr} {name : String} (down : type.ComesDownTo core) (stands : core.global? = some name)
    (standard : name ∈ ["Function", "Array", "Boolean", "String", "Object", "Number"]) :
    Captured u (some type) (.name name) none
  | unknown {type : Option TypeExpr} (nothing : ∀ t core, type = some t → t.ComesDownTo core →
      core.global? = none ∧ ∀ name, core.entity? = some name → ¬ u.ExistsAtRunTime name.root) :
    Captured u type (.name "undefined") none

/-- The entry of a parameter: its type as a value, or `null` if it has neither a type nor decorators in question. -/
inductive RecordsParam (u : SourceUnit) (framework : Expr → Bool) (param : Param) : Expr → Prop
  | nothing (untyped : param.type = none) (plain : param.decorators.filter framework = []) :
    RecordsParam u framework param (.literal .synthetic .null)
  | typed {value : Expr} {chain : Option EntityName} (rest : List Property)
    (captured : Captured u param.type value chain) :
    RecordsParam u framework param (.object .synthetic (.named "type" value :: rest))

/-- A lowered class has the entries of the recorded parameters, and only these, in a field that it did not have. -/
structure RecordsTypes (u : SourceUnit) (framework : Expr → Bool) (c lowered : ClassDecl) : Prop where
  present : (c.recorded? framework).isSome = true →
    ∃ field ∈ lowered.members.drop c.members.length, ∃ value, IsStatic "ctorParameters" value field
  entries : ∀ field ∈ lowered.members.drop c.members.length, ∀ value, IsStatic "ctorParameters" value field →
    ∃ params entries, c.recorded? framework = some params ∧ value = .arrow .synthetic [] (.array .synthetic entries) ∧
      List.Forall₂ (RecordsParam u framework) params entries

/-! ## Dotted names -/

variable {u : SourceUnit}

theorem bind_ite_eq_ite {α β : Type} (found : Option α) (p : α → Bool) (result : Option β) :
    (found.bind fun a => if p a then result else none) = if found.any p then result else none := by
  cases found <;> rfl

/-- A dotted name is recorded as it is spelled, if it has a value, and keeps the import it starts with. -/
theorem entityValue?_localOnly (name : EntityName) : entityValue? (SymbolResolver.localOnly u) name =
    if u.hasValue name then some ⟨name.chain, if u.binds name.root then some name.root else none⟩ else none := by
  induction name with
  | ident name =>
    rw [entityValue?, SourceUnit.hasValue]
    cases found : u.binding? name with
    | some bound =>
      have binds : u.binds name = true := by
        rw [← Bool.not_eq_false, ← SourceUnit.binding?_eq_none_iff, found]
        exact Option.some_ne_none bound
      rw [SourceUnit.localOnly_of_binding found, Option.bind_some, Option.any_some, EntityName.root, binds]
      rfl
    | none =>
      have unbound := SourceUnit.binding?_eq_none_iff.mp found
      rw [SourceUnit.localOnly_of_unbound unbound, EntityName.root, unbound]
      cases u.decls.find? (·.name = name) <;> rfl
  | qualified left right ih =>
    rw [entityValue?, bind_ite_eq_ite, ← SourceUnit.hasValue, SourceUnit.hasValue_qualified, ih]
    split <;> rfl

/-! ## Types -/

variable {resolve : EntityName → Option SymbolInfo}

theorem unionValue?_of_only {before after : List TypeExpr} {member : TypeExpr}
    (others : ∀ other ∈ before ++ after, isNullish other = true) (concrete : isNullish member = false) :
    unionValue? resolve (before ++ member :: after) = typeValue? resolve member := by
  induction before with
  | nil =>
    have rest : after.all isNullish = true := List.all_eq_true.mpr others
    rw [List.nil_append, unionValue?, concrete, if_neg Bool.false_ne_true, if_pos rest]
  | cons first rest ih =>
    rw [List.cons_append, unionValue?, if_pos (others first (List.mem_cons_self ..))]
    exact ih fun other mem => others other (List.mem_cons_of_mem _ mem)

theorem typeValue?_of_comesDownTo {type core : TypeExpr} (down : type.ComesDownTo core) :
    typeValue? resolve type = (core.global?.map .global).or (core.entity?.bind (entityValue? resolve)) := by
  induction down with
  | @self type noUnion noParen =>
    cases type with
    | union members => exact absurd rfl (noUnion members)
    | paren inner => exact absurd rfl (noParen inner)
    | keyword k => cases k <;> rfl
    | literal value => cases value <;> rfl
    | _ => rfl
  | paren inside ih => rw [typeValue?, ih]
  | union others concrete only ih => rw [typeValue?, unionValue?_of_only others concrete, ih]

mutual

/-- A type that means no one type has no value. -/
theorem typeValue?_eq_none {type : TypeExpr} (nothing : ∀ core, ¬ type.ComesDownTo core) :
    typeValue? resolve type = none := by
  cases type with
  | paren inner =>
    rw [typeValue?]
    exact typeValue?_eq_none fun core inside => nothing core (.paren inside)
  | union members =>
    rw [typeValue?]
    exact unionValue?_eq_none fun before member after core same others concrete only =>
      nothing core (same ▸ .union others concrete only)
  | _ => exact absurd (.self (fun _ same => by cases same) fun _ same => by cases same) (nothing _)

theorem unionValue?_eq_none {members : List TypeExpr}
    (nothing : ∀ before member after core, members = before ++ member :: after →
      (∀ other ∈ before ++ after, isNullish other = true) → isNullish member = false → ¬ member.ComesDownTo core) :
    unionValue? resolve members = none := by
  cases members with
  | nil => rw [unionValue?]
  | cons member rest =>
    rw [unionValue?]
    split
    case isTrue nullish =>
      refine unionValue?_eq_none fun before only after core same others => ?_
      refine nothing (member :: before) only after core (congrArg (member :: ·) same) ?_
      exact List.forall_mem_cons.mpr ⟨nullish, others⟩
    case isFalse concrete =>
      split
      case isTrue others =>
        refine typeValue?_eq_none fun core => ?_
        exact nothing [] member rest core rfl (List.all_eq_true.mp others) (Bool.eq_false_iff.mpr concrete)
      case isFalse => rfl

end

theorem mem_standard_of_global? {core : TypeExpr} {name : String} (stands : core.global? = some name) :
    name ∈ ["Function", "Array", "Boolean", "String", "Object", "Number"] := by
  unfold TypeExpr.global? at stands
  split at stands <;> cases stands <;> decide

/-- The name of the import that the value of a dotted name keeps alive. -/
def importOf (u : SourceUnit) (name : EntityName) : Option String :=
  if u.binds name.root then some name.root else none

/-- The value of a type is a standard global or spells a dotted name that has a value. -/
theorem captured_of_typeValue? {type : TypeExpr} {value : TypeValue}
    (found : typeValue? (SymbolResolver.localOnly u) type = some value) :
    ∃ chain, Captured u (some type) value.expr chain ∧ value.retained = chain.bind (importOf u) := by
  by_cases meant : ∃ core, type.ComesDownTo core
  case neg =>
    rw [typeValue?_eq_none fun core down => meant ⟨core, down⟩] at found
    cases found
  case pos =>
    obtain ⟨core, down⟩ := meant
    rw [typeValue?_of_comesDownTo down] at found
    cases stands : core.global? with
    | some name =>
      rw [stands] at found
      cases found
      exact ⟨none, .global down stands (mem_standard_of_global? stands), rfl⟩
    | none =>
      rw [stands, Option.map_none, Option.none_or, Option.bind_eq_some_iff] at found
      obtain ⟨name, refers, found⟩ := found
      rw [entityValue?_localOnly, Option.ite_none_right_eq_some] at found
      obtain ⟨hasValue, isValue⟩ := found
      cases isValue
      have root : u.ExistsAtRunTime name.root := by
        rwa [← SourceUnit.hasValue_ident_iff, ← SourceUnit.hasValue_eq_root]
      exact ⟨some name, .chain down refers (SourceUnit.hasValue_beginnings_iff.mpr hasValue) root, rfl⟩

/-- Where a type has no value there is nothing to record. -/
theorem captured_of_none {type : Option TypeExpr} (none : type.bind (typeValue? (SymbolResolver.localOnly u)) = none) :
    Captured u type (.name "undefined") .none := by
  refine .unknown fun t core isType down => ?_
  rw [isType, Option.bind_some, typeValue?_of_comesDownTo down, Option.or_eq_none_iff, Option.map_eq_none_iff,
    Option.bind_eq_none_iff] at none
  refine ⟨none.1, fun name refers exist => ?_⟩
  have noValue := none.2 name refers
  rw [entityValue?_localOnly, SourceUnit.hasValue_eq_root, SourceUnit.hasValue_ident_iff.mpr exist, if_pos rfl] at noValue
  cases noValue

theorem global?_of_entity? {core : TypeExpr} {name : EntityName} (refers : core.entity? = some name) :
    core.global? = none := by
  cases core with
  | named _ => rfl
  | applied _ _ => rfl
  | _ => cases refers

/-- A recorded dotted name keeps the import that it starts with. -/
theorem retained_of_captured {type : Option TypeExpr} {value : Expr} {name : EntityName}
    (captured : Captured u type value (some name)) :
    (type.bind (typeValue? (SymbolResolver.localOnly u))).bind (·.retained) = importOf u name := by
  cases captured with
  | chain down refers values root =>
    rw [Option.bind_some, typeValue?_of_comesDownTo down, global?_of_entity? refers, refers, Option.bind_some,
      entityValue?_localOnly, SourceUnit.hasValue_beginnings_iff.mp values]
    rfl

/-! ## Parameters -/

variable {settings : DecoratorLowering} {framework : Expr → Bool}

theorem recordsParam_of_isParamEntry {param : Param} {entry : Expr}
    (isEntry : IsParamEntry framework (SymbolResolver.localOnly u) param entry) : RecordsParam u framework param entry := by
  have captured : ∃ chain, Captured u param.type
      (((param.type.bind (typeValue? (SymbolResolver.localOnly u))).map (·.expr)).getD (.name "undefined")) chain := by
    cases found : param.type.bind (typeValue? (SymbolResolver.localOnly u)) with
    | none => exact ⟨none, captured_of_none found⟩
    | some value =>
      obtain ⟨type, isType, hasValue⟩ := Option.bind_eq_some_iff.mp found
      obtain ⟨chain, captured, -⟩ := captured_of_typeValue? hasValue
      exact ⟨chain, isType ▸ captured⟩
  obtain ⟨chain, captured⟩ := captured
  cases isEntry with
  | nothing untyped plain => exact .nothing untyped plain
  | typed typed plain => exact .typed [] captured
  | decorated decorated recorded => exact .typed _ captured

theorem not_isEmpty_lowered (decorators : List Expr) :
    (!(settings.lowered u decorators).isEmpty) = decorators.any (settings.isFramework u) := by
  rw [Bool.eq_iff_iff]
  simp [lowered]

theorem recordedParams?_eq (c : ClassDecl) : settings.recordedParams? u c =
    (c.recorded? (settings.isFramework u)).map
      (List.map fun param => ⟨settings.lowered u param.decorators, param.type⟩) := by
  rw [recordedParams?, constructorParams?_eq, ClassDecl.recorded?]
  cases c.implementation? with
  | none => rfl
  | some last =>
    simp only [Option.map_some, Option.filter_some, List.any_map, Function.comp_def, not_isEmpty_lowered]
    split <;> rfl

theorem IsStatic.eq {name other : String} {value value' : Expr} {field : Located Member}
    (isStatic : IsStatic name value field) (isStatic' : IsStatic other value' field) : name = other ∧ value = value' := by
  obtain ⟨type, comment, isField⟩ := isStatic
  obtain ⟨type', comment', isField'⟩ := isStatic'
  cases isField.symm.trans isField'
  exact ⟨rfl, rfl⟩

/-- Parameters are recorded exactly where there is a decorator to record. -/
theorem recorded?_eq_some_iff {c : ClassDecl} {params : List Param} : c.recorded? framework = some params ↔
    ∃ last, c.implementation? = some last ∧ last.params = params ∧
      (c.decorators.filter framework ≠ [] ∨ ∃ param ∈ params, param.decorators.filter framework ≠ []) := by
  have decorated (decorators : List Expr) : decorators.any framework = true ↔ decorators.filter framework ≠ [] := by
    simp
  simp only [ClassDecl.recorded?, Option.filter_eq_some_iff, Option.map_eq_some_iff, Bool.or_eq_true, decorated,
    List.any_eq_true, ← exists_and_right, and_assoc]

theorem LowersClass.recordsTypes {c made : ClassDecl}
    (lowers : settings.LowersClass framework (SymbolResolver.localOnly u) c made) : RecordsTypes u framework c made := by
  obtain ⟨originals, ofClass, ofParams, ofMembers, isMade, kept, saidClass, saidParams, saidMembers⟩ := lowers.members
  have added : made.members.drop c.members.length = ofClass.toList ++ ofParams.toList ++ ofMembers.toList := by
    rw [isMade, kept.length_eq, List.append_assoc, List.append_assoc, List.drop_left, List.append_assoc]
  refine ⟨fun wanted => ?_, fun field mem value isStatic => ?_⟩
  · obtain ⟨params, recorded⟩ := Option.isSome_iff_exists.mp wanted
    obtain ⟨last, isLast, rfl, decorated⟩ := recorded?_eq_some_iff.mp recorded
    cases ofParams with
    | none =>
      obtain ⟨plain, plainParams⟩ := saidParams last isLast
      obtain decorated | ⟨param, isParam, decorated⟩ := decorated
      · exact absurd plain decorated
      · exact absurd (plainParams param isParam) decorated
    | some field =>
      obtain ⟨-, entries, -, -, isStatic, -⟩ := saidParams
      refine ⟨field, ?_, _, isStatic⟩
      rw [added]
      simp
  · rw [added] at mem
    simp only [List.mem_append, Option.mem_toList] at mem
    obtain (rfl | rfl) | rfl := mem
    · obtain ⟨-, -, records, isOther, -⟩ := saidClass
      exact absurd (isStatic.eq isOther).1 (by decide)
    · obtain ⟨last, entries, isLast, decorated, isField, each⟩ := saidParams
      exact ⟨last.params, entries, recorded?_eq_some_iff.mpr ⟨last, isLast, rfl, decorated⟩, (isStatic.eq isField).2,
        each.imp fun _ _ isEntry => recordsParam_of_isParamEntry isEntry⟩
    · obtain ⟨-, entries, properties, isOther, -⟩ := saidMembers
      exact absurd (isStatic.eq isOther).1 (by decide)

/-! ## Imports -/

theorem retained_eq_some_iff {type : Option TypeExpr} {name : String} :
    (type.bind (typeValue? (SymbolResolver.localOnly u))).bind (·.retained) = some name ↔
      ∃ value chain, Captured u type value (some chain) ∧ chain.root = name ∧ u.binds name = true := by
  have isImport (chain : EntityName) : importOf u chain = some name ↔ chain.root = name ∧ u.binds name = true := by
    rw [importOf, Option.ite_none_right_eq_some, Option.some_inj, and_comm]
    constructor
    · rintro ⟨rfl, binds⟩
      exact ⟨rfl, binds⟩
    · rintro ⟨rfl, binds⟩
      exact ⟨rfl, binds⟩
  constructor
  · intro kept
    obtain ⟨value, hasValue, isRetained⟩ := Option.bind_eq_some_iff.mp kept
    obtain ⟨t, rfl, found⟩ := Option.bind_eq_some_iff.mp hasValue
    obtain ⟨chain, captured, retained⟩ := captured_of_typeValue? found
    obtain ⟨name', rfl, isName⟩ := Option.bind_eq_some_iff.mp (retained.symm.trans isRetained)
    exact ⟨_, name', captured, (isImport name').mp isName⟩
  · rintro ⟨value, chain, captured, isName⟩
    rw [retained_of_captured captured, isImport]
    exact isName

theorem mem_retained_iff {c : ClassDecl} {name : String} :
    name ∈ settings.retained u (SymbolResolver.localOnly u) c ↔
      ∃ params, c.recorded? (settings.isFramework u) = some params ∧ ∃ param ∈ params, ∃ value chain,
        Captured u param.type value (some chain) ∧ chain.root = name ∧ u.binds name = true := by
  simp only [retained, recordedParams?_eq, ← retained_eq_some_iff]
  cases c.recorded? (settings.isFramework u) with
  | none => simp
  | some params => simp [paramValue?]

/-- The names that were kept before, and those that the classes keep. -/
theorem mem_retained_foldl {symbols : SymbolResolver} {items : Items} {findings : Findings} {name : String} :
    name ∈ (items.foldl (settings.addFindings symbols u) findings).retained ↔
      name ∈ findings.retained ∨ ∃ c ∈ items.filterMap (·.value.class?), name ∈ settings.retained u (symbols u) c := by
  induction items generalizing findings with
  | nil => simp
  | cons item rest ih =>
    rw [List.foldl_cons, ih, addFindings]
    cases found : item.value.class? with
    | none => simp [found]
    | some c =>
      simp only [Findings.add, Names.mem_foldl_insert, List.filterMap_cons, found, List.mem_cons, exists_eq_or_imp]
      rw [or_assoc, or_left_comm]

/-- Captured types exist at run time and their imports survive. With the resolver that looks at the unit alone, every
recorded parameter has as its type a standard global, a dotted name all of whose beginnings have a value, or nothing
known; and the imports that are kept are, beside those kept before, exactly those that bind the first name of a recorded
dotted name. -/
theorem captured_types_survive (settings : DecoratorLowering) (u : SourceUnit) (findings : Findings) :
    (∃ items, (settings.lower .localOnly u findings).1 = { u with items } ∧
      List.Forall₂ (fun item made => ∀ c, item.value.class? = some c →
        ∃ lowered, made.value.class? = some lowered ∧ RecordsTypes u (settings.isFramework u) c lowered) u.items items) ∧
    ∀ name, name ∈ (settings.lower .localOnly u findings).2.retained ↔
      name ∈ findings.retained ∨ ∃ c ∈ u.classes, ∃ params, c.recorded? (settings.isFramework u) = some params ∧
        ∃ param ∈ params, ∃ value chain,
          Captured u param.type value (some chain) ∧ chain.root = name ∧ u.binds name = true := by
  constructor
  · obtain ⟨items, made, lowers⟩ := settings.lower_items u .localOnly findings
    refine ⟨items, made, lowers.imp fun item after lowersItem c isClass => ?_⟩
    cases lowersItem with
    | other noClass => cases noClass.symm.trans isClass
    | ofClass found same lowersClass =>
      cases found.symm.trans isClass
      rw [SymbolResolver.localOnly_ignoresBodies _ u same] at lowersClass
      exact ⟨_, Item.class?_withClass isClass _, lowersClass.recordsTypes⟩
  · intro name
    rw [lower_eq SymbolResolver.localOnly_ignoresBodies]
    simp only [mem_retained_foldl, mem_retained_iff]
    rfl

end DecoratorLowering

end CompanionBuild
