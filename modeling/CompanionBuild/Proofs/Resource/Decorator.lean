import CompanionBuild.Proofs.Determined
import CompanionBuild.Proofs.Lowering.Decorator
import CompanionBuild.Proofs.Related

/-! # Inlining and what lowering looks at

Inlining changes the arguments of component decorators and the values of fields. Whether a decorator is the framework's,
what a constructor takes and what is complained about do not depend on them. A component decorator belongs to the
framework, so one that is not the framework's has no resources.
-/

namespace CompanionBuild.Resource

variable {σ : Type} {load : String → ResourceM σ String} {u : SourceUnit}

/-! ## Decorators -/

theorem inlineArguments_isEmpty {args made : List Expr} (yields : Yields (inlineArguments load args) made) :
    made.isEmpty = args.isEmpty := by
  unfold inlineArguments at yields
  split at yields
  · obtain ⟨⟨kept, styles⟩, -, yields⟩ := yields.of_bind
    rw [yields.eq_of_pure]
    rfl
  · rw [yields.eq_of_pure]

/-- Inlining leaves a decorator as it is, or changes the arguments of a call. -/
theorem inlineDecorator_cases {d made : Expr} (yields : Yields (inlineDecorator load u d) made) :
    made = d ∨ ∃ span callee args args', d = .call span callee args ∧ made = .call span callee args' := by
  unfold inlineDecorator at yields
  split at yields
  case h_1 span callee args =>
    split at yields
    · obtain ⟨args', -, yields⟩ := yields.of_bind
      exact .inr ⟨span, callee, args, args', rfl, yields.eq_of_pure⟩
    · exact .inl yields.eq_of_pure
  case h_2 => exact .inl yields.eq_of_pure

variable {settings : DecoratorLowering}

/-- A component decorator belongs to the framework. -/
theorem isFramework_of_isComponent {span : Span} {callee : Expr} {args : List Expr}
    (component : isComponent u callee = true) : settings.isFramework u (.call span callee args) = true := by
  cases callee with
  | ident place name =>
    rw [isComponent] at component
    cases found : u.importOf? name with
    | none => simp [found] at component
    | some target =>
      have core : target.source = coreModule := by
        rw [found, Option.any_some, Bool.and_eq_true, decide_eq_true_iff] at component
        exact component.1
      simp [DecoratorLowering.isFramework, SourceUnit.importOfDecorator?, SourceUnit.importOfTarget?, found, core]
  | _ => cases component

/-- Whether a decorator belongs to the framework does not depend on its arguments. -/
theorem isFramework_of_yields {d made : Expr} (yields : Yields (inlineDecorator load u d) made) :
    settings.isFramework u made = settings.isFramework u d := by
  obtain rfl | ⟨span, callee, args, args', rfl, rfl⟩ := inlineDecorator_cases yields
  · rfl
  · rfl

theorem complaint?_of_yields {d made : Expr} (yields : Yields (inlineDecorator load u d) made) :
    DecoratorLowering.complaint? u made = DecoratorLowering.complaint? u d := by
  obtain rfl | ⟨span, callee, args, args', rfl, rfl⟩ := inlineDecorator_cases yields
  · rfl
  · rfl

/-- A decorator that is not the framework's stays. -/
theorem inlineDecorator_of_not_isFramework {d : Expr} (other : settings.isFramework u d = false) :
    inlineDecorator load u d = pure d := by
  unfold inlineDecorator
  split
  case h_1 span callee args =>
    split
    case isTrue component =>
      rw [isFramework_of_isComponent component] at other
      cases other
    case isFalse => rfl
  case h_2 => rfl

/-! ## Members -/

/-- The value of a field with the resources of its records in place. -/
def inlineInit (load : String → ResourceM σ String) (u : SourceUnit) (name : PropertyName) (init : Option Expr) :
    ResourceM σ (Option Expr) :=
  if name.ident? = some "decorators" then
    match init with
    | some (.array span records) => do
      let records ← records.mapM (inlineRecord load u)
      pure (some (.array span records))
    | _ => pure init
  else pure init

theorem inlineMember_field (span : Span) (f : Field) : inlineMember load u ⟨span, .field f⟩ = (do
    let init ← inlineInit load u f.name f.init
    pure ⟨span, .field { f with init }⟩) := by
  obtain ⟨name, type, init, isStatic, decorators, comment⟩ := f
  unfold inlineMember inlineInit
  dsimp only
  by_cases named : name.ident? = some "decorators"
  · rw [if_pos named, if_pos named]
    cases init with
    | none => rfl
    | some value =>
      cases value with
      | array place records => simp only [bind_assoc, pure_bind]
      | _ => rfl
  · rw [if_neg named, if_neg named]
    rfl

/-- Inlining leaves a member as it is, or changes the value of a field. -/
theorem inlineMember_cases {member made : Located Member} (yields : Yields (inlineMember load u member) made) :
    made = member ∨ ∃ f init, member.value = .field f ∧ made = ⟨member.span, .field { f with init }⟩ := by
  obtain ⟨span, value⟩ := member
  cases value with
  | field f =>
    rw [inlineMember_field] at yields
    obtain ⟨init, -, yields⟩ := yields.of_bind
    exact .inr ⟨f, init, rfl, yields.eq_of_pure⟩
  | _ => exact .inl yields.eq_of_pure

/-- What depends on the members of a class apart from the values of fields is the same after inlining. -/
theorem eq_of_inlineMember {α : Type} {f : Located Member → α}
    (blind : ∀ span field init, f ⟨span, .field { field with init }⟩ = f ⟨span, .field field⟩)
    {member made : Located Member} (yields : Yields (inlineMember load u member) made) : f made = f member := by
  obtain rfl | ⟨field, init, isField, rfl⟩ := inlineMember_cases yields
  · rfl
  · rw [blind, ← isField]

/-- The decorators that lowering leaves to a field. -/
def decoratorsLeft (settings : DecoratorLowering) (u : SourceUnit) (name : PropertyName) (decorators : List Expr) :
    List Expr :=
  if (settings.lowered u decorators).isEmpty || name.ident?.isNone then decorators else settings.kept u decorators

theorem lowerMember_field (f : Field) : settings.lowerMember u (.field f) =
    .field { f with decorators := decoratorsLeft settings u f.name f.decorators } := by
  rw [decoratorsLeft]
  change (if (settings.lowered u f.decorators).isEmpty || f.name.ident?.isNone then Member.field f
    else .field { f with decorators := settings.kept u f.decorators }) = _
  split <;> rfl

/-- A member lowered in its place. -/
def lowerPlaced (settings : DecoratorLowering) (u : SourceUnit) (member : Located Member) : Located Member :=
  { member with value := settings.lowerMember u member.value }

/-! ## What lowering looks at -/

/-- Decorators with the resources of each in place. -/
abbrev InlinedDecorators (load : String → ResourceM σ String) (u : SourceUnit) : List Expr → List Expr → Prop :=
  List.Forall₂ fun d made => Yields (inlineDecorator load u d) made

/-- Members with the resources of each in place. -/
abbrev InlinedMembers (load : String → ResourceM σ String) (u : SourceUnit) :
    List (Located Member) → List (Located Member) → Prop :=
  List.Forall₂ fun member made => Yields (inlineMember load u member) made

theorem inlined_lowered {decorators made : List Expr} (inlined : InlinedDecorators load u decorators made) :
    InlinedDecorators load u (settings.lowered u decorators) (settings.lowered u made) := by
  refine List.rel_filter (fun d d' yields => ?_) inlined
  exact Bool.eq_iff_iff.mp (isFramework_of_yields yields).symm

/-- Decorators that are not the framework's stay. -/
theorem kept_of_inlined {decorators made : List Expr}
    (inlined : InlinedDecorators load u (settings.kept u decorators) made) : made = settings.kept u decorators := by
  have other : ∀ d ∈ settings.kept u decorators, settings.isFramework u d = false := by
    intro d member
    simpa using (List.mem_filter.mp member).2
  generalize settings.kept u decorators = list at inlined other
  induction inlined with
  | nil => rfl
  | cons first _ ih =>
    rw [inlineDecorator_of_not_isFramework (other _ (List.mem_cons_self ..))] at first
    rw [first.eq_of_pure, ih fun d member => other d (List.mem_cons_of_mem _ member)]

theorem inlined_kept {decorators made : List Expr} (inlined : InlinedDecorators load u decorators made) :
    InlinedDecorators load u (settings.kept u decorators) (settings.kept u made) := by
  refine List.rel_filter (fun d d' yields => ?_) inlined
  exact Bool.eq_iff_iff.mp (congrArg not (isFramework_of_yields yields).symm)

theorem inlined_loweredOfClass {c : ClassDecl} {decorators : List Expr} {members : List (Located Member)}
    (inlined : InlinedDecorators load u c.decorators decorators) :
    InlinedDecorators load u (settings.loweredOfClass u c)
      (settings.loweredOfClass u { c with decorators, members }) := by
  unfold DecoratorLowering.loweredOfClass
  split
  · exact .nil
  · exact inlined_lowered inlined

section

variable {c : ClassDecl} {decorators : List Expr} {members : List (Located Member)}
  (ofDecorators : InlinedDecorators load u c.decorators decorators)
  (ofMembers : InlinedMembers load u c.members members)

include ofMembers

theorem memberEntries_of_inlined : settings.memberEntries u members = settings.memberEntries u c.members := by
  rw [DecoratorLowering.memberEntries, DecoratorLowering.memberEntries,
    filterMap_eq_of_forall₂ (fun _ _ yields => eq_of_inlineMember (fun _ _ _ => rfl) yields) ofMembers]

theorem constructorParams?_of_inlined :
    settings.constructorParams? u members = settings.constructorParams? u c.members :=
  findSome?_eq_of_forall₂ (fun _ _ yields => eq_of_inlineMember (fun _ _ _ => rfl) yields)
    (List.forall₂_reverse_iff.mpr ofMembers)

include ofDecorators

theorem recordedParams?_of_inlined :
    settings.recordedParams? u { c with decorators, members } = settings.recordedParams? u c := by
  have empty : (settings.lowered u decorators).isEmpty = (settings.lowered u c.decorators).isEmpty := by
    rw [Bool.eq_iff_iff, List.isEmpty_iff_length_eq_zero, List.isEmpty_iff_length_eq_zero,
      (inlined_lowered ofDecorators).length_eq]
  rw [DecoratorLowering.recordedParams?, DecoratorLowering.recordedParams?, constructorParams?_of_inlined ofMembers,
    empty]

theorem retained_of_inlined (resolve : EntityName → Option SymbolInfo) :
    settings.retained u resolve { c with decorators, members } = settings.retained u resolve c := by
  rw [DecoratorLowering.retained, DecoratorLowering.retained, recordedParams?_of_inlined ofDecorators ofMembers]

theorem complaints_of_inlined :
    settings.complaints u { c with decorators, members } = settings.complaints u c := by
  have ofClass : (settings.loweredOfClass u { c with decorators, members }).filterMap (DecoratorLowering.complaint? u) =
      (settings.loweredOfClass u c).filterMap (DecoratorLowering.complaint? u) :=
    filterMap_eq_of_forall₂ (fun _ _ yields => complaint?_of_yields yields) (inlined_loweredOfClass ofDecorators)
  have named : members.filterMap (settings.memberComplaint? u) = c.members.filterMap (settings.memberComplaint? u) :=
    filterMap_eq_of_forall₂ (fun _ _ yields => eq_of_inlineMember (fun _ _ _ => rfl) yields) ofMembers
  simp only [DecoratorLowering.complaints, List.filterMap_append, ofClass, named,
    recordedParams?_of_inlined ofDecorators ofMembers, memberEntries_of_inlined ofMembers]

end

/-- The field that holds the records of some decorators, if there are any. -/
def recordsField (decorators : List Expr) : List (Located Member) :=
  if decorators.isEmpty then []
  else [DecoratorLowering.staticField "decorators" DecoratorLowering.recordsType
    (DecoratorLowering.records decorators) none]

/-- The static fields for the constructor and the members. -/
def otherFields (settings : DecoratorLowering) (u : SourceUnit) (resolve : EntityName → Option SymbolInfo)
    (c : ClassDecl) : List (Located Member) :=
  (match settings.recordedParams? u c with
    | some params => [settings.constructorField resolve params]
    | none => []) ++
    if (settings.memberEntries u c.members).isEmpty then []
    else [DecoratorLowering.membersField (settings.memberEntries u c.members)]

theorem otherFields_of_inlined {c : ClassDecl} {decorators : List Expr} {members : List (Located Member)}
    (ofDecorators : InlinedDecorators load u c.decorators decorators)
    (ofMembers : InlinedMembers load u c.members members) (resolve : EntityName → Option SymbolInfo) :
    otherFields settings u resolve { c with decorators, members } = otherFields settings u resolve c := by
  rw [otherFields, otherFields, recordedParams?_of_inlined ofDecorators ofMembers, memberEntries_of_inlined ofMembers]

/-- The class decorators that stay. -/
def decoratorsKept (settings : DecoratorLowering) (u : SourceUnit) (decorators : List Expr) : List Expr :=
  if settings.keepClassDecorators then decorators else settings.kept u decorators

theorem lowerClass_eq (resolve : EntityName → Option SymbolInfo) (c : ClassDecl) :
    settings.lowerClass u resolve c = { c with
      members := c.members.map (lowerPlaced settings u) ++
        (recordsField (settings.loweredOfClass u c) ++ otherFields settings u resolve c)
      decorators := decoratorsKept settings u c.decorators } := by
  rw [DecoratorLowering.lowerClass, DecoratorLowering.staticFields, List.append_assoc]
  rfl

theorem inlined_decoratorsKept {decorators made : List Expr} (inlined : InlinedDecorators load u decorators made) :
    InlinedDecorators load u (decoratorsKept settings u decorators) (decoratorsKept settings u made) := by
  unfold decoratorsKept
  split
  · exact inlined
  · exact inlined_kept inlined

theorem inlineMember_otherFields {resolve : EntityName → Option SymbolInfo} {c : ClassDecl} :
    ∀ member ∈ otherFields settings u resolve c, inlineMember load u member = pure member := by
  intro member inside
  rw [otherFields, List.mem_append] at inside
  obtain inside | inside := inside
  · split at inside
    · rw [List.mem_singleton.mp inside]
      rfl
    · cases inside
  · split at inside
    · cases inside
    · rw [List.mem_singleton.mp inside]
      rfl

/-- Inlining leaves an item as it is, or changes the decorators and members of its class. -/
theorem inlineItem_cases {item made : Located Item} (yields : Yields (inlineItem load u item) made) :
    made = item ∨ ∃ c decorators members, item.value.class? = some c ∧
      InlinedDecorators load u c.decorators decorators ∧ InlinedMembers load u c.members members ∧
      made = { item with value := item.value.withClass { c with decorators, members } } := by
  unfold inlineItem at yields
  split at yields
  case h_1 c isClass =>
    obtain ⟨decl, inlined, yields⟩ := yields.of_bind
    obtain ⟨decorators, ofDecorators, inlined⟩ := inlined.of_bind
    obtain ⟨members, ofMembers, inlined⟩ := inlined.of_bind
    obtain rfl := inlined.eq_of_pure
    exact .inr ⟨c, decorators, members, isClass, ofDecorators.forall₂_of_mapM, ofMembers.forall₂_of_mapM,
      yields.eq_of_pure⟩
  case h_2 => exact .inl yields.eq_of_pure

theorem bare_of_inlineItem {item made : Located Item} (yields : Yields (inlineItem load u item) made) :
    (⟨made.span, made.value.bare⟩ : Located Item) = ⟨item.span, item.value.bare⟩ := by
  obtain rfl | ⟨c, decorators, members, isClass, -, -, rfl⟩ := inlineItem_cases yields
  · rfl
  · have same : ({ c with decorators, members } : ClassDecl).bare = c.bare := rfl
    dsimp only
    rw [Item.bare_withClass isClass same]

/-- Items with the resources of each in place. -/
abbrev InlinedItems (host : ResourceHost σ) (u : SourceUnit) : Items → Items → Prop :=
  List.Forall₂ fun item made => Yields (inlineItem (host.get u.name) u item) made

theorem bare_of_inlined {host : ResourceHost σ} {items : Items} (inlined : InlinedItems host u u.items items) :
    SourceUnit.bare { u with items } = u.bare := by
  have same : items.map (fun item => { item with value := item.value.bare }) =
      u.items.map fun item => { item with value := item.value.bare } :=
    map_eq_of_forall₂ (fun _ _ yields => bare_of_inlineItem yields) inlined
  rw [SourceUnit.bare, SourceUnit.bare]
  exact congrArg (fun items => { u with items }) same

/-- What is found about a class does not depend on its resources. -/
theorem addFindings_of_inlineItem {symbols : SymbolResolver} {item made : Located Item}
    (yields : Yields (inlineItem load u item) made) (findings : Findings) :
    settings.addFindings symbols u findings made = settings.addFindings symbols u findings item := by
  obtain rfl | ⟨c, decorators, members, isClass, ofDecorators, ofMembers, rfl⟩ := inlineItem_cases yields
  · rfl
  · simp only [DecoratorLowering.addFindings, Item.class?_withClass isClass, isClass,
      complaints_of_inlined ofDecorators ofMembers, retained_of_inlined ofDecorators ofMembers]

theorem isComponent_congr {u' : SourceUnit} (same : u.imports = u'.imports) : isComponent u = isComponent u' := by
  funext e
  simp only [isComponent.eq_def, SourceUnit.importOf?, SourceUnit.findImport?, same]

theorem inlineItem_congr {u' : SourceUnit} (same : u.imports = u'.imports) :
    inlineItem load u = inlineItem load u' := by
  have component : isComponent u = isComponent u' := isComponent_congr same
  have decorator : inlineDecorator load u = inlineDecorator load u' := by
    funext d
    unfold inlineDecorator
    rw [component]
  have record : inlineRecord load u = inlineRecord load u' := by
    funext e
    unfold inlineRecord isComponentRecord
    rw [component]
  have member : inlineMember load u = inlineMember load u' := by
    funext member
    unfold inlineMember
    rw [record]
  funext item
  unfold inlineItem inlineClass
  rw [decorator, member]

end CompanionBuild.Resource
