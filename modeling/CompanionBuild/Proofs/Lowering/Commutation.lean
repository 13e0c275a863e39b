import CompanionBuild.Proofs.Resource.Decorator

/-! # Inlined resources and lowered decorators

Resources are put in place in the decorators of a class and in the records that lowering makes of them. The two rewrites
commute: what inlining does to a record is what it does to the decorator behind it, and what lowering looks at is not
touched by inlining.
-/

namespace CompanionBuild

namespace Resource

variable {σ : Type} {load : String → ResourceM σ String} {u : SourceUnit} {settings : DecoratorLowering}

/-! ## Lowered records and members -/

variable [Nonempty σ]

/-- What inlining does to the record of a decorator is what it does to the decorator. -/
theorem yields_inlineRecord_iff (d made : Expr) :
    Yields (inlineRecord load u (DecoratorLowering.record d)) made ↔
      ∃ d', Yields (inlineDecorator load u d) d' ∧ made = DecoratorLowering.record d' := by
  have untouched {d : Expr} (record : inlineRecord load u (DecoratorLowering.record d) = pure (DecoratorLowering.record d))
      (decorator : inlineDecorator load u d = pure d) :
      Yields (inlineRecord load u (DecoratorLowering.record d)) made ↔
        ∃ d', Yields (inlineDecorator load u d) d' ∧ made = DecoratorLowering.record d' := by
    simp only [record, decorator, Yields.pure_iff, exists_eq_left]
  have typeOnly (properties : List Property) (e : Expr) : (properties = [] ∨ properties = [.named "type" e]) →
      inlineRecord load u (.object .synthetic properties) = pure (.object .synthetic properties) := by
    rintro (rfl | rfl)
    · rfl
    · rw [inlineRecord]
      split
      · rw [List.mapM_cons, List.mapM_nil]
        rfl
      · rfl
  cases d with
  | call span callee args =>
    cases args with
    | nil =>
      refine untouched (typeOnly _ callee (.inr rfl)) ?_
      rw [inlineDecorator]
      split
      · rfl
      · rfl
    | cons first rest =>
      have isRecord : isComponentRecord u (DecoratorLowering.recordProperties (.call span callee (first :: rest))) =
          isComponent u callee := by
        simp [isComponentRecord, DecoratorLowering.recordProperties, Property.named]
      cases component : isComponent u callee with
      | false =>
        refine untouched ?_ ?_
        · rw [DecoratorLowering.record, inlineRecord, isRecord, component, if_neg Bool.false_ne_true]
        · rw [inlineDecorator, component, if_neg Bool.false_ne_true]
      | true =>
        have ofRecord : inlineRecord load u (DecoratorLowering.record (.call span callee (first :: rest))) = (do
            let args ← inlineArguments load (first :: rest)
            pure (.object .synthetic [.named "type" callee, .named "args" (.array .synthetic args)])) := by
          have properties : DecoratorLowering.recordProperties (.call span callee (first :: rest)) =
              [.named "type" callee, .named "args" (.array .synthetic (first :: rest))] := rfl
          have ofType : inlineRecordProperty load (.named "type" callee) = pure (.named "type" callee) := rfl
          have ofArgs : inlineRecordProperty load (.named "args" (.array .synthetic (first :: rest))) = (do
              let args ← inlineArguments load (first :: rest)
              pure (.named "args" (.array .synthetic args))) := rfl
          rw [DecoratorLowering.record, inlineRecord, isRecord, component, if_pos rfl, properties]
          simp only [List.mapM_cons, List.mapM_nil, ofType, ofArgs, pure_bind, bind_assoc]
        rw [ofRecord, inlineDecorator, component, if_pos rfl, Yields.bind_pure_iff]
        simp only [Yields.bind_pure_iff]
        constructor
        · rintro ⟨args, inlined, rfl⟩
          refine ⟨_, ⟨args, inlined, rfl⟩, ?_⟩
          rw [DecoratorLowering.record, DecoratorLowering.recordProperties, inlineArguments_isEmpty inlined]
          rfl
        · rintro ⟨d', ⟨args, inlined, rfl⟩, rfl⟩
          refine ⟨args, inlined, ?_⟩
          rw [DecoratorLowering.record, DecoratorLowering.recordProperties, inlineArguments_isEmpty inlined]
          rfl
  | ident span name => exact untouched (typeOnly _ (.ident span name) (.inr rfl)) rfl
  | _ => exact untouched rfl rfl

/-- Lowering a member and inlining it commute. -/
theorem yields_lowerPlaced_iff (member made : Located Member) :
    Yields (inlineMember load u (lowerPlaced settings u member)) made ↔
      ∃ member', Yields (inlineMember load u member) member' ∧ made = lowerPlaced settings u member' := by
  have untouched (lowered : inlineMember load u (lowerPlaced settings u member) = pure (lowerPlaced settings u member))
      (plain : inlineMember load u member = pure member) :
      Yields (inlineMember load u (lowerPlaced settings u member)) made ↔
        ∃ member', Yields (inlineMember load u member) member' ∧ made = lowerPlaced settings u member' := by
    simp only [lowered, plain, Yields.pure_iff, exists_eq_left]
  obtain ⟨span, value⟩ := member
  cases value with
  | field f =>
    rw [lowerPlaced, lowerMember_field, inlineMember_field, inlineMember_field]
    simp only [Yields.bind_pure_iff]
    constructor
    · rintro ⟨init, inlined, rfl⟩
      refine ⟨_, ⟨init, inlined, rfl⟩, ?_⟩
      rw [lowerPlaced, lowerMember_field]
    · rintro ⟨_, ⟨init, inlined, rfl⟩, rfl⟩
      refine ⟨init, inlined, ?_⟩
      rw [lowerPlaced, lowerMember_field]
  | constructor c =>
    refine untouched ?_ rfl
    unfold lowerPlaced DecoratorLowering.lowerMember
    dsimp only
    split <;> rfl
  | method m =>
    refine untouched ?_ rfl
    unfold lowerPlaced DecoratorLowering.lowerMember
    dsimp only
    split <;> rfl
  | accessor a =>
    refine untouched ?_ rfl
    unfold lowerPlaced DecoratorLowering.lowerMember
    dsimp only
    split <;> rfl

/-! ## Classes -/

/-- Members that inlining leaves alone. -/
theorem inlined_iff_of_pure {members made : List (Located Member)}
    (stay : ∀ member ∈ members, inlineMember load u member = pure member) :
    InlinedMembers load u members made ↔ made = members := by
  induction members generalizing made with
  | nil => exact List.forall₂_nil_left_iff
  | cons member rest ih =>
    have tail {made : List (Located Member)} : InlinedMembers load u rest made ↔ made = rest :=
      ih fun member inside => stay member (List.mem_cons_of_mem _ inside)
    rw [InlinedMembers, List.forall₂_cons_left_iff]
    simp only [stay member (List.mem_cons_self ..), Yields.pure_iff, tail]
    constructor
    · rintro ⟨_, _, rfl, rfl, rfl⟩
      rfl
    · rintro rfl
      exact ⟨member, rest, rfl, rfl, rfl⟩

/-- What was made of the decorators that stay and of those that become records is made of all of them. -/
theorem exists_decorators {c : ClassDecl} {left low : List Expr}
    (ofLeft : InlinedDecorators load u (decoratorsKept settings u c.decorators) left)
    (ofLow : InlinedDecorators load u (settings.loweredOfClass u c) low) :
    ∃ decorators, InlinedDecorators load u c.decorators decorators ∧ decoratorsKept settings u decorators = left ∧
      settings.loweredOfClass u { c with decorators } = low := by
  cases keep : settings.keepClassDecorators with
  | true =>
    rw [DecoratorLowering.loweredOfClass, keep, if_pos rfl] at ofLow
    rw [decoratorsKept, keep, if_pos rfl] at ofLeft
    refine ⟨left, ofLeft, ?_, ?_⟩
    · rw [decoratorsKept, keep, if_pos rfl]
    · rw [DecoratorLowering.loweredOfClass, keep, if_pos rfl, List.forall₂_nil_left_iff.mp ofLow]
  | false =>
    rw [DecoratorLowering.loweredOfClass, keep, if_neg Bool.false_ne_true] at ofLow
    rw [decoratorsKept, keep, if_neg Bool.false_ne_true] at ofLeft
    have stays (d : Expr) (other : settings.isFramework u d = false) : Yields (inlineDecorator load u d) d := by
      rw [inlineDecorator_of_not_isFramework other]
      exact Yields.pure_iff.mpr rfl
    obtain ⟨decorators, inlined, chosen⟩ :=
      exists_of_forall₂_filter stays (fun _ _ yields => isFramework_of_yields yields) ofLow
    refine ⟨decorators, inlined, ?_, ?_⟩
    · rw [decoratorsKept, keep, if_neg Bool.false_ne_true, kept_of_inlined ofLeft,
        kept_of_inlined (inlined_kept inlined)]
    · rw [DecoratorLowering.loweredOfClass, keep, if_neg Bool.false_ne_true]
      exact chosen

section

variable (determined : ∀ url, Determined (load url))

include determined

theorem yields_inlineClass_iff (c made : ClassDecl) :
    Yields (inlineClass load u c) made ↔ ∃ decorators members, InlinedDecorators load u c.decorators decorators ∧
      InlinedMembers load u c.members members ∧ made = { c with decorators, members } := by
  have ofDecorator := Determined.composes.inlineDecorator determined u
  have ofMember := Determined.composes.inlineMember determined u
  rw [inlineClass, Yields.bind_iff fun _ => Determined.composes.bind (Determined.composes.mapM ofMember _) fun _ =>
    Determined.composes.pure _]
  simp only [Yields.bind_pure_iff, Yields.mapM_iff ofDecorator, Yields.mapM_iff ofMember, exists_and_left]

/-- Inlining the field of records inlines the decorators behind them. -/
theorem yields_recordsField_iff (decorators : List Expr) (made : Located Member) :
    Yields (inlineMember load u (DecoratorLowering.staticField "decorators" DecoratorLowering.recordsType
      (DecoratorLowering.records decorators) none)) made ↔
      ∃ list, InlinedDecorators load u decorators list ∧
        made = DecoratorLowering.staticField "decorators" DecoratorLowering.recordsType
          (DecoratorLowering.records list) none := by
  have ofRecord := Determined.composes.inlineRecord determined u
  have init : inlineInit load u (.ident "decorators") (some (DecoratorLowering.records decorators)) = (do
      let records ← (decorators.map DecoratorLowering.record).mapM (inlineRecord load u)
      pure (some (.array .synthetic records))) := rfl
  have inlined (made : List Expr) : Yields ((decorators.map DecoratorLowering.record).mapM (inlineRecord load u)) made ↔
      ∃ list, InlinedDecorators load u decorators list ∧ made = list.map DecoratorLowering.record := by
    rw [Yields.mapM_iff ofRecord]
    exact forall₂_map_iff yields_inlineRecord_iff
  rw [DecoratorLowering.staticField, Located.synthetic, inlineMember_field, init]
  simp only [Yields.bind_pure_iff, inlined]
  constructor
  · rintro ⟨_, ⟨_, ⟨list, inlined, rfl⟩, rfl⟩, rfl⟩
    exact ⟨list, inlined, rfl⟩
  · rintro ⟨list, inlined, rfl⟩
    exact ⟨_, ⟨_, ⟨list, inlined, rfl⟩, rfl⟩, rfl⟩

theorem inlined_recordsField_iff (decorators : List Expr) (made : List (Located Member)) :
    InlinedMembers load u (recordsField decorators) made ↔
      ∃ list, InlinedDecorators load u decorators list ∧ made = recordsField list := by
  cases decorators with
  | nil =>
    have empty : recordsField [] = [] := rfl
    simp only [InlinedMembers, InlinedDecorators, empty, List.forall₂_nil_left_iff, exists_eq_left]
  | cons first rest =>
    have nonempty {list : List Expr} (inlined : InlinedDecorators load u (first :: rest) list) : recordsField list =
        [DecoratorLowering.staticField "decorators" DecoratorLowering.recordsType (DecoratorLowering.records list) none] := by
      cases inlined
      rfl
    constructor
    · intro inlined
      cases inlined with
      | cons field rest =>
        cases rest
        obtain ⟨list, inlined, rfl⟩ := (yields_recordsField_iff determined _ _).mp field
        exact ⟨list, inlined, (nonempty inlined).symm⟩
    · rintro ⟨list, inlined, rfl⟩
      rw [nonempty inlined]
      exact .cons ((yields_recordsField_iff determined _ _).mpr ⟨list, inlined, rfl⟩) .nil

/-- Lowering a class and inlining it commute. -/
theorem yields_lowerClass_iff (resolve : EntityName → Option SymbolInfo) (c made : ClassDecl) :
    Yields (inlineClass load u (settings.lowerClass u resolve c)) made ↔
      ∃ plain, Yields (inlineClass load u c) plain ∧ made = settings.lowerClass u resolve plain := by
  simp only [yields_inlineClass_iff determined, lowerClass_eq]
  constructor
  · rintro ⟨left, made, ofLeft, ofMade, rfl⟩
    obtain ⟨front, back, ofFront, ofBack, rfl⟩ := forall₂_append_left_iff.mp ofMade
    obtain ⟨records, others, ofRecords, ofOthers, rfl⟩ := forall₂_append_left_iff.mp ofBack
    obtain ⟨members, ofMembers, rfl⟩ := (forall₂_map_iff yields_lowerPlaced_iff).mp ofFront
    obtain ⟨low, ofLow, rfl⟩ := (inlined_recordsField_iff determined _ _).mp ofRecords
    obtain ⟨decorators, ofDecorators, rfl, rfl⟩ := exists_decorators ofLeft ofLow
    obtain rfl := (inlined_iff_of_pure inlineMember_otherFields).mp ofOthers
    refine ⟨_, ⟨decorators, members, ofDecorators, ofMembers, rfl⟩, ?_⟩
    rw [otherFields_of_inlined ofDecorators ofMembers]
    rfl
  · rintro ⟨_, ⟨decorators, members, ofDecorators, ofMembers, rfl⟩, rfl⟩
    refine ⟨_, _, inlined_decoratorsKept ofDecorators, ?_, rfl⟩
    rw [otherFields_of_inlined ofDecorators ofMembers]
    refine List.rel_append ((forall₂_map_iff yields_lowerPlaced_iff).mpr ⟨members, ofMembers, rfl⟩) (List.rel_append ?_ ?_)
    · exact (inlined_recordsField_iff determined _ _).mpr ⟨_, inlined_loweredOfClass ofDecorators, rfl⟩
    · exact (inlined_iff_of_pure inlineMember_otherFields).mpr rfl

/-! ## Units -/

variable {symbols : SymbolResolver}

/-- Lowering an item and inlining it commute. -/
theorem yields_lowerItem_iff (item made : Located Item) :
    Yields (inlineItem load u (settings.lowerItem symbols u item)) made ↔
      ∃ plain, Yields (inlineItem load u item) plain ∧ made = settings.lowerItem symbols u plain := by
  have ofClass (span : Span) (wrap : ClassDecl → Item) (c : ClassDecl)
      (isClass : ∀ c, (wrap c).class? = some c) (withClass : ∀ c c', (wrap c).withClass c' = wrap c') :
      Yields (inlineItem load u (settings.lowerItem symbols u ⟨span, wrap c⟩)) made ↔
        ∃ plain, Yields (inlineItem load u ⟨span, wrap c⟩) plain ∧ made = settings.lowerItem symbols u plain := by
    have lowered (c : ClassDecl) : settings.lowerItem symbols u ⟨span, wrap c⟩ =
        ⟨span, wrap (settings.lowerClass u (symbols u) c)⟩ := by
      simp only [DecoratorLowering.lowerItem, isClass, withClass]
    have inlined (c : ClassDecl) : inlineItem load u ⟨span, wrap c⟩ = (do
        let made ← inlineClass load u c
        pure ⟨span, wrap made⟩) := by
      simp only [inlineItem, isClass, withClass]
    rw [lowered, inlined, inlined]
    simp only [Yields.bind_pure_iff, yields_lowerClass_iff determined]
    constructor
    · rintro ⟨_, ⟨plain, yields, rfl⟩, rfl⟩
      exact ⟨_, ⟨plain, yields, rfl⟩, (lowered plain).symm⟩
    · rintro ⟨_, ⟨plain, yields, rfl⟩, rfl⟩
      exact ⟨_, ⟨plain, yields, rfl⟩, lowered plain⟩
  have other (span : Span) (value : Item) (none : value.class? = none) :
      Yields (inlineItem load u (settings.lowerItem symbols u ⟨span, value⟩)) made ↔
        ∃ plain, Yields (inlineItem load u ⟨span, value⟩) plain ∧ made = settings.lowerItem symbols u plain := by
    have lowered : settings.lowerItem symbols u ⟨span, value⟩ = ⟨span, value⟩ := by
      simp only [DecoratorLowering.lowerItem, none]
    have inlined : inlineItem load u ⟨span, value⟩ = pure ⟨span, value⟩ := by
      simp only [inlineItem, none]
    simp only [lowered, inlined, Yields.pure_iff, exists_eq_left]
  obtain ⟨span, value⟩ := item
  cases value with
  | decl d =>
    cases d with
    | classDecl c => exact ofClass span (fun c => .decl (.classDecl c)) c (fun _ => rfl) (fun _ _ => rfl)
    | _ => exact other span _ rfl
  | exportDecl d =>
    cases d with
    | classDecl c => exact ofClass span (fun c => .exportDecl (.classDecl c)) c (fun _ => rfl) (fun _ _ => rfl)
    | _ => exact other span _ rfl
  | _ => exact other span _ rfl

end

variable {σ : Type} {host : ResourceHost σ} {u : SourceUnit} {settings : DecoratorLowering} {symbols : SymbolResolver}

theorem determined_inlineUnit (steady : host.Steady) (u : SourceUnit) : Determined (inlineUnit host u) :=
  Determined.composes.bind (Determined.composes.mapM (Determined.composes.inlineItem (determined_get steady u.name) u) _)
    fun _ => Determined.composes.pure _

variable [Nonempty σ] (steady : host.Steady)

include steady

theorem yields_inlineUnit_iff (u made : SourceUnit) :
    Yields (inlineUnit host u) made ↔ ∃ items, InlinedItems host u u.items items ∧ made = { u with items } := by
  rw [inlineUnit, Yields.bind_pure_iff]
  simp only [Yields.mapM_iff (Determined.composes.inlineItem (determined_get steady u.name) u)]

variable (ignores : symbols.IgnoresBodies) (findings : Findings)

include ignores

/-- Inlining a lowered unit gives the lowered form of the inlined unit, and nothing else. -/
theorem yields_lower_iff (u made : SourceUnit) :
    Yields (inlineUnit host (settings.lower symbols u findings).1) made ↔
      ∃ plain, Yields (inlineUnit host u) plain ∧ made = (settings.lower symbols plain findings).1 := by
  have lowered : SourceUnit.bare { u with items := u.items.map (settings.lowerItem symbols u) } = u.bare := by
    simp only [SourceUnit.bare, List.map_map, Function.comp_def, DecoratorLowering.bare_lowerItem]
  have inlining : inlineItem (host.get u.name) { u with items := u.items.map (settings.lowerItem symbols u) } =
      inlineItem (host.get u.name) u := inlineItem_congr (SourceUnit.imports_eq lowered)
  have ofLowered (items : Items) : InlinedItems host { u with items := u.items.map (settings.lowerItem symbols u) }
      (u.items.map (settings.lowerItem symbols u)) items ↔
      ∃ plain, InlinedItems host u u.items plain ∧ items = plain.map (settings.lowerItem symbols u) := by
    unfold InlinedItems
    dsimp only
    rw [inlining]
    exact forall₂_map_iff (yields_lowerItem_iff (determined_get steady u.name))
  have ofPlain {items : Items} (inlined : InlinedItems host u u.items items) :
      (settings.lower symbols { u with items } findings).1 =
        { u with items := items.map (settings.lowerItem symbols u) } := by
    rw [DecoratorLowering.lower_eq ignores, DecoratorLowering.lowerItem_congr ignores (bare_of_inlined inlined)]
  rw [DecoratorLowering.lower_eq ignores]
  simp only [yields_inlineUnit_iff steady, ofLowered]
  constructor
  · rintro ⟨_, ⟨items, inlined, rfl⟩, rfl⟩
    exact ⟨_, ⟨items, inlined, rfl⟩, (ofPlain inlined).symm⟩
  · rintro ⟨_, ⟨items, inlined, rfl⟩, rfl⟩
    exact ⟨_, ⟨items, inlined, rfl⟩, ofPlain inlined⟩

/-- What lowering finds does not depend on resources. -/
theorem findings_of_inlineUnit {u plain : SourceUnit} (yields : Yields (inlineUnit host u) plain) :
    (settings.lower symbols plain findings).2 = (settings.lower symbols u findings).2 := by
  obtain ⟨items, inlined, rfl⟩ := (yields_inlineUnit_iff steady u plain).mp yields
  rw [DecoratorLowering.lower_eq ignores, DecoratorLowering.lower_eq ignores,
    DecoratorLowering.addFindings_congr ignores (bare_of_inlined inlined)]
  exact foldl_eq_of_forall₂ (fun _ _ yields => addFindings_of_inlineItem yields) inlined findings

end Resource

/-- The outcome of transforms in a row and what they found. -/
def Transform.outcome {σ : Type} (symbols : SymbolResolver) (transforms : List (Transform σ)) (u : SourceUnit)
    (findings : Findings) (state : σ) : Except TransformError SourceUnit × Findings :=
  (((applyAll symbols transforms u).run.run findings).run state).1

namespace Transform

variable {σ : Type} {symbols : SymbolResolver} {transform : Transform σ} {rest : List (Transform σ)} {u : SourceUnit}
  {findings after : Findings} {state ended : σ}

theorem outcome_cons_ok {made : SourceUnit}
    (ran : ((transform.apply symbols u).run.run findings).run state = ((.ok made, after), ended)) :
    outcome symbols (transform :: rest) u findings state = outcome symbols rest made after ended := by
  rw [outcome, applyAll, ExceptT.run_bind, StateT.run_bind, StateT.run_bind, ran]
  rfl

theorem outcome_cons_error {error : TransformError}
    (ran : ((transform.apply symbols u).run.run findings).run state = ((.error error, after), ended)) :
    outcome symbols (transform :: rest) u findings state = (.error error, after) := by
  rw [outcome, applyAll, ExceptT.run_bind, StateT.run_bind, StateT.run_bind, ran]
  rfl

end Transform

namespace Resource

variable {σ : Type} {host : ResourceHost σ} {settings : DecoratorLowering} {symbols : SymbolResolver}

variable (host symbols) in
theorem inlining_run (u : SourceUnit) (findings : Findings) (state : σ) :
    (((inlining host).apply symbols u).run.run findings).run state =
      ((((inlineUnit host u).run.run state).1, findings), ((inlineUnit host u).run.run state).2) :=
  rfl

theorem lowering_run (u : SourceUnit) (findings : Findings) (state : σ) :
    (((settings.transform).apply symbols u).run.run findings).run state =
      ((.ok (settings.lower symbols u findings).1, (settings.lower symbols u findings).2), state) :=
  rfl

theorem outcome_inlining (u : SourceUnit) (findings : Findings) (state : σ) :
    Transform.outcome symbols [inlining host] u findings state =
      (((inlineUnit host u).run.run state).1, findings) := by
  have ran := inlining_run host symbols u findings state
  cases gives : ((inlineUnit host u).run.run state).1 with
  | ok plain =>
    rw [gives] at ran
    exact Transform.outcome_cons_ok ran
  | error error =>
    rw [gives] at ran
    exact Transform.outcome_cons_error ran

theorem outcome_lowering_inlining (u : SourceUnit) (findings : Findings) (state : σ) :
    Transform.outcome symbols [settings.transform, inlining host] u findings state =
      (((inlineUnit host (settings.lower symbols u findings).1).run.run state).1,
        (settings.lower symbols u findings).2) := by
  rw [Transform.outcome_cons_ok (lowering_run u findings state), outcome_inlining]

theorem outcome_inlining_lowering {u plain : SourceUnit} {state : σ}
    (gives : ((inlineUnit host u).run.run state).1 = .ok plain) (findings : Findings) :
    Transform.outcome symbols [inlining host, settings.transform] u findings state =
      (.ok (settings.lower symbols plain findings).1, (settings.lower symbols plain findings).2) := by
  have ran := inlining_run host symbols u findings state
  rw [gives] at ran
  rw [Transform.outcome_cons_ok ran, Transform.outcome_cons_ok (lowering_run plain findings _)]
  rfl

/-- Putting resources in place and lowering decorators commute: whatever the settings, for a resolver that does not look
into classes and a host with steady answers, resources can be put in place after lowering exactly when they can before,
and then both orders make the same unit with the same findings. The local resolver does not look into classes. -/
theorem inlining_lowering_commute :
    SymbolResolver.localOnly.IgnoresBodies ∧
      ∀ {σ : Type} {host : ResourceHost σ} {symbols : SymbolResolver} (settings : DecoratorLowering) (u : SourceUnit)
        (findings : Findings) (state : σ), host.Steady → symbols.IgnoresBodies →
        (Transform.outcome symbols [settings.transform, inlining host] u findings state).1.isOk =
            (Transform.outcome symbols [inlining host] u findings state).1.isOk ∧
          ((Transform.outcome symbols [inlining host] u findings state).1.isOk = true →
            Transform.outcome symbols [settings.transform, inlining host] u findings state =
              Transform.outcome symbols [inlining host, settings.transform] u findings state) := by
  refine ⟨SymbolResolver.localOnly_ignoresBodies, ?_⟩
  intro σ host symbols settings u findings state steady ignores
  have : Nonempty σ := ⟨state⟩
  rw [outcome_inlining, outcome_lowering_inlining]
  dsimp only
  have same (made : SourceUnit) : ((inlineUnit host (settings.lower symbols u findings).1).run.run state).1 = .ok made ↔
      ∃ plain, ((inlineUnit host u).run.run state).1 = .ok plain ∧ made = (settings.lower symbols plain findings).1 := by
    rw [← (determined_inlineUnit steady _).yields_iff, yields_lower_iff steady ignores]
    simp only [(determined_inlineUnit steady _).yields_iff state]
  cases gives : ((inlineUnit host u).run.run state).1 with
  | ok plain =>
    have yields := ((determined_inlineUnit steady u).yields_iff state).mpr gives
    rw [(same _).mpr ⟨plain, gives, rfl⟩, outcome_inlining_lowering gives,
      findings_of_inlineUnit steady ignores findings yields]
    exact ⟨rfl, fun _ => rfl⟩
  | error error =>
    refine ⟨?_, fun ok => by cases ok⟩
    cases made : ((inlineUnit host (settings.lower symbols u findings).1).run.run state).1 with
    | ok lowered =>
      obtain ⟨plain, other, -⟩ := (same lowered).mp made
      rw [gives] at other
      cases other
    | error _ => rfl

/-- A component with a template and style sheets, a constructor, and records of its own from elsewhere. -/
def panelUnit : SourceUnit where
  name := "/panel.ts"
  text := ""
  isDeclaration := false
  items := [
    ⟨⟨0, 10, some 0⟩, .imports { specifiers := [.named "Component" (some "C") false], source := coreModule }⟩,
    ⟨⟨10, 20, some 0⟩, .imports { specifiers := [.named "Store" none false], source := "./store" }⟩,
    ⟨⟨20, 90, some 0⟩, .exportDecl (.classDecl {
      name := "Panel"
      decorators := [
        .call ⟨21, 50, some 0⟩ (.ident ⟨21, 22, some 0⟩ "C") [.object ⟨23, 49, some 0⟩ [
          .named "styleUrls" (.array ⟨24, 30, some 0⟩ [.literal ⟨25, 29, some 0⟩ (.string "./panel.css")]),
          .named "templateUrl" (.literal ⟨31, 40, some 0⟩ (.string "./panel.html"))]],
        .ident ⟨51, 55, some 0⟩ "Sealed"]
      members := [
        ⟨⟨56, 70, some 0⟩, .constructor {
          params := [{ name := "store", type := some (.reference "Store") }], body := some [] }⟩,
        ⟨⟨70, 88, some 0⟩, .field {
          name := .ident "decorators"
          isStatic := true
          init := some (.array ⟨75, 87, some 0⟩ [.object ⟨76, 86, some 0⟩ [
            .named "type" (.ident ⟨77, 78, some 0⟩ "C"),
            .named "args" (.array ⟨79, 85, some 0⟩ [.object ⟨80, 84, some 0⟩ [
              .named "templateUrl" (.literal ⟨81, 83, some 0⟩ (.string "./panel.html"))]])]]) }⟩] })⟩]

def panelHost : ResourceHost Unit :=
  .ofList [⟨"./panel.html", "/panel.html", some (.text "<p></p>")⟩, ⟨"./panel.css", "/panel.css", some (.text "p {}")⟩]

/-- Both orders give the panel its resources, in its decorator or in the record made of it. -/
theorem panel_commutes :
    (Transform.outcome .localOnly [inlining panelHost] panelUnit {} ()).1.isOk = true ∧
      Transform.outcome .localOnly [DecoratorLowering.transform {}, inlining panelHost] panelUnit {} () =
        Transform.outcome .localOnly [inlining panelHost, DecoratorLowering.transform {}] panelUnit {} () := by
  have ok : (Transform.outcome .localOnly [inlining panelHost] panelUnit {} ()).1.isOk = true := by rfl
  obtain ⟨-, commute⟩ := inlining_lowering_commute
  exact ⟨ok, (commute {} panelUnit {} () (steady_ofList _) SymbolResolver.localOnly_ignoresBodies).2 ok⟩

end Resource

end CompanionBuild
