import CompanionBuild.Proofs.Lowering.Commutation
import CompanionBuild.Proofs.Lowering.Conservation

/-! # Lowering leaves nothing to lower

A unit is lowered when no framework decorator is left where lowering would take it away: on a class, on a parameter of a
constructor with a body, on a member with an identifier for its name. Every unit becomes such a unit, and exactly the
units that are lowered stay as they are. So a second run changes nothing, whatever names stand for by then.
-/

namespace CompanionBuild

/-- No framework decorator is left on a member, except where it stays: on a parameter of a constructor without a body, or
on a member whose name is no identifier. -/
structure Member.IsLowered (framework : Expr → Bool) (member : Member) : Prop where
  params : ∀ c, member.implementation? = some c → ∀ param ∈ c.params, param.decorators.filter framework = []
  decorators : ∀ name, member.name? = some (.ident name) → member.decorators.filter framework = []

structure ClassDecl.IsLowered (framework : Expr → Bool) (c : ClassDecl) : Prop where
  decorators : c.decorators.filter framework = []
  members : ∀ member ∈ c.members, member.value.IsLowered framework

def SourceUnit.IsLowered (framework : Expr → Bool) (u : SourceUnit) : Prop :=
  ∀ c ∈ u.classes, c.IsLowered framework

namespace DecoratorLowering

variable {settings : DecoratorLowering} {framework : Expr → Bool} {resolve : EntityName → Option SymbolInfo}

/-! ## Members -/

theorem filter_filter_not (decorators : List Expr) : (decorators.filter (!framework ·)).filter framework = [] := by
  rw [List.filter_filter]
  refine List.filter_eq_nil_iff.mpr fun d _ => ?_
  cases framework d <;> decide

theorem name?_withDecorators (member : Member) (decorators : List Expr) :
    (member.withDecorators decorators).name? = member.name? := by
  cases member <;> rfl

theorem decorators_withDecorators {member : Member} {name : PropertyName} (found : member.name? = some name)
    (decorators : List Expr) : (member.withDecorators decorators).decorators = decorators := by
  cases member with
  | constructor c => cases found
  | _ => rfl

theorem implementation?_of_name {member : Member} {name : PropertyName} (found : member.name? = some name) :
    member.implementation? = none := by
  cases member with
  | constructor c => cases found
  | _ => rfl

/-- What is made of a member is lowered. -/
theorem LowersMember.isLowered {before after : Member} (lowers : LowersMember framework before after) :
    after.IsLowered framework := by
  cases lowers with
  | signature bodiless =>
    refine ⟨fun other found => ?_, fun name found => by cases found⟩
    rw [Member.implementation?, bodiless] at found
    cases found
  | implementation implemented =>
    refine ⟨fun other found => ?_, fun name found => by cases found⟩
    rw [Member.implementation?, if_pos implemented] at found
    cases found
    intro param mem
    obtain ⟨original, -, rfl⟩ := List.mem_map.mp mem
    exact filter_filter_not original.decorators
  | named identifier =>
    refine ⟨fun c found => ?_, fun other _ => ?_⟩
    · rw [implementation?_of_name ((name?_withDecorators before _).trans identifier)] at found
      cases found
    · rw [decorators_withDecorators identifier]
      exact filter_filter_not before.decorators
  | unnamed found other =>
    refine ⟨fun c isConstructor => ?_, fun identifier isIdent => ?_⟩
    · rw [implementation?_of_name found] at isConstructor
      cases isConstructor
    · rw [found] at isIdent
      cases isIdent
      cases other

/-- A member that is lowered stays as it is. -/
theorem LowersMember.eq_of_isLowered {before after : Member} (lowers : LowersMember framework before after)
    (lowered : before.IsLowered framework) : after = before := by
  cases lowers with
  | signature bodiless => rfl
  | @implementation c implemented =>
    have same : ∀ param ∈ c.params,
        { param with decorators := param.decorators.filter (!framework ·) } = id param := by
      intro param mem
      rw [filter_not_of_plain (lowered.params c (if_pos implemented) param mem), id]
    rw [List.map_congr_left same, List.map_id]
  | named identifier => exact withDecorators_filter_not (lowered.decorators _ identifier)
  | unnamed found other => rfl

/-! ## Classes -/

/-- A static field is lowered. -/
theorem IsStatic.isLowered {name : String} {value : Expr} {member : Located Member}
    (isStatic : IsStatic name value member) : member.value.IsLowered framework := by
  obtain ⟨type, comment, isField⟩ := isStatic
  rw [isField]
  refine ⟨fun c found => ?_, fun name found => rfl⟩
  cases found

/-- What is made of a class is lowered, unless the decorators of classes stay. -/
theorem LowersClass.isLowered {c made : ClassDecl} (lowers : settings.LowersClass framework resolve c made)
    (all : settings.keepClassDecorators = false) : made.IsLowered framework := by
  obtain ⟨originals, ofClass, ofParams, ofMembers, isMade, kept, saysClass, saysParams, saysMembers⟩ := lowers.members
  refine ⟨?_, fun member mem => ?_⟩
  · rw [lowers.decorators, all, if_neg Bool.false_ne_true]
    exact filter_filter_not c.decorators
  rw [isMade] at mem
  simp only [List.mem_append, Option.mem_toList] at mem
  obtain ((isOriginal | rfl) | rfl) | rfl := mem
  · obtain ⟨before, -, lowersMember⟩ := exists_of_mem_right kept isOriginal
    exact lowersMember.2.isLowered
  · obtain ⟨-, -, records, isStatic, -⟩ := saysClass
    exact isStatic.isLowered
  · obtain ⟨last, entries, -, -, isStatic, -⟩ := saysParams
    exact isStatic.isLowered
  · obtain ⟨-, entries, properties, isStatic, -⟩ := saysMembers
    exact isStatic.isLowered

theorem mem_of_implementation? {c : ClassDecl} {last : Constructor} (found : c.implementation? = some last) :
    ∃ member ∈ c.members, member.value.implementation? = some last :=
  List.mem_filterMap.mp (List.mem_of_getLast? found)

/-- A class that is lowered has no members to record. -/
theorem decorated_of_isLowered {c : ClassDecl} (lowered : c.IsLowered framework) : c.decorated framework = [] := by
  refine List.filter_eq_nil_iff.mpr fun entry mem => ?_
  obtain ⟨member, isMember, isEntry⟩ := List.mem_filterMap.mp mem
  obtain ⟨name, isName, rfl⟩ := Option.map_eq_some_iff.mp isEntry
  obtain ⟨key, isKey, isIdent⟩ := Option.bind_eq_some_iff.mp isName
  have identifier : key = .ident name := by
    cases key <;> cases isIdent
    rfl
  simp [(lowered.members member isMember).decorators name (isKey.trans (congrArg some identifier))]

/-- A class that is lowered stays as it is. -/
theorem LowersClass.eq_of_isLowered {c made : ClassDecl} (lowers : settings.LowersClass framework resolve c made)
    (lowered : c.IsLowered framework) : made = c := by
  obtain ⟨originals, ofClass, ofParams, ofMembers, isMade, kept, saysClass, saysParams, saysMembers⟩ := lowers.members
  have decorators : made.decorators = c.decorators := by
    rw [lowers.decorators, filter_not_of_plain lowered.decorators, ite_self]
  have same : originals = c.members := by
    refine eq_of_forall₂ kept fun before isMember after lowersMember => ?_
    cases after
    cases before
    rw [Located.mk.injEq]
    exact ⟨lowersMember.1, lowersMember.2.eq_of_isLowered (lowered.members _ isMember)⟩
  have noClass : ofClass = none := by
    cases ofClass with
    | none => rfl
    | some field => exact absurd lowered.decorators saysClass.2.1
  have noParams : ofParams = none := by
    cases ofParams with
    | none => rfl
    | some field =>
      obtain ⟨last, entries, found, wanted, -⟩ := saysParams
      obtain ⟨member, isMember, isLast⟩ := mem_of_implementation? found
      obtain decorated | ⟨param, isParam, decorated⟩ := wanted
      · exact absurd lowered.decorators decorated
      · exact absurd ((lowered.members member isMember).params last isLast param isParam) decorated
  have noMembers : ofMembers = none := by
    cases ofMembers with
    | none => rfl
    | some field => exact absurd (decorated_of_isLowered lowered) saysMembers.1
  have members : made.members = c.members := by
    simp [isMade, same, noClass, noParams, noMembers]
  cases made
  cases c
  rw [ClassDecl.mk.injEq]
  exact ⟨lowers.name, lowers.base, members, decorators, lowers.isDeclare⟩

/-! ## Units -/

variable {symbols : SymbolResolver} {u : SourceUnit}

theorem LowersItem.import? {item made : Located Item} (lowers : settings.LowersItem symbols u item made) :
    made.value.import? = item.value.import? := by
  cases lowers with
  | other noClass => rfl
  | ofClass isClass same lowersClass => exact Item.import?_withClass ..

/-- The class of what is made of an item is lowered. -/
theorem LowersItem.isLowered {item made : Located Item} (lowers : settings.LowersItem symbols u item made)
    (all : settings.keepClassDecorators = false) {c : ClassDecl} (found : made.value.class? = some c) :
    c.IsLowered (settings.isFramework u) := by
  cases lowers with
  | other noClass =>
    rw [noClass] at found
    cases found
  | ofClass isClass same lowersClass =>
    dsimp only at found
    rw [Item.class?_withClass isClass] at found
    cases found
    exact lowersClass.isLowered all

theorem LowersItem.eq_of_isLowered {item made : Located Item} (lowers : settings.LowersItem symbols u item made)
    (lowered : ∀ c, item.value.class? = some c → c.IsLowered (settings.isFramework u)) : made = item := by
  cases lowers with
  | other noClass => rfl
  | ofClass isClass same lowersClass =>
    rw [lowersClass.eq_of_isLowered (lowered _ isClass), Item.withClass_self isClass]

/-- Lowering keeps the imports, so the same decorators are the framework's afterwards. -/
theorem isFramework_lower (findings : Findings) :
    settings.isFramework (settings.lower symbols u findings).1 = settings.isFramework u := by
  obtain ⟨items, made, lowers⟩ := settings.lower_items u symbols findings
  rw [made]
  exact isFramework_congr (filterMap_eq_of_forall₂ (fun _ _ lowersItem => lowersItem.import?) lowers)

theorem isLowered_lower (all : settings.keepClassDecorators = false) (findings : Findings) :
    (settings.lower symbols u findings).1.IsLowered (settings.isFramework u) := by
  obtain ⟨items, made, lowers⟩ := settings.lower_items u symbols findings
  rw [made]
  intro c isClass
  obtain ⟨item, isItem, found⟩ := List.mem_filterMap.mp isClass
  obtain ⟨before, -, lowersItem⟩ := exists_of_mem_right lowers isItem
  exact lowersItem.isLowered all found

theorem lower_eq_of_isLowered (lowered : u.IsLowered (settings.isFramework u)) (findings : Findings) :
    (settings.lower symbols u findings).1 = u := by
  obtain ⟨items, made, lowers⟩ := settings.lower_items u symbols findings
  have same : items = u.items := eq_of_forall₂ lowers fun item isItem after lowersItem =>
    lowersItem.eq_of_isLowered fun c isClass => lowered c (List.mem_filterMap.mpr ⟨item, isItem, isClass⟩)
  rw [made, same]
  cases u
  rfl

theorem outcome_lowering {σ : Type} (findings : Findings) (state : σ) :
    Transform.outcome symbols [settings.transform] u findings state =
      (.ok (settings.lower symbols u findings).1, (settings.lower symbols u findings).2) :=
  rfl

/-- Lowering decorators is idempotent, unless the decorators of classes stay: it always returns a unit, and with what it
returns it returns the same, however names are resolved and whatever was found before. What it leaves alone are the
units in which there is nothing to lower. -/
theorem lowering_idempotent {σ : Type} (settings : DecoratorLowering) (all : settings.keepClassDecorators = false)
    (symbols : SymbolResolver) (u : SourceUnit) (findings : Findings) (state : σ) :
    ∃ made, (Transform.outcome symbols [settings.transform] u findings state).1 = .ok made ∧
      (∀ (others : SymbolResolver) (found : Findings) (later : σ),
        (Transform.outcome others [settings.transform] made found later).1 = .ok made) ∧
      (made = u ↔ u.IsLowered (settings.isFramework u)) := by
  have lowered : (settings.lower symbols u findings).1.IsLowered (settings.isFramework u) := isLowered_lower all findings
  refine ⟨(settings.lower symbols u findings).1, rfl, fun others found later => ?_, fun same => ?_, fun isLowered => ?_⟩
  · rw [outcome_lowering, lower_eq_of_isLowered]
    rwa [isFramework_lower]
  · rwa [same] at lowered
  · exact lower_eq_of_isLowered isLowered findings

/-- A class with an overloaded constructor, an input, and an input whose name is computed and which keeps its decorator. -/
def gaugeUnit : SourceUnit where
  name := "/gauge.ts"
  text := ""
  isDeclaration := false
  items := [
    .synthetic (.imports { specifiers := [.named "Component" none false, .named "Input" none false], source := coreModule }),
    .synthetic (.decl (.classDecl {
      name := "Gauge"
      decorators := [.call .synthetic (.name "Component") [], .name "Sealed"]
      members := [
        .synthetic (.constructor { params := [{ name := "scale", decorators := [.name "Input"] }], body := none }),
        .synthetic (.constructor {
          params := [{ name := "scale", type := some (.keyword .number), decorators := [.name "Input", .name "Checked"] }]
          body := some [] }),
        .synthetic (.field { name := .ident "value", decorators := [.call .synthetic (.name "Input") []] }),
        .synthetic (.field { name := .computed (.name "key"), decorators := [.call .synthetic (.name "Input") []] })] }))]

/-- The gauge is changed by a first run and by no other. -/
theorem gauge_lowering_idempotent :
    ({} : DecoratorLowering).keepClassDecorators = false ∧
      ∃ made, (Transform.outcome .localOnly [transform {}] gaugeUnit {} ()).1 = .ok made ∧ made ≠ gaugeUnit ∧
        ∀ (others : SymbolResolver) (found : Findings) (later : Unit),
          (Transform.outcome others [transform {}] made found later).1 = .ok made := by
  obtain ⟨made, ran, again, unchanged⟩ := lowering_idempotent {} rfl .localOnly gaugeUnit {} ()
  refine ⟨rfl, made, ran, fun same => ?_, again⟩
  have lowered := unchanged.mp same _ (List.mem_singleton.mpr rfl)
  exact absurd lowered.decorators (by decide)

end DecoratorLowering

end CompanionBuild
