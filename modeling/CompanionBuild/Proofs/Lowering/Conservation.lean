import CompanionBuild.Proofs.Lowering.Decorator
import Mathlib.Data.List.Forall2
import Mathlib.Data.List.Induction

/-! # Nothing is lost when decorators are lowered

A class keeps its name, its base and its members. Each framework decorator of the class, of a constructor parameter or of
a named member goes over into a record in one of three static fields; every other decorator stays where it is. Of members
that share a name, the field of the members has the decorators of the last.
-/

namespace CompanionBuild

/-- The constructor, if it has a body. -/
def Member.implementation? : Member → Option Constructor
  | .constructor c => if c.body.isSome then some c else none
  | _ => none

/-- The last constructor with a body. -/
def ClassDecl.implementation? (c : ClassDecl) : Option Constructor :=
  (c.members.filterMap (·.value.implementation?)).getLast?

/-- The members with an identifier for a name and some of the decorators in question, with these, in their order. -/
def ClassDecl.decorated (framework : Expr → Bool) (c : ClassDecl) : List (String × List Expr) :=
  (c.members.filterMap fun member => (member.value.name?.bind PropertyName.ident?).map fun name =>
    (name, member.value.decorators.filter framework)).filter fun entry => !entry.2.isEmpty

namespace DecoratorLowering

/-! ## What the lowering has to say -/

/-- The record of a decorator says what it is and, if it is called with any, its arguments. One that is neither a name nor
a call has an empty record. -/
inductive IsRecord : Expr → Expr → Prop
  | name (span : Span) (name : String) :
    IsRecord (.ident span name) (.object .synthetic [.named "type" (.ident span name)])
  | call (span : Span) (callee : Expr) : IsRecord (.call span callee []) (.object .synthetic [.named "type" callee])
  | callWith (span : Span) (callee first : Expr) (rest : List Expr) :
    IsRecord (.call span callee (first :: rest))
      (.object .synthetic [.named "type" callee, .named "args" (.array .synthetic (first :: rest))])
  | other {decorator : Expr} (noName : decorator.kind ≠ .ident) (noCall : decorator.kind ≠ .call) :
    IsRecord decorator (.object .synthetic [])

/-- A list of records, one for each of some decorators in their order. -/
def AreRecords (decorators : List Expr) (list : Expr) : Prop :=
  ∃ records, list = .array .synthetic records ∧ List.Forall₂ IsRecord decorators records

/-- What becomes of a member when framework decorators are taken away. Those of a member whose name is no identifier stay,
and so do those of a constructor without a body. -/
inductive LowersMember (framework : Expr → Bool) : Member → Member → Prop
  | signature {c : Constructor} (bodiless : c.body = none) : LowersMember framework (.constructor c) (.constructor c)
  | implementation {c : Constructor} (implemented : c.body.isSome = true) :
    LowersMember framework (.constructor c) (.constructor { c with
      params := c.params.map fun param => { param with decorators := param.decorators.filter (!framework ·) } })
  | named {member : Member} {name : String} (identifier : member.name? = some (.ident name)) :
    LowersMember framework member (member.withDecorators (member.decorators.filter (!framework ·)))
  | unnamed {member : Member} {name : PropertyName} (found : member.name? = some name) (other : name.ident? = none) :
    LowersMember framework member member

/-- A static field with a value. -/
def IsStatic (name : String) (value : Expr) (member : Located Member) : Prop :=
  ∃ type comment, member.value =
    .field { name := .ident name, type := some type, init := some value, isStatic := true, comment }

/-- The entry of a parameter: its type as a value and the records of its framework decorators, or `null` if it has neither
a type nor such decorators. -/
inductive IsParamEntry (framework : Expr → Bool) (resolve : EntityName → Option SymbolInfo) (param : Param) : Expr → Prop
  | nothing (untyped : param.type = none) (plain : param.decorators.filter framework = []) :
    IsParamEntry framework resolve param (.literal .synthetic .null)
  | typed (typed : param.type.isSome = true) (plain : param.decorators.filter framework = []) :
    IsParamEntry framework resolve param (.object .synthetic [.named "type"
      (((param.type.bind (typeValue? resolve)).map (·.expr)).getD (.name "undefined"))])
  | decorated {records : Expr} (decorated : param.decorators.filter framework ≠ [])
    (recorded : AreRecords (param.decorators.filter framework) records) :
    IsParamEntry framework resolve param (.object .synthetic [.named "type"
      (((param.type.bind (typeValue? resolve)).map (·.expr)).getD (.name "undefined")), .named "decorators" records])

/-- The field of the class decorators, if there is one. -/
def SaysDecorators (settings : DecoratorLowering) (framework : Expr → Bool) (c : ClassDecl) :
    Option (Located Member) → Prop
  | none => settings.keepClassDecorators = true ∨ c.decorators.filter framework = []
  | some field => settings.keepClassDecorators = false ∧ c.decorators.filter framework ≠ [] ∧
    ∃ records, IsStatic "decorators" records field ∧ AreRecords (c.decorators.filter framework) records

/-- The field of the constructor, if there is one: there is a constructor with a body, and the class or a parameter of the
last such constructor has a framework decorator. -/
def SaysParams (framework : Expr → Bool) (resolve : EntityName → Option SymbolInfo) (c : ClassDecl) :
    Option (Located Member) → Prop
  | none => ∀ last, c.implementation? = some last →
    c.decorators.filter framework = [] ∧ ∀ param ∈ last.params, param.decorators.filter framework = []
  | some field => ∃ last entries, c.implementation? = some last ∧
    (c.decorators.filter framework ≠ [] ∨ ∃ param ∈ last.params, param.decorators.filter framework ≠ []) ∧
    IsStatic "ctorParameters" (.arrow .synthetic [] (.array .synthetic entries)) field ∧
    List.Forall₂ (IsParamEntry framework resolve) last.params entries

/-- The field of the members, if there is one: an entry for each name in the order of its first use, with the records of the
last member of that name. -/
def SaysMembers (framework : Expr → Bool) (c : ClassDecl) : Option (Located Member) → Prop
  | none => c.decorated framework = []
  | some field => c.decorated framework ≠ [] ∧ ∃ entries properties,
    IsStatic "propDecorators" (.object .synthetic properties) field ∧
    entries.map Prod.fst = ((c.decorated framework).map Prod.fst).eraseDups ∧
    (∀ entry ∈ entries, ((c.decorated framework).filter (·.1 = entry.1)).getLast? = some entry) ∧
    List.Forall₂ (fun entry property => ∃ records, property = Property.named entry.1 records ∧ AreRecords entry.2 records)
      entries properties

/-- What becomes of a class. -/
structure LowersClass (settings : DecoratorLowering) (framework : Expr → Bool)
    (resolve : EntityName → Option SymbolInfo) (c made : ClassDecl) : Prop where
  name : made.name = c.name
  base : made.base = c.base
  isDeclare : made.isDeclare = c.isDeclare
  decorators : made.decorators = if settings.keepClassDecorators then c.decorators else c.decorators.filter (!framework ·)
  members : ∃ (originals : List (Located Member)) (ofClass ofParams ofMembers : Option (Located Member)),
    made.members = originals ++ ofClass.toList ++ ofParams.toList ++ ofMembers.toList ∧
    List.Forall₂ (fun before after => after.span = before.span ∧ LowersMember framework before.value after.value)
      c.members originals ∧
    settings.SaysDecorators framework c ofClass ∧ SaysParams framework resolve c ofParams ∧
    SaysMembers framework c ofMembers

/-- What becomes of an item. A class is lowered with what names stand for in a unit that differs from the given one in the
bodies of classes alone. -/
inductive LowersItem (settings : DecoratorLowering) (symbols : SymbolResolver) (u : SourceUnit) :
    Located Item → Located Item → Prop
  | other {item : Located Item} (noClass : item.value.class? = none) : LowersItem settings symbols u item item
  | ofClass {item : Located Item} {c made : ClassDecl} {seen : SourceUnit} (isClass : item.value.class? = some c)
    (same : seen.bare = u.bare) (lowers : settings.LowersClass (settings.isFramework u) (symbols seen) c made) :
    LowersItem settings symbols u item { item with value := item.value.withClass made }

/-! ## Records -/

theorem forall₂_map_self {α β : Type} {R : α → β → Prop} {f : α → β} (related : ∀ a, R a (f a)) (list : List α) :
    List.Forall₂ R list (list.map f) :=
  List.forall₂_map_right_iff.mpr (List.forall₂_same.mpr fun a _ => related a)

theorem isRecord_record (decorator : Expr) : IsRecord decorator (record decorator) := by
  cases decorator with
  | ident span name => exact .name span name
  | call span callee args =>
    cases args with
    | nil => exact .call span callee
    | cons first rest => exact .callWith span callee first rest
  | literal span value => cases value <;> exact .other nofun nofun
  | _ => exact .other nofun nofun

theorem areRecords_records (decorators : List Expr) : AreRecords decorators (records decorators) :=
  ⟨_, rfl, forall₂_map_self isRecord_record decorators⟩

/-! ## Members -/

/-- Decorators none of which is the framework's all stay. -/
theorem filter_not_of_plain {framework : Expr → Bool} {decorators : List Expr}
    (plain : decorators.filter framework = []) : decorators.filter (!framework ·) = decorators :=
  List.filter_eq_self.mpr fun decorator found => by simpa using List.filter_eq_nil_iff.mp plain decorator found

theorem withDecorators_filter_not {framework : Expr → Bool} {member : Member}
    (plain : member.decorators.filter framework = []) :
    member.withDecorators (member.decorators.filter (!framework ·)) = member := by
  rw [filter_not_of_plain plain]
  cases member <;> rfl

variable (settings : DecoratorLowering) (u : SourceUnit)

/-- A member with a name is no constructor. -/
theorem lowerMember_of_name {member : Member} {name : PropertyName} (found : member.name? = some name) :
    settings.lowerMember u member =
      if (settings.lowered u member.decorators).isEmpty || name.ident?.isNone then member
      else member.withDecorators (settings.kept u member.decorators) := by
  cases member with
  | constructor c => cases found
  | _ =>
    cases found
    rfl

theorem lowersMember_of_name {member : Member} {name : PropertyName} (found : member.name? = some name) :
    LowersMember (settings.isFramework u) member (settings.lowerMember u member) := by
  rw [lowerMember_of_name settings u found]
  cases identifier : name.ident? with
  | none =>
    rw [Option.isNone_none, Bool.or_true, if_pos rfl]
    exact .unnamed found identifier
  | some text =>
    have isIdent : name = .ident text := by
      cases name <;> cases identifier
      rfl
    rw [Option.isNone_some, Bool.or_false]
    split
    case isTrue plain =>
      have stays : LowersMember (settings.isFramework u) member _ := .named (found.trans (congrArg some isIdent))
      rwa [withDecorators_filter_not (List.isEmpty_iff.mp plain)] at stays
    case isFalse => exact .named (found.trans (congrArg some isIdent))

theorem lowersMember_lowerMember (member : Member) :
    LowersMember (settings.isFramework u) member (settings.lowerMember u member) := by
  cases member with
  | constructor c =>
    rw [lowerMember]
    split
    case isTrue bodiless => exact .signature (Option.isNone_iff_eq_none.mp bodiless)
    case isFalse body => exact .implementation (by simpa [Option.isSome_iff_ne_none] using body)
  | method m => exact settings.lowersMember_of_name u rfl
  | field f => exact settings.lowersMember_of_name u rfl
  | accessor a => exact settings.lowersMember_of_name u rfl

/-! ## The entries of the members -/

theorem filterMap_memberDecorators? (c : ClassDecl) :
    (c.members.filterMap fun member => settings.memberDecorators? u member.value) =
      c.decorated (settings.isFramework u) := by
  rw [ClassDecl.decorated, List.filter_filterMap]
  congr 1
  funext member
  rw [memberDecorators?, memberName?, ← lowered]
  cases member.value.name?.bind PropertyName.ident? <;>
    cases settings.lowered u member.value.decorators <;> simp [Option.filter]

theorem map_fst_addEntry (entries : List (String × List Expr)) (entry : String × List Expr) :
    (addEntry entries entry).map Prod.fst =
      if entry.1 ∈ entries.map Prod.fst then entries.map Prod.fst else entries.map Prod.fst ++ [entry.1] := by
  have renamed (old : String × List Expr) : (if old.1 = entry.1 then entry else old).1 = old.1 := by
    split
    case isTrue same => exact same.symm
    case isFalse => rfl
  have known : (entries.any fun old => decide (old.1 = entry.1)) = decide (entry.1 ∈ entries.map Prod.fst) := by
    rw [Bool.eq_iff_iff]
    simp
  rw [addEntry, known]
  split
  case isTrue found => simp_all [Function.comp_def]
  case isFalse missing => simp_all

theorem mem_addEntry {entries : List (String × List Expr)} {entry found : String × List Expr}
    (mem : found ∈ addEntry entries entry) : found = entry ∨ found ∈ entries ∧ found.1 ≠ entry.1 := by
  rw [addEntry] at mem
  split at mem
  case isTrue =>
    obtain ⟨old, isOld, rfl⟩ := List.mem_map.mp mem
    split
    case isTrue => exact .inl rfl
    case isFalse other => exact .inr ⟨isOld, other⟩
  case isFalse missing =>
    obtain isOld | isNew := List.mem_append.mp mem
    · refine .inr ⟨isOld, fun same => missing ?_⟩
      exact List.any_eq_true.mpr ⟨found, isOld, decide_eq_true same⟩
    · exact .inl (List.mem_singleton.mp isNew)

theorem map_fst_foldl_addEntry (found : List (String × List Expr)) :
    (found.foldl addEntry []).map Prod.fst = (found.map Prod.fst).eraseDups := by
  induction found using List.reverseRecOn with
  | nil => rfl
  | append_singleton found entry ih =>
    rw [List.foldl_append, List.foldl_cons, List.foldl_nil, map_fst_addEntry, ih, List.map_append, List.eraseDups_append]
    simp only [List.mem_eraseDups]
    split <;> simp_all [List.removeAll, List.eraseDups_cons]

/-- Of several entries with one name, the last is left. -/
theorem getLast?_of_mem_foldl_addEntry {found : List (String × List Expr)} {entry : String × List Expr}
    (mem : entry ∈ found.foldl addEntry []) : (found.filter (·.1 = entry.1)).getLast? = some entry := by
  induction found using List.reverseRecOn with
  | nil => cases mem
  | append_singleton found last ih =>
    rw [List.foldl_append] at mem
    obtain rfl | ⟨isOld, other⟩ := mem_addEntry mem
    · simp
    · simpa [List.filter_append, List.filter_cons, Ne.symm other] using ih isOld

/-! ## The static fields -/

theorem constructorParams?_eq (c : ClassDecl) : settings.constructorParams? u c.members =
    c.implementation?.map fun last => last.params.map fun param => ⟨settings.lowered u param.decorators, param.type⟩ := by
  rw [ClassDecl.implementation?, List.getLast?_filterMap, List.map_findSome?, constructorParams?]
  congr 1
  funext member
  rw [Function.comp_apply, Member.implementation?.eq_def]
  cases member.value with
  | constructor c => cases found : c.body <;> simp [found]
  | _ => rfl

theorem isParamEntry_paramEntry (resolve : EntityName → Option SymbolInfo) (param : Param) :
    IsParamEntry (settings.isFramework u) resolve param
      (paramEntry resolve ⟨settings.lowered u param.decorators, param.type⟩) := by
  have value : (paramValue? resolve ⟨settings.lowered u param.decorators, param.type⟩) =
    param.type.bind (typeValue? resolve) := rfl
  rw [paramEntry, value]
  by_cases plain : param.decorators.filter (settings.isFramework u) = []
  · cases type : param.type with
    | none => simpa [lowered, plain] using IsParamEntry.nothing type plain
    | some t =>
      have typed : IsParamEntry _ resolve param _ := .typed (Option.isSome_of_eq_some type) plain
      rw [type] at typed
      cases found : (some t).bind (typeValue? resolve) <;> simpa [lowered, plain, found] using typed
  · have decorated : IsParamEntry _ resolve param _ := .decorated plain (areRecords_records _)
    cases found : param.type.bind (typeValue? resolve) <;> simpa [lowered, plain, found] using decorated

/-- The constructor's field is there exactly when it is wanted. -/
theorem saysParams (resolve : EntityName → Option SymbolInfo) (c : ClassDecl) :
    SaysParams (settings.isFramework u) resolve c
      ((settings.recordedParams? u c).map (settings.constructorField resolve)) := by
  cases found : c.implementation? with
  | none =>
    have absent : settings.recordedParams? u c = none := by
      rw [recordedParams?, constructorParams?_eq, found, Option.map_none, Option.filter_none]
    rw [absent]
    intro last isLast
    cases found.symm.trans isLast
  | some last =>
    have recorded : settings.recordedParams? u c =
        if c.decorators.filter (settings.isFramework u) ≠ [] ∨
          ∃ param ∈ last.params, param.decorators.filter (settings.isFramework u) ≠ []
        then some (last.params.map fun param => ⟨settings.lowered u param.decorators, param.type⟩) else none := by
      rw [recordedParams?, constructorParams?_eq, found, Option.map_some, Option.filter_some]
      simp [lowered]
    rw [recorded]
    split
    case isTrue wanted =>
      refine ⟨last, _, found, wanted, ⟨_, _, rfl⟩, ?_⟩
      rw [List.map_map]
      exact forall₂_map_self (settings.isParamEntry_paramEntry u resolve) last.params
    case isFalse unwanted =>
      intro other isLast
      cases found.symm.trans isLast
      simpa using unwanted

/-- The field of the class decorators, if there are any to be recorded. -/
def decoratorsField? (c : ClassDecl) : Option (Located Member) :=
  if (settings.loweredOfClass u c).isEmpty then none
  else some (staticField "decorators" recordsType (records (settings.loweredOfClass u c)) none)

/-- The field of the members, if there are any to be recorded. -/
def membersField? (c : ClassDecl) : Option (Located Member) :=
  if (settings.memberEntries u c.members).isEmpty then none
  else some (membersField (settings.memberEntries u c.members))

theorem saysDecorators (c : ClassDecl) :
    settings.SaysDecorators (settings.isFramework u) c (settings.decoratorsField? u c) := by
  rw [decoratorsField?, loweredOfClass]
  cases kept : settings.keepClassDecorators with
  | true => exact .inl kept
  | false =>
    rw [if_neg Bool.false_ne_true]
    split
    case isTrue plain => exact .inr (List.isEmpty_iff.mp plain)
    case isFalse decorated =>
      exact ⟨kept, fun plain => decorated (List.isEmpty_iff.mpr plain), _, ⟨_, _, rfl⟩, areRecords_records _⟩

theorem saysMembers (c : ClassDecl) : SaysMembers (settings.isFramework u) c (settings.membersField? u c) := by
  have names : (settings.memberEntries u c.members).map Prod.fst =
      ((c.decorated (settings.isFramework u)).map Prod.fst).eraseDups := by
    rw [memberEntries, filterMap_memberDecorators?, map_fst_foldl_addEntry]
  rw [membersField?]
  split
  case isTrue empty =>
    rw [List.isEmpty_iff.mp empty] at names
    refine List.eq_nil_iff_forall_not_mem.mpr fun entry mem => ?_
    have named := List.mem_eraseDups.mpr (List.mem_map_of_mem (f := Prod.fst) mem)
    exact List.not_mem_nil (names ▸ named)
  case isFalse entries =>
    refine ⟨fun plain => ?_, _, _, ⟨_, _, rfl⟩, names, fun entry mem => ?_, ?_⟩
    · rw [plain] at names
      exact entries (List.isEmpty_iff.mpr (List.map_eq_nil_iff.mp names))
    · rw [memberEntries, filterMap_memberDecorators?] at mem
      exact getLast?_of_mem_foldl_addEntry mem
    · exact forall₂_map_self (fun entry => ⟨_, rfl, areRecords_records entry.2⟩) _

/-! ## Classes and units -/

theorem staticFields_eq (resolve : EntityName → Option SymbolInfo) (c : ClassDecl) :
    settings.staticFields u resolve c = (settings.decoratorsField? u c).toList ++
      ((settings.recordedParams? u c).map (settings.constructorField resolve)).toList ++
      (settings.membersField? u c).toList := by
  simp only [staticFields, decoratorsField?, membersField?, apply_ite Option.toList, Option.toList_none,
    Option.toList_some]
  cases settings.recordedParams? u c <;> rfl

theorem lowersClass_lowerClass (resolve : EntityName → Option SymbolInfo) (c : ClassDecl) :
    settings.LowersClass (settings.isFramework u) resolve c (settings.lowerClass u resolve c) where
  name := rfl
  base := rfl
  isDeclare := rfl
  decorators := rfl
  members := by
    refine ⟨c.members.map fun member => { member with value := settings.lowerMember u member.value }, _, _, _, ?_, ?_,
      settings.saysDecorators u c, settings.saysParams u resolve c, settings.saysMembers u c⟩
    · rw [lowerClass, staticFields_eq, ← List.append_assoc, ← List.append_assoc]
    · exact forall₂_map_self (fun member => ⟨rfl, settings.lowersMember_lowerMember u member.value⟩) c.members

variable {settings u} {symbols : SymbolResolver}

theorem lowersItem_lowerItem {seen : SourceUnit} (same : seen.bare = u.bare) (item : Located Item) :
    settings.LowersItem symbols u item (settings.lowerItem symbols seen item) := by
  rw [lowerItem]
  split
  case h_1 c isClass =>
    refine .ofClass isClass same ?_
    rw [← isFramework_congr (SourceUnit.imports_eq same)]
    exact settings.lowersClass_lowerClass seen (symbols seen) c
  case h_2 noClass => exact .other noClass

theorem lowersItems_lowerFrom (findings : Findings) (done rest : Items)
    (same : SourceUnit.bare { u with items := done ++ rest } = u.bare) :
    ∃ items, (settings.lowerFrom symbols u findings done rest).1 = { u with items := done ++ items } ∧
      List.Forall₂ (settings.LowersItem symbols u) rest items := by
  induction rest generalizing done findings with
  | nil => exact ⟨[], by rw [lowerFrom, List.append_nil], .nil⟩
  | cons item rest ih =>
    rw [lowerFrom_cons]
    obtain ⟨items, made, lowers⟩ := ih _ _ ((bare_step _ _ _ _).trans same)
    refine ⟨_ :: items, ?_, .cons (lowersItem_lowerItem same item) lowers⟩
    rw [made, List.append_assoc, List.singleton_append]

variable (settings u symbols) in
theorem lower_items (findings : Findings) : ∃ items, (settings.lower symbols u findings).1 = { u with items } ∧
    List.Forall₂ (settings.LowersItem symbols u) u.items items :=
  lowersItems_lowerFrom findings [] u.items rfl

/-- The complaints about the classes come one after the other. -/
theorem diagnostics_lowerFrom (findings : Findings) (done rest : Items)
    (same : SourceUnit.bare { u with items := done ++ rest } = u.bare) :
    (settings.lowerFrom symbols u findings done rest).2.diagnostics =
      findings.diagnostics ++ (rest.filterMap (·.value.class?)).flatMap (settings.complaints u) := by
  induction rest generalizing done findings with
  | nil => rw [lowerFrom, List.filterMap_nil, List.flatMap_nil, List.append_nil]
  | cons item rest ih =>
    have added : (settings.addFindings symbols { u with items := done ++ item :: rest } findings item).diagnostics =
        findings.diagnostics ++ item.value.class?.toList.flatMap (settings.complaints u) := by
      rw [addFindings]
      split
      case h_1 c isClass =>
        have framework : settings.isFramework _ = settings.isFramework u := isFramework_congr (SourceUnit.imports_eq same)
        simp only [isClass, Findings.add, complaints_congr framework rfl rfl, Option.toList_some, List.flatMap_singleton]
      case h_2 noClass => simp [noClass]
    rw [lowerFrom_cons, ih _ _ ((bare_step _ _ _ _).trans same), added]
    cases found : item.value.class? <;> simp [found]

theorem mem_complaints_of_unnamed {c : ClassDecl} {member : Located Member} (isMember : member ∈ c.members)
    (decorated : member.value.decorators.any (settings.isFramework u) = true)
    (unnamed : member.value.name?.bind PropertyName.ident? = none) :
    u.errorAt member.span "Cannot process decorators for class element with non-analyzable name." ∈
      settings.complaints u c := by
  refine List.mem_append_left _ (List.mem_filterMap.mpr ⟨member, isMember, ?_⟩)
  rw [memberComplaint?, memberName?, unnamed, if_neg]
  simpa [lowered] using decorated

/-- Lowering treats the classes of a unit and nothing else. Each keeps what it is and its members, less their framework
decorators, and gains fields that record these. A member whose name is no identifier keeps them and is reported, after
what was reported before. -/
theorem lower_conserves (settings : DecoratorLowering) (symbols : SymbolResolver) (u : SourceUnit) (findings : Findings) :
    (∃ items, (settings.lower symbols u findings).1 = { u with items } ∧
      List.Forall₂ (settings.LowersItem symbols u) u.items items) ∧
    findings.diagnostics <+: (settings.lower symbols u findings).2.diagnostics ∧
    ∀ c ∈ u.classes, ∀ member ∈ c.members, member.value.decorators.any (settings.isFramework u) = true →
      member.value.name?.bind PropertyName.ident? = none →
      u.errorAt member.span "Cannot process decorators for class element with non-analyzable name." ∈
        (settings.lower symbols u findings).2.diagnostics := by
  have diagnostics : (settings.lower symbols u findings).2.diagnostics =
    findings.diagnostics ++ u.classes.flatMap (settings.complaints u) := diagnostics_lowerFrom findings [] u.items rfl
  refine ⟨lowersItems_lowerFrom findings [] u.items rfl, ?_, fun c isClass member isMember decorated unnamed => ?_⟩
  · rw [diagnostics]
    exact List.prefix_append _ _
  · rw [diagnostics]
    exact List.mem_append_right _
      (List.mem_flatMap.mpr ⟨c, isClass, mem_complaints_of_unnamed isMember decorated unnamed⟩)

end DecoratorLowering

end CompanionBuild
