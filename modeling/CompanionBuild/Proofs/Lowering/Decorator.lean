import CompanionBuild.Lowering.Decorator

/-! # Decorators are lowered class by class

Lowering the decorators of a unit treats its classes one after the other, and each sees the unit as the ones before it
left it. What a class sees of it are the imports and what names stand for. None of that lies in the bodies of classes,
so the classes may as well be lowered all at once.
-/

namespace CompanionBuild

/-- A class without its members and decorators. -/
def ClassDecl.bare (c : ClassDecl) : ClassDecl :=
  { c with members := [], decorators := [] }

/-- An item with the body of its class left out. -/
def Item.bare (item : Item) : Item :=
  match item.class? with
  | some c => item.withClass c.bare
  | none => item

/-- A unit with the bodies of its classes left out. -/
def SourceUnit.bare (u : SourceUnit) : SourceUnit :=
  { u with items := u.items.map fun item => { item with value := item.value.bare } }

/-- What names stand for does not depend on the bodies of classes. -/
def SymbolResolver.IgnoresBodies (symbols : SymbolResolver) : Prop :=
  ∀ u u' : SourceUnit, u.bare = u'.bare → symbols u = symbols u'

theorem Item.import?_bare (item : Item) : item.bare.import? = item.import? := by
  cases item with
  | decl d => cases d <;> rfl
  | exportDecl d => cases d <;> rfl
  | _ => rfl

theorem Item.class?_withClass {item : Item} {c : ClassDecl} (isClass : item.class? = some c) (other : ClassDecl) :
    (item.withClass other).class? = some other := by
  cases item with
  | decl d => cases d <;> first | rfl | cases isClass
  | exportDecl d => cases d <;> first | rfl | cases isClass
  | _ => cases isClass

theorem Item.withClass_self {item : Item} {c : ClassDecl} (isClass : item.class? = some c) :
    item.withClass c = item := by
  cases item with
  | decl d =>
    cases d <;> cases isClass
    rfl
  | exportDecl d =>
    cases d <;> cases isClass
    rfl
  | _ => rfl

theorem Item.withClass_withClass (item : Item) (c other : ClassDecl) :
    (item.withClass c).withClass other = item.withClass other := by
  cases item with
  | decl d => cases d <;> rfl
  | exportDecl d => cases d <;> rfl
  | _ => rfl

theorem Item.import?_withClass (item : Item) (c : ClassDecl) : (item.withClass c).import? = item.import? := by
  cases item with
  | decl d => cases d <;> rfl
  | exportDecl d => cases d <;> rfl
  | _ => rfl

/-- Only what a class is called and made from is seen from outside. -/
theorem Item.bare_withClass {item : Item} {c other : ClassDecl} (isClass : item.class? = some c)
    (same : other.bare = c.bare) : (item.withClass other).bare = item.bare := by
  simp only [bare, class?_withClass isClass other, isClass, withClass_withClass, same]

theorem SourceUnit.imports_bare (u : SourceUnit) : u.bare.imports = u.imports := by
  simp only [imports, bare, List.filterMap_map, Function.comp_def, Item.import?_bare]

theorem SourceUnit.imports_eq {u u' : SourceUnit} (same : u.bare = u'.bare) : u.imports = u'.imports := by
  rw [← u.imports_bare, same, u'.imports_bare]

/-- The symbol of a name that is declared, as far as the declarations tell without bodies. -/
theorem SourceUnit.declaredSymbol?_bare (u : SourceUnit) (name : String) :
    u.bare.declaredSymbol? name = u.declaredSymbol? name := by
  have item (item : Item) : item.bare.decl?.map (fun d => (d.name, d.flags)) = item.decl?.map fun d => (d.name, d.flags) := by
    cases item with
    | decl d => cases d <;> rfl
    | exportDecl d => cases d <;> rfl
    | _ => rfl
  have found (decls : List Decl) : (decls.find? (·.name = name)).map (fun d => (⟨d.flags, none, [.here]⟩ : SymbolInfo)) =
      ((decls.map fun d => (d.name, d.flags)).find? (·.1 = name)).map fun entry => ⟨entry.2, none, [.here]⟩ := by
    rw [List.find?_map, Option.map_map]
    rfl
  have decls : u.bare.decls.map (fun d => (d.name, d.flags)) = u.decls.map fun d => (d.name, d.flags) := by
    simp only [decls, bare, List.map_filterMap, List.filterMap_map, Function.comp_def, item]
  rw [declaredSymbol?, found, decls, ← found]
  rfl

/-- The resolver that looks at the unit alone does not look into classes. -/
theorem SymbolResolver.localOnly_ignoresBodies : localOnly.IgnoresBodies := by
  intro u u' same
  have imported (name : String) : u.importedSymbol? name = u'.importedSymbol? name := by
    simp only [SourceUnit.importedSymbol?, SourceUnit.findImport?, SourceUnit.imports_eq same]
  have declared (name : String) : u.declaredSymbol? name = u'.declaredSymbol? name := by
    rw [← u.declaredSymbol?_bare, same, u'.declaredSymbol?_bare]
  funext name
  induction name with
  | ident name =>
    change (u.importedSymbol? name).or (u.declaredSymbol? name) = (u'.importedSymbol? name).or (u'.declaredSymbol? name)
    rw [imported, declared]
  | qualified left right ih =>
    change (u.localSymbol? left).bind _ = (u'.localSymbol? left).bind _
    rw [show u.localSymbol? left = u'.localSymbol? left from ih]

namespace DecoratorLowering

variable {settings : DecoratorLowering} {u u' : SourceUnit}

theorem isFramework_congr (same : u.imports = u'.imports) : settings.isFramework u = settings.isFramework u' := by
  have target (e : Expr) : u.importOfTarget? e = u'.importOfTarget? e := by
    simp only [SourceUnit.importOfTarget?.eq_def, SourceUnit.importOf?, SourceUnit.namespaceOf?, SourceUnit.findImport?,
      same]
  funext decorator
  simp only [isFramework, SourceUnit.importOfDecorator?.eq_def, target]

section

variable (same : settings.isFramework u = settings.isFramework u')

include same

theorem lowered_congr : settings.lowered u = settings.lowered u' := by
  funext decorators
  rw [lowered, same, lowered]

theorem kept_congr : settings.kept u = settings.kept u' := by
  funext decorators
  rw [kept, same, kept]

theorem lowerMember_congr : settings.lowerMember u = settings.lowerMember u' := by
  funext member
  simp only [lowerMember.eq_def, lowered_congr same, kept_congr same]

theorem memberEntries_congr : settings.memberEntries u = settings.memberEntries u' := by
  funext members
  simp only [memberEntries, memberDecorators?, lowered_congr same]

theorem recordedParams?_congr : settings.recordedParams? u = settings.recordedParams? u' := by
  funext c
  simp only [recordedParams?, constructorParams?, lowered_congr same]

theorem lowerClass_congr : settings.lowerClass u = settings.lowerClass u' := by
  funext resolve c
  simp only [lowerClass, staticFields, loweredOfClass, lowerMember_congr same, memberEntries_congr same,
    recordedParams?_congr same, kept_congr same, lowered_congr same]
  rfl

theorem retained_congr : settings.retained u = settings.retained u' := by
  funext resolve c
  rw [retained, retained, recordedParams?_congr same]

theorem complaints_congr (name : u.name = u'.name) (text : u.text = u'.text) :
    settings.complaints u = settings.complaints u' := by
  have located : u.errorAt = u'.errorAt := by
    funext span message
    rw [SourceUnit.errorAt, SourceUnit.errorAt, name, text]
  have ofDecorator : complaint? u = complaint? u' := by
    funext decorator
    simp only [complaint?.eq_def, located]
  have ofMember : settings.memberComplaint? u = settings.memberComplaint? u' := by
    funext member
    simp only [memberComplaint?, lowered_congr same, located]
  funext c
  simp only [complaints, loweredOfClass, ofDecorator, ofMember, memberEntries_congr same, recordedParams?_congr same,
    lowered_congr same]

end

variable (settings) in
/-- An item with its class lowered. -/
def lowerItem (symbols : SymbolResolver) (u : SourceUnit) (item : Located Item) : Located Item :=
  match item.value.class? with
  | some c => { item with value := item.value.withClass (settings.lowerClass u (symbols u) c) }
  | none => item

variable (settings) in
/-- The findings with those about the class of an item. -/
def addFindings (symbols : SymbolResolver) (u : SourceUnit) (findings : Findings) (item : Located Item) : Findings :=
  match item.value.class? with
  | some c => findings.add (settings.complaints u c) (settings.retained u (symbols u) c)
  | none => findings

variable {symbols : SymbolResolver} (ignores : symbols.IgnoresBodies)

theorem bare_lowerItem (item : Located Item) :
    (⟨(settings.lowerItem symbols u item).span, (settings.lowerItem symbols u item).value.bare⟩ : Located Item) =
      ⟨item.span, item.value.bare⟩ := by
  unfold lowerItem
  split
  case h_1 c isClass =>
    have same : (settings.lowerClass u (symbols u) c).bare = c.bare := rfl
    dsimp only
    rw [Item.bare_withClass isClass same]
  case h_2 => rfl

/-- One step of the lowering treats one item, in the unit as it stands. -/
theorem lowerFrom_cons (findings : Findings) (done rest : Items) (item : Located Item) :
    settings.lowerFrom symbols u findings done (item :: rest) =
      settings.lowerFrom symbols u (settings.addFindings symbols { u with items := done ++ item :: rest } findings item)
        (done ++ [settings.lowerItem symbols { u with items := done ++ item :: rest } item]) rest := by
  rw [lowerFrom, addFindings, lowerItem]
  cases item.value.class? <;> rfl

/-- A step changes the bodies of classes alone. -/
theorem bare_step (seen : SourceUnit) (done rest : Items) (item : Located Item) :
    SourceUnit.bare { u with items := done ++ [settings.lowerItem symbols seen item] ++ rest } =
      SourceUnit.bare { u with items := done ++ item :: rest } := by
  simp only [SourceUnit.bare, List.map_append, List.map_cons, bare_lowerItem, List.append_assoc, List.singleton_append]

include ignores

theorem lowerItem_congr (same : u.bare = u'.bare) : settings.lowerItem symbols u = settings.lowerItem symbols u' := by
  funext item
  simp only [lowerItem, lowerClass_congr (isFramework_congr (SourceUnit.imports_eq same)), ignores u u' same]

theorem addFindings_congr (same : u.bare = u'.bare) :
    settings.addFindings symbols u = settings.addFindings symbols u' := by
  have name : u.bare.name = u'.bare.name := by rw [same]
  have text : u.bare.text = u'.bare.text := by rw [same]
  have framework : settings.isFramework u = settings.isFramework u' := isFramework_congr (SourceUnit.imports_eq same)
  funext findings item
  simp only [addFindings, complaints_congr framework name text, retained_congr framework, ignores u u' same]

theorem lowerFrom_eq (done rest : Items) (findings : Findings)
    (same : SourceUnit.bare { u with items := done ++ rest } = u.bare) :
    settings.lowerFrom symbols u findings done rest =
      ({ u with items := done ++ rest.map (settings.lowerItem symbols u) },
        rest.foldl (settings.addFindings symbols u) findings) := by
  induction rest generalizing done findings with
  | nil => rw [lowerFrom, List.map_nil, List.append_nil, List.foldl_nil]
  | cons item rest ih =>
    -- The unit as it stands differs from the unit in the bodies of classes alone.
    rw [lowerFrom_cons, addFindings_congr ignores same, lowerItem_congr ignores same,
      ih _ _ ((bare_step _ _ _ _).trans same), List.map_cons, List.foldl_cons, List.append_assoc, List.singleton_append]

/-- The classes of a unit are lowered all at once. -/
theorem lower_eq (findings : Findings) : settings.lower symbols u findings =
    ({ u with items := u.items.map (settings.lowerItem symbols u) },
      u.items.foldl (settings.addFindings symbols u) findings) := by
  refine lowerFrom_eq ignores [] u.items findings ?_
  cases u
  rfl

end DecoratorLowering

end CompanionBuild
