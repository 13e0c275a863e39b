import CompanionBuild.Symbol

/-! # Names that have a value

As far as a unit itself tells, a name has a value at run time when the first import that binds it is not for types only
or, if no import binds it, when the first of its declarations is one that exists at run time. A dotted name has a value
when the name it starts with has one.
-/

namespace CompanionBuild

/-- The declaration exists at run time: a class, a function, a variable, or an enumeration that is not constant. -/
def Decl.hasValue : Decl → Bool
  | .classDecl _ | .function _ | .variable _ => true
  | .enum d => !d.isConst
  | .interface _ | .typeAlias _ => false

/-- The dotted names that a dotted name begins with, itself among them. -/
def EntityName.beginnings : EntityName → List EntityName
  | .ident name => [.ident name]
  | .qualified left right => left.beginnings ++ [.qualified left right]

namespace SourceUnit

/-- An import of the unit binds the name. -/
def binds (u : SourceUnit) (name : String) : Bool :=
  u.imports.any fun decl => decl.specifiers.any fun specifier => specifier.localName = name

/-- The first import that binds a name. -/
def binding? (u : SourceUnit) (name : String) : Option (ImportDecl × ImportSpecifier) :=
  u.findImport? fun decl specifier => if specifier.localName = name then some (decl, specifier) else none

/-- What a dotted name stands for in the unit has a value at run time. -/
def hasValue (u : SourceUnit) (name : EntityName) : Bool :=
  (SymbolResolver.localOnly u name).any SymbolInfo.isRuntimeValue

/-- Why a name has a value. -/
inductive ExistsAtRunTime (u : SourceUnit) (name : String) : Prop
  /-- An import binds it, and not as a type only. -/
  | imported {decl : ImportDecl} {specifier : ImportSpecifier} (first : u.binding? name = some (decl, specifier))
    (ofValues : decl.typeOnly = false) (ofValue : specifier.isTypeOnly = false)
  /-- No import binds it, and its first declaration exists at run time. -/
  | declared {d : Decl} (unbound : u.binds name = false) (first : u.decls.find? (·.name = name) = some d)
    (exist : d.hasValue = true)

variable {u : SourceUnit} {name : String}

/-! ## Identifiers -/

theorem binding?_eq_none_iff : u.binding? name = none ↔ u.binds name = false := by
  simp [binding?, findImport?, binds, List.findSome?_eq_none_iff]

theorem importedSymbol?_eq : u.importedSymbol? name = (u.binding? name).map fun bound =>
    { flags := {}
      aliased := some ⟨!(bound.1.typeOnly || bound.2.isTypeOnly), false⟩
      declarations := [.imported name bound.1.source] } := by
  simp only [importedSymbol?, binding?, findImport?, List.map_findSome?, Function.comp_def, apply_ite (Option.map _),
    Option.map_some, Option.map_none]

theorem localOnly_of_binding {bound : ImportDecl × ImportSpecifier} (found : u.binding? name = some bound) :
    SymbolResolver.localOnly u (.ident name) = some {
      flags := {}
      aliased := some ⟨!(bound.1.typeOnly || bound.2.isTypeOnly), false⟩
      declarations := [.imported name bound.1.source] } := by
  change (u.importedSymbol? name).or (u.declaredSymbol? name) = _
  rw [importedSymbol?_eq, found, Option.map_some, Option.some_or]

theorem localOnly_of_unbound (unbound : u.binds name = false) :
    SymbolResolver.localOnly u (.ident name) =
      (u.decls.find? (·.name = name)).map fun d => ⟨d.flags, none, [.here]⟩ := by
  change (u.importedSymbol? name).or (u.declaredSymbol? name) = _
  rw [importedSymbol?_eq, binding?_eq_none_iff.mpr unbound, Option.map_none, Option.none_or]
  rfl

theorem hasValue_of_binding {bound : ImportDecl × ImportSpecifier} (found : u.binding? name = some bound) :
    u.hasValue (.ident name) = !(bound.1.typeOnly || bound.2.isTypeOnly) := by
  simp [hasValue, localOnly_of_binding found, SymbolInfo.isRuntimeValue]

/-- Without an import, the first declaration of a name decides whether it has a value. -/
theorem hasValue_of_unbound (unbound : u.binds name = false) :
    u.hasValue (.ident name) = (u.decls.find? (·.name = name)).any Decl.hasValue := by
  rw [hasValue, localOnly_of_unbound unbound]
  cases u.decls.find? (·.name = name) with
  | none => rfl
  | some d => cases d <;> simp [SymbolInfo.isRuntimeValue, Decl.flags, Decl.hasValue]

theorem hasValue_ident_iff : u.hasValue (.ident name) = true ↔ u.ExistsAtRunTime name := by
  cases found : u.binding? name with
  | some bound =>
    rw [hasValue_of_binding found]
    constructor
    · intro value
      simp only [Bool.not_or, Bool.and_eq_true, Bool.not_eq_true'] at value
      exact .imported found value.1 value.2
    · rintro (⟨first, ofValues, ofValue⟩ | ⟨unbound, -, -⟩)
      · cases found.symm.trans first
        rw [ofValues, ofValue]
        rfl
      · rw [binding?_eq_none_iff.mpr unbound] at found
        cases found
  | none =>
    have unbound := binding?_eq_none_iff.mp found
    rw [hasValue_of_unbound unbound, Option.any_eq_true]
    constructor
    · rintro ⟨d, first, exist⟩
      exact .declared unbound first exist
    · rintro (⟨first, -, -⟩ | ⟨-, first, exist⟩)
      · cases found.symm.trans first
      · exact ⟨_, first, exist⟩

/-! ## Dotted names -/

theorem hasValue_qualified (left : EntityName) (right : String) :
    u.hasValue (.qualified left right) = u.hasValue left := by
  change Option.any _ ((u.localSymbol? left).bind _) = Option.any _ (u.localSymbol? left)
  cases u.localSymbol? left with
  | none => rfl
  | some container =>
    rw [Option.bind_some, Option.any_some]
    cases container.isRuntimeValue <;> rfl

theorem hasValue_eq_root (name : EntityName) : u.hasValue name = u.hasValue (.ident name.root) := by
  induction name with
  | ident name => rfl
  | qualified left right ih => rw [hasValue_qualified, ih, EntityName.root]

/-- A dotted name has a value as soon as all its beginnings have one. -/
theorem hasValue_beginnings_iff {name : EntityName} :
    (∀ beginning ∈ name.beginnings, u.hasValue beginning = true) ↔ u.hasValue name = true := by
  induction name with
  | ident name => simp [EntityName.beginnings]
  | qualified left right ih =>
    rw [EntityName.beginnings, List.forall_mem_append, ih, List.forall_mem_singleton, hasValue_qualified, and_self]

end SourceUnit

end CompanionBuild
