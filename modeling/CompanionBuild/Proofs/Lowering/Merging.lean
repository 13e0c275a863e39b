import CompanionBuild.Proofs.Lowering.Capture
import Mathlib.Data.List.Perm.Basic

/-! # Names with several declarations

A name may be declared more than once, as a type and as a value. It has a value at run time if one of its declarations
has, in whatever order they stand. The resolver that looks at the unit alone asks the first declaration only, and no
variable statement: its answer is that of the declarations together unless it misses a value in this way. It is the same
in every order, as is the value recorded for a parameter, unless the name is declared both ways.
-/

namespace CompanionBuild

/-- What an item declares: a declaration, exported or not, or the variable of a statement. -/
def Item.declared? : Item → Option Decl
  | .stmt (.variable v) => some (.variable v)
  | item => item.decl?

namespace SourceUnit

/-- A declaration of the name, or a variable statement, exists at run time. -/
def DeclaresValue (u : SourceUnit) (name : String) : Prop :=
  ∃ d ∈ u.items.filterMap (·.value.declared?), d.name = name ∧ d.hasValue = true

/-- The name is not declared outside statements, or a mere type is the first to declare it. -/
def DeclaresTypeFirst (u : SourceUnit) (name : String) : Prop :=
  (∀ d ∈ u.decls, d.name ≠ name) ∨
    ∃ before first after, u.decls = before ++ first :: after ∧ (∀ other ∈ before, other.name ≠ name) ∧
      first.name = name ∧ first.hasValue = false

/-- Outside statements, the name is declared both as a mere type and as something that exists at run time. -/
def DeclaresBoth (u : SourceUnit) (name : String) : Prop :=
  (∃ d ∈ u.decls, d.name = name ∧ d.hasValue = true) ∧ ∃ d ∈ u.decls, d.name = name ∧ d.hasValue = false

variable {u : SourceUnit} {name : String}

/-! ## The first declaration -/

theorem exists_of_hasValue (unbound : u.binds name = false) (value : u.hasValue (.ident name) = true) :
    ∃ d ∈ u.decls, d.name = name ∧ d.hasValue = true := by
  rw [hasValue_of_unbound unbound, Option.any_eq_true] at value
  obtain ⟨d, first, exist⟩ := value
  exact ⟨d, List.mem_of_find?_eq_some first, by simpa using List.find?_some first, exist⟩

theorem declaresValue_of_mem_decls {d : Decl} (isDecl : d ∈ u.decls) (named : d.name = name)
    (value : d.hasValue = true) : u.DeclaresValue name := by
  obtain ⟨item, isItem, found⟩ := List.mem_filterMap.mp isDecl
  refine ⟨d, List.mem_filterMap.mpr ⟨item, isItem, ?_⟩, named, value⟩
  unfold Item.declared?
  split
  case h_1 isStatement =>
    rw [isStatement] at found
    cases found
  case h_2 => exact found

/-- What is asked about a name is its first declaration. -/
theorem hasValue_eq_false_iff (unbound : u.binds name = false) :
    u.hasValue (.ident name) = false ↔ u.DeclaresTypeFirst name := by
  rw [hasValue_of_unbound unbound]
  constructor
  · intro noValue
    cases found : u.decls.find? (·.name = name) with
    | none => exact .inl fun d isDecl => by simpa using List.find?_eq_none.mp found d isDecl
    | some first =>
      rw [found, Option.any_some] at noValue
      obtain ⟨named, before, after, split, others⟩ := List.find?_eq_some_iff_append.mp found
      exact .inr ⟨before, first, after, split, fun other mem => by simpa using others other mem, by simpa using named,
        noValue⟩
  · rintro (unnamed | ⟨before, first, after, split, others, named, noValue⟩)
    · have missing : u.decls.find? (·.name = name) = none := by
        rw [List.find?_eq_none]
        exact fun d isDecl => by simpa using unnamed d isDecl
      rw [missing, Option.any_none]
    · have found : u.decls.find? (·.name = name) = some first := by
        rw [List.find?_eq_some_iff_append]
        exact ⟨decide_eq_true named, before, after, split, fun other mem => by simpa using others other mem⟩
      rw [found, Option.any_some, noValue]

/-! ## Other orders -/

theorem binds_perm {items : Items} (reordered : items.Perm u.items) :
    SourceUnit.binds { u with items } name = u.binds name := by
  rw [Bool.eq_iff_iff, binds, binds, List.any_eq_true, List.any_eq_true]
  have same (decl : ImportDecl) : decl ∈ SourceUnit.imports { u with items } ↔ decl ∈ u.imports :=
    (reordered.filterMap _).mem_iff
  simp only [same]

theorem mem_decls_perm {items : Items} (reordered : items.Perm u.items) {d : Decl} :
    d ∈ SourceUnit.decls { u with items } ↔ d ∈ u.decls :=
  (reordered.filterMap _).mem_iff

/-- If a name is not declared both ways, its first declaration is as good as any. -/
theorem hasValue_iff_of_not_declaresBoth (unbound : u.binds name = false) (oneWay : ¬ u.DeclaresBoth name) :
    u.hasValue (.ident name) = true ↔ ∃ d ∈ u.decls, d.name = name ∧ d.hasValue = true := by
  refine ⟨exists_of_hasValue unbound, fun declares => ?_⟩
  by_contra noValue
  obtain unnamed | ⟨before, first, after, split, -, named, firstNoValue⟩ :=
    (hasValue_eq_false_iff unbound).mp (Bool.eq_false_iff.mpr noValue)
  · obtain ⟨d, isDecl, named, -⟩ := declares
    exact unnamed d isDecl named
  · refine oneWay ⟨declares, first, ?_, named, firstNoValue⟩
    rw [split]
    exact List.mem_append_right _ (List.mem_cons_self ..)

/-- Any declaration of a name can be made the one that decides. -/
theorem exists_perm_first {d : Decl} (unbound : u.binds name = false) (isDecl : d ∈ u.decls) (named : d.name = name) :
    ∃ items : Items, items.Perm u.items ∧ SourceUnit.hasValue { u with items } (.ident name) = d.hasValue := by
  obtain ⟨item, isItem, found⟩ := List.mem_filterMap.mp isDecl
  obtain ⟨front, back, split⟩ := List.append_of_mem isItem
  have reordered : (item :: (front ++ back)).Perm u.items := split ▸ List.perm_middle.symm
  refine ⟨item :: (front ++ back), reordered, ?_⟩
  rw [hasValue_of_unbound ((binds_perm reordered).trans unbound), SourceUnit.decls, List.filterMap_cons, found]
  simp [named]

theorem hasValue_perm_iff (unbound : u.binds name = false) :
    (∀ items : Items, items.Perm u.items →
      SourceUnit.hasValue { u with items } (.ident name) = u.hasValue (.ident name)) ↔ ¬ u.DeclaresBoth name := by
  constructor
  · rintro same ⟨⟨d, isDecl, named, value⟩, other, isOther, otherNamed, noValue⟩
    obtain ⟨items, reordered, first⟩ := exists_perm_first unbound isDecl named
    obtain ⟨items', reordered', first'⟩ := exists_perm_first unbound isOther otherNamed
    have differ : d.hasValue = other.hasValue :=
      first.symm.trans ((same items reordered).trans ((same items' reordered').symm.trans first'))
    rw [value, noValue] at differ
    cases differ
  · intro oneWay items reordered
    have oneWay' : ¬ SourceUnit.DeclaresBoth { u with items } name := by
      simpa only [DeclaresBoth, mem_decls_perm reordered] using oneWay
    rw [Bool.eq_iff_iff, hasValue_iff_of_not_declaresBoth ((binds_perm reordered).trans unbound) oneWay',
      hasValue_iff_of_not_declaresBoth unbound oneWay]
    simp only [mem_decls_perm reordered]

end SourceUnit

namespace DecoratorLowering

/-- The type of a parameter comes down to a dotted name that starts with the given one. -/
def ParamInfo.StartsWith (param : ParamInfo) (name : String) : Prop :=
  ∃ type core entity, param.type = some type ∧ type.ComesDownTo core ∧ core.entity? = some entity ∧ entity.root = name

/-- What is recorded for a parameter whose type starts with a name that no import binds. -/
theorem paramValue?_of_startsWith {param : ParamInfo} {name : String} (starts : param.StartsWith name) :
    ∃ chain, ∀ u : SourceUnit, u.binds name = false → paramValue? (SymbolResolver.localOnly u) param =
      if u.hasValue (.ident name) then some ⟨chain, none⟩ else none := by
  obtain ⟨type, core, entity, isType, down, refers, rfl⟩ := starts
  refine ⟨entity.chain, fun u unbound => ?_⟩
  rw [paramValue?, isType, Option.bind_some, typeValue?_of_comesDownTo down, global?_of_entity? refers, refers,
    Option.map_none, Option.none_or, Option.bind_some, entityValue?_localOnly, SourceUnit.hasValue_eq_root, unbound]
  rfl

variable {u : SourceUnit} {name : String}

theorem paramValue?_perm_iff (unbound : u.binds name = false) :
    (∀ items : Items, items.Perm u.items → ∀ param : ParamInfo, param.StartsWith name →
      paramValue? (SymbolResolver.localOnly { u with items }) param = paramValue? (SymbolResolver.localOnly u) param) ↔
      ¬ u.DeclaresBoth name := by
  rw [← SourceUnit.hasValue_perm_iff unbound]
  constructor
  · intro same items reordered
    have starts : ParamInfo.StartsWith ⟨[], some (.reference name)⟩ name :=
      ⟨_, _, .ident name, rfl, TypeExpr.comesDownTo_reference name, rfl, rfl⟩
    obtain ⟨chain, value⟩ := paramValue?_of_startsWith starts
    have unbound' := (SourceUnit.binds_perm reordered).trans unbound
    have equal := same items reordered _ starts
    rw [value _ unbound', value u unbound] at equal
    revert equal
    cases SourceUnit.hasValue { u with items } (.ident name) <;> cases u.hasValue (.ident name) <;> simp
  · intro same items reordered param starts
    obtain ⟨chain, value⟩ := paramValue?_of_startsWith starts
    rw [value _ ((SourceUnit.binds_perm reordered).trans unbound), value u unbound, same items reordered]

/-- When local names respect the merging of declarations, for a name that no import binds. It is said to have a value
exactly when one of its declarations exists at run time, unless the first of them that is no statement is a mere type, or
there is none. The answer is the same in every order of the items, and so is the value recorded for every parameter whose
type starts with the name, exactly when no declarations of both kinds compete. -/
theorem local_values_merge_iff (u : SourceUnit) (name : String) (unbound : u.binds name = false) :
    ((u.hasValue (.ident name) = true ↔ u.DeclaresValue name) ↔ ¬ (u.DeclaresValue name ∧ u.DeclaresTypeFirst name)) ∧
    ((∀ items : Items, items.Perm u.items →
      SourceUnit.hasValue { u with items } (.ident name) = u.hasValue (.ident name)) ↔ ¬ u.DeclaresBoth name) ∧
    ((∀ items : Items, items.Perm u.items → ∀ param : ParamInfo, param.StartsWith name →
      paramValue? (SymbolResolver.localOnly { u with items }) param = paramValue? (SymbolResolver.localOnly u) param) ↔
      ¬ u.DeclaresBoth name) := by
  refine ⟨?_, SourceUnit.hasValue_perm_iff unbound, paramValue?_perm_iff unbound⟩
  have sound : u.hasValue (.ident name) = true → u.DeclaresValue name := by
    intro value
    obtain ⟨d, isDecl, named, exist⟩ := SourceUnit.exists_of_hasValue unbound value
    exact SourceUnit.declaresValue_of_mem_decls isDecl named exist
  rw [← SourceUnit.hasValue_eq_false_iff unbound, not_and, Bool.not_eq_false]
  exact ⟨fun right => right.mpr, fun complete => ⟨sound, complete⟩⟩

/-- A type and a value of one name: an interface, and the token under which it is injected. -/
def tokenUnit : SourceUnit where
  name := "/token.ts"
  text := ""
  isDeclaration := false
  items := [
    .synthetic (.imports { specifiers := [.named "Injectable" none false], source := coreModule }),
    .synthetic (.exportDecl (.interface { name := "Token", members := [], isDeclare := false })),
    .synthetic (.exportDecl (.variable { name := "Token", init := some (.string "token") }))]

/-- The token is there at run time, but what is said about it depends on where it stands. -/
theorem token_depends_on_order :
    tokenUnit.binds "Token" = false ∧ tokenUnit.DeclaresValue "Token" ∧ tokenUnit.hasValue (.ident "Token") = false ∧
      ∃ items : Items, items.Perm tokenUnit.items ∧
        SourceUnit.hasValue { tokenUnit with items } (.ident "Token") ≠ tokenUnit.hasValue (.ident "Token") := by
  have unbound : tokenUnit.binds "Token" = false := by decide
  have both : tokenUnit.DeclaresBoth "Token" :=
    ⟨⟨_, List.mem_cons_of_mem _ (List.mem_singleton.mpr rfl), rfl, rfl⟩, _, List.mem_cons_self .., rfl, rfl⟩
  obtain ⟨-, order, -⟩ := local_values_merge_iff tokenUnit "Token" unbound
  refine ⟨unbound, ⟨_, List.mem_cons_of_mem _ (List.mem_singleton.mpr rfl), rfl, rfl⟩, by decide, ?_⟩
  by_contra same
  refine order.mp (fun items reordered => ?_) both
  by_contra differ
  exact same ⟨items, reordered, differ⟩

end DecoratorLowering

end CompanionBuild
