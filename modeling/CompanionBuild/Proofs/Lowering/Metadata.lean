import CompanionBuild.Lowering.Metadata
import CompanionBuild.Proofs.Lowering.Candidate
import CompanionBuild.Proofs.Table

/-! # Metadata that refers to bindings

The metadata of an expression holds the values of its nodes in fields and lists of its own. Given which nodes are bound
to which names, it refers to them when the value of every bound node has become a reference to its name, and nothing
else has changed. Substituting requests does that as soon as the nodes with a request are the bound ones.
-/

namespace CompanionBuild.Lowering

/-! ## Positions -/

/-- Objects and lists; any other value says all there is to say. -/
def IsStructured : Json → Prop
  | .object _ | .array _ => True
  | _ => False

/-- A field of an object changes within a relation, and no other field does; anything without the field stays. -/
inductive AtField (name : String) (change : Json → Json → Prop) : Json → Json → Prop
  | changed {fields made : Table Json} {value value' : Json} (found : Table.get? fields name = some value)
      (changes : change value value')
      (others : ∀ other, Table.get? made other = if name = other then some value' else Table.get? fields other) :
      AtField name change (.object fields) (.object made)
  | missing {fields : Table Json} (absent : Table.get? fields name = none) :
      AtField name change (.object fields) (.object fields)
  | other {json : Json} (plain : ∀ fields, json ≠ .object fields) : AtField name change json json

/-- The elements of an array change within a relation; anything but an array stays. -/
inductive AtElements (change : List Json → List Json → Prop) : Json → Json → Prop
  | changed {elements made : List Json} (changes : change elements made) :
      AtElements change (.array elements) (.array made)
  | other {json : Json} (plain : ∀ elements, json ≠ .array elements) : AtElements change json json

/-- The entries of an object change by name within a relation; anything but an object stays. -/
inductive AtEntries (change : String → Json → Json → Prop) : Json → Json → Prop
  | changed {fields made : Table Json}
      (changes : List.Forall₂ (fun entry entry' => entry'.1 = entry.1 ∧ change entry.1 entry.2 entry'.2) fields made) :
      AtEntries change (.object fields) (.object made)
  | other {json : Json} (plain : ∀ fields, json ≠ .object fields) : AtEntries change json json

/-- The value of a node is a reference to the name that the node is bound to, or else changes inside, if at all. -/
inductive AtNode (bound : String → Expr → Prop) (e : Expr) (inside : Json → Json → Prop) : Json → Json → Prop
  | reference {name : String} {json : Json} (binds : bound name e) (structured : IsStructured json) :
      AtNode bound e inside json (.object [("__symbolic", .text "reference"), ("name", .text name)])
  | plain {name : String} {json : Json} (binds : bound name e) (plain : ¬ IsStructured json) :
      AtNode bound e inside json json
  | inside {json made : Json} (free : ∀ name, ¬ bound name e) (changes : inside json made) :
      AtNode bound e inside json made
  | nothing {json : Json} (free : ∀ n ∈ e.walk, ∀ name, ¬ bound name n) : AtNode bound e inside json json

variable (bound : String → Expr → Prop)

mutual

/-- The metadata of an expression, before and after the values of bound nodes have become references. -/
def Refers : Expr → Json → Json → Prop
  | e@(.literal ..) | e@(.ident ..) | e@(.arrow ..) | e@(.spread ..) | e@(.external ..) =>
    AtNode bound e fun json made => made = json
  | e@(.call _ callee args) | e@(.new _ callee args) =>
    AtNode bound e fun json made => ∃ middle, AtField "expression" (Refers callee) json middle ∧
      AtField "arguments" (AtElements (RefersAll args)) middle made
  | e@(.member _ object _) => AtNode bound e (AtField "expression" (Refers object))
  | e@(.array _ elements) => AtNode bound e (AtElements (RefersAll elements))
  | e@(.object _ properties) => AtNode bound e (RefersProperties properties)
  | e@(.paren _ inner) => AtNode bound e (Refers inner)

/-- The values of elements side by side, up to a spread, which may stand for any number of values. -/
def RefersAll : List Expr → List Json → List Json → Prop
  | e :: rest, value :: values, made =>
    match e with
    | .spread .. => made = value :: values
    | e => ∃ first others, made = first :: others ∧ Refers e value first ∧ RefersAll rest values others
  | _, values, made => made = values

/-- The properties one after the other, each in the field of its name. -/
def RefersProperties : List Property → Json → Json → Prop
  | [], json, made => made = json
  | .keyValue key value :: rest, json, made =>
    ∃ middle, (match key.text? with
      | some name => AtField name (Refers value) json middle
      | none => middle = json) ∧ RefersProperties rest middle made
  | .shorthand _ :: rest, json, made | .spread _ :: rest, json, made => RefersProperties rest json made

end

/-- The metadata of what a unit declares under a name: the decorators of a class, or the initializer of a variable. -/
def RefersMember (u : SourceUnit) (name : String) (json made : Json) : Prop :=
  match declared? u name with
  | some (.ofClass c) =>
    AtField "decorators" (AtElements fun entries made => made.length = entries.length ∧
      ∀ (i : Nat) (entry entry' : Json), entries[i]? = some entry → made[i]? = some entry' →
        match c.decorators[i]? with
        | some decorator => Refers bound decorator entry entry'
        | none => entry' = entry) json made
  | some (.ofVariable d) =>
    match d.init with
    | some init => Refers bound init json made
    | none => made = json
  | none => made = json

/-- The metadata of a module, whose members are listed by name. -/
def RefersModule (u : SourceUnit) : Json → Json → Prop :=
  AtField "metadata" (AtEntries (RefersMember bound u))

variable {bound}

/-! ## Substitution -/

variable {requests : Requests}

/-- The nodes with a request are those that are bound, under the same names. -/
def Requests.Agree (requests : Requests) (bound : String → Expr → Prop) (nodes : List Expr) : Prop :=
  ∀ e ∈ nodes, ∀ name, bound name e ↔ (requests.find? e).map (·.name) = some name

theorem atField_mapField {name : String} {change : Json → Json → Prop} {f : Json → Json} (json : Json)
    (changes : ∀ value, change value (f value)) : AtField name change json (mapField name f json) := by
  cases json with
  | object fields =>
    rw [mapField]
    cases found : Table.get? fields name with
    | some value => exact .changed found (changes value) (Table.get?_put fields name (f value))
    | none => exact .missing found
  | _ => exact .other fun fields same => by cases same

theorem atElements_mapElements {change : List Json → List Json → Prop} {f : List Json → List Json} (json : Json)
    (changes : ∀ elements, change elements (f elements)) : AtElements change json (mapElements f json) := by
  cases json with
  | array elements => exact .changed (changes elements)
  | _ => exact .other fun elements same => by cases same

theorem reference_eq (name : String) :
    reference name = .object [("__symbolic", .text "reference"), ("name", .text name)] := by
  have later : ¬ "name" < "__symbolic" := by decide
  have other : "name" ≠ "__symbolic" := by decide
  simp only [reference, Table.ofList, List.foldl_cons, List.foldl_nil, Table.put, if_neg later, if_neg other]

theorem atNode_referenceOr {e : Expr} {inside : Json → Json → Prop} {f : Json → Json} {nodes : List Expr}
    (agree : requests.Agree bound (e :: nodes)) (changes : ∀ json, inside json (f json)) (json : Json) :
    AtNode bound e inside json (referenceOr requests e f json) := by
  have named := agree e (List.mem_cons_self ..)
  rw [referenceOr]
  cases found : requests.find? e with
  | none =>
    refine .inside (fun name binds => ?_) (changes json)
    have given := (named name).mp binds
    rw [found] at given
    cases given
  | some request =>
    have binds : bound request.name e := (named request.name).mpr (by rw [found]; rfl)
    cases json with
    | object fields =>
      change AtNode bound e inside _ (reference request.name)
      rw [reference_eq]
      exact .reference binds True.intro
    | array elements =>
      change AtNode bound e inside _ (reference request.name)
      rw [reference_eq]
      exact .reference binds True.intro
    | _ => exact .plain binds id

theorem atNode_referenceOr_id {e : Expr} {nodes : List Expr} (agree : requests.Agree bound (e :: nodes)) (json : Json) :
    AtNode bound e (fun json made => made = json) json (referenceOr requests e id json) := by
  refine atNode_referenceOr agree (fun json => ?_) json
  rfl

theorem Requests.Agree.mono {nodes others : List Expr} (agree : requests.Agree bound nodes) (subset : others ⊆ nodes) :
    requests.Agree bound others :=
  fun e member => agree e (subset member)

mutual

/-- Substitution makes metadata refer to what is bound. -/
theorem refers_substitute (e : Expr) (agree : requests.Agree bound e.walk) (json : Json) :
    Refers bound e json (substitute requests e json) := by
  cases e with
  | call span callee args =>
    rw [Refers, substitute]
    have inside := agree.mono (List.subset_cons_self ..)
    have ofCallee := refers_substitute callee (inside.mono (List.subset_append_left ..))
    have ofArgs := refersAll_substituteElements args (inside.mono (List.subset_append_right ..))
    refine atNode_referenceOr agree (fun json => ⟨_, atField_mapField json ofCallee, ?_⟩) json
    exact atField_mapField _ fun values => atElements_mapElements values ofArgs
  | new span callee args =>
    rw [Refers, substitute]
    have inside := agree.mono (List.subset_cons_self ..)
    have ofCallee := refers_substitute callee (inside.mono (List.subset_append_left ..))
    have ofArgs := refersAll_substituteElements args (inside.mono (List.subset_append_right ..))
    refine atNode_referenceOr agree (fun json => ⟨_, atField_mapField json ofCallee, ?_⟩) json
    exact atField_mapField _ fun values => atElements_mapElements values ofArgs
  | member span object property =>
    rw [Refers, substitute]
    have inside := agree.mono (List.subset_cons_self ..)
    exact atNode_referenceOr agree (fun json => atField_mapField json (refers_substitute object inside)) json
  | array span elements =>
    rw [Refers, substitute]
    have inside := agree.mono (List.subset_cons_self ..)
    exact atNode_referenceOr agree
      (fun json => atElements_mapElements json (refersAll_substituteElements elements inside)) json
  | object span properties =>
    rw [Refers, substitute]
    have inside := agree.mono (List.subset_cons_self ..)
    exact atNode_referenceOr agree (refersProperties_substituteProperties properties inside) json
  | paren span inner =>
    rw [Refers, substitute]
    have inside := agree.mono (List.subset_cons_self ..)
    exact atNode_referenceOr agree (refers_substitute inner inside) json
  | _ =>
    rw [Refers, substitute]
    exact atNode_referenceOr_id agree json

theorem refersAll_substituteElements (list : List Expr) (agree : requests.Agree bound (Expr.walkAll list))
    (values : List Json) : RefersAll bound list values (substituteElements requests list values) := by
  cases list with
  | nil => rfl
  | cons e rest =>
    cases values with
    | nil => rfl
    | cons value values =>
      have here := refers_substitute e (agree.mono (List.subset_append_left ..)) value
      have others := refersAll_substituteElements rest (agree.mono (List.subset_append_right ..)) values
      cases e with
      | spread span inner => rfl
      | _ => exact ⟨_, _, rfl, here, others⟩

theorem refersProperties_substituteProperties (properties : List Property)
    (agree : requests.Agree bound (Property.walkAll properties)) (json : Json) :
    RefersProperties bound properties json (substituteProperties requests properties json) := by
  cases properties with
  | nil => rfl
  | cons property rest =>
    have others := refersProperties_substituteProperties rest (agree.mono (List.subset_append_right ..))
    cases property with
    | keyValue key value =>
      have here := refers_substitute value
        (agree.mono (List.subset_append_of_subset_left _ (List.subset_append_right ..)))
      rw [RefersProperties, substituteProperties]
      cases key.text? with
      | none => exact ⟨json, rfl, others json⟩
      | some name => exact ⟨_, atField_mapField json here, others _⟩
    | shorthand name => exact others json
    | spread value => exact others json

end

/-! ## Members -/

/-- The expressions whose metadata is that of a declaration. -/
def Declared.roots : Declared → List Expr
  | .ofClass c => c.decorators
  | .ofVariable d => d.init.toList

theorem walk_subset_of_declared? {u : SourceUnit} {name : String} {declared : Declared}
    (found : declared? u name = some declared) : ∀ e ∈ declared.roots, e.walk ⊆ u.items.walk := by
  intro e root n inside
  obtain ⟨item, member, found⟩ := List.exists_of_findSome?_eq_some found
  refine List.mem_flatMap.mpr ⟨item, member, ?_⟩
  have ofClass {c : ClassDecl} (same : (if c.name = name then some (Declared.ofClass c) else none) = some declared) :
      n ∈ c.walk := by
    obtain rfl := Option.some.inj (Option.ite_none_right_eq_some.mp same).2
    rw [ClassDecl.walk, walkAll_eq_flatMap, List.append_assoc]
    exact List.mem_append_left _ (List.mem_flatMap.mpr ⟨e, root, inside⟩)
  have ofVariable {d : VarDecl}
      (same : (if d.name = name then some (Declared.ofVariable d) else none) = some declared) : n ∈ d.walk := by
    obtain rfl := Option.some.inj (Option.ite_none_right_eq_some.mp same).2
    rw [VarDecl.walk, ← flatMap_toList]
    exact List.mem_flatMap.mpr ⟨e, root, inside⟩
  cases value : item.value with
  | decl d =>
    rw [value] at found
    cases d with
    | classDecl c => exact ofClass found
    | «variable» d => exact ofVariable found
    | _ => cases found
  | exportDecl d =>
    rw [value] at found
    cases d with
    | classDecl c => exact ofClass found
    | «variable» d => exact ofVariable found
    | _ => cases found
  | stmt statement =>
    rw [value] at found
    cases statement with
    | «variable» d => exact ofVariable found
    | _ => cases found
  | _ =>
    rw [value] at found
    cases found

theorem getElem?_zipWith_append_drop {α β : Type} (f : α → β → β) (as : List α) (bs : List β) (i : Nat) :
    (List.zipWith f as bs ++ bs.drop as.length)[i]? =
      match as[i]? with
      | some a => bs[i]?.map (f a)
      | none => bs[i]? := by
  induction as generalizing bs i with
  | nil => rfl
  | cons a as ih =>
    cases bs with
    | nil => cases (a :: as)[i]? <;> rfl
    | cons b bs =>
      cases i with
      | zero => rfl
      | succ i => exact ih bs i

theorem AtField.imp {name : String} {change change' : Json → Json → Prop} {json made : Json}
    (weaker : ∀ value value', change value value' → change' value value') (at' : AtField name change json made) :
    AtField name change' json made := by
  cases at' with
  | changed found changes others => exact .changed found (weaker _ _ changes) others
  | missing absent => exact .missing absent
  | other plain => exact .other plain

theorem AtEntries.imp {change change' : String → Json → Json → Prop} {json made : Json}
    (weaker : ∀ name value value', change name value value' → change' name value value')
    (at' : AtEntries change json made) : AtEntries change' json made := by
  cases at' with
  | changed changes => exact .changed (changes.imp fun _ _ same => ⟨same.1, weaker _ _ _ same.2⟩)
  | other plain => exact .other plain

theorem atEntries_self {change : String → Json → Json → Prop} (json : Json)
    (changes : ∀ name value, change name value value) : AtEntries change json json := by
  cases json with
  | object fields => exact .changed (List.forall₂_same.mpr fun entry _ => ⟨rfl, changes entry.1 entry.2⟩)
  | _ => exact .other fun fields same => by cases same

theorem atField_self {name : String} {change : Json → Json → Prop} (json : Json)
    (changes : ∀ value, change value value) : AtField name change json json := by
  cases json with
  | object fields =>
    cases found : Table.get? fields name with
    | some value =>
      refine .changed found (changes value) fun other => ?_
      split
      case isTrue same => rw [← same, found]
      case isFalse => rfl
    | none => exact .missing found
  | _ => exact .other fun fields same => by cases same

theorem atElements_self {change : List Json → List Json → Prop} (json : Json)
    (changes : ∀ elements, change elements elements) : AtElements change json json := by
  cases json with
  | array elements => exact .changed (changes elements)
  | _ => exact .other fun elements same => by cases same

theorem refers_self {e : Expr} (free : ∀ n ∈ e.walk, ∀ name, ¬ bound name n) (json : Json) :
    Refers bound e json json := by
  cases e <;> exact .nothing free

/-- Where no node is bound, metadata may stay as it is. -/
theorem refersMember_self {u : SourceUnit} (free : ∀ n ∈ u.items.walk, ∀ name, ¬ bound name n) (name : String)
    (json : Json) : RefersMember bound u name json json := by
  unfold RefersMember
  cases found : declared? u name with
  | none => rfl
  | some declared =>
    have inside (e : Expr) (root : e ∈ declared.roots) (value : Json) : Refers bound e value value :=
      refers_self (fun n member => free n (walk_subset_of_declared? found e root member)) value
    cases declared with
    | ofClass c =>
      refine atField_self json fun value => atElements_self value fun entries => ⟨rfl, ?_⟩
      intro i entry entry' before after
      obtain rfl := Option.some.inj (before.symm.trans after)
      cases decorator : c.decorators[i]? with
      | none => rfl
      | some e => exact inside e (List.mem_of_getElem? decorator) entry
    | ofVariable d =>
      dsimp only
      cases init : d.init with
      | none => rfl
      | some e =>
        refine inside e ?_ json
        rw [Declared.roots, init]
        exact List.mem_singleton_self e

/-- The metadata of a member refers to what is bound. -/
theorem refersMember_lowerMember {u : SourceUnit} (agree : requests.Agree bound u.items.walk) (name : String)
    (json : Json) : RefersMember bound u name json (lowerMember requests u name json) := by
  unfold RefersMember lowerMember
  cases found : declared? u name with
  | none => rfl
  | some declared =>
    cases declared with
    | ofClass c =>
      refine atField_mapField json fun value => atElements_mapElements value fun entries => ⟨?_, ?_⟩
      · rw [List.length_append, List.length_zipWith, List.length_drop]
        omega
      · intro i entry entry' before after
        rw [getElem?_zipWith_append_drop, before] at after
        cases decorator : c.decorators[i]? with
        | none =>
          rw [decorator] at after
          exact (Option.some.inj after).symm
        | some e =>
          rw [decorator] at after
          obtain rfl := Option.some.inj after
          have inside := walk_subset_of_declared? found e (List.mem_of_getElem? decorator)
          exact refers_substitute e (agree.mono inside) entry
    | ofVariable d =>
      dsimp only
      cases init : d.init with
      | none => rfl
      | some e =>
        have root : e ∈ (Declared.ofVariable d).roots := by
          rw [Declared.roots, init]
          exact List.mem_singleton_self e
        exact refers_substitute e (agree.mono (walk_subset_of_declared? found e root)) json

end CompanionBuild.Lowering
