import CompanionBuild.Proofs.Resource.Arguments

/-! # Complete inlining

Inlining is complete when no property of a component argument names a resource by its URL any more and all styles are in
one property at the end. A property may have a name without having a key, as in `{ styles }`. Inlining goes by the keys,
so it is complete unless one of the names it looks for stands alone. Whether or not it is, nothing is left to be done a
second time.
-/

namespace CompanionBuild

/-- The name of a property as the text has it. -/
def Property.staticName? : Property → Option String
  | .keyValue key _ => key.text?
  | .shorthand name => some name
  | .spread _ => none

/-- The name of a property that is written with a value. -/
def Property.key? : Property → Option String
  | .keyValue key _ => key.text?
  | _ => none

namespace Resource

/-- The names of the properties that inlining takes away or gathers. -/
def resourceNames : List String := ["templateUrl", "styleUrls", "styles"]

/-- What is to become of a property: the properties in its place and the styles it contributes. How properties are named
is a parameter. -/
inductive Becomes (nameOf : Property → Option String) : Property → Log → List Property × List Expr → Prop where
  | template {key : PropertyName} {value : Expr} {url text : String} (named : key.text? = some "templateUrl")
      (literal : value.stringLiteral? = some url) :
      Becomes nameOf (.keyValue key value) [(url, text)] ([.named "template" (.literal value.span (.string text))], [])
  | styleUrls {key : PropertyName} {span : Span} {urls : List Expr} {log : Log} (named : key.text? = some "styleUrls")
      (literals : urls.map Expr.stringLiteral? = log.map fun entry => some entry.1) :
      Becomes nameOf (.keyValue key (.array span urls)) log ([], log.map fun entry => Expr.string entry.2)
  | styles {key : PropertyName} {span : Span} {elements : List Expr} (named : key.text? = some "styles") :
      Becomes nameOf (.keyValue key (.array span elements)) [] ([], elements)
  | other {property : Property} (plain : ∀ name ∈ resourceNames, nameOf property ≠ some name) :
      Becomes nameOf property [] ([property], [])

/-- What is to become of the properties of a component argument: each is replaced in its place, and the styles of all
come last. -/
def Assembled (nameOf : Property → Option String) (properties : List Property) (log : Log) (made : List Property) :
    Prop :=
  ∃ parts, InTurn (Becomes nameOf) properties log parts ∧
    made = parts.flatMap (·.1) ++ stylesProperty (parts.flatMap (·.2))

/-- The resources of a component argument are in place, whichever way its properties are written. -/
structure Completed (properties : List Property) (log : Log) (made : List Property) : Prop where
  assembled : Assembled Property.staticName? properties log made
  noUrls : ∀ property ∈ made, property.staticName? ≠ some "templateUrl" ∧ property.staticName? ≠ some "styleUrls"
  stylesLast : ∀ property ∈ made.dropLast, property.staticName? ≠ some "styles"

/-! ## What inlining makes of an object -/

section

variable {σ : Type} {load : String → ResourceM σ String}

theorem gives_loadStyles (urls : List Expr) : Gives load (loadStyles load urls) fun log styles =>
    urls.map Expr.stringLiteral? = log.map (fun entry => some entry.1) ∧
      styles = log.map fun entry => Expr.string entry.2 := by
  induction urls with
  | nil => exact .pure ⟨rfl, rfl⟩
  | cons url rest ih =>
    unfold loadStyles
    split
    · exact .throw _
    case h_2 address literal =>
      refine .bind (.loading address) fun text => ih.map fun log styles others before loaded => ?_
      obtain ⟨literals, rfl⟩ := others
      rw [loaded, List.map_cons, literal, literals]
      exact ⟨rfl, rfl⟩

theorem gives_inlineProperty (property : Property) :
    Gives load (inlineProperty load property) (Becomes Property.key? property) := by
  fun_cases inlineProperty load property with
  | case1 key named span elements => exact .pure (.styles named)
  | case2 => exact .throw _
  | case3 key named span urls =>
    refine (gives_loadStyles urls).map fun log styles loaded => ?_
    obtain ⟨literals, rfl⟩ := loaded
    exact .styleUrls named literals
  | case4 => exact .throw _
  | case5 key value named url literal =>
    refine (Gives.loading url).map fun log text loaded => ?_
    rw [loaded]
    exact .template named literal
  | case6 => exact .throw _
  | case7 key value notStyles notStyleUrls notTemplateUrl =>
    refine .pure (.other ?_)
    simpa [resourceNames, Property.key?] using ⟨notTemplateUrl, notStyleUrls, notStyles⟩
  | case8 property other =>
    refine .pure (.other fun name _ => ?_)
    cases property with
    | keyValue key value => exact (other key value rfl).elim
    | _ => exact (Option.some_ne_none name).symm

theorem gives_inlineProperties (properties : List Property) :
    Gives load (inlineProperties load properties) fun log made =>
      ∃ parts, InTurn (Becomes Property.key?) properties log parts ∧
        made = (parts.flatMap (·.1), parts.flatMap (·.2)) := by
  induction properties with
  | nil => exact .pure ⟨[], .nil, rfl⟩
  | cons property rest ih =>
    refine .bind (gives_inlineProperty property) fun part => ih.map fun log made others before first => ?_
    obtain ⟨parts, related, rfl⟩ := others
    exact ⟨part :: parts, .cons first related, rfl⟩

theorem gives_inlineObject (properties : List Property) :
    Gives load (inlineObject load properties) (Assembled Property.key? properties) := by
  refine (gives_inlineProperties properties).map fun log made assembled => ?_
  obtain ⟨parts, related, rfl⟩ := assembled
  exact ⟨parts, related, rfl⟩

theorem inlineProperty_of_plain {property : Property} (plain : ∀ name ∈ resourceNames, property.key? ≠ some name) :
    inlineProperty load property = pure ([property], []) := by
  unfold inlineProperty
  split
  case h_1 key value =>
    split
    case h_1 named => exact (plain "styles" (by decide) named).elim
    case h_2 named => exact (plain "styleUrls" (by decide) named).elim
    case h_3 named => exact (plain "templateUrl" (by decide) named).elim
    case h_4 => rfl
  case h_2 => rfl

/-- Properties that name no resources stay in front. -/
theorem inlineProperties_append {kept : List Property}
    (plain : ∀ property ∈ kept, ∀ name ∈ resourceNames, property.key? ≠ some name) (rest : List Property) :
    inlineProperties load (kept ++ rest) =
      inlineProperties load rest >>= fun made => pure (kept ++ made.1, made.2) := by
  induction kept with
  | nil => exact (bind_pure _).symm
  | cons property others ih =>
    obtain ⟨first, plain⟩ := List.forall_mem_cons.mp plain
    simp only [List.cons_append, inlineProperties, inlineProperty_of_plain first, ih plain, bind_assoc, pure_bind,
      List.nil_append]

end

/-! ## Assembled properties -/

section

variable {nameOf : Property → Option String} {properties made : List Property} {log : Log}

/-- What is left of the properties themselves names no resource. -/
theorem Assembled.exists_plain (named : ∀ value, nameOf (.named "template" value) = some "template")
    (assembled : Assembled nameOf properties log made) :
    ∃ kept styles, made = kept ++ stylesProperty styles ∧
      ∀ property ∈ kept, ∀ name ∈ resourceNames, nameOf property ≠ some name := by
  obtain ⟨parts, related, rfl⟩ := assembled
  refine ⟨_, _, rfl, fun property mem => ?_⟩
  obtain ⟨part, isPart, mem⟩ := List.mem_flatMap.mp mem
  obtain ⟨_, _, _, becomes⟩ := related.exists_of_mem isPart
  cases becomes with
  | template =>
    rw [List.mem_singleton.mp mem, named]
    decide
  | styleUrls => cases mem
  | styles => cases mem
  | other plain =>
    rw [List.mem_singleton.mp mem]
    exact plain

/-- Once the properties are assembled, nothing is left to be done. -/
theorem Assembled.settled (assembled : Assembled Property.key? properties log made) : Settled made := by
  intro σ load
  obtain ⟨kept, styles, rfl, plain⟩ := assembled.exists_plain fun _ => rfl
  -- The styles are taken from the last property and come back to it.
  have gathered : inlineProperties load (stylesProperty styles) = pure ([], styles) := by
    unfold stylesProperty
    split
    case isTrue empty =>
      rw [List.isEmpty_iff.mp empty]
      rfl
    case isFalse =>
      simp only [inlineProperties, inlineProperty, Property.named, PropertyName.text?, pure_bind, List.append_nil]
  rw [inlineObject, inlineProperties_append plain, gathered]
  simp only [pure_bind, List.append_nil]

theorem staticName?_ne_iff {property : Property} {name : String} :
    property.staticName? ≠ some name ↔ property.key? ≠ some name ∧ property ≠ .shorthand name := by
  cases property <;> simp [Property.staticName?, Property.key?]

/-- Going by names differs from going by keys where a name stands alone. -/
theorem becomes_staticName?_iff {property : Property} {part : List Property × List Expr} :
    Becomes Property.staticName? property log part ↔
      Becomes Property.key? property log part ∧ ∀ name ∈ resourceNames, property ≠ .shorthand name := by
  have valued (key : PropertyName) (value : Expr) :
      ∀ name ∈ resourceNames, Property.keyValue key value ≠ .shorthand name := fun _ _ => Property.noConfusion
  constructor
  · intro becomes
    cases becomes with
    | template named literal => exact ⟨.template named literal, valued _ _⟩
    | styleUrls named literals => exact ⟨.styleUrls named literals, valued _ _⟩
    | styles named => exact ⟨.styles named, valued _ _⟩
    | other plain =>
      exact ⟨.other fun name mem => (staticName?_ne_iff.mp (plain name mem)).1,
        fun name mem => (staticName?_ne_iff.mp (plain name mem)).2⟩
  · rintro ⟨becomes, alone⟩
    cases becomes with
    | template named literal => exact .template named literal
    | styleUrls named literals => exact .styleUrls named literals
    | styles named => exact .styles named
    | other plain => exact .other fun name mem => staticName?_ne_iff.mpr ⟨plain name mem, alone name mem⟩

theorem assembled_staticName?_iff : Assembled Property.staticName? properties log made ↔
    Assembled Property.key? properties log made ∧ ∀ name ∈ resourceNames, .shorthand name ∉ properties := by
  have alone : (∀ property ∈ properties, ∀ name ∈ resourceNames, property ≠ .shorthand name) ↔
      ∀ name ∈ resourceNames, .shorthand name ∉ properties := by
    refine ⟨fun each name isName mem => each _ mem name isName rfl, fun none property mem name isName same => ?_⟩
    exact none name isName (same ▸ mem)
  have becomes : Becomes Property.staticName? = fun property log part =>
      Becomes Property.key? property log part ∧ ∀ name ∈ resourceNames, property ≠ .shorthand name := by
    funext property log part
    exact propext becomes_staticName?_iff
  unfold Assembled
  rw [becomes, ← alone]
  simp only [InTurn.and_iff, and_right_comm, exists_and_right]

/-- Properties assembled by their names have no URLs left, and the styles come last. -/
theorem Assembled.completed (assembled : Assembled Property.staticName? properties log made) :
    Completed properties log made := by
  obtain ⟨kept, styles, same, plain⟩ := assembled.exists_plain fun _ => rfl
  have noUrls : ∀ property ∈ kept,
      property.staticName? ≠ some "templateUrl" ∧ property.staticName? ≠ some "styleUrls" :=
    fun property mem => ⟨plain property mem "templateUrl" (by decide), plain property mem "styleUrls" (by decide)⟩
  have noStyles : ∀ property ∈ kept, property.staticName? ≠ some "styles" :=
    fun property mem => plain property mem "styles" (by decide)
  unfold stylesProperty at same
  split at same
  · rw [List.append_nil] at same
    subst same
    exact ⟨assembled, noUrls, fun property mem => noStyles property (List.dropLast_subset _ mem)⟩
  · subst same
    refine ⟨assembled, fun property mem => ?_, fun property mem => ?_⟩
    · obtain mem | mem := List.mem_append.mp mem
      · exact noUrls property mem
      · rw [List.mem_singleton.mp mem]
        change some "styles" ≠ some "templateUrl" ∧ some "styles" ≠ some "styleUrls"
        decide
    · rw [List.dropLast_concat] at mem
      exact noStyles property mem

theorem completed_iff : Completed properties log made ↔
    Assembled Property.key? properties log made ∧ ∀ name ∈ resourceNames, .shorthand name ∉ properties :=
  ⟨fun completed => assembled_staticName?_iff.mp completed.assembled,
    fun assembled => (assembled_staticName?_iff.mpr assembled).completed⟩

end

/-! ## Units -/

/-- Inlining that succeeds has loaded the resources of the component arguments in their order and put each in its place;
nothing else has changed. It is complete if and only if none of the names it looks for stands alone in a component
argument, without a value. In any case inlining once more, with any host, loads nothing and changes nothing. -/
theorem inlining_complete_iff {σ : Type} (host : ResourceHost σ) (u made : SourceUnit) (state after : σ)
    (ran : (inlineUnit host u).run.run state = (.ok made, after)) :
    (∃ log, Loads (host.get u.name) state log after ∧
      Refilled (Assembled Property.key?) (hollowUnit u) log (hollowUnit made)) ∧
    ((∃ log, Loads (host.get u.name) state log after ∧ Refilled Completed (hollowUnit u) log (hollowUnit made)) ↔
      ∀ properties ∈ (hollowUnit u).arguments, ∀ name ∈ resourceNames, .shorthand name ∉ properties) ∧
    ∀ (τ : Type) (other : ResourceHost τ) (later : τ), (inlineUnit other made).run.run later = (.ok made, later) := by
  obtain ⟨log, loaded, refilled, -⟩ := gives_inlineUnit host u gives_inlineObject state made after ran
  -- What completeness asks for beyond what always holds is a condition on the unit alone.
  have completed : Completed = fun properties log made =>
      Assembled Property.key? properties log made ∧ ∀ name ∈ resourceNames, .shorthand name ∉ properties := by
    funext properties log made
    exact propext completed_iff
  refine ⟨⟨log, loaded, refilled⟩, ⟨?_, fun alone => ?_⟩, fun τ other later => ?_⟩
  · rintro ⟨log, -, refilled⟩
    rw [completed] at refilled
    exact (InTurn.and_iff.mp refilled.arguments).2
  · refine ⟨log, loaded, refilled.rest, ?_⟩
    rw [completed]
    exact InTurn.and_iff.mpr ⟨refilled.arguments, alone⟩
  · have settled : (hollowUnit made).Settled := fun properties mem => by
      obtain ⟨_, _, _, assembled⟩ := refilled.arguments.exists_of_mem mem
      exact assembled.settled
    rw [inlineUnit_of_settled settled]
    rfl

/-- A component argument with a style sheet, a template and one more property. -/
def badgeProperties (property : Property) : List Property := [
  .named "styleUrls" (.array ⟨22, 30, some 0⟩ [.literal ⟨23, 29, some 0⟩ (.string "./badge.css")]),
  .named "templateUrl" (.literal ⟨31, 40, some 0⟩ (.string "./badge.html")),
  property]

/-- A component argument with a template. -/
def badgeRecorded : List Property := [
  .named "templateUrl" (.literal ⟨61, 83, some 0⟩ (.template "./badge.html"))]

/-- A class with a component decorator and the record of another. -/
def badgeUnit (property : Property) : SourceUnit where
  name := "/badge.ts"
  text := ""
  isDeclaration := false
  items := [
    ⟨⟨0, 10, some 0⟩, .imports { specifiers := [.named "Component" none false], source := coreModule }⟩,
    ⟨⟨10, 90, some 0⟩, .exportDecl (.classDecl {
      name := "Badge"
      decorators := [.call ⟨11, 50, some 0⟩ (.ident ⟨11, 20, some 0⟩ "Component")
        [.object ⟨21, 49, some 0⟩ (badgeProperties property)]]
      members := [
        ⟨⟨51, 88, some 0⟩, .field {
          name := .ident "decorators"
          isStatic := true
          init := some (.array ⟨55, 87, some 0⟩ [.object ⟨56, 86, some 0⟩ [
            .named "type" (.ident ⟨57, 58, some 0⟩ "Component"),
            .named "args" (.array ⟨59, 85, some 0⟩ [.object ⟨60, 84, some 0⟩ badgeRecorded])]]) }⟩] })⟩]

def badgeHost : ResourceHost Unit :=
  .ofList [⟨"./badge.html", "/badge.html", some (.text "<b></b>")⟩, ⟨"./badge.css", "/badge.css", some (.text "b {}")⟩]

/-- Inline styles join those of the style sheet; styles that stand alone are overridden by them. -/
theorem badge_inlined :
    (∃ made, (inlineUnit badgeHost (badgeUnit (.named "styles" (.array .synthetic [.string "i {}"])))).run.run () =
        (.ok made, ()) ∧
      (hollowUnit made).arguments = [
        [.named "template" (.literal ⟨31, 40, some 0⟩ (.string "<b></b>")),
          .named "styles" (.array .synthetic [.string "b {}", .string "i {}"])],
        [.named "template" (.literal ⟨61, 83, some 0⟩ (.string "<b></b>"))]] ∧
      (∃ log, Loads (badgeHost.get "/badge.ts") () log () ∧
        Refilled Completed (hollowUnit (badgeUnit (.named "styles" (.array .synthetic [.string "i {}"])))) log
          (hollowUnit made)) ∧
      (inlineUnit (ResourceHost.ofList [] : ResourceHost Unit) made).run.run () = (.ok made, ())) ∧
    ∃ made, (inlineUnit badgeHost (badgeUnit (.shorthand "styles"))).run.run () = (.ok made, ()) ∧
      (hollowUnit made).arguments = [
        [.named "template" (.literal ⟨31, 40, some 0⟩ (.string "<b></b>")), .shorthand "styles",
          .named "styles" (.array .synthetic [.string "b {}"])],
        [.named "template" (.literal ⟨61, 83, some 0⟩ (.string "<b></b>"))]] ∧
      ¬∃ log, Loads (badgeHost.get "/badge.ts") () log () ∧
        Refilled Completed (hollowUnit (badgeUnit (.shorthand "styles"))) log (hollowUnit made) := by
  have arguments (property : Property) : (hollowUnit (badgeUnit property)).arguments =
      [badgeProperties property, badgeRecorded] := rfl
  constructor
  · refine ⟨_, rfl, rfl, ?_⟩
    obtain ⟨-, complete, again⟩ := inlining_complete_iff badgeHost
      (badgeUnit (.named "styles" (.array .synthetic [.string "i {}"]))) _ () () rfl
    refine ⟨complete.mpr ?_, again Unit _ ()⟩
    simp [arguments, badgeProperties, badgeRecorded, Property.named]
  · refine ⟨_, rfl, rfl, fun complete => ?_⟩
    obtain ⟨-, iff, -⟩ := inlining_complete_iff badgeHost (badgeUnit (.shorthand "styles")) _ () () rfl
    refine iff.mp complete (badgeProperties (.shorthand "styles")) ?_ "styles" (by decide) ?_
    · simp [arguments]
    · simp [badgeProperties]

end Resource

end CompanionBuild
