import CompanionBuild.Proofs.Determined
import CompanionBuild.Proofs.Related
import CompanionBuild.Proofs.Table
import CompanionBuild.Resource.Metadata

/-! # Arguments made of texts

An object literal whose keys are static and whose values are texts or lists of texts is a list of entries, and so is the
JSON object that mirrors it. What either inlining makes of an argument can be said about its entries.
-/

namespace CompanionBuild

/-- A value made of texts. -/
inductive TextValue where
  | text (content : String)
  | list (contents : List String)
deriving DecidableEq, Repr

namespace TextValue

def json : TextValue → Json
  | .text content => .text content
  | .list contents => .array (contents.map .text)

def text? : TextValue → Option String
  | .text content => some content
  | .list _ => none

/-- The members of a list. -/
def texts : TextValue → List String
  | .text _ => []
  | .list contents => contents

theorem json_injective : Function.Injective json := by
  intro value other same
  cases value with
  | text content =>
    cases other with
    | text content' => exact congrArg text (Json.text.inj same)
    | list contents' => cases same
  | list contents =>
    cases other with
    | text content' => cases same
    | list contents' =>
      exact congrArg list (List.map_injective_iff.mpr (fun _ _ => Json.text.inj) (Json.array.inj same))

end TextValue

/-- The value of a string literal or of an array of string literals. -/
def Expr.textValue? : Expr → Option TextValue
  | .array _ elements => (elements.mapM stringLiteral?).map .list
  | expr => expr.stringLiteral?.map .text

theorem Expr.textValue?_cases {expr : Expr} {value : TextValue} (reads : expr.textValue? = some value) :
    (∃ span elements texts, expr = .array span elements ∧ elements.mapM stringLiteral? = some texts ∧
      value = .list texts) ∨
    ∃ span literal content, expr = .literal span literal ∧ expr.stringLiteral? = some content ∧
      value = .text content := by
  cases expr with
  | array span elements =>
    obtain ⟨texts, isTexts, rfl⟩ := Option.map_eq_some_iff.mp reads
    exact .inl ⟨span, elements, texts, rfl, isTexts, rfl⟩
  | literal span literal =>
    obtain ⟨content, isText, rfl⟩ := Option.map_eq_some_iff.mp reads
    exact .inr ⟨span, literal, content, rfl, isText, rfl⟩
  | _ => cases reads

/-- A name with a value made of texts. -/
abbrev TextEntry := String × TextValue

/-- A property with a static key whose value is made of texts. -/
def Property.pair? : Property → Option TextEntry
  | .keyValue key value => do some (← key.text?, ← value.textValue?)
  | _ => none

namespace TextEntry

/-- The entries of an object literal that is made of texts. -/
def ofProperties? (properties : List Property) : Option (List TextEntry) :=
  properties.mapM Property.pair?

theorem ofProperties?_append {properties others : List Property} {entries entries' : List TextEntry}
    (first : ofProperties? properties = some entries) (second : ofProperties? others = some entries') :
    ofProperties? (properties ++ others) = some (entries ++ entries') := by
  rw [ofProperties?] at first second
  rw [ofProperties?, List.mapM_append, first, second]
  rfl

/-- The fields of the JSON object that mirrors some entries. -/
def fields (entries : List TextEntry) : Table Json :=
  .ofList (entries.map fun entry => (entry.1, entry.2.json))

/-- The JSON object that mirrors some entries. -/
def mirror (entries : List TextEntry) : Json :=
  .object (fields entries)

theorem get?_fields (entries : List TextEntry) (name : String) :
    (fields entries).get? name = (Table.valueAt entries name).map TextValue.json := by
  rw [fields, Table.get?_ofList, Table.valueAt, Table.valuesAt_map, List.getLast?_map]
  rfl

theorem put_fields (entries : List TextEntry) (name : String) (value : TextValue) :
    (fields entries).put name value.json = fields (entries ++ [(name, value)]) := by
  rw [fields, Table.put_ofList, fields, List.map_append]
  rfl

theorem remove_fields (entries : List TextEntry) (name : String) :
    (fields entries).remove name = fields (entries.filter (·.1 ≠ name)) := by
  rw [fields, Table.remove_ofList, fields, List.filter_map]
  rfl

/-- Objects are the same if every name has the same value in both. -/
theorem mirror_eq_iff {entries others : List TextEntry} :
    mirror entries = mirror others ↔ ∀ name, Table.valueAt entries name = Table.valueAt others name := by
  constructor
  · intro same name
    have found := congrArg (Table.get? · name) (Json.object.inj same)
    simp only [get?_fields] at found
    exact Option.map_injective TextValue.json_injective found
  · intro same
    refine congrArg Json.object ((Table.ordered_ofList _).eq (Table.ordered_ofList _) fun name => ?_)
    exact (get?_fields entries name).trans ((congrArg _ (same name)).trans (get?_fields others name).symm)

/-! ## What inlining makes of an entry -/

variable (loaded : String → Option String)

/-- An entry with what inlining needs: styles are lists, and the URLs can be loaded. -/
def resolves : TextEntry → Bool
  | (name, .text url) => name ≠ "styles" && name ≠ "styleUrls" && (name ≠ "templateUrl" || (loaded url).isSome)
  | (name, .list texts) => name ≠ "templateUrl" && (name ≠ "styleUrls" || texts.all fun url => (loaded url).isSome)

/-- The entries that stay in the place of an entry. -/
def kept (entry : TextEntry) : List TextEntry :=
  if entry.1 = "styles" ∨ entry.1 = "styleUrls" then []
  else if entry.1 = "templateUrl" then
    (entry.2.text?.bind loaded).toList.map fun text => ("template", .text text)
  else [entry]

/-- The styles that an entry contributes. -/
def styles (entry : TextEntry) : List String :=
  if entry.1 = "styles" then entry.2.texts
  else if entry.1 = "styleUrls" then entry.2.texts.filterMap loaded
  else []

/-- What becomes of an entry, unless it lacks what inlining needs. -/
def inlined? (entry : TextEntry) : Option (List TextEntry × List String) :=
  if entry.resolves loaded then some (entry.kept loaded, entry.styles loaded) else none

/-- What becomes of some entries, unless one of them lacks what inlining needs. -/
def allInlined? (entries : List TextEntry) : Option (List TextEntry × List String) :=
  if entries.all (resolves loaded) then some (entries.flatMap (kept loaded), entries.flatMap (styles loaded)) else none

/-- The one entry for all styles, none if there are none. -/
def ofStyles (styles : List String) : List TextEntry :=
  if styles.isEmpty then [] else [("styles", .list styles)]

/-- All that stays of some entries, with their styles at the end. -/
def assembled (entries : List TextEntry) : List TextEntry :=
  entries.flatMap (kept loaded) ++ ofStyles (entries.flatMap (styles loaded))

/-- The entries of an argument with its resources in place. -/
def argument? (entries : List TextEntry) : Option (List TextEntry) :=
  (allInlined? loaded entries).bind fun made => some (made.1 ++ ofStyles made.2)

theorem allInlined?_cons (entry : TextEntry) (rest : List TextEntry) :
    allInlined? loaded (entry :: rest) = (entry.inlined? loaded).bind fun here =>
      (allInlined? loaded rest).bind fun there => some (here.1 ++ there.1, here.2 ++ there.2) := by
  rw [inlined?, allInlined?, allInlined?, List.all_cons, List.flatMap_cons, List.flatMap_cons]
  cases entry.resolves loaded with
  | false => rfl
  | true => cases rest.all (resolves loaded) <;> rfl

variable {loaded}

theorem inlined?_styleUrls (urls : List String) :
    inlined? loaded ("styleUrls", .list urls) = (urls.mapM loaded).bind fun texts => some ([], texts) := by
  rw [mapM_eq_ite, inlined?,
    show resolves loaded ("styleUrls", .list urls) = urls.all fun url => (loaded url).isSome from rfl]
  cases urls.all fun url => (loaded url).isSome <;> rfl

theorem inlined?_templateUrl (url : String) :
    inlined? loaded ("templateUrl", .text url) =
      (loaded url).bind fun text => some ([("template", .text text)], []) := by
  rw [inlined?, kept, show resolves loaded ("templateUrl", .text url) = (loaded url).isSome from rfl]
  simp only [TextValue.text?, Option.bind_some]
  cases loaded url <;> rfl

theorem resolves_of_ne {entry : TextEntry} (notStyles : entry.1 ≠ "styles") (notUrls : entry.1 ≠ "styleUrls")
    (notTemplate : entry.1 ≠ "templateUrl") : entry.resolves loaded = true := by
  obtain ⟨name, value⟩ := entry
  cases value <;> simp_all [resolves]

theorem kept_of_ne {entry : TextEntry} (notStyles : entry.1 ≠ "styles") (notUrls : entry.1 ≠ "styleUrls")
    (notTemplate : entry.1 ≠ "templateUrl") : kept loaded entry = [entry] := by
  rw [kept, if_neg (not_or.mpr ⟨notStyles, notUrls⟩), if_neg notTemplate]

theorem inlined?_other {entry : TextEntry} (notStyles : entry.1 ≠ "styles") (notUrls : entry.1 ≠ "styleUrls")
    (notTemplate : entry.1 ≠ "templateUrl") : entry.inlined? loaded = some ([entry], []) := by
  rw [inlined?, if_pos (resolves_of_ne notStyles notUrls notTemplate), kept_of_ne notStyles notUrls notTemplate, styles,
    if_neg notStyles, if_neg notUrls]

end TextEntry

namespace Resource

variable {σ : Type} {load : String → ResourceM σ String} {state : σ}

/-- The texts that can be loaded in a state. -/
abbrev loadedIn (load : String → ResourceM σ String) (state : σ) (url : String) : Option String :=
  result? state (load url)

/-- Properties and styles that say what some entries and texts say. -/
def Mirrors (made : List Property × List Expr) (said : List TextEntry × List String) : Prop :=
  TextEntry.ofProperties? made.1 = some said.1 ∧ made.2.mapM Expr.stringLiteral? = some said.2

theorem Mirrors.append {made made' : List Property × List Expr} {said said' : List TextEntry × List String}
    (first : Mirrors made said) (second : Mirrors made' said') :
    Mirrors (made.1 ++ made'.1, made.2 ++ made'.2) (said.1 ++ said'.1, said.2 ++ said'.2) := by
  refine ⟨TextEntry.ofProperties?_append first.1 second.1, ?_⟩
  rw [List.mapM_append, first.2, second.2]
  rfl

variable (determined : ∀ url, Determined (load url))

include determined

theorem loadStyles_mirrors {elements : List Expr} {urls : List String}
    (reads : elements.mapM Expr.stringLiteral? = some urls) :
    Option.Rel (fun made texts => made.mapM Expr.stringLiteral? = some texts)
      (result? state (loadStyles load elements)) (urls.mapM (loadedIn load state)) := by
  induction elements generalizing urls with
  | nil =>
    cases reads
    exact .some rfl
  | cons element rest ih =>
    obtain ⟨url, others, isUrl, rest_reads, rfl⟩ := mapM_cons_eq_some.mp reads
    rw [loadStyles, isUrl, List.mapM_cons]
    dsimp only
    rw [result?_bind _ fun _ => Determined.composes.bind (Determined.composes.loadStyles determined _) fun _ =>
      Determined.composes.pure _]
    refine rel_bind (rel_eq _) fun text _ same => ?_
    subst same
    rw [result?_bind _ fun _ => Determined.composes.pure _]
    refine rel_bind (ih rest_reads) fun made texts same => .some ?_
    exact mapM_cons_eq_some.mpr ⟨text, texts, rfl, same, rfl⟩

theorem inlineProperty_mirrors {property : Property} {entry : TextEntry} (reads : property.pair? = some entry) :
    Option.Rel Mirrors (result? state (inlineProperty load property))
      (entry.inlined? (loadedIn load state)) := by
  cases property with
  | shorthand name => cases reads
  | spread value => cases reads
  | keyValue key value =>
    have alone : TextEntry.ofProperties? [.keyValue key value] = some [entry] :=
      mapM_cons_eq_some.mpr ⟨entry, [], reads, rfl, rfl⟩
    obtain ⟨name, isName, reads⟩ := Option.bind_eq_some_iff.mp reads
    obtain ⟨read, isValue, made⟩ := Option.bind_eq_some_iff.mp reads
    cases made
    unfold inlineProperty
    dsimp only
    rw [isName]
    obtain ⟨span, elements, texts, rfl, isTexts, rfl⟩ | ⟨span, literal, content, rfl, isText, rfl⟩ :=
      Expr.textValue?_cases isValue
    · split
      case h_1 named =>
        cases named
        exact .some ⟨rfl, isTexts⟩
      case h_2 named =>
        cases named
        dsimp only
        rw [result?_bind _ fun _ => Determined.composes.pure _, TextEntry.inlined?_styleUrls]
        exact rel_bind (loadStyles_mirrors determined isTexts) fun made styles same => .some ⟨rfl, same⟩
      case h_3 named =>
        cases named
        exact .none
      case h_4 notStyles notUrls notTemplate =>
        rw [TextEntry.inlined?_other (fun named => notStyles (congrArg some named))
          (fun named => notUrls (congrArg some named)) fun named => notTemplate (congrArg some named)]
        exact .some ⟨alone, rfl⟩
    · split
      case h_1 named =>
        cases named
        exact .none
      case h_2 named =>
        cases named
        exact .none
      case h_3 named =>
        cases named
        rw [isText]
        dsimp only
        rw [result?_bind _ fun _ => Determined.composes.pure _, TextEntry.inlined?_templateUrl]
        refine rel_bind (rel_eq _) fun text _ same => ?_
        subst same
        exact .some ⟨rfl, rfl⟩
      case h_4 notStyles notUrls notTemplate =>
        rw [TextEntry.inlined?_other (fun named => notStyles (congrArg some named))
          (fun named => notUrls (congrArg some named)) fun named => notTemplate (congrArg some named)]
        exact .some ⟨alone, rfl⟩

theorem inlineProperties_mirrors {properties : List Property} {entries : List TextEntry}
    (reads : TextEntry.ofProperties? properties = some entries) :
    Option.Rel Mirrors (result? state (inlineProperties load properties))
      (TextEntry.allInlined? (loadedIn load state) entries) := by
  induction properties generalizing entries with
  | nil =>
    cases reads
    exact .some ⟨rfl, rfl⟩
  | cons property rest ih =>
    obtain ⟨entry, others, here, there, rfl⟩ := mapM_cons_eq_some.mp reads
    rw [inlineProperties, result?_bind _ fun _ => Determined.composes.bind
      (Determined.composes.inlineProperties determined _) fun _ => Determined.composes.pure _]
    rw [TextEntry.allInlined?_cons]
    refine rel_bind (inlineProperty_mirrors determined here) fun made said first => ?_
    rw [result?_bind _ fun _ => Determined.composes.pure _]
    exact rel_bind (ih there) fun made' said' later => .some (first.append later)

theorem inlineArguments_mirrors {span : Span} {properties : List Property} {entries : List TextEntry}
    (reads : TextEntry.ofProperties? properties = some entries) :
    Option.Rel (fun made said => ∃ properties, made = [.object span properties] ∧
        TextEntry.ofProperties? properties = some said)
      (result? state (inlineArguments load [.object span properties]))
      (TextEntry.argument? (loadedIn load state) entries) := by
  rw [inlineArguments, result?_bind _ fun _ => Determined.composes.pure _]
  refine rel_bind (inlineProperties_mirrors determined reads) fun made said same => .some ⟨_, rfl, ?_⟩
  obtain ⟨kept, styles⟩ := made
  obtain ⟨kept', styles'⟩ := said
  obtain ⟨keptSame, stylesSame⟩ : _ ∧ styles.mapM Expr.stringLiteral? = some styles' := same
  refine TextEntry.ofProperties?_append keptSame ?_
  cases styles with
  | nil =>
    cases stylesSame
    rfl
  | cons style rest =>
    have whole : (Property.named "styles" (.array .synthetic (style :: rest))).pair? =
        some ("styles", .list styles') := by
      simp only [Property.named, Property.pair?, PropertyName.text?, Expr.textValue?, stylesSame]
      rfl
    obtain ⟨text, texts, -, -, rfl⟩ := mapM_cons_eq_some.mp stylesSame
    exact mapM_cons_eq_some.mpr ⟨_, [], whole, rfl, rfl⟩

end Resource

end CompanionBuild
