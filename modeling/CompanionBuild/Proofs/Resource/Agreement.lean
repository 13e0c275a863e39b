import CompanionBuild.Proofs.Resource.Mirror

/-! # Two inlinings of one argument

Resources are put in place in the argument of a decorator and in the metadata collected from it. For an argument made of
texts both read and load the same, and they give the same argument unless it is one of four kinds: an empty template URL,
a template written after its URL, styles that are all empty, and style URLs written before styles.
-/

namespace CompanionBuild

namespace TextEntry

open Table (valueAt valuesAt)

section Specification

variable (loaded : String → Option String) (entries : List TextEntry)

/-- The members of the list at a name. -/
def textsAt (name : String) : List String :=
  ((valueAt entries name).map TextValue.texts).getD []

/-- The styles written in place. -/
def writtenStyles : List String :=
  textsAt entries "styles"

/-- The styles that come from URLs. -/
def loadedStyles : List String :=
  (textsAt entries "styleUrls").filterMap loaded

/-- The template that comes from a URL. -/
def loadedTemplate? : Option TextValue :=
  (((valueAt entries "templateUrl").bind TextValue.text?).bind loaded).map .text

/-- An argument on which the order and the emptiness of its entries make no difference. -/
structure Harmless : Prop where
  /-- A template URL is not empty. -/
  url : valueAt entries "templateUrl" ≠ some (.text "")
  /-- A template after its URL is what the URL loads. -/
  template : ["templateUrl", "template"].Sublist (entries.map (·.1)) →
    valueAt entries "template" = loadedTemplate? loaded entries
  /-- Styles are not all empty. -/
  styles : "styles" ∈ entries.map (·.1) ∨ "styleUrls" ∈ entries.map (·.1) →
    writtenStyles entries ++ loadedStyles loaded entries ≠ []
  /-- URLs of styles before styles load what could as well stand after them. -/
  order : ["styleUrls", "styles"].Sublist (entries.map (·.1)) →
    loadedStyles loaded entries ++ writtenStyles entries = writtenStyles entries ++ loadedStyles loaded entries

end Specification

/-! ## The literal -/

section Literal

variable {loaded : String → Option String} {entries : List TextEntry}

/-- The value at a name, if there is one, has what inlining needs. -/
def resolvesAt (loaded : String → Option String) (entries : List TextEntry) (name : String) : Bool :=
  (valueAt entries name).all fun value => resolves loaded (name, value)

theorem all_resolves_iff (distinct : (entries.map (·.1)).Nodup) :
    entries.all (resolves loaded) = true ↔
      (resolvesAt loaded entries "styles" = true ∧ resolvesAt loaded entries "styleUrls" = true) ∧
        resolvesAt loaded entries "templateUrl" = true := by
  have at_iff (name : String) : resolvesAt loaded entries name = true ↔
      ∀ entry ∈ entries, entry.1 = name → entry.resolves loaded = true := by
    rw [resolvesAt, Option.all_eq_true]
    constructor
    · intro all entry member named
      subst named
      exact all entry.2 ((Table.mem_iff_valueAt distinct).mp member)
    · intro all value found
      exact all (name, value) ((Table.mem_iff_valueAt distinct).mpr found) rfl
  rw [List.all_eq_true, at_iff, at_iff, at_iff]
  constructor
  · intro all
    exact ⟨⟨fun entry member _ => all entry member, fun entry member _ => all entry member⟩,
      fun entry member _ => all entry member⟩
  · rintro ⟨⟨styles, urls⟩, template⟩ entry member
    by_cases isStyles : entry.1 = "styles"
    · exact styles entry member isStyles
    by_cases isUrls : entry.1 = "styleUrls"
    · exact urls entry member isUrls
    by_cases isTemplate : entry.1 = "templateUrl"
    · exact template entry member isTemplate
    · exact resolves_of_ne isStyles isUrls isTemplate

theorem flatMap_styles (distinct : (entries.map (·.1)).Nodup) :
    entries.flatMap (styles loaded) =
      if ["styleUrls", "styles"].Sublist (entries.map (·.1)) then loadedStyles loaded entries ++ writtenStyles entries
      else writtenStyles entries ++ loadedStyles loaded entries := by
  have written : (valueAt entries "styles").toList.flatMap (fun value => styles loaded ("styles", value)) =
      writtenStyles entries := by
    rw [writtenStyles, textsAt]
    cases valueAt entries "styles" <;> simp [styles]
  have loads : (valueAt entries "styleUrls").toList.flatMap (fun value => styles loaded ("styleUrls", value)) =
      loadedStyles loaded entries := by
    rw [loadedStyles, textsAt]
    cases valueAt entries "styleUrls" <;> simp [styles]
  rw [Table.flatMap_of_two distinct (by decide : "styles" ≠ "styleUrls"), written, loads]
  intro entry notStyles notUrls
  rw [styles, if_neg notStyles, if_neg notUrls]

/-- What stays in the place of an entry is the entry itself or a template. -/
theorem mem_kept {entry made : TextEntry} (member : made ∈ kept loaded entry) :
    (made = entry ∧ entry.1 ∉ ["styles", "styleUrls", "templateUrl"]) ∨
      (made.1 = "template" ∧ entry.1 = "templateUrl") := by
  rw [kept] at member
  split at member
  · cases member
  · split at member
    case isTrue named =>
      obtain ⟨text, -, rfl⟩ := List.mem_map.mp member
      exact .inr ⟨rfl, named⟩
    case isFalse =>
      refine .inl ⟨List.mem_singleton.mp member, ?_⟩
      simp_all

theorem valuesAt_kept_eq_nil {entry : TextEntry} {name : String} (other : entry.1 ≠ name)
    (notTemplate : name = "template" → entry.1 ≠ "templateUrl") : valuesAt (kept loaded entry) name = [] := by
  rw [Table.valuesAt_eq_nil_iff]
  rintro found
  obtain ⟨made, member, rfl⟩ := List.mem_map.mp found
  obtain ⟨rfl, -⟩ | ⟨isTemplate, isUrl⟩ := mem_kept member
  · exact other rfl
  · exact notTemplate isTemplate isUrl

/-- What stays of an argument holds no styles and no URLs. -/
theorem valueAt_kept_eq_none {name : String} (gone : name ∈ ["styles", "styleUrls", "templateUrl"]) :
    valueAt (entries.flatMap (kept loaded)) name = none := by
  rw [Table.valueAt_eq_none_iff]
  intro found
  obtain ⟨made, member, rfl⟩ := List.mem_map.mp found
  obtain ⟨entry, -, member⟩ := List.mem_flatMap.mp member
  obtain ⟨rfl, stays⟩ | ⟨isTemplate, -⟩ := mem_kept member
  · exact stays gone
  · rw [isTemplate] at gone
    revert gone
    decide

/-- Of a template and its URL the later one counts. -/
theorem valueAt_kept_template (distinct : (entries.map (·.1)).Nodup) :
    valueAt (entries.flatMap (kept loaded)) "template" =
      if ["templateUrl", "template"].Sublist (entries.map (·.1)) then
        (valueAt entries "template").or (loadedTemplate? loaded entries)
      else (loadedTemplate? loaded entries).or (valueAt entries "template") := by
  have written : (valueAt entries "template").toList.flatMap
      (fun value => valuesAt (kept loaded ("template", value)) "template") = (valueAt entries "template").toList := by
    cases valueAt entries "template" <;> rfl
  have loads : (valueAt entries "templateUrl").toList.flatMap
      (fun value => valuesAt (kept loaded ("templateUrl", value)) "template") =
        (loadedTemplate? loaded entries).toList := by
    rw [loadedTemplate?]
    cases valueAt entries "templateUrl" with
    | none => rfl
    | some value =>
      simp only [Option.toList_some, List.flatMap_singleton, Option.bind_some, kept]
      cases value.text?.bind loaded <;> rfl
  rw [valueAt, Table.valuesAt_flatMap,
    Table.flatMap_of_two distinct (by decide : "template" ≠ "templateUrl")
      fun entry notTemplate notUrl => valuesAt_kept_eq_nil notTemplate fun _ => notUrl,
    written, loads]
  have last (value : Option TextValue) : value.toList.getLast? = value := by
    cases value <;> rfl
  split <;> rw [List.getLast?_append, last, last]

theorem valueAt_kept_other (distinct : (entries.map (·.1)).Nodup) {name : String}
    (other : name ∉ ["styles", "styleUrls", "templateUrl"]) (notTemplate : name ≠ "template") :
    valueAt (entries.flatMap (kept loaded)) name = valueAt entries name := by
  rw [valueAt, Table.valuesAt_flatMap, Table.flatMap_of_one distinct fun entry different =>
    valuesAt_kept_eq_nil different fun named => (notTemplate named).elim]
  simp only [List.mem_cons, not_or, List.not_mem_nil, not_false_eq_true, and_true] at other
  obtain ⟨notStyles, notUrls, notUrl⟩ := other
  cases valueAt entries name with
  | none => rfl
  | some value => simp [kept_of_ne, notStyles, notUrls, notUrl, Table.valuesAt]

theorem valueAt_ofStyles (styles : List String) (name : String) :
    valueAt (ofStyles styles) name = if name = "styles" ∧ styles ≠ [] then some (.list styles) else none := by
  cases styles with
  | nil => simp [ofStyles, valueAt, valuesAt]
  | cons style rest => simp [ofStyles, Table.valueAt_singleton, eq_comm]

end Literal

/-! ## The metadata -/

section Metadata

variable (loaded : String → Option String) (entries : List TextEntry)

/-- The entries with the template in place of its URL. -/
def templated : List TextEntry :=
  match loadedTemplate? loaded entries with
  | some template => (entries ++ [("template", template)]).filter (·.1 ≠ "templateUrl")
  | none => entries

/-- The entries with all styles at one name, if there are any. -/
def restyled : List TextEntry :=
  if writtenStyles entries ++ loadedStyles loaded entries = [] then entries
  else
    (entries ++ [("styles", TextValue.list (writtenStyles entries ++ loadedStyles loaded entries))]).filter
      (·.1 ≠ "styleUrls")

theorem valueAt_templated (name : String) :
    valueAt (templated loaded entries) name =
      if name = "template" then (loadedTemplate? loaded entries).or (valueAt entries name)
      else if name = "templateUrl" ∧ (loadedTemplate? loaded entries).isSome then none
      else valueAt entries name := by
  rw [templated]
  split
  case h_1 template loads =>
    rw [Table.valueAt_filter_ne, Table.valueAt_append, Table.valueAt_singleton, loads]
    by_cases isTemplate : name = "template"
    · subst isTemplate
      rfl
    · simp [isTemplate, Ne.symm isTemplate, eq_comm]
  case h_2 loads =>
    rw [loads]
    split
    · rfl
    · simp

theorem valueAt_restyled (name : String) :
    valueAt (restyled loaded entries) name =
      if writtenStyles entries ++ loadedStyles loaded entries = [] then valueAt entries name
      else if name = "styles" then some (.list (writtenStyles entries ++ loadedStyles loaded entries))
      else if name = "styleUrls" then none
      else valueAt entries name := by
  rw [restyled]
  split
  · rfl
  · rw [Table.valueAt_filter_ne, Table.valueAt_append, Table.valueAt_singleton]
    by_cases isStyles : name = "styles"
    · subst isStyles
      rfl
    · simp [isStyles, Ne.symm isStyles, eq_comm]

variable {loaded entries}

theorem valueAt_templated_of_ne {name : String} (notTemplate : name ≠ "template") (notUrl : name ≠ "templateUrl") :
    valueAt (templated loaded entries) name = valueAt entries name := by
  rw [valueAt_templated, if_neg notTemplate, if_neg fun gone => notUrl gone.1]

theorem writtenStyles_templated : writtenStyles (templated loaded entries) = writtenStyles entries := by
  rw [writtenStyles, textsAt, valueAt_templated_of_ne (by decide) (by decide)]
  rfl

theorem loadedStyles_templated : loadedStyles loaded (templated loaded entries) = loadedStyles loaded entries := by
  rw [loadedStyles, textsAt, valueAt_templated_of_ne (by decide) (by decide)]
  rfl

/-- The metadata of an argument with its resources in place; an empty template URL counts as none. -/
def metadata? (loaded : String → Option String) (entries : List TextEntry) : Option (List TextEntry) :=
  if resolvesAt loaded entries "styles" && resolvesAt loaded entries "styleUrls" then
    if valueAt entries "templateUrl" = some (.text "") then some (restyled loaded entries)
    else if resolvesAt loaded entries "templateUrl" then some (restyled loaded (templated loaded entries))
    else none
  else none

end Metadata

/-! ## Comparison -/

section Comparison

variable {loaded : String → Option String} {entries : List TextEntry}

theorem valueAt_url_or_isSome (resolved : resolvesAt loaded entries "templateUrl" = true) :
    valueAt entries "templateUrl" = none ∨ (loadedTemplate? loaded entries).isSome = true := by
  rw [resolvesAt] at resolved
  rw [loadedTemplate?]
  cases found : valueAt entries "templateUrl" with
  | none => exact .inl rfl
  | some value =>
    rw [found] at resolved
    cases value with
    | list urls => cases resolved
    | text url =>
      have loads : (loaded url).isSome = true := resolved
      exact .inr (by simpa [TextValue.text?] using loads)

/-- The styles of an argument come last, all in one entry. -/
theorem valueAt_assembled (name : String) :
    valueAt (assembled loaded entries) name =
      if name = "styles" ∧ entries.flatMap (styles loaded) ≠ [] then some (.list (entries.flatMap (styles loaded)))
      else valueAt (entries.flatMap (kept loaded)) name := by
  rw [assembled, Table.valueAt_append, valueAt_ofStyles]
  split <;> rfl

theorem valueAt_metadata (name : String) :
    valueAt (restyled loaded (templated loaded entries)) name =
      if writtenStyles entries ++ loadedStyles loaded entries = [] then valueAt (templated loaded entries) name
      else if name = "styles" then some (.list (writtenStyles entries ++ loadedStyles loaded entries))
      else if name = "styleUrls" then none
      else valueAt (templated loaded entries) name := by
  rw [valueAt_restyled, writtenStyles_templated, loadedStyles_templated]

/-- Two results are the same object, without any URL. -/
def Same (made said : List TextEntry) : Prop :=
  mirror made = mirror said ∧ ∀ name ∈ ["templateUrl", "styleUrls"], name ∉ said.map (·.1)

theorem not_mem_assembled (name : String) (gone : name ∈ ["templateUrl", "styleUrls"]) :
    name ∉ (assembled loaded entries).map (·.1) := by
  have notStyles : name ≠ "styles" := fun isStyles => by
    subst isStyles
    revert gone
    decide
  rw [← Table.valueAt_eq_none_iff, valueAt_assembled, if_neg fun isStyles => notStyles isStyles.1]
  refine valueAt_kept_eq_none ?_
  simp only [List.mem_cons, List.not_mem_nil, or_false] at gone ⊢
  exact .inr gone.symm

variable (distinct : (entries.map (·.1)).Nodup)

include distinct

theorem template_eq_iff (resolved : resolvesAt loaded entries "templateUrl" = true) :
    valueAt (restyled loaded (templated loaded entries)) "template" =
        valueAt (assembled loaded entries) "template" ↔
      (["templateUrl", "template"].Sublist (entries.map (·.1)) →
        valueAt entries "template" = loadedTemplate? loaded entries) := by
  have made : valueAt (restyled loaded (templated loaded entries)) "template" =
      (loadedTemplate? loaded entries).or (valueAt entries "template") := by
    rw [valueAt_metadata, valueAt_templated]
    split <;> rfl
  rw [made, valueAt_assembled, if_neg fun isStyles => absurd isStyles.1 (by decide), valueAt_kept_template distinct]
  by_cases before : ["templateUrl", "template"].Sublist (entries.map (·.1))
  · obtain ⟨own, written⟩ : ∃ own, valueAt entries "template" = some own :=
      Option.ne_none_iff_exists'.mp fun none => Table.valueAt_eq_none_iff.mp none (before.mem (by simp))
    have named : valueAt entries "templateUrl" ≠ none := fun none =>
      Table.valueAt_eq_none_iff.mp none (before.mem (by simp))
    obtain ⟨template, loads⟩ := Option.isSome_iff_exists.mp ((valueAt_url_or_isSome resolved).resolve_left named)
    rw [if_pos before, loads, written]
    simp [before, eq_comm]
  · simp [before]

theorem styles_eq_iff :
    (∀ name ∈ ["styles", "styleUrls"], valueAt (restyled loaded (templated loaded entries)) name =
        valueAt (assembled loaded entries) name) ↔
      ("styles" ∈ entries.map (·.1) ∨ "styleUrls" ∈ entries.map (·.1) →
          writtenStyles entries ++ loadedStyles loaded entries ≠ []) ∧
        (["styleUrls", "styles"].Sublist (entries.map (·.1)) →
          loadedStyles loaded entries ++ writtenStyles entries =
            writtenStyles entries ++ loadedStyles loaded entries) := by
  have urls : valueAt (assembled loaded entries) "styleUrls" = none := by
    rw [valueAt_assembled, if_neg fun isStyles => absurd isStyles.1 (by decide), valueAt_kept_eq_none (by decide)]
  have styles : valueAt (assembled loaded entries) "styles" =
      if entries.flatMap (styles loaded) = [] then none else some (.list (entries.flatMap (styles loaded))) := by
    rw [valueAt_assembled, valueAt_kept_eq_none (by decide)]
    by_cases none : entries.flatMap (styles loaded) = []
    · rw [if_pos none, if_neg fun some => some.2 none]
    · rw [if_neg none, if_pos ⟨rfl, none⟩]
  rw [List.forall_mem_cons, List.forall_mem_singleton, urls, styles, flatMap_styles distinct, valueAt_metadata,
    valueAt_metadata, valueAt_templated_of_ne (by decide) (by decide), valueAt_templated_of_ne (by decide) (by decide)]
  by_cases empty : writtenStyles entries ++ loadedStyles loaded entries = []
  · obtain ⟨noneWritten, noneLoaded⟩ := List.append_eq_nil_iff.mp empty
    simp [noneWritten, noneLoaded, Table.valueAt_eq_none_iff]
  · by_cases before : ["styleUrls", "styles"].Sublist (entries.map (·.1))
    · have swapped : loadedStyles loaded entries ++ writtenStyles entries ≠ [] := fun none =>
        empty (List.append_eq_nil_iff.mpr (List.append_eq_nil_iff.mp none).symm)
      rw [if_neg empty, if_neg empty, if_pos before, if_neg swapped]
      simp [empty, before, eq_comm]
    · simp [empty, before]

/-- The two results are the same on harmless arguments only. -/
theorem mirror_eq_iff_harmless (url : valueAt entries "templateUrl" ≠ some (.text ""))
    (resolved : resolvesAt loaded entries "templateUrl" = true) :
    mirror (restyled loaded (templated loaded entries)) =
        mirror (assembled loaded entries) ↔
      Harmless loaded entries := by
  have template := template_eq_iff distinct resolved
  have styles := @styles_eq_iff loaded entries distinct
  rw [mirror_eq_iff]
  constructor
  · intro same
    obtain ⟨some, order⟩ := styles.mp fun name _ => same name
    exact ⟨url, template.mp (same "template"), some, order⟩
  · intro harmless name
    by_cases isTemplate : name = "template"
    · rw [isTemplate, template]
      exact harmless.template
    by_cases isStyles : name ∈ ["styles", "styleUrls"]
    · exact styles.mpr ⟨harmless.styles, harmless.order⟩ name isStyles
    simp only [List.mem_cons, not_or, List.not_mem_nil, not_false_eq_true, and_true] at isStyles
    obtain ⟨notStyles, notUrls⟩ := isStyles
    have made : valueAt (restyled loaded (templated loaded entries)) name = valueAt (templated loaded entries) name := by
      rw [valueAt_metadata, if_neg notStyles, if_neg notUrls, ite_self]
    rw [made, valueAt_assembled, if_neg fun isStyles => notStyles isStyles.1]
    by_cases isUrl : name = "templateUrl"
    · subst isUrl
      rw [valueAt_kept_eq_none (by decide), valueAt_templated, if_neg isTemplate]
      obtain none | loads := valueAt_url_or_isSome resolved
      · rw [none, ite_self]
      · rw [if_pos ⟨rfl, loads⟩]
    · rw [valueAt_templated_of_ne isTemplate isUrl,
        valueAt_kept_other distinct (by simp [notStyles, notUrls, isUrl]) isTemplate]

theorem argument?_eq_ite :
    argument? loaded entries =
      if resolvesAt loaded entries "styles" && resolvesAt loaded entries "styleUrls" &&
          resolvesAt loaded entries "templateUrl" then
        some (assembled loaded entries)
      else none := by
  have all : entries.all (resolves loaded) = (resolvesAt loaded entries "styles" &&
      resolvesAt loaded entries "styleUrls" && resolvesAt loaded entries "templateUrl") := by
    rw [Bool.eq_iff_iff, all_resolves_iff distinct, Bool.and_eq_true, Bool.and_eq_true]
  rw [argument?, allInlined?, all]
  split <;> rfl

theorem same_iff_harmless :
    Option.Rel Same (metadata? loaded entries) (argument? loaded entries) ↔
      ((metadata? loaded entries).isSome = true → Harmless loaded entries) := by
  rw [metadata?, argument?_eq_ite distinct]
  cases resolvesAt loaded entries "styles" && resolvesAt loaded entries "styleUrls" with
  | false => exact ⟨fun _ => nofun, fun _ => .none⟩
  | true =>
    by_cases empty : valueAt entries "templateUrl" = some (.text "")
    · -- An empty URL stays in the metadata, whatever becomes of the literal.
      rw [if_pos rfl, if_pos empty]
      refine ⟨fun same => ?_, fun harmless => ((harmless rfl).url empty).elim⟩
      have stays : valueAt (restyled loaded entries) "templateUrl" = some (.text "") := by
        rw [valueAt_restyled, empty]
        split <;> rfl
      split at same
      · obtain ⟨same, -⟩ := Option.rel_some_some.mp same
        rw [mirror_eq_iff.mp same, Table.valueAt_eq_none_iff.mpr (not_mem_assembled _ (by decide))] at stays
        cases stays
      · cases same
    · rw [if_pos rfl, if_neg empty]
      cases resolved : resolvesAt loaded entries "templateUrl" with
      | false => exact ⟨fun _ => nofun, fun _ => .none⟩
      | true =>
        have same := mirror_eq_iff_harmless distinct empty resolved
        rw [Bool.true_and, if_pos rfl, if_pos rfl, Option.rel_some_some]
        exact ⟨fun related _ => same.mp related.1, fun harmless => ⟨same.mpr (harmless rfl), not_mem_assembled⟩⟩

end Comparison

end TextEntry

namespace Resource

open TextEntry
open Table (valueAt)

section

variable {σ : Type} {load : String → ResourceM σ String} {state : σ}

theorem listField?_fields (entries : List TextEntry) (name : String) :
    listField? (fields entries) name =
      if (valueAt entries name).all (·.text?.isNone) then some ((textsAt entries name).map .text) else none := by
  rw [listField?, get?_fields, textsAt]
  cases valueAt entries name with
  | none => rfl
  | some value => cases value <;> rfl

theorem result?_inlineTemplate (entries : List TextEntry) :
    result? state (inlineTemplate load (fields entries)) =
      if valueAt entries "templateUrl" = some (.text "") then some (fields entries)
      else if resolvesAt (loadedIn load state) entries "templateUrl" then
        some (fields (templated (loadedIn load state) entries))
      else none := by
  rw [inlineTemplate, get?_fields, resolvesAt, templated, loadedTemplate?]
  cases valueAt entries "templateUrl" with
  | none => rfl
  | some value =>
    cases value with
    | list urls => rfl
    | text url =>
      by_cases empty : url = ""
      · subst empty
        rfl
      · have truthy : (Option.map TextValue.json (some (.text url))).filter isTruthy = some (.text url) := by
          simp [TextValue.json, isTruthy, empty]
        have present : some (TextValue.text url) ≠ some (.text "") := by
          simpa using empty
        have resolved : (some (TextValue.text url)).all (fun value =>
            resolves (loadedIn load state) ("templateUrl", value)) = (loadedIn load state url).isSome := rfl
        simp only [truthy, if_neg present, resolved, result?_bind_pure, Option.bind_some, TextValue.text?]
        change (loadedIn load state url).map _ = _
        cases loadedIn load state url with
        | none => rfl
        | some text =>
          rw [Option.map_some, ← TextValue.json, put_fields, remove_fields]
          rfl

variable (determined : ∀ url, Determined (load url))

include determined

theorem result?_loadValues (urls : List String) :
    result? state (loadValues load (urls.map .text)) = (urls.mapM (loadedIn load state)).map (·.map .text) := by
  induction urls with
  | nil => rfl
  | cons url rest ih =>
    rw [List.map_cons, loadValues, List.mapM_cons,
      result?_bind _ fun _ => Determined.composes.bind (Determined.composes.loadValues determined _) fun _ =>
        Determined.composes.pure _]
    change (loadedIn load state url).bind _ = _
    cases loadedIn load state url with
    | none => rfl
    | some text =>
      rw [Option.bind_some, result?_bind_pure, ih]
      cases rest.mapM (loadedIn load state) <;> rfl

theorem result?_inlineStyles (entries : List TextEntry) :
    result? state (inlineStyles load (fields entries)) =
      if resolvesAt (loadedIn load state) entries "styles" && resolvesAt (loadedIn load state) entries "styleUrls" then
        some (fields (restyled (loadedIn load state) entries))
      else none := by
  have written : resolvesAt (loadedIn load state) entries "styles" = (valueAt entries "styles").all (·.text?.isNone) := by
    rw [resolvesAt]
    cases valueAt entries "styles" with
    | none => rfl
    | some value => cases value <;> rfl
  have loads : resolvesAt (loadedIn load state) entries "styleUrls" =
      ((valueAt entries "styleUrls").all (·.text?.isNone) &&
        (textsAt entries "styleUrls").all fun url => (loadedIn load state url).isSome) := by
    rw [resolvesAt, textsAt]
    cases valueAt entries "styleUrls" with
    | none => rfl
    | some value => cases value <;> rfl
  rw [inlineStyles, listField?_fields, listField?_fields, written, loads]
  cases (valueAt entries "styles").all (·.text?.isNone) with
  | false => rfl
  | true =>
    cases (valueAt entries "styleUrls").all (·.text?.isNone) with
    | false => rfl
    | true =>
      simp only [if_true, Bool.true_and]
      rw [result?_bind, result?_loadValues determined, mapM_eq_ite]
      · cases (textsAt entries "styleUrls").all fun url => (loadedIn load state url).isSome with
        | false => rfl
        | true =>
          simp only [if_true, Option.map_some, Option.bind_some, ← List.map_append]
          rw [← loadedStyles, ← writtenStyles, restyled]
          by_cases empty : writtenStyles entries ++ loadedStyles (loadedIn load state) entries = []
          · rw [if_pos empty, empty]
            rfl
          · rw [if_neg empty, if_neg (by simpa using empty), result?_pure, ← TextValue.json, put_fields, remove_fields]
      · intro texts
        split <;> exact Determined.composes.pure _

theorem result?_inlineArgument (entries : List TextEntry) :
    result? state (inlineTemplate load (fields entries) >>= inlineStyles load) =
      (metadata? (loadedIn load state) entries).map fields := by
  rw [result?_bind _ fun fields => Determined.composes.inlineStyles determined fields, result?_inlineTemplate, metadata?]
  by_cases empty : valueAt entries "templateUrl" = some (.text "")
  · rw [if_pos empty, if_pos empty, Option.bind_some, result?_inlineStyles determined]
    split <;> rfl
  · rw [if_neg empty, if_neg empty]
    cases resolvesAt (loadedIn load state) entries "templateUrl" with
    | false => simp
    | true =>
      have same (name : String) (notTemplate : name ≠ "template") (notUrl : name ≠ "templateUrl") :
          resolvesAt (loadedIn load state) (templated (loadedIn load state) entries) name =
            resolvesAt (loadedIn load state) entries name := by
        rw [resolvesAt, valueAt_templated_of_ne notTemplate notUrl, resolvesAt]
      rw [if_pos rfl, if_pos rfl, Option.bind_some, result?_inlineStyles determined,
        same "styles" (by decide) (by decide), same "styleUrls" (by decide) (by decide)]
      split <;> rfl

end

/-- The metadata form goes through where both of its parts do. -/
theorem inlineArgument_run {σ : Type} (load : String → ResourceM σ String) (fields : Table Json) (state : σ) :
    ((inlineArgument load (.object fields)).run state).1 =
      match (inlineTemplate load fields).run.run state with
      | (.error error, _) => (.object fields, some error)
      | (.ok made, middle) =>
        match ((inlineStyles load made).run.run middle).1 with
        | .error error => (.object made, some error)
        | .ok styled => (.object styled, none) := by
  unfold inlineArgument
  dsimp only
  rw [StateT.run_bind]
  rcases (inlineTemplate load fields).run.run state with ⟨outcome, middle⟩
  cases outcome with
  | error error => rfl
  | ok made =>
    change (StateT.run ((inlineStyles load made).run >>= _) middle).1 = _
    rw [StateT.run_bind]
    dsimp only
    rcases (inlineStyles load made).run.run middle with ⟨outcome, after⟩
    cases outcome <;> rfl

/-- What the metadata form leaves of an argument, where it goes through. -/
theorem inlineArgument_eq_iff {σ : Type} (load : String → ResourceM σ String) (fields : Table Json) (state : σ)
    (made : Json) :
    ((inlineArgument load (.object fields)).run state).1 = (made, none) ↔
      (result? state (inlineTemplate load fields >>= inlineStyles load)).map Json.object = some made := by
  rw [inlineArgument_run, result?, ExceptT.run_bind, StateT.run_bind]
  rcases (inlineTemplate load fields).run.run state with ⟨outcome, middle⟩
  cases outcome with
  | error error => constructor <;> rintro ⟨⟩
  | ok templated =>
    change _ ↔ (((inlineStyles load templated).run.run middle).1.toOption).map Json.object = some made
    dsimp only
    cases ((inlineStyles load templated).run.run middle).1 with
    | error error => constructor <;> rintro ⟨⟩
    | ok styled => simp [Except.toOption]

/-! ## Agreement -/

/-- An argument that was revised as a literal and as metadata, with the same success and the same result, in which no URL
is left. -/
structure Agree (literal : Except TransformError (List Expr)) (metadata : Revised Json) : Prop where
  succeeds : metadata.2 = none ↔ literal.isOk = true
  mirrors : ∀ made, literal = .ok made → ∃ span properties entries,
    made = [.object span properties] ∧ ofProperties? properties = some entries ∧ metadata.1 = mirror entries ∧
      ∀ name ∈ ["templateUrl", "styleUrls"], name ∉ entries.map (·.1) ∧ metadata.1.field? name = none

theorem agree_iff_same {literal : Except TransformError (List Expr)} {metadata : Revised Json} {span : Span}
    {made said : Option (List TextEntry)}
    (literally : Option.Rel
      (fun result said => ∃ properties, result = [.object span properties] ∧ ofProperties? properties = some said)
      literal.toOption said)
    (collected : ∀ json, metadata = (json, none) ↔ made.map mirror = some json) :
    Agree literal metadata ↔ Option.Rel Same made said := by
  cases made with
  | none =>
    have fails : metadata.2 ≠ none := fun success => by
      cases (collected metadata.1).mp (Prod.ext rfl success)
    cases literal with
    | error failure =>
      cases literally
      exact ⟨fun _ => .none, fun _ => ⟨⟨fun success => (fails success).elim, nofun⟩, nofun⟩⟩
    | ok result => exact ⟨fun agree => (fails (agree.succeeds.mpr rfl)).elim, by cases literally; exact nofun⟩
  | some made =>
    obtain rfl := (collected (mirror made)).mpr rfl
    cases literal with
    | error failure =>
      cases literally
      refine ⟨fun agree => ?_, nofun⟩
      cases agree.succeeds.mp rfl
    | ok result =>
      cases literally with
      | some shown =>
        obtain ⟨properties, rfl, reads⟩ := shown
        rw [Option.rel_some_some]
        constructor
        · intro agree
          obtain ⟨_, _, entries, shown, reads', same, gone⟩ := agree.mirrors _ rfl
          cases shown
          cases reads.symm.trans reads'
          exact ⟨same, fun name member => (gone name member).1⟩
        · rintro ⟨same, gone⟩
          refine ⟨⟨fun _ => rfl, fun _ => rfl⟩, ?_⟩
          rintro _ ⟨⟩
          refine ⟨span, properties, _, rfl, reads, same, fun name member => ⟨gone name member, ?_⟩⟩
          rw [same, mirror, Json.field?, get?_fields, Table.valueAt_eq_none_iff.mpr (gone name member)]
          rfl

/-- On an argument made of texts the two inlinings agree if the metadata form fails or the argument is harmless, and in
no other case. -/
theorem inlinings_agree_iff {σ : Type} (host : ResourceHost σ) (steady : host.Steady) (file : String) (state other : σ)
    (span : Span) (properties : List Property) (entries : List TextEntry)
    (reads : ofProperties? properties = some entries) (distinct : (entries.map (·.1)).Nodup) :
    Agree ((inlineArguments (host.get file) [.object span properties]).run.run state).1
        ((inlineArgument (host.get file) (mirror entries)).run other).1 ↔
      (((inlineArgument (host.get file) (mirror entries)).run other).1.2 = none →
        Harmless (loadedIn (host.get file) state) entries) := by
  have determined := determined_get steady file
  have loaded : loadedIn (host.get file) other = loadedIn (host.get file) state :=
    funext fun url => congrArg Except.toOption (determined url other state)
  have collected (json : Json) : ((inlineArgument (host.get file) (mirror entries)).run other).1 = (json, none) ↔
      (metadata? (loadedIn (host.get file) state) entries).map mirror = some json := by
    rw [mirror, inlineArgument_eq_iff, result?_inlineArgument determined, Option.map_map, loaded]
    rfl
  have succeeds : ((inlineArgument (host.get file) (mirror entries)).run other).1.2 = none ↔
      (metadata? (loadedIn (host.get file) state) entries).isSome = true := by
    constructor
    · intro success
      rw [← Option.isSome_map, (collected _).mp (Prod.ext rfl success)]
      rfl
    · intro found
      obtain ⟨made, found⟩ := Option.isSome_iff_exists.mp found
      rw [(collected (mirror made)).mpr (congrArg _ found)]
  rw [agree_iff_same (inlineArguments_mirrors determined reads) collected, succeeds]
  exact same_iff_harmless distinct

/-- An argument with a template and styles of both kinds. -/
def cardProperties : List Property := [
  .named "selector" (.string "card"),
  .named "styles" (.array .synthetic [.string "p {}"]),
  .named "templateUrl" (.string "./card.html"),
  .named "styleUrls" (.array .synthetic [.string "./card.css"])]

def cardEntries : List TextEntry := [
  ("selector", .text "card"), ("styles", .list ["p {}"]), ("templateUrl", .text "./card.html"),
  ("styleUrls", .list ["./card.css"])]

def cardHost : ResourceHost Unit :=
  .ofList [⟨"./card.html", "/card.html", some (.text "<p></p>")⟩, ⟨"./card.css", "/card.css", some (.text "b {}")⟩]

/-- The card gets the same template and the same styles twice; an argument with an empty list of style URLs keeps the list
in the metadata only. -/
theorem card_inlinings_agree :
    Agree ((inlineArguments (cardHost.get "/card.ts") [.object .synthetic cardProperties]).run.run ()).1
        ((inlineArgument (cardHost.get "/card.ts") (mirror cardEntries)).run ()).1 ∧
      ¬Agree
        ((inlineArguments (cardHost.get "/card.ts") [.object .synthetic
          [.named "styleUrls" (.array .synthetic []), .named "template" (.string "x")]]).run.run ()).1
        ((inlineArgument (cardHost.get "/card.ts") (mirror [("styleUrls", .list []), ("template", .text "x")])).run
          ()).1 := by
  constructor
  · refine (inlinings_agree_iff cardHost (steady_ofList _) "/card.ts" () () .synthetic cardProperties cardEntries rfl
      (by decide)).mpr fun _ => ⟨by decide, ?_, ?_, ?_⟩
    · exact fun before => absurd before (by decide)
    · exact fun _ => by decide
    · exact fun before => absurd before (by decide)
  · intro agree
    have harmless := (inlinings_agree_iff cardHost (steady_ofList _) "/card.ts" () () .synthetic _ _ rfl
      (by decide)).mp agree rfl
    exact harmless.styles (by decide) rfl

end Resource

end CompanionBuild
