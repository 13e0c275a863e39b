import CompanionBuild.Project.File
import CompanionBuild.Proofs.Json.Reading
import CompanionBuild.Proofs.Path.Segments
import CompanionBuild.Proofs.Table

/-! # Options written and read again

Every option is written, so that no default counts when they are read again. A project has an absolute base path, so its
options do not depend on the directory in which they are read; nor do they depend on the section that each one is in.
-/

namespace CompanionBuild

theorem DecoratorForm.ofText_text (form : DecoratorForm) : ofText form.text = form := by
  cases form <;> decide

theorem ModuleFormat.ofText_text (format : ModuleFormat) : ofText format.text = format := by
  cases format <;> decide

namespace Options

/-! ## Fields as they are written -/

/-- A value of a kind that options have. -/
inductive IsFlat : Json → Prop
  | null : IsFlat .null
  | bool (value : Bool) : IsFlat (.bool value)
  | text (value : String) : IsFlat (.text value)
  | texts (values : List String) : IsFlat (.array (values.map .text))

namespace IsFlat

variable {json : Json} (flat : IsFlat json)

include flat

theorem plain (limit : Nat) : Json.Plain (limit + 1) json := by
  cases flat with
  | null => exact .null
  | bool value => exact .bool value
  | text value => exact .text value
  | texts values =>
    apply Json.Plain.array
    intro element member
    obtain ⟨value, -, rfl⟩ := List.mem_map.mp member
    exact .text value

theorem tabled_eq : json.tabled = json := by
  cases flat with
  | null => simp [Json.tabled]
  | bool value => simp [Json.tabled]
  | text value => simp [Json.tabled]
  | texts values => simp [Json.tabled, Json.tabledElements_eq_map, Function.comp_def]

end IsFlat

theorem isFlat_optionalText (value : Option String) : IsFlat (optionalText value) := by
  cases value with
  | none => exact .null
  | some text => exact .text text

theorem isFlat_of_mem_fields {options : Options} {field : String × Json} (member : field ∈ options.fields) :
    IsFlat field.2 := by
  revert field
  simp only [fields, List.forall_mem_cons, isFlat_optionalText, IsFlat.bool, true_and]
  refine ⟨?_, ?_, List.forall_mem_nil _⟩
  · split
    · exact .texts _
    · exact .null
  · split
    · exact .bool _
    · exact .null

theorem nodup_fields (options : Options) : (options.fields.map (·.1)).Nodup := by
  simp [fields]

/-! ## Fields read again -/

section

variable {α : Type} {table : Table Json} {name : String}

theorem switch_of_found {value : Bool} (found : table.get? name = some (.bool value)) :
    switch table name = some value := by
  rw [switch, field, found]
  rfl

theorem optionalField_of_found {read : Json → Option α} (write : α → Json) (notNull : ∀ a, write a ≠ .null)
    (reads : ∀ a, read (write a) = some a) {value : Option α} (found : table.get? name = some (value.elim .null write)) :
    optionalField table name read = some value := by
  rw [optionalField, field, found]
  cases value with
  | none => rfl
  | some a =>
    have present : optional read (write a) = (read (write a)).map some := by
      rw [optional]
      exact notNull a
    exact present.trans (by rw [reads, Option.map_some])

theorem optionalField_of_text {read : Json → Option α} (write : α → String) (reads : ∀ a, read (.text (write a)) = some a)
    {value : Option α} (found : table.get? name = some (optionalText (value.map write))) :
    optionalField table name read = some value := by
  refine optionalField_of_found (fun a => .text (write a)) (fun _ => Json.noConfusion) reads (found.trans ?_)
  cases value <;> rfl

theorem texts?_map_text (values : List String) : texts? (.array (values.map .text)) = some values := by
  rw [texts?]
  induction values with
  | nil => rfl
  | cons value rest ih =>
    rw [List.map_cons, List.mapM_cons, ih]
    rfl

end

/-- Options are read again from a table that has all their fields, whatever else it has. -/
theorem read?_of_found {table : Table Json} {options : Options}
    (found : ∀ field ∈ options.fields, table.get? field.1 = some field.2) : read? table = some options := by
  simp only [fields, List.forall_mem_cons] at found
  obtain ⟨basePath, rootDir, rootDirs, outDir, module, declaration, noResolve, noEmitOnError, diagnostics,
    traceResolution, skipTemplateCodegen, fullTemplateTypeCheck, generateCodeForLibraries, allowEmptyCodegenFiles,
    enableResourceInlining, annotationsAs, annotateForClosureCompiler, disableExpressionLowering, compilingCore, -⟩ := found
  have text {name : String} {value : Option String} (found : table.get? name = some (optionalText value)) :
      optionalField table name Json.text? = some value := by
    apply optionalField_of_text id (fun _ => rfl)
    rw [found, Option.map_id_fun, id]
  have texts : optionalField table "rootDirs" texts? = some options.rootDirs := by
    refine optionalField_of_found (fun dirs => .array (dirs.map .text)) (fun _ => Json.noConfusion) texts?_map_text
      (rootDirs.trans ?_)
    cases options.rootDirs <;> rfl
  have libraries : optionalField table "generateCodeForLibraries" Json.bool? = some options.generateCodeForLibraries := by
    refine optionalField_of_found .bool (fun _ => Json.noConfusion) (fun _ => rfl) (generateCodeForLibraries.trans ?_)
    cases options.generateCodeForLibraries <;> rfl
  have format : optionalField table "module" (fun json => (choice? json).map ModuleFormat.ofText) =
      some options.module :=
    optionalField_of_text ModuleFormat.text (fun format => congrArg some format.ofText_text) module
  have form : optionalField table "annotationsAs" (fun json => (choice? json).map DecoratorForm.ofText) =
      some options.annotationsAs :=
    optionalField_of_text DecoratorForm.text (fun form => congrArg some form.ofText_text) annotationsAs
  rw [read?, text basePath, text rootDir, texts, text outDir, format, switch_of_found declaration,
    switch_of_found noResolve, switch_of_found noEmitOnError, switch_of_found diagnostics,
    switch_of_found traceResolution, switch_of_found skipTemplateCodegen, switch_of_found fullTemplateTypeCheck,
    libraries, switch_of_found allowEmptyCodegenFiles, switch_of_found enableResourceInlining, form,
    switch_of_found annotateForClosureCompiler, switch_of_found disableExpressionLowering,
    switch_of_found compilingCore]
  rfl

end Options

namespace Project

open Options (IsFlat)

/-! ## Sections put together -/

/-- The section has the entries; a section that is missing has none. -/
def HasSection (root : List (String × Json)) (name : String) (entries : List (String × Json)) : Prop :=
  Table.valueAt root name = some (.object entries) ∨ (Table.valueAt root name = none ∧ entries = [])

theorem tabled_object {entries : List (String × Json)} (flat : ∀ entry ∈ entries, IsFlat entry.2) :
    (Json.object entries).tabled = .object (Table.ofList entries) := by
  have same : Json.tabledFields entries = entries := by
    rw [Json.tabledFields_eq_map]
    nth_rewrite 2 [← List.map_id entries]
    apply List.map_congr_left
    intro entry member
    rw [(flat entry member).tabled_eq]
    rfl
  rw [Json.tabled, same]

theorem addSection_eq {root entries : List (String × Json)} {name : String} (holds : HasSection root name entries)
    (flat : ∀ entry ∈ entries, IsFlat entry.2) (before : List (String × Json)) :
    addSection (Table.ofList (Json.tabledFields root)) (Table.ofList before) name =
      .ok (Table.ofList (before ++ Table.ofList entries)) := by
  have found : (Table.ofList (Json.tabledFields root)).get? name = (Table.valueAt root name).map Json.tabled := by
    rw [Table.get?_ofList, Json.tabledFields_eq_map, Table.valueAt_map]
  rw [addSection, found]
  obtain present | ⟨missing, rfl⟩ := holds
  · rw [present, Option.map_some, tabled_object flat, Table.ofList_append]
  · rw [missing, Table.ofList_append]
    rfl

section

variable {root first second : List (String × Json)} {options : Options}
  (hasFirst : HasSection root "compilerOptions" first) (hasSecond : HasSection root "annexCompilerOptions" second)
  (split : (first ++ second).Perm options.fields)

include hasFirst hasSecond split

/-- Sections that have every field of the options between them give the options. -/
theorem exists_merged : ∃ merged, sections.foldlM (addSection (Table.ofList (Json.tabledFields root))) [] = .ok merged ∧
    Options.read? merged = some options := by
  have flat : ∀ entry ∈ first ++ second, IsFlat entry.2 :=
    fun entry member => Options.isFlat_of_mem_fields (split.mem_iff.mp member)
  obtain ⟨flatFirst, flatSecond⟩ := List.forall_mem_append.mp flat
  refine ⟨Table.ofList (Table.ofList first ++ Table.ofList second), ?_, Options.read?_of_found fun field member => ?_⟩
  · have start : addSection (Table.ofList (Json.tabledFields root)) [] "compilerOptions" =
        .ok (Table.ofList (Table.ofList first)) := addSection_eq hasFirst flatFirst []
    simp only [sections, List.foldlM_cons, List.foldlM_nil, start, addSection_eq hasSecond flatSecond, bind, Except.bind]
    rfl
  · have distinct : ((first ++ second).map (·.1)).Nodup := (split.map _).nodup_iff.mpr options.nodup_fields
    rw [Table.get?_ofList, Table.valueAt_append, Table.valueAt_ofList, Table.valueAt_ofList, ← Table.valueAt_append]
    exact (Table.mem_iff_valueAt distinct).mp (split.mem_iff.mpr member)

/-- The options are read again in every directory if their base path is a normal one. -/
theorem read_of_sections {text : String} (value : Json.read? text = some (Json.object root).tabled)
    (noFiles : Table.valueAt root "files" = none) {base : String} (based : options.basePath = some base)
    (normal : Path.IsNormal base) (dir : String) : read text dir = .ok ⟨[], options⟩ := by
  obtain ⟨merged, merges, found⟩ := exists_merged hasFirst hasSecond split
  have roots (dir : String) : rootsOf (Table.ofList (Json.tabledFields root)) dir = .ok [] := by
    rw [rootsOf, Table.get?_ofList, Json.tabledFields_eq_map, Table.valueAt_map, noFiles]
    rfl
  have same : ({ options with basePath := some (Path.resolve dir options.base) } : Options) = options := by
    rw [Options.base, based, Option.getD_some, normal.resolve_eq, ← based]
  rw [Json.tabled] at value
  simp only [read, value, merges, found, roots, same, bind, Except.bind]

end

/-! ## Projects that were accepted -/

theorem exists_of_bind_eq_ok {α β : Type} {start : Except ConfigFault α} {rest : α → Except ConfigFault β} {result : β}
    (accepted : start >>= rest = .ok result) : ∃ made, start = .ok made ∧ rest made = .ok result := by
  cases start with
  | error fault => cases accepted
  | ok made => exact ⟨made, rfl, accepted⟩

/-- A project has the options that were read, with the base path seen from the directory. -/
theorem exists_options {text dir : String} {project : Project} (accepted : read text dir = .ok project) :
    ∃ options : Options, project.options = { options with basePath := some (Path.resolve dir options.base) } := by
  rw [read] at accepted
  split at accepted
  case h_1 => cases accepted
  case h_2 root value =>
    obtain ⟨merged, -, rest⟩ := exists_of_bind_eq_ok accepted
    split at rest
    case h_1 => cases rest
    case h_2 options found =>
      obtain ⟨roots, -, made⟩ := exists_of_bind_eq_ok rest
      cases made
      exact ⟨options, rfl⟩
  case h_3 => cases accepted

theorem exists_isNormal_basePath {text dir : String} {project : Project} (fromRoot : Path.isAbsolute dir = true)
    (accepted : read text dir = .ok project) : ∃ base, project.options.basePath = some base ∧ Path.IsNormal base := by
  obtain ⟨options, same⟩ := exists_options accepted
  exact ⟨_, congrArg Options.basePath same, Path.isNormal_resolve fromRoot _⟩

/-- The text is the value written compactly, or with every element and field on a line of its own. -/
def IsTextOf (json : Json) (text : String) : Prop :=
  text = json.render ∨ text = json.pretty ""

theorem read?_of_isTextOf {json : Json} {text : String} (plain : Json.Plain Json.Document.nestingLimit json)
    (written : IsTextOf json text) : Json.read? text = some json.tabled := by
  obtain rfl | rfl := written
  · exact Json.read?_render plain
  · exact Json.read?_pretty plain (List.forall_mem_nil _)

theorem plain_section {entries : List (String × Json)} (flat : ∀ entry ∈ entries, IsFlat entry.2) (limit : Nat) :
    Json.Plain (limit + 2) (.object entries) :=
  .object fun entry member => (flat entry member).plain limit

/-- The options of an accepted project are written so that they are read again in every directory, also when their fields
are divided between the sections. -/
theorem options_survive_writing {text dir : String} {project : Project} (fromRoot : Path.isAbsolute dir = true)
    (accepted : read text dir = .ok project) (other written : String) :
    (IsTextOf (.object [("compilerOptions", .object project.options.fields)]) written →
      read written other = .ok ⟨[], project.options⟩) ∧
    ∀ first second : List (String × Json), (first ++ second).Perm project.options.fields →
      IsTextOf (.object [("compilerOptions", .object first), ("annexCompilerOptions", .object second)]) written →
      read written other = .ok ⟨[], project.options⟩ := by
  obtain ⟨base, based, normal⟩ := exists_isNormal_basePath fromRoot accepted
  have plain {entries : List (String × Json)} (kept : ∀ entry ∈ entries, entry ∈ project.options.fields) :
      Json.Plain 126 (.object entries) :=
    plain_section (fun entry member => Options.isFlat_of_mem_fields (kept entry member)) 124
  constructor
  · intro isText
    have whole : Json.Plain 127 (.object [("compilerOptions", .object project.options.fields)]) :=
      .object (List.forall_mem_singleton.mpr (plain fun _ => id))
    have hasFirst : HasSection [("compilerOptions", .object project.options.fields)] "compilerOptions"
        project.options.fields := .inl rfl
    have hasSecond : HasSection [("compilerOptions", .object project.options.fields)] "annexCompilerOptions" [] :=
      .inr ⟨rfl, rfl⟩
    have split : (project.options.fields ++ []).Perm project.options.fields := by rw [List.append_nil]
    exact read_of_sections hasFirst hasSecond split (read?_of_isTextOf whole isText) rfl based normal other
  · intro first second split isText
    obtain ⟨keptFirst, keptSecond⟩ := List.forall_mem_append.mp fun entry => split.mem_iff.mp
    have whole : Json.Plain 127 (.object [("compilerOptions", .object first), ("annexCompilerOptions", .object second)]) :=
      .object (List.forall_mem_cons.mpr ⟨plain keptFirst, List.forall_mem_singleton.mpr (plain keptSecond)⟩)
    exact read_of_sections (.inl rfl) (.inl rfl) split (read?_of_isTextOf whole isText) rfl based normal other

/-- A project file with a module format and a decorator form that are not known. -/
def unusualText : String :=
  "\x7b\"files\": [\"a.ts\"], " ++
    "\"compilerOptions\": \x7b\"basePath\": \"./web\", \"rootDirs\": [\"src\"], \"module\": \"es5\"\x7d, " ++
    "\"annexCompilerOptions\": \x7b\"annotationsAs\": \"fields\"\x7d\x7d"

def unusual : Options where
  basePath := some "/app/web"
  rootDirs := some ["src"]
  module := some .other
  annotationsAs := some .unsupported

theorem unusual_options_survive :
    read unusualText "/app" = .ok ⟨["/app/web/a.ts"], unusual⟩ ∧
    read (Json.pretty "" (.object [("compilerOptions", .object unusual.fields)])) "." = .ok ⟨[], unusual⟩ ∧
    read (Json.render (.object [("compilerOptions", .object (unusual.fields.drop 5)),
      ("annexCompilerOptions", .object (unusual.fields.take 5))])) "elsewhere" = .ok ⟨[], unusual⟩ := by
  have accepted : read unusualText "/app" = .ok ⟨["/app/web/a.ts"], unusual⟩ := by decide +kernel
  have survives := options_survive_writing (by decide) accepted
  have split : (unusual.fields.drop 5 ++ unusual.fields.take 5).Perm unusual.fields :=
    List.perm_append_comm.trans (List.take_append_drop 5 unusual.fields ▸ .refl _)
  exact ⟨accepted, (survives "." _).1 (.inr rfl), (survives "elsewhere" _).2 _ _ split (.inl rfl)⟩

end Project

end CompanionBuild
