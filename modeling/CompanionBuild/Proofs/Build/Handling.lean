import CompanionBuild.Proofs.Build.Round
import CompanionBuild.Proofs.Companion
import CompanionBuild.Proofs.Emit.Pipeline
import Mathlib.Data.List.Nodup

/-! # What a round handles

A file comes from a unit that the compiler emits or from a companion that is a finished text. A round handles such an
origin when it writes something of it or records that it is emitted, and it leaves the files of all other origins alone.
What is written of a unit is the same in every round in which the transforms find the same.
-/

namespace CompanionBuild

variable {ω A : Type} {stored : ω → Store}

/-- The store has some files. -/
def Store.Has (store : Store) (files : List (String × String)) : Prop :=
  ∀ file ∈ files, store file.1 = some file.2

/-- Where a file comes from: the compiler's output for a unit, or a companion that is a finished text. -/
inductive Origin where
  | output (unit : String)
  | text (companion : String)
deriving DecidableEq

namespace Round

variable (round other : Round ω A stored)

/-- What the next build starts from. -/
def records : Records ω :=
  round.setup.records round.after

/-- What is written of an origin. -/
def filesFrom : Origin → List (String × String)
  | .output name => if name ∈ round.plan.emittedNames then round.kept name else []
  | .text name => round.mapper?.elim [] fun mapper =>
    (round.plan.companions.filter (·.name = name)).flatMap (round.finishedFiles mapper)

/-- The round writes something of the origin, or it records that the origin is emitted. -/
def Handles : Origin → Prop
  | .output name => round.filesFrom (.output name) ≠ [] ∨ (∃ u ∈ round.after.emitted.units, u.name = name) ∨
    ∃ c ∈ round.after.emitted.companions, c.name = name ∧ c.statements.isSome = true
  | .text name => ∃ c ∈ round.after.emitted.companions, c.name = name ∧ c.source.isSome = true

/-- Files are not mixed up: every name has one origin and one text, and every companion a name of its own and one kind of
content. -/
structure Tidy (origin : String → Origin) : Prop where
  origins : ∀ o, ∀ file ∈ round.filesFrom o, origin file.1 = o
  single : ∀ file ∈ round.files, ∀ other ∈ round.files, other.1 = file.1 → other.2 = file.2
  distinct : (round.generated.map (·.name)).Nodup
  sole : ∀ c ∈ round.generated, c.IsSole
  printed : ∀ c ∈ round.plan.printed, Path.isCompanion c.name = true

/-- Two builds with the same options on the same kind of file system, whatever is in it. -/
structure SharesTools : Prop where
  options : round.setup.options = other.setup.options
  files : round.setup.files = other.setup.files
  overrides : round.setup.overrides = other.setup.overrides

/-- What the transforms see around a unit. -/
def context (symbols : SymbolResolver) : EmitContext ω :=
  ⟨round.plan.companions, isCore round.setup.options round.program.units, symbols, round.start⟩

/-- What the compiler hands over for a unit is a function of what the transforms make of it. The caller's transforms only
map units. -/
structure Compiles (symbols : SymbolResolver) (maps : List (String × (SourceUnit → SourceUnit)))
    (render : SourceUnit → List OutputFile) : Prop where
  maps : round.options.before = maps.map fun map => .ofMap map.1 map.2
  made : ∀ u ∈ round.program.units, u.isDeclaration = false → u.name ∈ round.plan.emittedNames →
    ∃ final found ended, ((Transform.applyAll symbols round.plan.pipeline.before u).run.run {}).run round.start =
      ((.ok final, found), ended) ∧ round.made u.name = render final

variable (symbols : Round ω A stored → SymbolResolver)

/-- The transforms find the same of a unit in two rounds: its tree, its companion, its resources and requests, and what
its names stand for. -/
def FindsAlike (u v : SourceUnit) : Prop :=
  (round.context (symbols round)).FindsAlike (other.context (symbols other)) round.setup.options round.setup.host u v

end Round

/-! ## One round -/

namespace Round

variable {round : Round ω A stored}

theorem mem_filesFrom_text {name : String} {file : String × String} :
    file ∈ round.filesFrom (.text name) ↔ ∃ mapper, round.mapper? = some mapper ∧
      ∃ c ∈ round.plan.companions, c.name = name ∧ file ∈ round.finishedFiles mapper c := by
  rw [filesFrom]
  cases round.mapper? with
  | none => simp
  | some mapper => simp [and_assoc]

theorem mem_filesFrom_output {name : String} {file : String × String} :
    file ∈ round.filesFrom (.output name) ↔ name ∈ round.plan.emittedNames ∧ file ∈ round.kept name := by
  rw [filesFrom]
  split <;> simp_all

theorem mem_files_iff {file : String × String} : file ∈ round.files ↔ ∃ o, file ∈ round.filesFrom o := by
  rw [mem_files]
  constructor
  · rintro (⟨name, emitted, kept⟩ | ⟨mapper, mapped, c, changed, finished⟩)
    · exact ⟨.output name, mem_filesFrom_output.mpr ⟨emitted, kept⟩⟩
    · exact ⟨.text c.name, mem_filesFrom_text.mpr ⟨mapper, mapped, c, changed, rfl, finished⟩⟩
  · rintro ⟨o, file_mem⟩
    cases o with
    | output name =>
      obtain ⟨emitted, kept⟩ := mem_filesFrom_output.mp file_mem
      exact .inl ⟨name, emitted, kept⟩
    | text name =>
      obtain ⟨mapper, mapped, c, changed, -, finished⟩ := mem_filesFrom_text.mp file_mem
      exact .inr ⟨mapper, mapped, c, changed, finished⟩

theorem source_of_mem_finishedFiles {mapper : OutputMapper} {c : Companion} {file : String × String}
    (finished : file ∈ round.finishedFiles mapper c) : c.source.isSome = true := by
  rw [finishedFiles] at finished
  split at finished
  case isTrue source => exact source
  case isFalse => cases finished

/-- A round handles what it writes. -/
theorem handles_of_mem_filesFrom {o : Origin} {file : String × String} (written : file ∈ round.filesFrom o) :
    round.Handles o := by
  cases o with
  | output name => exact .inl (List.ne_nil_of_mem written)
  | text name =>
    obtain ⟨mapper, mapped, c, changed, named, finished⟩ := mem_filesFrom_text.mp written
    rw [← round.companions_after] at changed
    exact ⟨c, changed, named, source_of_mem_finishedFiles finished⟩

/-- What a round writes is there after it. -/
theorem Tidy.has_files {origin : String → Origin} (tidy : round.Tidy origin) {files : List (String × String)}
    (written : ∀ file ∈ files, file ∈ round.files) : (stored round.after.situation.world).Has files := by
  intro file member
  rw [round.store_after]
  exact Store.putAll_of_forall (tidy.single file (written file member)) (.inl (written file member))

/-- A round leaves files alone whose origin it does not handle. -/
theorem Tidy.store_after_eq {origin : String → Origin} (tidy : round.Tidy origin) {name : String}
    (unhandled : ¬ round.Handles (origin name)) :
    stored round.after.situation.world name = stored round.build.situation.world name := by
  rw [round.store_after, Store.putAll_of_forall_ne]
  rintro file written rfl
  obtain ⟨o, written⟩ := mem_files_iff.mp written
  rw [tidy.origins o file written] at unhandled
  exact unhandled (handles_of_mem_filesFrom written)

theorem made_ne_nil {name : String} {file : String × String} (kept : file ∈ round.kept name) : round.made name ≠ [] := by
  obtain ⟨output, made, -⟩ := List.mem_flatMap.mp kept
  exact List.ne_nil_of_mem made

theorem mem_emittable {name : String} :
    name ∈ round.plan.emittable ↔ ∃ u ∈ round.program.units, u.isDeclaration = false ∧ u.name = name := by
  rw [EmitPlan.emittable, List.mem_map]
  simp only [List.mem_filter, Bool.not_eq_true', and_assoc]
  rfl

/-- Something can only be made of units of the program. -/
theorem exists_user {name : String} (some : round.made name ≠ []) (user : Path.isCompanion name = false) :
    ∃ u ∈ round.users, u.name = name := by
  obtain ⟨u, member, source, rfl⟩ := mem_emittable.mp (round.renders.known name some)
  exact ⟨u, round.mem_users.mpr ⟨member, source, user⟩, rfl⟩

theorem mem_printed {c : Companion} :
    c ∈ round.plan.printed ↔ c ∈ round.plan.companions ∧ c.statements.isSome = true := by
  rw [EmitPlan.printed, List.mem_filter]

/-- A unit of the user that is handled is recorded. -/
theorem Tidy.exists_emitted_unit {origin : String → Origin} (tidy : round.Tidy origin) {name : String}
    (handles : round.Handles (.output name)) (user : Path.isCompanion name = false) :
    ∃ u ∈ round.after.emitted.units, u.name = name := by
  obtain written | recorded | ⟨c, member, rfl, statements⟩ := handles
  · obtain ⟨file, written⟩ := List.exists_mem_of_ne_nil _ written
    obtain ⟨emitted, kept⟩ := mem_filesFrom_output.mp written
    obtain ⟨u, present, rfl⟩ := exists_user (made_ne_nil kept) user
    exact ⟨u, round.mem_emitted_units.mpr ⟨present, emitted, made_ne_nil kept⟩, rfl⟩
  · exact recorded
  · rw [companions_after] at member
    rw [tidy.printed c (mem_printed.mpr ⟨member, statements⟩)] at user
    cases user

/-! ## What comes of a unit -/

theorem SharesTools.symm {round other : Round ω A stored} (shares : round.SharesTools other) : other.SharesTools round :=
  ⟨shares.options.symm, shares.files.symm, shares.overrides.symm⟩

theorem SharesTools.trans {round other third : Round ω A stored} (shares : round.SharesTools other)
    (more : other.SharesTools third) : round.SharesTools third :=
  ⟨shares.options.trans more.options, shares.files.trans more.files, shares.overrides.trans more.overrides⟩

theorem SharesTools.resources_eq {other : Round ω A stored} (shares : round.SharesTools other) :
    round.setup.host.resources = other.setup.host.resources :=
  Host.resources_congr shares.files shares.overrides

theorem mem_companions {c : Companion} :
    c ∈ round.plan.companions ↔ c ∈ round.generated ∧ round.setup.options.isInRootDir c.name = true ∧
      (round.setup.previous.companions.get? c.name).any c.isEquivalent = false := by
  change c ∈ round.setup.changedCompanions round.generated ↔ _
  rw [Setup.changedCompanions, List.mem_filter, Bool.and_eq_true, Bool.not_eq_true']

/-- Companions of one name are the same. -/
theorem Tidy.eq_of_name_eq {origin : String → Origin} (tidy : round.Tidy origin) {c d : Companion}
    (c_mem : c ∈ round.generated) (d_mem : d ∈ round.generated) (same : c.name = d.name) : c = d :=
  List.inj_on_of_nodup_map tidy.distinct c_mem d_mem same

/-- Units of one name are the same. -/
theorem unit_eq {u v : SourceUnit} (u_mem : u ∈ round.program.units) (v_mem : v ∈ round.program.units)
    (same : u.name = v.name) : u = v := by
  have u_found := (round.renders.indexed v.name u).mpr ⟨u_mem, same⟩
  have v_found := (round.renders.indexed v.name v).mpr ⟨v_mem, rfl⟩
  exact Option.some.inj (u_found.symm.trans v_found)

theorem Compiles.makes {symbols : SymbolResolver} {maps : List (String × (SourceUnit → SourceUnit))}
    {render : SourceUnit → List OutputFile} (compiles : round.Compiles symbols maps render) {u : SourceUnit}
    (member : u ∈ round.program.units) (source : u.isDeclaration = false) (emitted : u.name ∈ round.plan.emittedNames) :
    ∃ final, (round.context symbols).Makes round.setup.options round.setup.host maps u final ∧
      round.made u.name = render final := by
  obtain ⟨final, found, ended, ran, made⟩ := compiles.made u member source emitted
  refine ⟨final, ⟨found, ended, ?_⟩, made⟩
  have lifted : round.options.before.map Transform.lift =
      maps.map fun map => (Transform.ofMap map.1 map.2 : Transform (Situation ω)) := by
    rw [compiles.maps, List.map_map]
    rfl
  rw [← lifted]
  exact ran

variable {scratch : Round ω A stored} {symbols : Round ω A stored → SymbolResolver}
  {maps : List (String × (SourceUnit → SourceUnit))} {render : SourceUnit → List OutputFile}

theorem FindsAlike.made_eq {u v : SourceUnit} (alike : round.FindsAlike scratch symbols u v)
    (named : ∀ map ∈ maps, ∀ w : SourceUnit, (map.2 w).name = w.name)
    (compiles : round.Compiles (symbols round) maps render) (others : scratch.Compiles (symbols scratch) maps render)
    (shares : round.SharesTools scratch) (u_mem : u ∈ round.program.units) (v_mem : v ∈ scratch.program.units)
    (source : v.isDeclaration = false) (emitted : u.name ∈ round.plan.emittedNames)
    (emittedToo : v.name ∈ scratch.plan.emittedNames) : round.made u.name = scratch.made v.name := by
  obtain ⟨final, makes, made⟩ := compiles.makes u_mem (alike.keeps.2.2.trans source) emitted
  obtain ⟨other, otherMakes, otherMade⟩ := others.makes v_mem source emittedToo
  rw [EmitContext.Makes, ← shares.resources_eq, ← shares.options] at otherMakes
  rw [made, otherMade, EmitContext.FindsAlike.made_eq alike named makes otherMakes]

theorem mem_of_router_companions {name : String} {c : Companion}
    (found : round.plan.router.companions.get? name = some c) : c ∈ round.plan.companions ∧ c.name = name := by
  obtain ⟨entry, member, named, rfl⟩ | ⟨absent, -⟩ := Table.get?_foldl_put found
  · obtain ⟨c, changed, rfl⟩ := List.mem_map.mp member
    exact ⟨changed, named⟩
  · cases absent

theorem Tidy.statementsFor?_eq {origin : String → Origin} (tidy : round.Tidy origin) {c : Companion}
    (member : c ∈ round.plan.companions) : Companion.statementsFor? round.plan.companions c.name = c.statements := by
  refine Companion.statementsFor?_of_mem (fun c c_mem d d_mem => ?_) member
  exact tidy.eq_of_name_eq (mem_companions.mp c_mem).1 (mem_companions.mp d_mem).1

/-- An output counts as empty by the statements for its unit. -/
theorem Tidy.hasStatements_eq {origin : String → Origin} (tidy : round.Tidy origin) (name : String) :
    (round.plan.router.companions.get? name).any Companion.hasStatements =
      (Companion.statementsFor? round.plan.companions name).any fun items => !items.isEmpty := by
  cases found : round.plan.router.companions.get? name with
  | none =>
    rw [Companion.statementsFor?_eq_none]
    · rfl
    · rintro c changed rfl
      have bound : ∃ entry ∈ round.plan.companions.map fun c => (c.name, c), entry.1 = c.name :=
        ⟨(c.name, c), List.mem_map.mpr ⟨c, changed, rfl⟩, rfl⟩
      obtain ⟨entry, -, -, known⟩ := Table.get?_foldl_put_of_exists bound
      have known : round.plan.router.companions.get? c.name = some entry.2 := known
      rw [found] at known
      cases known
  | some c =>
    obtain ⟨changed, rfl⟩ := mem_of_router_companions found
    rw [tidy.statementsFor?_eq changed]
    rfl

/-- What is written of a unit depends on what is made of it and on the statements for it. -/
theorem kept_eq {origin : String → Origin} (tidy : round.Tidy origin) (tidyScratch : scratch.Tidy origin)
    (shares : round.SharesTools scratch) {name : String} (statements :
      Companion.statementsFor? round.plan.companions name = Companion.statementsFor? scratch.plan.companions name)
    (made : round.made name = scratch.made name) : round.kept name = scratch.kept name := by
  rw [kept, kept, made, Router.kept, Router.kept]
  refine List.flatMap_congr fun output member => ?_
  have companion (other : Round ω A stored) (member : output ∈ other.made name) :
      other.plan.router.companionOf output = other.plan.router.companions.get? name := by
    rw [Router.companionOf, other.renders.sources name output member]
    rfl
  have options : round.plan.router.options = scratch.plan.router.options := shares.options
  rw [companion round (made ▸ member), companion scratch member, Router.fileOf, Router.fileOf, Router.isWithheld,
    Router.isWithheld, options, tidy.hasStatements_eq, tidyScratch.hasStatements_eq, statements]

theorem finishedFiles_eq (shares : round.SharesTools scratch) {mapper other : OutputMapper} {c d : Companion}
    (place : mapper.map c.name = other.map d.name) {text : String} (c_source : c.source = some text)
    (d_source : d.source = some text) (c_sole : c.IsSole) (d_sole : d.IsSole) :
    round.finishedFiles mapper c = scratch.finishedFiles other d := by
  have options : round.plan.router.options = scratch.plan.router.options := shares.options
  have bare : c.hasStatements = d.hasStatements := by
    rw [Companion.hasStatements, Companion.hasStatements, c_sole.statements_eq_none c_source,
      d_sole.statements_eq_none d_source]
  rw [finishedFiles, finishedFiles, c_source, d_source, place, Router.fileOf, Router.fileOf, Router.isWithheld,
    Router.isWithheld, options, Option.any_some, Option.any_some, bare]

/-- A unit that can be emitted comes out when it is a target. -/
theorem mem_emittedNames {name : String} (target : name ∈ round.plan.targets) (known : name ∈ round.plan.emittable) :
    name ∈ round.plan.emittedNames := by
  rw [EmitPlan.emittedNames]
  split
  · exact target
  · exact known

/-- Where the transforms find the same of a unit, the same is written of it. -/
theorem FindsAlike.filesFrom_eq {origin : String → Origin} {u v : SourceUnit}
    (alike : round.FindsAlike scratch symbols u v) (tidy : round.Tidy origin) (tidyScratch : scratch.Tidy origin)
    (named : ∀ map ∈ maps, ∀ w : SourceUnit, (map.2 w).name = w.name)
    (compiles : round.Compiles (symbols round) maps render) (others : scratch.Compiles (symbols scratch) maps render)
    (shares : round.SharesTools scratch) (u_mem : u ∈ round.program.units) (v_mem : v ∈ scratch.program.units)
    (source : v.isDeclaration = false) (emitted : u.name ∈ round.plan.emittedNames)
    (emittedToo : v.name ∈ scratch.plan.emittedNames) :
    round.filesFrom (.output v.name) = scratch.filesFrom (.output v.name) := by
  have made := alike.made_eq named compiles others shares u_mem v_mem source emitted emittedToo
  have statements := alike.statements
  rw [alike.keeps.1] at made emitted statements
  rw [filesFrom, filesFrom, if_pos emitted, if_pos emittedToo]
  exact kept_eq tidy tidyScratch shares statements made

/-- No companion has statements for a unit of the user. -/
theorem Tidy.statementsFor?_eq_none {origin : String → Origin} (tidy : round.Tidy origin) {name : String}
    (user : Path.isCompanion name = false) : Companion.statementsFor? round.plan.companions name = none := by
  refine Companion.statementsFor?_eq_none ?_
  rintro c changed rfl
  cases statements : c.statements with
  | none => rfl
  | some items =>
    rw [tidy.printed c (mem_printed.mpr ⟨changed, by rw [statements]; rfl⟩)] at user
    cases user

/-! ## The records after a round -/

theorem mem_changedUnits {u : SourceUnit} :
    u ∈ round.setup.changedUnits round.program.units ↔ u ∈ round.users ∧
      ((round.setup.previous.units.get? u.name).any fun old => old.text = u.text) = false := by
  rw [Setup.changedUnits, users, List.mem_filter, List.mem_filter, Bool.and_eq_true, and_assoc, Bool.not_eq_true']

theorem mem_targets {name : String} :
    name ∈ round.plan.targets ↔
      (∃ u ∈ round.setup.changedUnits round.program.units, u.name = name) ∨ ∃ c ∈ round.plan.printed, c.name = name := by
  rw [EmitPlan.targets, List.mem_append, List.mem_map, List.mem_map]
  rfl

/-- After a round a unit is recorded with the text that it has, unless the unit was emitted and nothing was made of it. -/
theorem exists_unit {u : SourceUnit} (user : u ∈ round.users)
    (made : u.name ∈ round.plan.emittedNames → round.made u.name ≠ []) :
    ∃ old, round.records.units.get? u.name = some old ∧ old.text = u.text := by
  obtain ⟨member, source, -⟩ := round.mem_users.mp user
  by_cases emitted : u.name ∈ round.plan.emittedNames
  · have bound : ∃ v ∈ round.after.emitted.units, v.name = u.name :=
      ⟨u, round.mem_emitted_units.mpr ⟨user, emitted, made emitted⟩, rfl⟩
    obtain ⟨v, v_mem, same, found⟩ := Table.get?_foldl_put_of_exists bound
    obtain ⟨v_user, -⟩ := round.mem_emitted_units.mp v_mem
    obtain rfl := unit_eq (round.mem_users.mp v_user).1 member same
    exact ⟨v, found, rfl⟩
  · have others : ∀ v ∈ round.after.emitted.units, v.name ≠ u.name := by
      intro v member same
      exact emitted (same ▸ (round.mem_emitted_units.mp member).2.1)
    have unchanged : u ∉ round.setup.changedUnits round.program.units := by
      intro changed
      exact emitted (mem_emittedNames (mem_targets.mpr (.inl ⟨u, changed, rfl⟩))
        (mem_emittable.mpr ⟨u, member, source, rfl⟩))
    have recorded : ((round.setup.previous.units.get? u.name).any fun old => old.text = u.text) = true := by
      by_contra different
      exact unchanged (mem_changedUnits.mpr ⟨user, Bool.not_eq_true _ ▸ different⟩)
    obtain ⟨old, found, same⟩ := (Option.any_eq_true ..).mp recorded
    exact ⟨old, (Table.get?_foldl_put_of_forall_ne others).trans found, of_decide_eq_true same⟩

/-- After a round every companion with content is recorded in a form that counts as the same. -/
theorem Tidy.exists_companion {origin : String → Origin} (tidy : round.Tidy origin) {d : Companion}
    (generated : d ∈ round.generated) (root : round.setup.options.isInRootDir d.name = true)
    (content : d.source.isSome ∨ d.statements.isSome) :
    ∃ c, round.records.companions.get? d.name = some c ∧ d.isEquivalent c = true := by
  by_cases changed : d ∈ round.plan.companions
  · have bound : ∃ c ∈ round.after.emitted.companions, c.name = d.name := by
      rw [companions_after]
      exact ⟨d, changed, rfl⟩
    obtain ⟨c, member, same, found⟩ := Table.get?_foldl_put_of_exists bound
    rw [companions_after] at member
    obtain rfl := tidy.eq_of_name_eq (mem_companions.mp member).1 generated same
    exact ⟨c, found, Companion.isEquivalent_self content⟩
  · have others : ∀ c ∈ round.after.emitted.companions, c.name ≠ d.name := by
      rw [companions_after]
      rintro c member same
      obtain rfl := tidy.eq_of_name_eq (mem_companions.mp member).1 generated same
      exact changed member
    have equivalent : (round.setup.previous.companions.get? d.name).any d.isEquivalent = true := by
      by_contra different
      exact changed (mem_companions.mpr ⟨generated, root, Bool.not_eq_true _ ▸ different⟩)
    obtain ⟨c, found, same⟩ := (Option.any_eq_true ..).mp equivalent
    exact ⟨c, (Table.get?_foldl_put_of_forall_ne others).trans found, same⟩

end Round

end CompanionBuild
