import CompanionBuild.Proofs.Build.Success
import CompanionBuild.Proofs.Diagnostic.Relocation
import CompanionBuild.Proofs.Emit.Mapper
import CompanionBuild.Proofs.Outline.Round
import Mathlib

/-! # Emitting one by one and all at once

A first build hands the compiler either its own units and the printed companions, one by one, or the whole program. For a
compiler that emits a program as it emits its units, the two ways differ in the companions of the program that are not
printed: all at once, they are emitted as they stand. Where there are none, the two ways write the same. They also report
the same, unless they count the user's files differently: all at once, declaration files count as well.
-/

namespace CompanionBuild

variable {ω A : Type}

/-! ## Results as sets -/

/-- Two results hold the same diagnostics and the same names. -/
structure EmitResult.SameSets (a b : EmitResult) : Prop where
  diagnostics : ∀ d, d ∈ a.diagnostics ↔ d ∈ b.diagnostics
  emitted : ∀ name, name ∈ a.emitted ↔ name ∈ b.emitted

namespace EmitResult

theorem SameSets.refl (result : EmitResult) : result.SameSets result :=
  ⟨fun _ => .rfl, fun _ => .rfl⟩

private theorem foldl_append (results : List EmitResult) (first : EmitResult) :
    results.foldl append first = {
      isSkipped := first.isSkipped || results.any (·.isSkipped)
      diagnostics := first.diagnostics ++ results.flatMap (·.diagnostics)
      emitted := first.emitted ++ results.flatMap (·.emitted) } := by
  induction results generalizing first with
  | nil => simp
  | cons result rest ih =>
    rw [List.foldl_cons, ih, append, List.flatMap_cons, List.flatMap_cons, List.any_cons, List.append_assoc,
      List.append_assoc, Bool.or_assoc]

theorem concat_eq (results : List EmitResult) :
    concat results = {
      isSkipped := results.any (·.isSkipped)
      diagnostics := results.flatMap (·.diagnostics)
      emitted := results.flatMap (·.emitted) } := by
  rw [concat, foldl_append, Bool.false_or, List.nil_append, List.nil_append]

theorem diagnostics_concat (results : List EmitResult) :
    (concat results).diagnostics = results.flatMap (·.diagnostics) := by
  rw [concat_eq]

theorem emitted_concat (results : List EmitResult) : (concat results).emitted = results.flatMap (·.emitted) := by
  rw [concat_eq]

end EmitResult

/-! ## Diagnostics that are moved onto templates -/

namespace Setup

variable (setup : Setup ω A) {caches : Caches} {structural : List TemplateDiagnostic} {a b : EmitResult}

/-- Where templates are looked up, no diagnostic points inside a character. -/
def Presentable (caches : Caches) (diagnostics : List Diagnostic) : Prop :=
  setup.options.noEmitOnError = true → ∀ d ∈ diagnostics, (d.verdict (Host.spanAt caches)).isOk = true

/-- The result with its diagnostics on templates, if it has any to be moved there. -/
def shown (caches : Caches) (structural : List TemplateDiagnostic) (result : EmitResult) : EmitResult :=
  if !setup.options.noEmitOnError then result
  else { result with
    diagnostics := result.diagnostics.filter (·.isKept (Host.spanAt caches)) ++
      (structural ++ result.diagnostics.filterMap (·.moved? (Host.spanAt caches))).map (·.toDiagnostic) }

variable (structural) in
theorem withTemplates_eq (presentable : setup.Presentable caches a.diagnostics) :
    setup.withTemplates caches structural a = .ok (setup.shown caches structural a) := by
  rw [withTemplates, shown]
  split
  case isTrue => rfl
  case isFalse blocks => rw [relocate_eq (presentable (by simpa using blocks))]

theorem emitted_shown : (setup.shown caches structural a).emitted = a.emitted := by
  rw [shown]
  split <;> rfl

theorem shown_nil_subset (result : EmitResult) :
    (setup.shown caches structural {}).diagnostics ⊆ (setup.shown caches structural result).diagnostics := by
  rw [shown, shown]
  split
  · exact List.nil_subset _
  · intro d member
    simp only [List.filter_nil, List.filterMap_nil, List.append_nil, List.nil_append, List.map_append,
      List.mem_append] at member ⊢
    exact .inr (.inl member)

/-- What is shown of several results is shown of one of them, or without any. -/
theorem mem_shown_concat {results : List EmitResult} {d : Diagnostic} :
    d ∈ (setup.shown caches structural (.concat results)).diagnostics ↔
      d ∈ (setup.shown caches structural {}).diagnostics ∨
        ∃ result ∈ results, d ∈ (setup.shown caches structural result).diagnostics := by
  unfold shown
  split
  · rw [EmitResult.diagnostics_concat, List.mem_flatMap]
    exact ⟨.inr, fun found => found.resolve_left List.not_mem_nil⟩
  · simp only [EmitResult.diagnostics_concat, List.mem_append, List.mem_filter, List.mem_map, List.mem_filterMap,
      List.mem_flatMap, List.not_mem_nil]
    grind

end Setup

/-! ## The two ways of a plan -/

namespace EmitPlan

variable (plan : EmitPlan ω) (made : String → List OutputFile) (told : Option String → EmitResult)

/-- The plan with its units handed over in a given way. -/
def batched (batching : Batching) : EmitPlan ω :=
  { plan with batching }

/-- The compiler emits a program as it emits its units, tells the names of its outputs, and gives different units
different outputs. -/
structure Concatenates : Prop where
  all : told none = .concat (plan.emittable.map fun name => told (some name))
  unknown : ∀ name, name ∉ plan.emittable → told (some name) = {}
  named : ∀ name, (told (some name)).emitted = (made name).map (·.name)
  distinct : ∀ name other, ∀ output ∈ made name, ∀ output' ∈ made other, output.name = output'.name → name = other

/-- What the compiler tells when the units are emitted one by one. -/
def toldEach : EmitResult :=
  .concat (plan.targets.map fun name => told (some name))

/-- Every unit of which something is made is among those that are emitted one by one. -/
def Covers : Prop :=
  ∀ name ∈ plan.emittable, made name ≠ [] → name ∈ plan.targets

/-- The files that are placed beside the compiler's outputs. -/
def besides : List String :=
  plan.finished.map (·.name) ++
    if plan.flags.metadata then plan.described.map fun u => Path.metadataOfSource u.name else []

/-- Whichever output comes first, what is placed beside the outputs goes to the same places. -/
def Placed (outDir : Option String) : Prop :=
  ∀ name other, ∀ output ∈ made name, ∀ output' ∈ made other, ∀ mapper alternative,
    OutputMapper.ofSample outDir (some (name, output.name)) = .ok mapper →
      OutputMapper.ofSample outDir (some (other, output'.name)) = .ok alternative →
        ∀ file ∈ plan.besides, mapper.map file = alternative.map file

variable {plan made told} {stored : ω → Store} {Steady : Situation ω → Prop}

theorem placed_of_layout {root outDir : String} (source : Path.IsNormal root) (target : Path.IsNormal outDir)
    (laid : ∀ name, ∀ output ∈ made name, OutputMapper.IsLaidOut root outDir (name, output.name))
    (below : ∀ file ∈ plan.besides, ∃ path, path ≠ [] ∧ (∀ name ∈ path, Path.IsName name) ∧ file = Path.under root path) :
    plan.Placed made (some outDir) := by
  intro name other output member output' member' mapper alternative derived derived' file placed
  obtain ⟨mapper, made, keeps⟩ := OutputMapper.exists_keepsLayout source target (laid name output member)
  obtain ⟨alternative, made', keeps'⟩ := OutputMapper.exists_keepsLayout source target (laid other output' member')
  cases made.symm.trans derived
  cases made'.symm.trans derived'
  obtain ⟨path, nonempty, names, rfl⟩ := below file placed
  rw [keeps path nonempty names, keeps' path nonempty names]

theorem Renders.batched (renders : plan.Renders stored Steady made told) (batching : Batching) :
    (plan.batched batching).Renders stored Steady made told :=
  ⟨renders.one, renders.all, renders.write, renders.sources, renders.known, renders.indexed⟩

/-- An output of a unit that is not emitted one by one is only told of when all are emitted. -/
theorem Concatenates.covers_iff (concatenates : plan.Concatenates made told) :
    (∀ name, name ∈ (plan.toldEach told).emitted ↔ name ∈ (told none).emitted) ↔ plan.Covers made := by
  rw [toldEach, concatenates.all, EmitResult.emitted_concat, EmitResult.emitted_concat, List.flatMap_map,
    List.flatMap_map]
  simp only [concatenates.named, List.mem_flatMap, List.mem_map]
  constructor
  · intro same name present some
    obtain ⟨output, member⟩ := List.exists_mem_of_ne_nil _ some
    obtain ⟨other, target, output', member', sameName⟩ := (same output.name).mpr ⟨name, present, output, member, rfl⟩
    rwa [concatenates.distinct name other output member output' member' sameName.symm]
  · intro covers output
    constructor
    · rintro ⟨name, -, output, member, rfl⟩
      refine ⟨name, ?_, output, member, rfl⟩
      by_contra foreign
      have silent := concatenates.named name
      rw [concatenates.unknown name foreign] at silent
      rw [List.map_eq_nil_iff.mp silent.symm] at member
      cases member
    · rintro ⟨name, present, output, member, rfl⟩
      exact ⟨name, covers name present (List.ne_nil_of_mem member), output, member, rfl⟩

/-! ## What is written -/

theorem Renders.mem_targets_iff (renders : plan.Renders stored Steady made told) (covers : plan.Covers made)
    {name : String} (some : made name ≠ []) : name ∈ plan.targets ↔ name ∈ plan.emittable :=
  ⟨fun _ => renders.known name some, fun present => covers name present some⟩

theorem Renders.mapper?_cases (renders : plan.Renders stored Steady made told) (outDir : Option String) :
    plan.emittedNames.flatMap made = [] ∧ plan.mapper? outDir made = none ∨
      ∃ name ∈ plan.emittedNames, ∃ output ∈ made name, ∃ mapper,
        OutputMapper.ofSample outDir (some (name, output.name)) = .ok mapper ∧
          plan.mapper? outDir made = some mapper := by
  unfold mapper?
  obtain ⟨silent, first⟩ | ⟨name, present, output, member, first⟩ := renders.head?_mapped plan.emittedNames
  · exact .inl ⟨silent, by rw [first]; rfl⟩
  · obtain ⟨mapper, derived⟩ := OutputMapper.exists_ofSample outDir (name, output.name)
    exact .inr ⟨name, present, output, member, mapper, derived, by rw [first, Option.bind_some, derived]; rfl⟩

/-- Either neither way makes anything, or both find a mapper and place the rest alike. -/
theorem mappers_alike (renders : plan.Renders stored Steady made told) (covers : plan.Covers made)
    {outDir : Option String} (placed : plan.Placed made outDir) :
    (∀ name ∈ plan.emittable, made name = []) ∧ (plan.batched .perFile).mapper? outDir made = none ∧
        (plan.batched .wholeProgram).mapper? outDir made = none ∨
      (∃ name ∈ plan.emittable, made name ≠ []) ∧ ∃ mapper alternative,
        (plan.batched .perFile).mapper? outDir made = some mapper ∧
          (plan.batched .wholeProgram).mapper? outDir made = some alternative ∧
            ∀ file ∈ plan.besides, mapper.map file = alternative.map file := by
  have agree {name : String} {output : OutputFile} (member : output ∈ made name) :
      name ∈ plan.targets ↔ name ∈ plan.emittable :=
    renders.mem_targets_iff covers (List.ne_nil_of_mem member)
  have absent {names : List String} (silent : names.flatMap made = []) {name : String} {output : OutputFile}
      (member : output ∈ made name) : name ∉ names := by
    intro present
    rw [List.flatMap_eq_nil_iff.mp silent name present] at member
    cases member
  obtain ⟨silent, none⟩ | ⟨name, present, output, member, mapper, derived, found⟩ :=
      (renders.batched .perFile).mapper?_cases outDir <;>
    obtain ⟨silent', none'⟩ | ⟨name', present', output', member', alternative, derived', found'⟩ :=
      (renders.batched .wholeProgram).mapper?_cases outDir
  · exact .inl ⟨List.flatMap_eq_nil_iff.mp silent', none, none'⟩
  · exact (absent silent member' ((agree member').mpr present')).elim
  · exact (absent silent' member ((agree member).mp present)).elim
  · refine .inr ⟨⟨name', present', List.ne_nil_of_mem member'⟩, mapper, alternative, found, found', ?_⟩
    exact placed name name' output member output' member' mapper alternative derived derived'

theorem restFiles_congr {mapper alternative : OutputMapper}
    (alike : ∀ file ∈ plan.besides, mapper.map file = alternative.map file) (documented : SourceUnit → Option Json) :
    plan.restFiles documented mapper = plan.restFiles documented alternative := by
  have finished : plan.finishedFiles mapper = plan.finishedFiles alternative := by
    refine List.flatMap_congr fun companion member => ?_
    rw [alike companion.name (List.mem_append_left _ (List.mem_map_of_mem member))]
  have described (wanted : plan.flags.metadata = true) :
      plan.metadataFiles documented mapper = plan.metadataFiles documented alternative := by
    refine List.flatMap_congr fun u member => ?_
    have placed : Path.metadataOfSource u.name ∈ plan.besides := by
      rw [besides, if_pos wanted]
      exact List.mem_append_right _ (List.mem_map_of_mem member)
    rw [alike _ placed]
  rw [restFiles, restFiles, finished]
  by_cases wanted : plan.flags.metadata = true
  · rw [described wanted]
  · rw [if_neg wanted, if_neg wanted]

theorem putAll_written (renders : plan.Renders stored Steady made told) (concatenates : plan.Concatenates made told)
    (covers : plan.Covers made) {outDir : Option String} (placed : plan.Placed made outDir)
    (documented : SourceUnit → Option Json) (store : Store) :
    store.putAll ((plan.batched .perFile).written outDir made documented) =
      store.putAll ((plan.batched .wholeProgram).written outDir made documented) := by
  have outputs : store.putAll (plan.targets.flatMap fun name => plan.router.kept (made name)) =
      store.putAll (plan.emittable.flatMap fun name => plan.router.kept (made name)) := by
    refine Store.putAll_flatMap_congr (fun part other file member file' member' same => ?_) (fun name some => ?_) store
    · obtain ⟨output, made, rfl⟩ := plan.router.exists_of_mem_kept member
      obtain ⟨output', made', rfl⟩ := plan.router.exists_of_mem_kept member'
      exact concatenates.distinct part other output made output' made' same
    · refine renders.mem_targets_iff covers fun none => some ?_
      rw [none]
      rfl
  have split (names : List String) : plan.router.kept (names.flatMap made) =
      names.flatMap fun name => plan.router.kept (made name) := by
    rw [Router.kept, List.flatMap_assoc]
    rfl
  have rest : ((plan.batched .perFile).mapper? outDir made).elim [] (plan.restFiles documented) =
      ((plan.batched .wholeProgram).mapper? outDir made).elim [] (plan.restFiles documented) := by
    obtain ⟨-, none, none'⟩ | ⟨-, mapper, alternative, found, found', alike⟩ := mappers_alike renders covers placed
    · rw [none, none']
    · rw [found, found', Option.elim_some, Option.elim_some, restFiles_congr alike]
  rw [written, written, Store.putAll_append, Store.putAll_append]
  change ((store.putAll (plan.router.kept (plan.targets.flatMap made))).putAll
      (((plan.batched .perFile).mapper? outDir made).elim [] (plan.restFiles documented)) =
    (store.putAll (plan.router.kept (plan.emittable.flatMap made))).putAll
      (((plan.batched .wholeProgram).mapper? outDir made).elim [] (plan.restFiles documented)))
  rw [split, split, outputs, rest]

/-! ## What is remarked -/

end EmitPlan

/-- A remark such as the build adds to a result itself. -/
def Diagnostic.IsRemark (d : Diagnostic) : Prop :=
  ∃ message, d = .remark message Options.reporter

namespace EmitPlan

variable (plan : EmitPlan ω)

/-- What the build itself remarks on an emit. -/
def remarks (mapper : Option OutputMapper) (isReported : Bool) (elapsed userFiles : Nat) : List Diagnostic :=
  match mapper with
  | none => [.remark "Emitted no files." Options.reporter]
  | some _ => if isReported then [plan.summary elapsed userFiles] else []

theorem remarks_some (mapper : OutputMapper) (isReported : Bool) (elapsed userFiles : Nat) :
    plan.remarks (some mapper) isReported elapsed userFiles =
      if isReported then [plan.summary elapsed userFiles] else [] :=
  rfl

theorem concluded_eq (mapper : Option OutputMapper) (isReported : Bool) (elapsed userFiles : Nat) (result : EmitResult) :
    plan.concluded mapper isReported elapsed userFiles result =
      { result with diagnostics := result.diagnostics ++ plan.remarks mapper isReported elapsed userFiles } := by
  unfold concluded remarks
  cases mapper with
  | none => rfl
  | some mapper =>
    cases isReported with
    | false => simp
    | true => rfl

theorem isRemark_of_mem_remarks {mapper : Option OutputMapper} {isReported : Bool} {elapsed userFiles : Nat}
    {d : Diagnostic} (member : d ∈ plan.remarks mapper isReported elapsed userFiles) : d.IsRemark := by
  unfold remarks at member
  split at member
  · exact ⟨_, List.mem_singleton.mp member⟩
  · split at member
    · exact ⟨_, List.mem_singleton.mp member⟩
    · cases member

/-- Summaries that count differently differ. -/
theorem summary_inj {elapsed userFiles others : Nat} :
    plan.summary elapsed userFiles = plan.summary elapsed others ↔ userFiles = others := by
  refine ⟨fun same => ?_, fun same => by rw [same]⟩
  have text := congrArg Diagnostic.message same
  simp only [summary, Diagnostic.remark, Text.joined, String.intercalate_cons_cons, String.append_assoc] at text
  simpa using text

/-- With the remarks of the build two results hold the same, if they do without them and the remarks do. -/
theorem concluded_sameSets_iff {a b : EmitResult} (unsaid : ∀ d ∈ a.diagnostics ++ b.diagnostics, ¬ d.IsRemark)
    (mapper mapper' : Option OutputMapper) (isReported : Bool) (elapsed elapsed' userFiles userFiles' : Nat) :
    (plan.concluded mapper isReported elapsed userFiles a).SameSets
        (plan.concluded mapper' isReported elapsed' userFiles' b) ↔
      a.SameSets b ∧ ∀ d, d ∈ plan.remarks mapper isReported elapsed userFiles ↔
        d ∈ plan.remarks mapper' isReported elapsed' userFiles' := by
  rw [concluded_eq, concluded_eq]
  constructor
  · intro same
    have parts (d : Diagnostic) := same.diagnostics d
    simp only [List.mem_append] at parts unsaid
    refine ⟨⟨fun d => ?_, same.emitted⟩, fun d => ?_⟩
    · by_cases remark : d.IsRemark
      · exact iff_of_false (fun said => unsaid d (.inl said) remark) fun said => unsaid d (.inr said) remark
      · have added {m : Option OutputMapper} {e u : Nat} : d ∉ plan.remarks m isReported e u :=
          fun member => remark (plan.isRemark_of_mem_remarks member)
        simpa only [added, or_false] using parts d
    · by_cases remark : d.IsRemark
      · have silent : d ∉ a.diagnostics ∧ d ∉ b.diagnostics :=
          ⟨fun said => unsaid d (.inl said) remark, fun said => unsaid d (.inr said) remark⟩
        simpa only [silent.1, silent.2, false_or] using parts d
      · exact iff_of_false (fun member => remark (plan.isRemark_of_mem_remarks member))
          fun member => remark (plan.isRemark_of_mem_remarks member)
  · rintro ⟨same, remarks⟩
    refine ⟨fun d => ?_, same.emitted⟩
    rw [List.mem_append, List.mem_append, same.diagnostics, remarks]

variable {plan} {stored : ω → Store} {Steady : Situation ω → Prop} {made : String → List OutputFile}
  {told : Option String → EmitResult}

/-- The two ways remark the same, unless they make something and report different numbers of files. -/
theorem remarks_iff (renders : plan.Renders stored Steady made told) (covers : plan.Covers made)
    {outDir : Option String} (placed : plan.Placed made outDir) {isReported : Bool} {elapsed elapsed' : Nat}
    (still : isReported = true → elapsed = elapsed') {userFiles userFiles' : Nat} :
    (∀ d, d ∈ plan.remarks ((plan.batched .perFile).mapper? outDir made) isReported elapsed userFiles ↔
        d ∈ plan.remarks ((plan.batched .wholeProgram).mapper? outDir made) isReported elapsed' userFiles') ↔
      (isReported = true → (∃ name ∈ plan.emittable, made name ≠ []) → userFiles = userFiles') := by
  obtain ⟨silent, none, none'⟩ | ⟨makes, mapper, alternative, found, found', -⟩ := mappers_alike renders covers placed
  · rw [none, none']
    refine iff_of_true (fun _ => Iff.rfl) fun _ ⟨name, present, makes⟩ => ?_
    exact (makes (silent name present)).elim
  · rw [found, found', remarks_some, remarks_some]
    cases isReported with
    | false =>
      rw [if_neg Bool.false_ne_true, if_neg Bool.false_ne_true]
      exact iff_of_true (fun _ => Iff.rfl) fun reported => by cases reported
    | true =>
      obtain rfl := still rfl
      rw [if_pos rfl, if_pos rfl]
      constructor
      · exact fun same _ _ => plan.summary_inj.mp (List.mem_singleton.mp ((same _).mp (List.mem_singleton_self _)))
      · exact fun same d => by rw [same rfl makes]

end EmitPlan

/-! ## Emits -/

/-- Two emits left the same files, and ended with the same error or with results that hold the same. -/
def SameEmit (stored : ω → Store) (a b : Outcome EmitResult × Build ω A) : Prop :=
  stored a.2.situation.world = stored b.2.situation.world ∧
    match a.1, b.1 with
    | .ok a, .ok b => a.SameSets b
    | .error a, .error b => a = b
    | _, _ => False

theorem SameEmit.refl (stored : ω → Store) (a : Outcome EmitResult × Build ω A) : SameEmit stored a a := by
  refine ⟨rfl, ?_⟩
  cases a.1 with
  | ok result => exact .refl result
  | error error => rfl

namespace Setup

variable (setup : Setup ω A) (build : Build ω A) (options : EmitOptions ω)

/-- The emit gets as far as a plan. -/
structure Reaches (program : Program ω) (companions : List Companion) (start : Situation ω) : Prop where
  final : build.finalProgram .emit = .ok program
  produces : options.flags.producesFiles = true
  companions : (setup.companionsForEmit options.flags build.analysis).run.run
    ((HostM.inWorld setup.clock).run build.situation).2 = (.ok (.ok companions), start)

/-- What the two ways of emitting need of the surroundings, beside a compiler that emits a program as it emits its units:
a file system that takes every file, metadata for the units that are described, a place for what is written beside the
outputs, diagnostics that can be shown and are none of the build's own remarks and, where a summary is asked for, a clock
that stands still. -/
structure Compares (stored : ω → Store) (Steady : Situation ω → Prop) (made : String → List OutputFile)
    (told : Option String → EmitResult) (documented : SourceUnit → Option Json) (program : Program ω)
    (companions : List Companion) (start : Situation ω) : Prop where
  stores : setup.files.Stores stored
  accepts : setup.files.Accepts
  quiet : Within (Alike stored) setup.clock
  documents : options.flags.metadata = true →
    (setup.plan program companions options).Documents setup.host stored Steady documented
  steady : Steady start
  renders : (setup.plan program companions options).Renders stored Steady made told
  concatenates : (setup.plan program companions options).Concatenates made told
  placed : (setup.plan program companions options).Placed made setup.options.outDir
  presentable : ∀ name, setup.Presentable start.caches (told (some name)).diagnostics
  unsaid : ∀ d ∈ (setup.shown start.caches build.structural (told none)).diagnostics, ¬ d.IsRemark
  still : setup.options.diagnostics = true → ∀ world other, (setup.clock.run world).1 = (setup.clock.run other).1

/-- What the two ways of emitting must agree in. -/
structure Agrees (made : String → List OutputFile) (told : Option String → EmitResult) (program : Program ω)
    (companions : List Companion) (start : Situation ω) : Prop where
  /-- Every companion in the program of which something is made is being printed. -/
  printed : ∀ u ∈ program.units, u.isDeclaration = false → Path.isCompanion u.name = true → made u.name ≠ [] →
    ∃ c ∈ companions, c.name = u.name ∧ c.statements.isSome = true
  /-- What is shown of a unit that is not emitted one by one is shown without it as well. -/
  discreet : ∀ u ∈ program.units, u.isDeclaration = false →
    u.name ∉ (setup.plan program companions options).targets →
      ∀ d ∈ (setup.shown start.caches build.structural (told (some u.name))).diagnostics,
        d ∈ (setup.shown start.caches build.structural
          ((setup.plan program companions options).toldEach told)).diagnostics
  /-- If anything is made and a summary is asked for, all units but the printed companions are the user's. -/
  counted : setup.options.diagnostics = true → (∃ u ∈ program.units, u.isDeclaration = false ∧ made u.name ≠ []) →
    (program.units.filter fun u => !u.isDeclaration && !Path.isCompanion u.name).length =
      program.units.length - (companions.filter fun c => c.statements.isSome).length

variable {setup build options} {stored : ω → Store} {Steady : Situation ω → Prop} {made : String → List OutputFile}
  {told : Option String → EmitResult} {documented : SourceUnit → Option Json} {program : Program ω}
  {companions : List Companion} {start : Situation ω}

theorem mem_emittable {name : String} :
    name ∈ (setup.plan program companions options).emittable ↔
      ∃ u ∈ program.units, u.isDeclaration = false ∧ u.name = name := by
  rw [EmitPlan.emittable, List.mem_map]
  simp only [List.mem_filter, Bool.not_eq_true', and_assoc]
  rfl

theorem units_plan (first : setup.previous = {}) :
    (setup.plan program companions options).units =
      program.units.filter fun u => !u.isDeclaration && !Path.isCompanion u.name := by
  change setup.changedUnits program.units = _
  rw [changedUnits, first]
  refine List.filter_congr fun u _ => ?_
  exact Bool.and_true _

theorem covers_iff (first : setup.previous = {}) :
    (setup.plan program companions options).Covers made ↔
      ∀ u ∈ program.units, u.isDeclaration = false → Path.isCompanion u.name = true → made u.name ≠ [] →
        ∃ c ∈ companions, c.name = u.name ∧ c.statements.isSome = true := by
  have units {u : SourceUnit} : u ∈ (setup.plan program companions options).units ↔
      u ∈ program.units ∧ u.isDeclaration = false ∧ Path.isCompanion u.name = false := by
    rw [units_plan first, List.mem_filter, Bool.and_eq_true, Bool.not_eq_true', Bool.not_eq_true']
  constructor
  · intro covers u present source companion some
    obtain target | target := List.mem_append.mp (covers u.name (mem_emittable.mpr ⟨u, present, source, rfl⟩) some)
    · obtain ⟨v, member, same⟩ := List.mem_map.mp target
      obtain ⟨-, -, user⟩ := units.mp member
      rw [same, companion] at user
      cases user
    · obtain ⟨c, member, same⟩ := List.mem_map.mp target
      obtain ⟨member, statements⟩ := List.mem_filter.mp member
      exact ⟨c, member, same, statements⟩
  · intro printed name emittable some
    obtain ⟨u, present, source, rfl⟩ := mem_emittable.mp emittable
    rw [EmitPlan.targets, List.mem_append]
    cases companion : Path.isCompanion u.name with
    | false => exact .inl (List.mem_map_of_mem (units.mpr ⟨present, source, companion⟩))
    | true =>
      obtain ⟨c, member, same, statements⟩ := printed u present source companion some
      exact .inr (List.mem_map.mpr ⟨c, List.mem_filter.mpr ⟨member, statements⟩, same⟩)

namespace Compares

variable (compares : setup.Compares build options stored Steady made told documented program companions start)

include compares

theorem presentable_concat (names : List String) :
    setup.Presentable start.caches (EmitResult.concat (names.map fun name => told (some name))).diagnostics := by
  intro blocks d member
  rw [EmitResult.diagnostics_concat, List.flatMap_map] at member
  obtain ⟨name, -, member⟩ := List.mem_flatMap.mp member
  exact compares.presentable name blocks d member

/-- What is shown of the units one by one is shown of all of them. -/
theorem shown_subset :
    (setup.shown start.caches build.structural ((setup.plan program companions options).toldEach told)).diagnostics ⊆
      (setup.shown start.caches build.structural (told none)).diagnostics := by
  intro d member
  rw [compares.concatenates.all]
  refine setup.mem_shown_concat.mpr ?_
  obtain always | ⟨result, listed, shown⟩ := setup.mem_shown_concat.mp member
  · exact .inl always
  · obtain ⟨name, -, rfl⟩ := List.mem_map.mp listed
    by_cases present : name ∈ (setup.plan program companions options).emittable
    · exact .inr ⟨_, List.mem_map_of_mem present, shown⟩
    · rw [compares.concatenates.unknown name present] at shown
      exact .inl shown

/-- The diagnostics of the two ways hold the same before the build adds its remarks. -/
theorem shown_iff :
    (∀ d, d ∈ (setup.shown start.caches build.structural
          ((setup.plan program companions options).toldEach told)).diagnostics ↔
        d ∈ (setup.shown start.caches build.structural (told none)).diagnostics) ↔
      ∀ u ∈ program.units, u.isDeclaration = false → u.name ∉ (setup.plan program companions options).targets →
        ∀ d ∈ (setup.shown start.caches build.structural (told (some u.name))).diagnostics,
          d ∈ (setup.shown start.caches build.structural
            ((setup.plan program companions options).toldEach told)).diagnostics := by
  have whole {d : Diagnostic} : d ∈ (setup.shown start.caches build.structural (told none)).diagnostics ↔
      d ∈ (setup.shown start.caches build.structural {}).diagnostics ∨
        ∃ u ∈ program.units, u.isDeclaration = false ∧
          d ∈ (setup.shown start.caches build.structural (told (some u.name))).diagnostics := by
    rw [compares.concatenates.all, setup.mem_shown_concat]
    simp only [List.mem_map, exists_exists_and_eq_and, mem_emittable]
    exact or_congr_right ⟨fun ⟨_, ⟨u, present, source, named⟩, shown⟩ => ⟨u, present, source, named ▸ shown⟩,
      fun ⟨u, present, source, shown⟩ => ⟨u.name, ⟨u, present, source, rfl⟩, shown⟩⟩
  constructor
  · intro same u present source _ d shown
    exact (same d).mpr (whole.mpr (.inr ⟨u, present, source, shown⟩))
  · intro discreet d
    refine ⟨fun shown => compares.shown_subset shown, fun shown => ?_⟩
    obtain always | ⟨u, present, source, shown⟩ := whole.mp shown
    · exact setup.shown_nil_subset _ always
    · by_cases target : u.name ∈ (setup.plan program companions options).targets
      · exact setup.mem_shown_concat.mpr (.inr ⟨_, List.mem_map_of_mem target, shown⟩)
      · exact discreet u present source target d shown

/-- The two ways come to results that hold the same if they agree. -/
theorem concluded_sameSets_iff (first : setup.previous = {}) {elapsed elapsed' : Nat}
    (still : setup.options.diagnostics = true → elapsed = elapsed') :
    let plan := setup.plan program companions options
    (plan.concluded ((plan.batched .perFile).mapper? setup.options.outDir made) setup.options.diagnostics elapsed
          plan.units.length (setup.shown start.caches build.structural (plan.toldEach told))).SameSets
        (plan.concluded ((plan.batched .wholeProgram).mapper? setup.options.outDir made) setup.options.diagnostics
          elapsed' (program.units.length - plan.printed.length)
          (setup.shown start.caches build.structural (told none))) ↔
      setup.Agrees build options made told program companions start := by
  intro plan
  have unsaid : ∀ d ∈ (setup.shown start.caches build.structural (plan.toldEach told)).diagnostics ++
      (setup.shown start.caches build.structural (told none)).diagnostics, ¬ d.IsRemark :=
    List.forall_mem_append.mpr ⟨fun d shown => compares.unsaid d (compares.shown_subset shown), compares.unsaid⟩
  have covered : (∀ name, name ∈ (setup.shown start.caches build.structural (plan.toldEach told)).emitted ↔
      name ∈ (setup.shown start.caches build.structural (told none)).emitted) ↔ plan.Covers made := by
    rw [emitted_shown, emitted_shown]
    exact compares.concatenates.covers_iff
  have makes : (∃ name ∈ plan.emittable, made name ≠ []) ↔
      ∃ u ∈ program.units, u.isDeclaration = false ∧ made u.name ≠ [] := by
    constructor
    · rintro ⟨name, present, some⟩
      obtain ⟨u, member, source, rfl⟩ := mem_emittable.mp present
      exact ⟨u, member, source, some⟩
    · rintro ⟨u, member, source, some⟩
      exact ⟨u.name, mem_emittable.mpr ⟨u, member, source, rfl⟩, some⟩
  have users : plan.units.length =
      (program.units.filter fun u => !u.isDeclaration && !Path.isCompanion u.name).length := by
    rw [units_plan first]
  rw [plan.concluded_sameSets_iff unsaid]
  constructor
  · rintro ⟨same, remarks⟩
    have covers := covered.mp same.emitted
    have counted := (EmitPlan.remarks_iff compares.renders covers compares.placed still).mp remarks
    rw [makes, users] at counted
    exact ⟨(covers_iff first).mp covers, compares.shown_iff.mp same.diagnostics, counted⟩
  · rintro ⟨printed, discreet, counted⟩
    have covers : plan.Covers made := (covers_iff first).mpr printed
    refine ⟨⟨compares.shown_iff.mpr discreet, covered.mpr covers⟩, ?_⟩
    rw [EmitPlan.remarks_iff compares.renders covers compares.placed still, makes, users]
    exact counted

/-- Both ways of carrying out a plan succeed, and they come to the same if they agree. -/
theorem emitPlan (first : setup.previous = {}) (started : Nat) :
    ∃ single after whole after',
      (setup.emitPlan ((setup.plan program companions options).batched .perFile) build.structural started).run.run
          ⟨start, {}⟩ = (.ok single, after) ∧
      (setup.emitPlan ((setup.plan program companions options).batched .wholeProgram) build.structural started).run.run
          ⟨start, {}⟩ = (.ok whole, after') ∧
      (stored after.situation.world = stored after'.situation.world ∧ single.SameSets whole ↔
        setup.Agrees build options made told program companions start) := by
  let plan := setup.plan program companions options
  have presentableAll : setup.Presentable start.caches (told none).diagnostics := by
    rw [compares.concatenates.all]
    exact compares.presentable_concat _
  have shows := setup.withTemplates_eq build.structural (compares.presentable_concat plan.targets)
  have showsAll := setup.withTemplates_eq build.structural presentableAll
  obtain ⟨single, after, ran⟩ := setup.emitPlan_succeeds { options with batching := .perFile }
    (compares.renders.batched .perFile) compares.stores compares.accepts compares.documents compares.steady shows started
  obtain ⟨whole, after', ran'⟩ := setup.emitPlan_succeeds { options with batching := .wholeProgram }
    (compares.renders.batched .wholeProgram) compares.stores compares.accepts compares.documents compares.steady showsAll
    started
  refine ⟨single, after, whole, after', ran, ran', ?_⟩
  obtain ⟨store, -, said, world, answers, result⟩ := setup.emitPlan_ok { options with batching := .perFile } documented
    (compares.renders.batched .perFile) compares.stores compares.quiet compares.documents compares.steady ran
  obtain ⟨store', -, said', world', answers', result'⟩ := setup.emitPlan_ok { options with batching := .wholeProgram }
    documented (compares.renders.batched .wholeProgram) compares.stores compares.quiet compares.documents compares.steady
    ran'
  obtain rfl : setup.shown start.caches build.structural _ = said := Except.ok.inj (shows.symm.trans answers)
  obtain rfl : setup.shown start.caches build.structural _ = said' := Except.ok.inj (showsAll.symm.trans answers')
  have still (reported : setup.options.diagnostics = true) :
      (setup.clock.run world).1 - started = (setup.clock.run world').1 - started := by
    rw [compares.still reported world world']
  have agrees_iff := compares.concluded_sameSets_iff first still
  rw [result, result']
  refine ⟨fun ⟨_, same⟩ => agrees_iff.mp same, fun agrees => ⟨?_, agrees_iff.mpr agrees⟩⟩
  have covers : plan.Covers made := (covers_iff first).mpr agrees.printed
  rw [store, store']
  exact EmitPlan.putAll_written compares.renders compares.concatenates covers compares.placed documented _

end Compares

theorem Reaches.unique {other : Program ω} {others : List Companion} {begin : Situation ω}
    (reaches : setup.Reaches build options program companions start)
    (again : setup.Reaches build options other others begin) : program = other ∧ companions = others ∧ start = begin := by
  refine ⟨Except.ok.inj (reaches.final.symm.trans again.final), ?_⟩
  obtain ⟨same, rfl⟩ := Prod.mk.inj (reaches.companions.symm.trans again.companions)
  exact ⟨Except.ok.inj (Except.ok.inj same), rfl⟩

theorem Reaches.emit_on (reaches : setup.Reaches build options program companions start) (batching : Batching) :
    (setup.emit { options with batching }).on build =
      (setup.emitAndRecord (setup.plan program companions { options with batching })
        ((HostM.inWorld setup.clock).run build.situation).1).on { build with situation := start } := by
  have made := reaches.companions
  rw [setup.emit_on _ reaches.final]
  rcases clocked : (HostM.inWorld setup.clock).run build.situation with ⟨started, timed⟩
  rw [clocked] at made
  dsimp only at made ⊢
  rw [if_neg (by rw [reaches.produces]; decide), made]

/-- An emit that does not get as far as a plan does not look at the batching. -/
theorem emit_on_of_unreached
    (unreached : ∀ program companions start, ¬ setup.Reaches build options program companions start)
    (batching : Batching) : (setup.emit { options with batching }).on build = (setup.emit options).on build := by
  cases final : build.finalProgram .emit with
  | error error => rw [setup.emit_refused _ final, setup.emit_refused _ final]
  | ok program =>
    rw [setup.emit_on _ final, setup.emit_on _ final]
    rcases clocked : (HostM.inWorld setup.clock).run build.situation with ⟨started, timed⟩
    dsimp only
    by_cases produces : options.flags.producesFiles = true
    · rcases ran : (setup.companionsForEmit options.flags build.analysis).run.run timed with
        ⟨_ | _ | companions, start⟩
      · rfl
      · rfl
      · exact (unreached program companions start ⟨final, produces, by rw [clocked, ran]⟩).elim
    · rw [if_pos (by simpa using produces), if_pos (by simpa using produces)]

/-- The two ways of emitting come to the same if they agree. -/
theorem Compares.sameEmit_iff (first : setup.previous = {})
    (compares : setup.Compares build options stored Steady made told documented program companions start)
    (reaches : setup.Reaches build options program companions start) :
    SameEmit stored ((setup.emit { options with batching := .perFile }).on build)
        ((setup.emit { options with batching := .wholeProgram }).on build) ↔
      setup.Agrees build options made told program companions start := by
  obtain ⟨single, after, whole, after', emits, emits', agree⟩ := compares.emitPlan first
    ((HostM.inWorld setup.clock).run build.situation).1
  rw [reaches.emit_on, reaches.emit_on, setup.emitAndRecord_of_ok emits, setup.emitAndRecord_of_ok emits', ← agree]
  rfl

end Setup

/-- Without transformers the metadata is what is collected. -/
theorem collectMetadata_nil {σ : Type} (collect : SourceUnit → StateM σ (Option Json)) (u : SourceUnit) (state : σ) :
    (collectMetadata collect [] u).run.run state = (.ok ((collect u).run state).1, ((collect u).run state).2) := by
  have collects : (liftM (collect u) : ResourceM σ (Option Json)).run.run state =
      (.ok ((collect u).run state).1, ((collect u).run state).2) := rfl
  rw [collectMetadata, ExceptT.run_bind, StateT.run_bind, collects]
  cases ((collect u).run state).1 with
  | none => rfl
  | some metadata =>
    change (if u.isDeclaration then pure (some metadata) else some <$> reviseModule u [] metadata :
      ResourceM σ _).run.run _ = _
    split <;> rfl

/-! ## The compiler of outlines -/

namespace Outline

theorem accepts (directory : String) : (files {} directory).Accepts :=
  fun _ _ _ _ => rfl

section

variable {settings : Settings} {options : Options} {units : List SourceUnit} {plan : EmitPlan World}
  {final : SourceUnit → SourceUnit} {found : SourceUnit → Findings} {onlyDeclarations : Bool}

/-- The compiler of outlines emits a program as it emits its units. -/
theorem concatenates (present : plan.program.units = units) (distinct : (units.map (·.name)).Nodup)
    (separate : ∀ u ∈ emitted units none, ∀ v ∈ emitted units none,
      ∀ output ∈ outputs settings options onlyDeclarations (final u),
      ∀ output' ∈ outputs settings options onlyDeclarations (final v), output.name = output'.name → u.name = v.name) :
    plan.Concatenates (fun name => handed settings options units onlyDeclarations final (some name))
      (told settings options units onlyDeclarations final found) where
  all := by
    have each {α : Type} (part : SourceUnit → List α) : (emitted units none).flatMap part =
        plan.emittable.flatMap fun name => (emitted units (some name)).flatMap part := by
      rw [EmitPlan.emittable, present, List.flatMap_map]
      refine List.flatMap_congr fun u member => ?_
      rw [emitted_some distinct member, List.flatMap_singleton]
    have attempted : (plan.emittable.map fun name => told settings options units onlyDeclarations final found
        (some name)).any (·.isSkipped) = false := by
      simp [told]
    rw [EmitResult.concat_eq, attempted, List.flatMap_map, List.flatMap_map, told, handed, each, each, List.map_flatMap]
    rfl
  unknown name foreign := by
    have none : emitted units (some name) = [] := by
      refine List.eq_nil_iff_forall_not_mem.mpr fun u member => foreign ?_
      rw [EmitPlan.emittable, present]
      exact List.mem_map.mpr ⟨u, mem_emitted _ u member, name_of_mem_emitted member⟩
    rw [told, handed, none]
    rfl
  named name := rfl
  distinct name other output member output' member' same := by
    obtain ⟨u, emits, member⟩ := List.mem_flatMap.mp member
    obtain ⟨v, emits', member'⟩ := List.mem_flatMap.mp member'
    rw [← name_of_mem_emitted emits, ← name_of_mem_emitted emits']
    exact separate u (mem_emitted _ u emits) v (mem_emitted _ v emits') output member output' member' same

end

section

variable (options : Options) (units : List SourceUnit) (flags : EmitFlags) (companions : List Companion)

/-- A unit with the statements of its companion filled in. -/
def filledUnit (u : SourceUnit) : SourceUnit :=
  u.detached.filled companions options.annotateForClosureCompiler

/-- The outputs of a program in which companions are filled in. -/
def filledOutputs (name : String) : List OutputFile :=
  handed {} options units flags.onlyDeclarations (filledUnit options companions) (some name)

def filledResult : Option String → EmitResult :=
  told {} options units flags.onlyDeclarations (filledUnit options companions) fun _ => {}

end

variable {options : Options} {units : List SourceUnit} {flags : EmitFlags} {companions generated : List Companion}

theorem name_of_mem_outputs (scripts : options.declaration = false) {onlyDeclarations : Bool} {u : SourceUnit}
    {output : OutputFile} (member : output ∈ outputs {} options onlyDeclarations (filledUnit options companions u)) :
    output.name = outputStem options u.name ++ ".js" := by
  have named : (filledUnit options companions u).name = u.name := (u.detached.filled_keeps ..).1
  rw [outputs, named, List.mem_append, scripts] at member
  obtain script | declaration := member
  · split at script
    · cases script
    · rw [List.mem_singleton.mp script]
  · cases declaration

theorem diagnostics_filledResult (silent : ∀ u ∈ emitted units none, emitDiagnostics u = []) (target : Option String) :
    (filledResult options units flags companions target).diagnostics = [] :=
  List.flatMap_eq_nil_iff.mpr fun u member => silent u (mem_emitted _ u member)

/-- The metadata that is collected of a unit. -/
def collected (u : SourceUnit) : Option Json :=
  if Text.contains u.text "export class" then some (moduleMetadata u.name) else none

/-- The metadata that is kept for the units is theirs. -/
def KeepsMetadata (units : List SourceUnit) (situation : Situation World) : Prop :=
  ∀ u ∈ units, ∀ kept, Table.get? situation.caches.metadata u.name = some kept → kept = collected u

theorem documents (plain : Plain options) (distinct : (units.map (·.name)).Nodup) :
    ((setupOf options generated {}).plan (program {} [] options none units) companions { flags }).Documents
      (setupOf options generated {}).host stored (KeepsMetadata units) collected := by
  intro u described situation keeps
  have present : u ∈ units := (List.mem_filter.mp described).1
  cases kept : Table.get? situation.caches.metadata u.name with
  | some found =>
    refine ⟨situation, keeps, rfl, ?_⟩
    rw [Host.unitMetadata, Attempt.memo, Attempt.caches_bind, kept, keeps u present found kept]
    rfl
  | none =>
    have unrevised : (setupOf options generated {}).host.metadataTransformers = [] := by
      change (if options.enableResourceInlining then _ else []) ++ (if options.disableExpressionLowering then [] else _) = _
      rw [plain.inlining, plain.lowering]
      rfl
    let noted : Situation World := { situation with world := ((note ("collect " ++ u.name)).run situation.world).2 }
    have collects : (collectMetadata (fun u => HostM.inWorld ((setupOf options generated {}).host.collect u))
        (setupOf options generated {}).host.metadataTransformers u).run.run situation = (.ok (collected u), noted) := by
      rw [unrevised, collectMetadata_nil]
      rfl
    let after : Situation World := { noted with
      caches := { situation.caches with metadata := Table.put situation.caches.metadata u.name (collected u) } }
    have ran : ((setupOf options generated {}).host.unitMetadata u).run.run situation = (.ok (collected u), after) := by
      rw [Host.unitMetadata]
      exact Attempt.memo_of_none kept ((run_adapt ..).trans (by rw [collects]; rfl))
    refine ⟨after, fun v member found stored => ?_, rfl, ran⟩
    change Table.get? (Table.put situation.caches.metadata u.name (collected u)) v.name = some found at stored
    rw [Table.get?_put] at stored
    split at stored
    case isTrue same =>
      rw [List.inj_on_of_nodup_map distinct present member same] at stored
      exact (Option.some.inj stored).symm
    case isFalse => exact keeps v member found stored

/-- The two ways of emitting can be compared for units without diagnostics. -/
theorem compares (plain : Plain options) (scripts : options.declaration = false)
    (distinct : (units.map (·.name)).Nodup)
    (separate : ∀ u ∈ emitted units none, ∀ v ∈ emitted units none,
      outputStem options u.name ++ ".js" = outputStem options v.name ++ ".js" → u.name = v.name)
    (silent : ∀ u ∈ emitted units none, emitDiagnostics u = [])
    (placed : ((setupOf options generated {}).plan (program {} [] options none units) companions { flags }).Placed
      (filledOutputs options units flags companions) options.outDir) {start : Situation World}
    (steady : KeepsMetadata units start) :
    (setupOf options generated {}).Compares (ready options units {}) { flags } Outline.stored (KeepsMetadata units)
      (filledOutputs options units flags companions) (filledResult options units flags companions) collected
      (program {} [] options none units) companions start where
  stores := stores {} "/"
  accepts := accepts "/"
  quiet := .pure _
  documents _ := documents plain distinct
  steady := steady
  renders := renders rfl rfl rfl distinct (fun _ _ steady => steady) (fun _ _ _ _ steady => steady)
    (plain.transforms companions _ _)
  concatenates := by
    refine concatenates rfl distinct fun u present v present' output member output' member' same => ?_
    rw [name_of_mem_outputs scripts member, name_of_mem_outputs scripts member'] at same
    exact separate u present v present' same
  placed := placed
  presentable name _ d member := by
    rw [diagnostics_filledResult silent] at member
    cases member
  unsaid d member := by
    rw [Setup.shown] at member
    split at member <;> simp [diagnostics_filledResult silent, ready, readyWith] at member
  still _ _ _ := rfl

/-! ## A program with a declaration file -/

/-- Options for outputs in a directory of their own, perhaps with a summary. -/
def outOptions (reported : Bool) : Options :=
  { plainOptions with basePath := some "/", outDir := some "/out", diagnostics := reported }

/-- A unit of the user, its companion, and a declaration file. -/
def libraryUnits : List SourceUnit :=
  [.plain "/a.ts" "export class A {}", .plain "/a.axfactory.ts" "", { name := "/lib.d.ts", text := "", isDeclaration := true }]

/-- Everything that can be asked for. -/
def fullFlags : EmitFlags :=
  { declarations := true, scripts := true, metadata := true, companions := true }

/-- Outputs of the user's units, and no companions. -/
def ownFlags : EmitFlags :=
  { declarations := true, scripts := true }

/-- The setup and the build of the program. -/
def librarySetup (reported : Bool) : Setup World Analysis :=
  setupOf (outOptions reported) (companionsOf "ɵnew") {}

def libraryBuild (reported : Bool) : Build World Analysis :=
  ready (outOptions reported) libraryUnits {}

set_option maxRecDepth 100000 in
theorem reaches_fullFlags (reported : Bool) :
    (librarySetup reported).Reaches (libraryBuild reported) { flags := fullFlags }
      (program {} [] (outOptions reported) none libraryUnits) (companionsOf "ɵnew") ⟨((note "impls").run {}).2, {}⟩ :=
  ⟨rfl, rfl, rfl⟩

theorem reaches_ownFlags (reported : Bool) :
    (librarySetup reported).Reaches (libraryBuild reported) { flags := ownFlags }
      (program {} [] (outOptions reported) none libraryUnits) [] ⟨{}, {}⟩ :=
  ⟨rfl, rfl, rfl⟩

set_option maxRecDepth 100000 in
theorem laid_libraryUnits (reported : Bool) : ∀ u ∈ emitted libraryUnits none,
    OutputMapper.IsLaidOut "/" "/out" (u.name, outputStem (outOptions reported) u.name ++ ".js") := by
  have listed : emitted libraryUnits none = [.plain "/a.ts" "export class A {}", .plain "/a.axfactory.ts" ""] := rfl
  rw [listed, List.forall_mem_cons, List.forall_mem_singleton]
  cases reported with
  | false =>
    exact ⟨⟨[], "a.ts", "a.js", by decide, by decide, by decide, by decide +kernel⟩,
      [], "a.axfactory.ts", "a.axfactory.js", by decide, by decide, by decide, by decide +kernel⟩
  | true =>
    exact ⟨⟨[], "a.ts", "a.js", by decide, by decide, by decide, by decide +kernel⟩,
      [], "a.axfactory.ts", "a.axfactory.js", by decide, by decide, by decide, by decide +kernel⟩

set_option maxRecDepth 100000 in
theorem compares_library (reported : Bool) {flags : EmitFlags} {companions : List Companion}
    (finished : ∀ c ∈ companions, c.source.isSome = true → c.name = "/a.axsummary.json") {world : World} :
    (librarySetup reported).Compares (libraryBuild reported) { flags } Outline.stored (KeepsMetadata libraryUnits)
      (filledOutputs (outOptions reported) libraryUnits flags companions)
      (filledResult (outOptions reported) libraryUnits flags companions) collected
      (program {} [] (outOptions reported) none libraryUnits) companions ⟨world, {}⟩ := by
  refine compares ⟨rfl, rfl, rfl⟩ rfl (by decide) (by cases reported <;> decide +kernel) (by decide +kernel) ?_
    fun _ _ _ absent => by cases absent
  have top : Path.IsNormal "/" := ⟨by decide, by decide⟩
  refine EmitPlan.placed_of_layout top ⟨by decide, by decide⟩ (fun name output member => ?_) fun file member => ?_
  · obtain ⟨u, emits, member⟩ := List.mem_flatMap.mp member
    rw [name_of_mem_outputs rfl member, ← name_of_mem_emitted emits]
    exact laid_libraryUnits reported u (mem_emitted _ u emits)
  · obtain text | metadata := List.mem_append.mp member
    · obtain ⟨c, listed, rfl⟩ := List.mem_map.mp text
      obtain ⟨present, source⟩ := List.mem_filter.mp listed
      rw [finished c present source]
      exact ⟨["a.axsummary.json"], by decide, by decide, by decide⟩
    · split at metadata
      · have described : file ∈ ["/a.metadata.json"] := metadata
        rw [List.mem_singleton.mp described]
        exact ⟨["a.metadata.json"], by decide, by decide, by decide⟩
      · cases metadata

theorem compares_of_reaches (reported : Bool) {flags : EmitFlags} {companions : List Companion} {world : World}
    (finished : ∀ c ∈ companions, c.source.isSome = true → c.name = "/a.axsummary.json")
    (reaches : (librarySetup reported).Reaches (libraryBuild reported) { flags }
      (program {} [] (outOptions reported) none libraryUnits) companions ⟨world, {}⟩)
    (other : Program World) (others : List Companion) (begin : Situation World)
    (again : (librarySetup reported).Reaches (libraryBuild reported) { flags } other others begin) :
    (librarySetup reported).Compares (libraryBuild reported) { flags } Outline.stored (KeepsMetadata libraryUnits)
      (filledOutputs (outOptions reported) libraryUnits flags companions)
      (filledResult (outOptions reported) libraryUnits flags companions) collected other others begin := by
  obtain ⟨rfl, rfl, rfl⟩ := reaches.unique again
  exact compares_library reported finished

set_option maxRecDepth 100000 in
theorem agrees_fullFlags :
    (librarySetup false).Agrees (libraryBuild false) { flags := fullFlags }
      (filledOutputs (outOptions false) libraryUnits fullFlags (companionsOf "ɵnew"))
      (filledResult (outOptions false) libraryUnits fullFlags (companionsOf "ɵnew"))
      (program {} [] (outOptions false) none libraryUnits) (companionsOf "ɵnew") ⟨((note "impls").run {}).2, {}⟩ where
  printed := by
    have printed : ∀ u ∈ libraryUnits, Path.isCompanion u.name = true →
        ∃ c ∈ companionsOf "ɵnew", c.name = u.name ∧ c.statements.isSome = true := by
      decide +kernel
    exact fun u present _ companion _ => printed u present companion
  discreet u _ _ _ d shown := by
    change d ∈ (filledResult (outOptions false) libraryUnits fullFlags (companionsOf "ɵnew") (some u.name)).diagnostics
      at shown
    rw [diagnostics_filledResult (by decide +kernel)] at shown
    cases shown
  counted reported := by cases reported

end Outline

end CompanionBuild
