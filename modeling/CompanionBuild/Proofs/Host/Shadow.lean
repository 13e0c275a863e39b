import CompanionBuild.Proofs.Host.Provenance
import CompanionBuild.Proofs.Path.CompanionName

/-! # Files in the shadow of a summary

A summary takes the place of the file of its name. The file is no source, no companion is made from it, and its text and
its unit are those of the summary; the file system is not asked about it.
-/

namespace CompanionBuild

/-! ## Names -/

namespace Path

/-- A path ends with its last segment. -/
theorem Chars.suffix_normalize {path last : List Char} (pieces : List (List Char)) (proper : IsSegment last)
    (parts : Text.split '/' (slashes path) = pieces ++ [last]) : last <:+ normalize path := by
  have joined (absolute : Bool) : last <:+ join (kept absolute (pieces ++ [last])) := by
    have whole : kept absolute (pieces ++ [last]) = kept absolute pieces ++ [last] := by
      rw [kept, List.foldl_append, List.foldl_cons, List.foldl_nil, enter_segment proper, List.reverse_cons, kept]
    rw [whole]
    by_cases outer : kept absolute pieces = []
    · have alone : join (kept absolute pieces ++ [last]) = last := by rw [outer, List.nil_append, join_singleton]
      exact ⟨[], alone.symm⟩
    · rw [join_concat outer, ← List.singleton_append, ← List.append_assoc]
      exact List.suffix_append ..
  rw [normalize, parts]
  split
  · exact (joined _).trans (List.suffix_cons ..)
  · split
    case isTrue blank =>
      have empty := joined (isAbsolute (slashes path))
      rw [blank, List.suffix_nil] at empty
      exact absurd empty proper.nonempty
    case isFalse => exact joined _

theorem suffix_join {last : String} (proper : Chars.IsSegment last.toList) (dir : String) :
    last.toList <:+ (join dir last).toList := by
  have single : Text.split '/' last.toList = [last.toList] := Text.split_of_not_mem proper.noSlash
  have plain : Chars.slashes last.toList = last.toList := Chars.slashes_of_not_mem proper.noBackslash
  rw [join]
  split
  · rw [normalize, String.toList_ofList]
    exact Chars.suffix_normalize [] proper (by rw [plain, single, List.nil_append])
  · rw [normalize, String.toList_ofList]
    refine Chars.suffix_normalize (Text.split '/' (Chars.slashes dir.toList)) proper ?_
    have whole : Chars.slashes (dir ++ "/" ++ last).toList = Chars.slashes dir.toList ++ '/' :: last.toList := by
      rw [String.toList_append, String.toList_append, Chars.slashes, List.map_append, List.map_append]
      exact (congrArg _ plain).trans (List.append_assoc ..)
    rw [whole, Text.split_append, single]

end Path

variable {file : String}

/-- A companion is no descriptor and no metadata. -/
theorem Path.ne_of_json {other : String} (companion : Path.isCompanion file = true)
    (json : ".json".toList <:+ other.toList) : other ≠ file := by
  rintro rfl
  obtain ⟨name, parsed⟩ := Option.isSome_iff_exists.mp companion
  obtain ⟨before, ends⟩ := json
  have whole : name.render.toList.reverse = (before ++ ".json".toList).reverse := by
    rw [(CompanionName.reads_of_parse? parsed).whole, ends]
  rw [CompanionName.render_reverse] at whole
  cases extension : name.extension <;> simp [extension, CompanionExtension.text] at whole

theorem Path.json_descriptor (dir : String) : ".json".toList <:+ (Path.join dir "package.json").toList := by
  have proper : Chars.IsSegment "package.json".toList := ⟨by decide, by decide, by decide, by decide, by decide⟩
  exact List.IsSuffix.trans ⟨"package".toList, rfl⟩ (Path.suffix_join proper dir)

theorem Path.json_metadata (declaration : Path.isDeclaration file = true) :
    ".json".toList <:+ (Path.metadataOfDeclaration file).toList := by
  obtain ⟨before, whole⟩ := List.isSuffixOf_iff_suffix.mp declaration
  have dropped : Text.dropTail? ".d.ts" file = some (String.ofList before) := by
    rw [Text.dropTail?_eq_some_iff, ← String.toList_inj, String.toList_append, String.toList_ofList, whole]
  rw [Path.metadataOfDeclaration, dropped, Option.map_some, Option.getD_some, String.toList_append]
  exact List.IsSuffix.trans ⟨".metadata".toList, rfl⟩ (List.suffix_append ..)

/-- A companion is not made from itself: no file that it can be made from has so long an ending. -/
theorem CompanionName.append_ne_of_parse? {name : CompanionName} (parsed : parse? file = some name) {ending : String}
    (short : ending.length ≤ 5) : name.base ++ ending ≠ file := by
  intro same
  have lengths := congrArg String.length ((reads_of_parse? parsed).whole.trans same.symm)
  have long : 7 ≤ name.kind.text.length := by cases name.kind <;> decide
  simp only [render, String.length_append] at lengths
  omega

namespace Host

variable {ω : Type} {host : Host ω} {situation next : Situation ω}

theorem bundleTypings?_metadata {dir text typings metadataFile : String}
    (found : bundleTypings? dir text = some (some (typings, metadataFile))) :
    ".json".toList <:+ metadataFile.toList := by
  obtain ⟨descriptor, -, found⟩ := Option.bind_eq_some_iff.mp found
  split at found
  · cases found
  · dsimp only at found
    split at found
    case isTrue declaration =>
      obtain ⟨-, rfl⟩ := Prod.mk.inj (Option.some.inj (Option.some.inj found))
      exact Path.json_metadata declaration
    case isFalse => cases found

/-! ## What the file system says of a file -/

/-- The host with another answer of the file system about one file. -/
def shadowing (host : Host ω) (file : String) (isFound : StateM ω Bool) (text : StateM ω (Option String)) : Host ω :=
  { host with files := { host.files with
      fileExists := fun other => if other = file then isFound else host.files.fileExists other
      read := fun other => if other = file then text else host.files.read other } }

variable {isFound : StateM ω Bool} {text : StateM ω (Option String)} {other : String}

theorem exists?_shadowing (different : other ≠ file) :
    (host.shadowing file isFound text).exists? other = host.exists? other := by
  have same : (host.shadowing file isFound text).files.fileExists other = host.files.fileExists other := if_neg different
  rw [exists?, same, exists?]

theorem readDisk_shadowing (different : other ≠ file) :
    (host.shadowing file isFound text).readDisk other = host.readDisk other := by
  have same : (host.shadowing file isFound text).files.read other = host.files.read other := if_neg different
  rw [readDisk, same, readDisk]

section

variable (companion : Path.isCompanion file = true)

include companion

theorem readBundle_shadowing (dir : String) :
    (host.shadowing file isFound text).readBundle dir (Path.join dir "package.json") =
      host.readBundle dir (Path.join dir "package.json") := by
  unfold readBundle
  rw [readDisk_shadowing (Path.ne_of_json companion (Path.json_descriptor dir))]
  refine bind_congr fun descriptor => ?_
  split
  case h_1 typings metadataFile found =>
    obtain ⟨content, -, listed⟩ := Option.bind_eq_some_iff.mp found
    have different := Path.ne_of_json companion (bundleTypings?_metadata listed)
    rw [exists?_shadowing different, readDisk_shadowing different]
  case h_2 => rfl

theorem isBundled_shadowing (dirs : List String) :
    (host.shadowing file isFound text).isBundled dirs = host.isBundled dirs := by
  induction dirs with
  | nil => rfl
  | cons dir parents ih =>
    rw [isBundled, isBundled]
    dsimp only
    rw [exists?_shadowing (Path.ne_of_json companion (Path.json_descriptor dir)),
      readBundle_shadowing companion, ih]

theorem isSource_shadowing (other : String) :
    (host.shadowing file isFound text).isSource other = host.isSource other := by
  have declaration : (host.shadowing file isFound text).isSourceDeclaration other = host.isSourceDeclaration other := by
    rw [isSourceDeclaration, isBundled_shadowing companion, isSourceDeclaration]
    rfl
  rw [isSource, declaration, isSource]
  rfl

theorem firstSource_shadowing {files : List String} (others : file ∉ files) :
    (host.shadowing file isFound text).firstSource files = host.firstSource files := by
  induction files with
  | nil => rfl
  | cons other rest ih =>
    rw [List.mem_cons, not_or] at others
    rw [firstSource, firstSource, isSource_shadowing companion, exists?_shadowing (Ne.symm others.1), ih others.2]

end

/-- Whether a companion can be made does not depend on a file of its name. -/
theorem generatable_shadowing (file : String) :
    (host.shadowing file isFound text).generatable file = host.generatable file := by
  unfold generatable
  cases parsed : CompanionName.parse? file with
  | none => rfl
  | some name =>
    have each := @CompanionName.append_ne_of_parse? _ _ parsed
    have own : name.base ≠ file := fun same => each (show "".length ≤ 5 by decide) (String.append_empty.trans same)
    have candidates : file ∉ baseCandidates name.base := by
      rw [baseCandidates, List.mem_cons, List.mem_cons, List.mem_singleton]
      rintro (same | same | same)
      · exact each (by decide) same.symm
      · exact each (by decide) same.symm
      · exact each (by decide) same.symm
    have companion : Path.isCompanion file = true := by rw [Path.isCompanion, parsed]; rfl
    dsimp only
    rw [exists?_shadowing own, firstSource_shadowing companion candidates]
    rfl

/-! ## What is kept of a summary -/

/-- A summary as a build keeps it: with its text and with its unit, which is parsed from the text if it has none. -/
structure Recalls (host : Host ω) (file : String) (recorded kept : LibrarySummary) : Prop where
  text : kept.text = recorded.text
  unit : kept.unit = recorded.unit ∨
    recorded.unit = none ∧ ∃ world, kept.unit = some ((host.parse file recorded.text).run world).1

/-- The summaries that the build began with are kept. -/
def KeepsRecords (host : Host ω) (start : Table LibrarySummary) (situation : Situation ω) : Prop :=
  ∀ file, Option.Rel (host.Recalls file) (start.get? file) (situation.caches.summaries.get? file)

variable {start : Table LibrarySummary} {recorded summary : LibrarySummary} {generator : Generator ω}

theorem KeepsRecords.kept (keeps : host.KeepsRecords start situation) (found : start.get? file = some recorded) :
    ∃ summary, situation.caches.summaries.get? file = some summary ∧ host.Recalls file recorded summary := by
  have kept := keeps file
  rw [found] at kept
  generalize situation.caches.summaries.get? file = summary at kept ⊢
  cases kept with
  | some recalls => exact ⟨_, rfl, recalls⟩

/-- A summary answers with its unit, or parses its text and keeps the unit. -/
theorem summaryUnit_run (host : Host ω) (kept : situation.caches.summaries.get? file = some summary) :
    ∃ u next, (host.summaryUnit file).run situation = (some (u.asRead.getD u), next) ∧
      (summary.unit = some u ∧ next = situation ∨
        summary.unit = none ∧ u = ((host.parse file summary.text).run situation.world).1 ∧ ∃ world, next = ⟨world,
          { situation.caches with
            summaries := situation.caches.summaries.put file { summary with unit := some u } }⟩) := by
  rw [summaryUnit, HostM.caches_bind, kept]
  dsimp only
  cases summary.unit with
  | some u => exact ⟨u, situation, rfl, .inl ⟨rfl, rfl⟩⟩
  | none => exact ⟨_, _, rfl, .inr ⟨rfl, rfl, _, rfl⟩⟩

theorem KeepsRecords.summaryUnit (keeps : host.KeepsRecords start situation) (file : String) :
    host.KeepsRecords start ((host.summaryUnit file).run situation).2 := by
  cases kept : situation.caches.summaries.get? file with
  | none =>
    rw [Host.summaryUnit, HostM.caches_bind, kept]
    exact keeps
  | some summary =>
    obtain ⟨u, next, ran, ⟨-, rfl⟩ | ⟨bare, parsed, world, rfl⟩⟩ := summaryUnit_run host kept
    · rwa [ran]
    · rw [ran]
      intro other
      have stands := keeps other
      rw [Table.get?_put]
      split
      case isTrue same =>
        subst same
        rw [kept] at stands
        generalize start.get? file = brought at stands ⊢
        cases stands with
        | some recalls =>
          refine .some ⟨recalls.text, ?_⟩
          obtain unchanged | ⟨-, state, known⟩ := recalls.unit
          · exact .inr ⟨unchanged.symm.trans bare, situation.world, by rw [parsed, recalls.text]⟩
          · rw [bare] at known
            cases known
      case isFalse => exact stands

/-- Nothing that is looked up or made changes a summary but for its unit. -/
theorem keepsRecords_units (host : Host ω) (start : Table LibrarySummary) :
    host.AdmitsUnits (Preserving (host.KeepsRecords start)) where
  toAdmitsLookups := (host.lookups_of_view (·.summaries) fun _ => rfl).mono fun before after same keeps file => by
    have summaries : after.caches.summaries = before.caches.summaries := same
    rw [summaries]
    exact keeps file
  summaryUnit file _ keeps := keeps.summaryUnit file
  companionNames _ _ _ _ _ passes keeps := passes keeps
  attached _ _ keeps := keeps
  parked _ _ keeps := keeps
  companion _ _ _ keeps := keeps

/-! ## Answers of a summary -/

/-- A companion is made from a source. -/
theorem generatable_base {companion base : String}
    (ran : (host.generatable companion).run situation = (.yes (some base), next)) : host.KnowsSource next base := by
  unfold generatable at ran
  split at ran
  · cases ran
  · split at ran
    · cases ran
    next name parsed =>
      split at ran
      · cases ran
      · split at ran
        · rw [HostM.caches_bind] at ran
          split at ran
          · cases ran
          · rcases found : (host.exists? name.base).run situation with ⟨isFound, after⟩
            rw [run_bind found] at ran
            cases isFound <;> cases ran
        · rcases asked : (host.firstSource (baseCandidates name.base)).run situation with ⟨first, after⟩
          rw [run_bind asked] at ran
          cases first with
          | none => cases ran
          | some first =>
            cases ran
            exact (firstSource_known asked).2.1

/-- A name with a summary is answered by the summary unless it means a companion. -/
theorem sourceUnit_of_summary (generator : Generator ω)
    (plain : situation.caches.isDegraded = true ∨ host.MeansNoCompanion situation file)
    (has : situation.caches.summaries.has file = true) :
    ∃ middle u next, host.PassesOver generator file situation middle ∧
      (host.summaryUnit file).run middle = (some u, next) ∧
      (host.sourceUnit generator file).run.run situation = (.ok (some u), next) := by
  rcases ran : (host.sourceUnit generator file).run.run situation with ⟨outcome, next⟩
  cases sourceUnit_answer ran with
  | summary passed _ found => exact ⟨_, _, _, passed, found, rfl⟩
  | file passed hasNot _ =>
    obtain ⟨-, rfl⟩ | ⟨-, -, asked⟩ := passed.cases
    · rw [has] at hasNot
      cases hasNot
    · rw [((host.lasts.generatable file).of_run asked).summaries, has] at hasNot
      cases hasNot
  | companion intact asked answered =>
    obtain degraded | ⟨absent, refuses⟩ := plain
    · rw [intact] at degraded
      cases degraded
    · rw [Generates] at refuses
      cases companionUnit_answer asked with
      | kept found =>
        rw [Table.has_of_get?_eq_some found] at absent
        cases absent
      | refused => exact absurd rfl answered
      | failed _ made => exact absurd (by rw [made]; rfl) refuses
      | made _ made => exact absurd (by rw [made]; rfl) refuses

/-- A summary takes the place of the file of its name. -/
structure Shadows (host : Host ω) (generator : Generator ω) (situation : Situation ω) (file : String)
    (recorded : LibrarySummary) : Prop where
  isSource : ((host.isSource file).run situation).1 = false
  generatable : ∀ companion, ((host.generatable companion).run situation).1 ≠ .yes (some file)
  fileText : ((host.fileText file).run situation).1 = some recorded.text
  loadSummary : ((host.loadSummary file).run situation).1 = some recorded.text
  /-- Unless the name means a companion, the unit is the recorded one, or is parsed from the recorded text. -/
  sourceUnit : situation.caches.isDegraded = true ∨ host.MeansNoCompanion situation file →
    ∃ u next, (host.sourceUnit generator file).run.run situation = (.ok (some (u.asRead.getD u)), next) ∧
      (recorded.unit = some u ∨
        recorded.unit = none ∧ ∃ world, u = ((host.parse file recorded.text).run world).1) ∧
      ∀ isFound text,
        ((host.shadowing file isFound text).sourceUnit generator file).run.run situation =
          (host.sourceUnit generator file).run.run situation

/-- The situation in which a name was found to mean no companion. -/
theorem PassesOver.eq {middle other : Situation ω} {isFound : StateM ω Bool} {text : StateM ω (Option String)}
    (passed : host.PassesOver generator file situation middle)
    (passedToo : (host.shadowing file isFound text).PassesOver generator file situation other) : other = middle := by
  obtain ⟨degraded, rfl⟩ | ⟨intact, -, asked⟩ := passed.cases
  · obtain ⟨-, same⟩ | ⟨intact, -⟩ := passedToo.cases
    · exact same
    · rw [degraded] at intact
      cases intact
  · obtain ⟨degraded, -⟩ | ⟨-, -, askedToo⟩ := passedToo.cases
    · rw [intact] at degraded
      cases degraded
    · rw [generatable_shadowing, asked] at askedToo
      exact (congrArg Prod.snd askedToo).symm

theorem KeepsRecords.shadows (keeps : host.KeepsRecords start situation) (found : start.get? file = some recorded)
    (generator : Generator ω) : host.Shadows generator situation file recorded := by
  obtain ⟨summary, kept, recalls⟩ := keeps.kept found
  have has := Table.has_of_get?_eq_some kept
  refine ⟨?_, fun companion yes => ?_, ?_, ?_, fun plain => ?_⟩
  · rw [Host.isSource, HostM.caches_bind, has, Bool.true_or]
    split
    · rfl
    · split <;> rfl
  · rcases ran : (host.generatable companion).run situation with ⟨verdict, next⟩
    rw [ran] at yes
    cases yes
    have known := (generatable_base ran).plain
    rw [((host.lasts.generatable companion).of_run ran).summaries, has] at known
    cases known
  · rw [Host.fileText, HostM.caches_bind, kept, ← recalls.text]
    rfl
  · rw [Host.loadSummary, HostM.caches_bind, kept, ← recalls.text]
    rfl
  · obtain ⟨middle, answer, next, passed, asked, answered⟩ := sourceUnit_of_summary generator plain has
    have later : host.KeepsRecords start middle := by
      obtain ⟨-, rfl⟩ | ⟨-, -, refused⟩ := passed.cases
      · exact keeps
      · exact ((host.keepsRecords_units start).generatable file).of_run refused keeps
    obtain ⟨summary, kept, recalls⟩ := later.kept found
    obtain ⟨u, after, ran, origin⟩ := summaryUnit_run host kept
    cases asked.symm.trans ran
    refine ⟨u, next, answered, ?_, fun isFound text => ?_⟩
    · obtain ⟨known, -⟩ | ⟨bare, parsed, -⟩ := origin
      · obtain unchanged | ⟨none, world, parsed⟩ := recalls.unit
        · exact .inl (unchanged.symm.trans known)
        · exact .inr ⟨none, world, Option.some.inj (known.symm.trans parsed)⟩
      · obtain unchanged | ⟨-, world, known⟩ := recalls.unit
        · exact .inr ⟨unchanged.symm.trans bare, _, recalls.text ▸ parsed⟩
        · rw [bare] at known
          cases known
    · have plainToo : situation.caches.isDegraded = true ∨
          (host.shadowing file isFound text).MeansNoCompanion situation file := by
        rwa [MeansNoCompanion, Generates, generatable_shadowing]
      obtain ⟨other, v, last, passedToo, askedToo, answeredToo⟩ := sourceUnit_of_summary generator plainToo has
      cases passed.eq passedToo
      cases askedToo.symm.trans asked
      rw [answeredToo, answered]

end Host

end CompanionBuild
