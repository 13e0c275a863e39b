import CompanionBuild.Proofs.Host.Source
import CompanionBuild.Proofs.Host.Unit
import CompanionBuild.Proofs.Names

/-! # What a build has found out for good

Of what a build has found out about files, directories and bundles nothing is taken back while units are looked up and
made, whatever happens on the disk meanwhile. So a file that was once known to be a source goes on to be one, and a
companion that could be made once can be made until the build is degraded.
-/

namespace CompanionBuild

theorem Path.ancestors_eq_cons (path : String) : ∃ above, Path.ancestors path = path :: above := by
  rw [Path.ancestors_eq]
  split
  · exact ⟨[], rfl⟩
  · exact ⟨_, rfl⟩

/-- The parts of the caches that are used to tell what a name means. -/
def Caches.lasting (caches : Caches) : Caches :=
  { caches with attached := [], moduleNames := [], metadata := [], requests := [], records := [], parked := none }

/-- What is kept about the existence of files agrees with those that are present. -/
def Caches.Recalls (present : String → Bool) (caches : Caches) : Prop :=
  ∀ file found, caches.existing.get? file = some found → found = present file

/-- What a situation becomes while units are looked up and made. -/
structure Lasts {ω : Type} (before after : Situation ω) : Prop where
  degraded : after.caches.isDegraded = before.caches.isDegraded
  summaries : ∀ file, after.caches.summaries.has file = before.caches.summaries.has file
  companions : ∀ file, before.caches.companions.has file = true → after.caches.companions.has file = true
  units : before.caches.units.Grows after.caches.units
  existing : before.caches.existing.Grows after.caches.existing
  companionNames : before.caches.companionNames.Grows after.caches.companionNames
  bundled : before.caches.bundled.Grows after.caches.bundled
  indexes : ∀ name ∈ before.caches.bundleIndexes, name ∈ after.caches.bundleIndexes
  redirects : ∀ name ∈ before.caches.bundleRedirects, name ∈ after.caches.bundleRedirects

namespace Lasts

variable {ω : Type} {before after : Situation ω}

instance : IsPreorder (Situation ω) Lasts where
  refl _ := ⟨rfl, fun _ => rfl, fun _ => id, .refl _, .refl _, .refl _, .refl _, fun _ => id, fun _ => id⟩
  trans _ _ _ first second := {
    degraded := second.degraded.trans first.degraded
    summaries := fun file => (second.summaries file).trans (first.summaries file)
    companions := fun file => second.companions file ∘ first.companions file
    units := first.units.trans second.units
    existing := first.existing.trans second.existing
    companionNames := first.companionNames.trans second.companionNames
    bundled := first.bundled.trans second.bundled
    indexes := fun name => second.indexes name ∘ first.indexes name
    redirects := fun name => second.redirects name ∘ first.redirects name }

/-- A step that leaves the lasting parts alone. -/
theorem of_lasting (same : after.caches.lasting = before.caches.lasting) : Lasts before after := by
  have lasting : Lasts ⟨before.world, before.caches.lasting⟩ ⟨before.world, after.caches.lasting⟩ :=
    same ▸ refl_of Lasts _
  exact ⟨lasting.degraded, lasting.summaries, lasting.companions, lasting.units, lasting.existing,
    lasting.companionNames, lasting.bundled, lasting.indexes, lasting.redirects⟩

theorem indexes_insert (typings : String) (situation : Situation ω) :
    Lasts situation { situation with
      caches := { situation.caches with bundleIndexes := Names.insert typings situation.caches.bundleIndexes } } :=
  { refl_of Lasts situation with indexes := fun _ member => Names.mem_insert.mpr (.inr member) }

theorem redirects_insert (typings : String) (situation : Situation ω) :
    Lasts situation { situation with
      caches := { situation.caches with bundleRedirects := Names.insert typings situation.caches.bundleRedirects } } :=
  { refl_of Lasts situation with redirects := fun _ member => Names.mem_insert.mpr (.inr member) }

/-- What is found out about a directory of which nothing was known. -/
theorem bundled_put (lasts : Lasts before after) {dir : String} (unknown : before.caches.bundled.get? dir = none)
    (found : Bool) :
    Lasts before { after with caches := { after.caches with bundled := after.caches.bundled.put dir found } } :=
  { lasts with bundled := lasts.bundled.put unknown found }

theorem companionNames_put (lasts : Lasts before after) {file : String}
    (unknown : before.caches.companionNames.get? file = none) (names : List String) :
    Lasts before { after with
      caches := { after.caches with companionNames := after.caches.companionNames.put file names } } :=
  { lasts with companionNames := lasts.companionNames.put unknown names }

end Lasts

namespace Host

variable {ω : Type} {host : Host ω} {situation next : Situation ω} {file : String}

/-! ## Files and directories -/

theorem isBundled_kept {dir : String} {parents : List String} {found : Bool}
    (ran : (host.isBundled (dir :: parents)).run situation = (found, next)) :
    next.caches.bundled.get? dir = some found :=
  HostM.memo_kept (fun _ _ => Table.get?_put_self ..) ran

theorem exists?_kept {found : Bool} (ran : (host.exists? file).run situation = (found, next)) :
    next.caches.existing.get? file = some found :=
  HostM.memo_kept (fun _ _ => Table.get?_put_self ..) ran

theorem exists?_of_kept {found : Bool} (kept : situation.caches.existing.get? file = some found) :
    (host.exists? file).run situation = (found, situation) := by
  rw [exists?, HostM.memo_of_some kept]

section

variable {present : String → Bool} (shows : ∀ file world, ((host.files.fileExists file).run world).1 = present file)

include shows

theorem exists?_of_recalls (recalls : situation.caches.Recalls present) (file : String) :
    ((host.exists? file).run situation).1 = present file := by
  cases kept : situation.caches.existing.get? file with
  | some found =>
    rw [exists?_of_kept kept]
    exact recalls file found kept
  | none =>
    rw [exists?, HostM.memo_of_none kept]
    exact shows file situation.world

theorem exists?_recalls (recalls : situation.caches.Recalls present) (file : String) :
    ((host.exists? file).run situation).2.caches.Recalls present := by
  cases kept : situation.caches.existing.get? file with
  | some found => rwa [exists?_of_kept kept]
  | none =>
    rw [exists?, HostM.memo_of_none kept]
    intro other found lookup
    rw [Table.get?_put] at lookup
    split at lookup
    case isTrue same =>
      cases lookup
      rw [← same]
      exact shows file situation.world
    case isFalse => exact recalls other found lookup

end

variable (host)

theorem lasts_disk : host.AdmitsDisk Lasts where
  world _ _ := .of_lasting rfl
  exists? file := by
    refine .memoFresh (fun found before after unknown lasts => ?_) (.inWorld (fun _ _ => .of_lasting rfl) _)
    exact { lasts with existing := lasts.existing.put unknown found }

/-- Nothing that is looked up or made takes back what was found out. -/
theorem lasts : host.AdmitsUnits Lasts where
  toAdmitsDisk := host.lasts_disk
  writtenUnit file := by
    refine .memoFresh (fun u before after unknown lasts => ?_) (.bind (host.lasts_disk.readDisk file) fun text => ?_)
    · exact { lasts with units := lasts.units.put unknown u }
    · split
      · exact .bind (.inWorld (fun _ _ => .of_lasting rfl) _) fun _ => .pure _
      · exact .pure _
  isBundled _ := host.lasts_disk.isBundled Lasts.indexes_insert Lasts.redirects_insert
    (fun _ found _ _ unknown lasts => lasts.bundled_put unknown found) _
  moduleNames _ := .of_lasting rfl
  metadata _ _ := .of_lasting rfl
  requests _ _ := .of_lasting rfl
  records _ _ := .of_lasting rfl
  summaryUnit file situation := by
    obtain ⟨-, ran⟩ | ⟨u, world, summaries, -, ran, same⟩ := summaryUnit_cases host file situation
    · rw [ran]
      exact refl_of Lasts situation
    · rw [ran]
      exact { refl_of Lasts situation with summaries := same }
  companion name companion situation := {
    refl_of Lasts situation with
    companions := fun file has => by rw [Table.has_put, has, Bool.or_true] }
  companionNames _ names _ _ unknown lasts := lasts.companionNames_put unknown names
  attached _ _ := .of_lasting rfl
  parked _ _ := .of_lasting rfl

variable {host}

/-! ## Known sources -/

/-- A declaration file of which the build knows that it counts as a source. -/
def KnowsDeclaration (host : Host ω) (situation : Situation ω) (file : String) : Prop :=
  host.options.generateCodeForLibraries ≠ some false ∧
    (situation.caches.bundled.get? (Path.dirname file) = some false ∨
      situation.caches.bundled.get? (Path.dirname file) = some true ∧
        (Path.normalize file ∈ situation.caches.bundleIndexes ∨ Path.normalize file ∈ situation.caches.bundleRedirects))

/-- A file of which the build knows that it is a source. -/
structure KnowsSource (host : Host ω) (situation : Situation ω) (file : String) : Prop where
  intact : situation.caches.isDegraded = false
  enabled : (host.options.skipTemplateCodegen && !host.options.fullTemplateTypeCheck) = false
  plain : (situation.caches.summaries.has file || Path.isCompanion file) = false
  declaration : Path.isDeclaration file = true → host.KnowsDeclaration situation file

/-- A companion of which the build knows that it can be made. -/
def KnowsCompanion (host : Host ω) (situation : Situation ω) (file : String) : Prop :=
  host.options.isInRootDir file = true ∧ ∃ name, CompanionName.parse? file = some name ∧
    name.extension.isScript = true ∧
      if name.kind.isStyle then
        situation.caches.isDegraded = false ∧ situation.caches.existing.get? name.base = some true
      else ∃ base ∈ baseCandidates name.base, host.KnowsSource situation base ∧
        situation.caches.existing.get? base = some true

theorem isSourceDeclaration_known (ran : (host.isSourceDeclaration file).run situation = (true, next)) :
    host.KnowsDeclaration next file := by
  obtain ⟨above, dirs⟩ := Path.ancestors_eq_cons (Path.dirname file)
  unfold isSourceDeclaration at ran
  split at ran
  case isTrue => cases ran
  case isFalse enabled =>
    rw [dirs] at ran
    rcases bundled : (host.isBundled (Path.dirname file :: above)).run situation with ⟨found, middle⟩
    have kept := isBundled_kept bundled
    rw [run_bind bundled] at ran
    cases found with
    | false =>
      cases ran
      exact ⟨enabled, .inl kept⟩
    | true =>
      rw [if_pos rfl, HostM.caches_bind] at ran
      obtain ⟨listed, rfl⟩ := Prod.mk.inj ran
      rw [Bool.or_eq_true, List.contains_iff_mem, List.contains_iff_mem] at listed
      exact ⟨enabled, .inr ⟨kept, listed⟩⟩

theorem KnowsDeclaration.isSourceDeclaration (knows : host.KnowsDeclaration situation file) :
    (host.isSourceDeclaration file).run situation = (true, situation) := by
  obtain ⟨enabled, known⟩ := knows
  obtain ⟨above, dirs⟩ := Path.ancestors_eq_cons (Path.dirname file)
  have asked {found : Bool} (kept : situation.caches.bundled.get? (Path.dirname file) = some found) :
      (host.isBundled (Path.dirname file :: above)).run situation = (found, situation) := by
    rw [isBundled, HostM.memo_of_some kept]
  rw [Host.isSourceDeclaration, if_neg enabled, dirs]
  obtain kept | ⟨kept, listed⟩ := known
  · rw [run_bind (asked kept)]
    rfl
  · rw [run_bind (asked kept), if_pos rfl, HostM.caches_bind]
    refine Prod.ext ?_ rfl
    rw [← List.contains_iff_mem, ← List.contains_iff_mem, ← Bool.or_eq_true] at listed
    exact listed

theorem KnowsSource.isSource (knows : host.KnowsSource situation file) :
    (host.isSource file).run situation = (true, situation) := by
  rw [Host.isSource, HostM.caches_bind, knows.intact, knows.enabled, knows.plain]
  by_cases declaration : Path.isDeclaration file = true
  · rw [if_neg Bool.false_ne_true, if_neg Bool.false_ne_true, if_neg Bool.false_ne_true, if_pos declaration]
    exact (knows.declaration declaration).isSourceDeclaration
  · rw [if_neg Bool.false_ne_true, if_neg Bool.false_ne_true, if_neg Bool.false_ne_true, if_neg declaration]
    rfl

theorem KnowsSource.lasts (knows : host.KnowsSource situation file) (lasts : Lasts situation next) :
    host.KnowsSource next file where
  intact := lasts.degraded.trans knows.intact
  enabled := knows.enabled
  plain := by rw [lasts.summaries, knows.plain]
  declaration declaration := by
    obtain ⟨enabled, kept | ⟨kept, listed⟩⟩ := knows.declaration declaration
    · exact ⟨enabled, .inl (lasts.bundled _ _ kept)⟩
    · exact ⟨enabled, .inr ⟨lasts.bundled _ _ kept, listed.imp (lasts.indexes _) (lasts.redirects _)⟩⟩

theorem isSource_known (ran : (host.isSource file).run situation = (true, next)) : host.KnowsSource next file := by
  have lasts : Lasts situation next := (host.lasts.isSource file).of_run ran
  rw [isSource, HostM.caches_bind] at ran
  split at ran
  case isTrue => cases ran
  case isFalse intact =>
    split at ran
    case isTrue => cases ran
    case isFalse enabled =>
      split at ran
      case isTrue => cases ran
      case isFalse plain =>
        refine ⟨?_, ?_, ?_, fun declaration => ?_⟩
        · rw [lasts.degraded]
          exact Bool.eq_false_iff.mpr intact
        · exact Bool.eq_false_iff.mpr enabled
        · rw [lasts.summaries]
          exact Bool.eq_false_iff.mpr plain
        · rw [if_pos declaration] at ran
          exact isSourceDeclaration_known ran

/-! ## Companions that can be made -/

/-- What is asked about a companion once its name is read. -/
theorem generatable_of_parse {name : CompanionName} (inRoot : host.options.isInRootDir file = true)
    (parsed : CompanionName.parse? file = some name) (script : name.extension.isScript = true) :
    host.generatable file =
      if name.kind.isStyle then (do
        if (← HostM.caches).isDegraded then pure .no
        else if ← host.exists? name.base then pure (.yes none)
        else pure .no)
      else (do
        match ← host.firstSource (baseCandidates name.base) with
        | some base => pure (.yes (some base))
        | none => pure .no) := by
  have isScript : ¬(!name.extension.isScript) = true := by rw [script]; exact Bool.false_ne_true
  rw [generatable, inRoot, Bool.not_true, if_neg Bool.false_ne_true, parsed]
  exact if_neg isScript

theorem KnowsCompanion.intact (knows : host.KnowsCompanion situation file) : situation.caches.isDegraded = false := by
  obtain ⟨-, name, -, -, known⟩ := knows
  split at known
  · exact known.1
  · obtain ⟨base, -, known, -⟩ := known
    exact known.intact

theorem KnowsCompanion.lasts (knows : host.KnowsCompanion situation file) (lasts : Lasts situation next) :
    host.KnowsCompanion next file := by
  obtain ⟨inRoot, name, parsed, script, known⟩ := knows
  refine ⟨inRoot, name, parsed, script, ?_⟩
  split at known
  case isTrue style =>
    rw [if_pos style]
    exact ⟨lasts.degraded.trans known.1, lasts.existing _ _ known.2⟩
  case isFalse style =>
    rw [if_neg style]
    obtain ⟨base, member, known, found⟩ := known
    exact ⟨base, member, known.lasts lasts, lasts.existing _ _ found⟩

theorem firstSource_known {files : List String} {base : String}
    (ran : (host.firstSource files).run situation = (some base, next)) :
    base ∈ files ∧ host.KnowsSource next base ∧ next.caches.existing.get? base = some true := by
  induction files generalizing situation with
  | nil => cases ran
  | cons file rest ih =>
    rw [firstSource] at ran
    rcases asked : (host.isSource file).run situation with ⟨isSource, middle⟩
    rw [run_bind asked] at ran
    cases isSource with
    | false =>
      obtain ⟨member, known⟩ := ih ran
      exact ⟨List.mem_cons_of_mem _ member, known⟩
    | true =>
      rw [if_pos rfl] at ran
      rcases found : (host.exists? file).run middle with ⟨isFound, after⟩
      have known := (isSource_known asked).lasts ((host.lasts.exists? file).of_run found)
      rw [run_bind found] at ran
      cases isFound with
      | true =>
        cases ran
        exact ⟨List.mem_cons_self .., known, exists?_kept found⟩
      | false =>
        obtain ⟨member, known⟩ := ih ran
        exact ⟨List.mem_cons_of_mem _ member, known⟩

theorem firstSource_isSome {files : List String} {base : String} (member : base ∈ files)
    (knows : host.KnowsSource situation base) (kept : situation.caches.existing.get? base = some true) :
    ((host.firstSource files).run situation).1.isSome = true := by
  induction files generalizing situation with
  | nil => cases member
  | cons file rest ih =>
    rw [firstSource]
    obtain rfl | member := List.mem_cons.mp member
    · -- The known source is asked about itself.
      rw [run_bind knows.isSource, if_pos rfl, run_bind (exists?_of_kept kept)]
      rfl
    · rcases asked : (host.isSource file).run situation with ⟨isSource, middle⟩
      have lasts := (host.lasts.isSource file).of_run asked
      rw [run_bind asked]
      cases isSource with
      | false => exact ih member (knows.lasts lasts) (lasts.existing _ _ kept)
      | true =>
        rcases found : (host.exists? file).run middle with ⟨isFound, after⟩
        have further := trans_of Lasts lasts ((host.lasts.exists? file).of_run found)
        rw [if_pos rfl, run_bind found]
        cases isFound with
        | true => rfl
        | false => exact ih member (knows.lasts further) (further.existing _ _ kept)

/-- A companion that can be made is known from then on. -/
theorem generatable_known {verdict : Generatable} (ran : (host.generatable file).run situation = (verdict, next))
    (yes : verdict.isYes = true) : host.KnowsCompanion next file := by
  have lasts := (host.lasts.generatable file).of_run ran
  have no (refused : host.generatable file = pure .no) : host.KnowsCompanion next file := by
    rw [refused] at ran
    cases ran
    cases yes
  by_cases inRoot : host.options.isInRootDir file = true
  case neg => exact no (by simp only [generatable, inRoot, Bool.not_false, if_true])
  cases parsed : CompanionName.parse? file with
  | none => exact no (by simp only [generatable, inRoot, parsed, Bool.not_true, Bool.false_eq_true, if_false])
  | some name =>
    by_cases script : name.extension.isScript = true
    case neg => exact no (by simp only [generatable, inRoot, parsed, script, Bool.not_true, Bool.not_false,
      Bool.false_eq_true, if_false, if_true])
    refine ⟨inRoot, name, parsed, script, ?_⟩
    rw [generatable_of_parse inRoot parsed script] at ran
    split at ran
    case isTrue style =>
      rw [if_pos style]
      rw [HostM.caches_bind] at ran
      split at ran
      case isTrue =>
        cases ran
        cases yes
      case isFalse intact =>
        refine ⟨lasts.degraded.trans (Bool.eq_false_iff.mpr intact), ?_⟩
        rcases found : (host.exists? name.base).run situation with ⟨isFound, after⟩
        have kept := exists?_kept found
        rw [run_bind found] at ran
        cases isFound with
        | true =>
          cases ran
          exact kept
        | false =>
          cases ran
          cases yes
    case isFalse style =>
      rw [if_neg style]
      rcases asked : (host.firstSource (baseCandidates name.base)).run situation with ⟨base, after⟩
      rw [run_bind asked] at ran
      cases base with
      | none =>
        cases ran
        cases yes
      | some base =>
        cases ran
        exact ⟨base, firstSource_known asked⟩

/-- A companion that is known can still be made. -/
theorem KnowsCompanion.generatable (knows : host.KnowsCompanion situation file) :
    ((host.generatable file).run situation).1.isYes = true := by
  obtain ⟨inRoot, name, parsed, script, known⟩ := knows
  rw [generatable_of_parse inRoot parsed script]
  split at known
  case isTrue style =>
    obtain ⟨intact, kept⟩ := known
    rw [if_pos style, HostM.caches_bind, if_neg (Bool.eq_false_iff.mp intact), run_bind (exists?_of_kept kept),
      if_pos rfl]
    rfl
  case isFalse style =>
    obtain ⟨base, member, known, kept⟩ := known
    have some := firstSource_isSome member known kept
    rw [if_neg style]
    rcases asked : (host.firstSource (baseCandidates name.base)).run situation with ⟨found, after⟩
    rw [asked] at some
    obtain ⟨base, rfl⟩ := Option.isSome_iff_exists.mp some
    rw [run_bind asked]
    rfl

end Host

end CompanionBuild
