import CompanionBuild.Proofs.Host.History
import CompanionBuild.Proofs.Host.Source

/-! # Companions that are taken in

The host takes in a companion when its unit is first asked for, and when a new form is put in place of an old one. What
it keeps is known from the record of what was taken in: under each name the last companion of that name, rendered. As
long as generators make what they are asked for, a companion never replaces one that imports from other modules.
-/

namespace CompanionBuild

/-! ## Records -/

/-- What is noted of the questions of a dialogue, in order. -/
def Dialogue.record {σ ω Q α γ : Type} {P : Q → Type} [HoldsWorld σ ω] (answer : (q : Q) → StateM σ (P q))
    (note : Q → σ → List γ) : Dialogue ω Q P α → σ → List γ
  | .done _, _ => []
  | .look next, state => (next (HoldsWorld.world state)).record answer note state
  | .put world next, state => next.record answer note (HoldsWorld.setWorld world state)
  | .ask q next, state =>
    note q state ++ (next ((answer q).run state).1).record answer note ((answer q).run state).2

/-- What the answers do, as far as it is noted, the dialogue does in a row. -/
theorem Dialogue.run_record {σ ω Q α γ : Type} {P : Q → Type} [HoldsWorld σ ω] {answer : (q : Q) → StateM σ (P q)}
    {note : Q → σ → List γ} {S : σ → List γ → σ → Prop} (nil : ∀ state, S state [] state)
    (append : ∀ {before middle after log rest}, S before log middle → S middle rest after →
      S before (log ++ rest) after)
    (world : ∀ world state, S state [] (HoldsWorld.setWorld world state))
    (answers : ∀ q state, S state (note q state) ((answer q).run state).2) (dialogue : Dialogue ω Q P α)
    (state : σ) : S state (dialogue.record answer note state) ((dialogue.run answer).run state).2 := by
  induction dialogue generalizing state with
  | done value => exact nil state
  | look next ih => exact ih _ state
  | put w next ih => exact append (world w state) (ih _)
  | ask q next ih => exact append (answers q state) (ih _ _)

namespace Host

variable {ω : Type} (host : Host ω)

/-- The companion that is taken in when the unit of a name is asked for, if there is one. -/
def takenFor (generator : Generator ω) (file : String) (situation : Situation ω) : List Companion :=
  if situation.caches.isDegraded || situation.caches.companions.has file then []
  else
    match (host.generatable file).run situation with
    | (.no, _) => []
    | (.yes base, middle) =>
      match ((host.consult (generator.generate file base)).run middle).1 with
      | .ok companion => if companion.statements.isSome then [companion] else []
      | .error _ => []

/-- The companion that is taken in for a question of the compiler, if there is one. -/
def takenForCompiler (generator : Generator ω) : CompilerQuery → Situation ω → List Companion
  | .unit file => host.takenFor generator file
  | _ => fun _ => []

end Host

namespace HostAct

variable {ω : Type} (host : Host ω)

/-- The companions that are taken in during an act, in order. -/
def taken (situation : Situation ω) : HostAct ω → List Companion
  | compile generator dialogue =>
    dialogue.record (host.answerCompiler generator) (host.takenForCompiler generator) situation
  | unit generator file => host.takenFor generator file situation
  | addCompanion companion references =>
    if ((host.addCompanion companion references).run.run situation).1.isOk then [companion] else []
  | updateCompanion companion =>
    if ((host.updateCompanion companion).run.run situation).1.isOk then [companion] else []
  | _ => []

/-- The companions that are taken in during some acts, in order. -/
def takenDuring : List (HostAct ω) → Situation ω → List Companion
  | [], _ => []
  | act :: rest, situation => act.taken host situation ++ takenDuring rest ((act.run host).run situation).2

end HostAct

/-- The last companion of a name. -/
def Companion.lastNamed (name : String) (log : List Companion) : Option Companion :=
  (log.filter (·.name = name)).getLast?

/-! ## What is kept -/

/-- What a generator makes has the name that it was asked for. -/
def Generator.NamesRight {ω : Type} (host : Host ω) (generator : Generator ω) : Prop :=
  ∀ name base situation companion,
    ((host.consult (generator.generate name base)).run situation).1 = .ok companion → companion.name = name

namespace Host

variable {ω : Type} {host : Host ω}

/-- Companions are taken in one after the other, each in place of one that imports from the same modules, if of any. -/
inductive TakesIn (host : Host ω) : Table CompanionUnit → List Companion → Table CompanionUnit → Prop
  | nil (table : Table CompanionUnit) : TakesIn host table [] table
  | cons {table after : Table CompanionUnit} {companion : Companion} {stored : CompanionUnit} {rest : List Companion}
    (renders : host.Renders companion stored) (own : stored.references = companion.references)
    (fits : ∀ old, table.get? companion.name = some old → old.references = stored.references)
    (further : TakesIn host (table.put companion.name stored) rest after) :
    TakesIn host table (companion :: rest) after

namespace TakesIn

variable {table middle after : Table CompanionUnit} {log rest : List Companion} {name : String}

/-- A step that leaves the companions alone takes in none. -/
theorem of_alike {α : Type} {step : HostM ω α} (alike : Within (Alike fun situation => situation.caches.companions) step)
    (situation : Situation ω) :
    host.TakesIn situation.caches.companions [] (step.run situation).2.caches.companions := by
  have same : (step.run situation).2.caches.companions = situation.caches.companions := alike situation
  rw [same]
  exact .nil _

theorem append (first : host.TakesIn table log middle) (second : host.TakesIn middle rest after) :
    host.TakesIn table (log ++ rest) after := by
  induction first with
  | nil => exact second
  | cons renders own fits _ ih => exact .cons renders own fits (ih second)

/-- The modules that a companion imports from stay the same. -/
theorem references (takesIn : host.TakesIn table log after) {stored : CompanionUnit}
    (found : table.get? name = some stored) :
    ∃ kept, after.get? name = some kept ∧ kept.references = stored.references := by
  induction takesIn generalizing stored with
  | nil => exact ⟨stored, found, rfl⟩
  | @cons table _ companion taken _ renders own fits _ ih =>
    by_cases named : companion.name = name
    · subst named
      obtain ⟨kept, found', same⟩ := ih (Table.get?_put_self ..)
      exact ⟨kept, found', same.trans (fits stored found).symm⟩
    · exact ih (by rwa [Table.get?_put, if_neg named])

/-- What is kept under a name is the last companion of that name, or what was there before. -/
theorem last (takesIn : host.TakesIn table log after) (name : String) :
    (Companion.lastNamed name log = none ∧ after.get? name = table.get? name) ∨
      ∃ companion stored, Companion.lastNamed name log = some companion ∧ after.get? name = some stored ∧
        host.Renders companion stored ∧ stored.references = companion.references := by
  induction takesIn with
  | nil => exact .inl ⟨rfl, rfl⟩
  | @cons _ _ companion stored _ renders own _ _ ih =>
    rw [Companion.lastNamed]
    by_cases named : companion.name = name
    · rw [List.filter_cons_of_pos (by simpa using named), List.getLast?_cons]
      refine .inr ?_
      obtain ⟨unnamed, same⟩ | ⟨later, kept, last, found, renders, own⟩ := ih
      · refine ⟨companion, stored, ?_, ?_, renders, own⟩
        · rw [Companion.lastNamed] at unnamed
          rw [unnamed, Option.getD_none]
        · rw [same, Table.get?_put, if_pos named]
      · refine ⟨later, kept, ?_, found, renders, own⟩
        rw [Companion.lastNamed] at last
        rw [last, Option.getD_some]
    · rw [List.filter_cons_of_neg (by simpa using named), ← Companion.lastNamed]
      rwa [Table.get?_put, if_neg named] at ih

end TakesIn

/-! ## Steps -/

theorem keepsCompanions (host : Host ω) : host.AdmitsFiles (Alike fun situation => situation.caches.companions) where
  toAdmitsLookups := host.lookups_of_view Caches.companions fun _ => rfl
  summaryUnit file situation := by
    obtain ⟨-, ran⟩ | ⟨u, world, summaries, -, ran, -⟩ := summaryUnit_cases host file situation
    · rw [ran]
      rfl
    · rw [ran]
      rfl
  companionNames _ _ _ _ _ same := same
  attached _ _ := rfl
  parked _ _ := rfl

/-- Where a name means no companion, none is taken in. -/
theorem PassesOver.takenFor {generator : Generator ω} {file : String} {situation middle : Situation ω}
    (passed : host.PassesOver generator file situation middle) : host.takenFor generator file situation = [] := by
  obtain ⟨degraded, -⟩ | ⟨intact, hasNot, asked⟩ := passed.cases
  · rw [Host.takenFor, degraded, Bool.true_or, if_pos rfl]
  · rw [Host.takenFor, intact, hasNot, Bool.or_false, if_neg Bool.false_ne_true, asked]

theorem PassesOver.companions {generator : Generator ω} {file : String} {situation middle : Situation ω}
    (passed : host.PassesOver generator file situation middle) : middle.caches.companions = situation.caches.companions := by
  obtain ⟨-, rfl⟩ | ⟨-, -, asked⟩ := passed.cases
  · rfl
  · exact (host.keepsCompanions.generatable file).of_run asked

theorem companionUnit_takesIn {generator : Generator ω} (right : generator.NamesRight host) {file : String}
    {situation next : Situation ω} {outcome : Outcome (Option SourceUnit)}
    (intact : situation.caches.isDegraded = false)
    (ran : (host.companionUnit generator file).run.run situation = (outcome, next)) :
    host.TakesIn situation.caches.companions (host.takenFor generator file situation) next.caches.companions := by
  have keeps := host.keepsCompanions
  have fresh (unknown : situation.caches.companions.get? file = none) :
      ¬(situation.caches.isDegraded || situation.caches.companions.has file) = true := by
    rw [intact, Table.has_of_get?_eq_none unknown]
    exact Bool.false_ne_true
  cases companionUnit_answer ran with
  | kept found =>
    rw [Host.takenFor, Table.has_of_get?_eq_some found, Bool.or_true, if_pos rfl]
    exact .nil _
  | refused unknown asked =>
    have same : next.caches.companions = situation.caches.companions := (keeps.generatable file).of_run asked
    rw [Host.takenFor, if_neg (fresh unknown), asked, same]
    exact .nil _
  | @failed _ middle _ _ unknown asked made =>
    have asking : middle.caches.companions = situation.caches.companions := (keeps.generatable file).of_run asked
    have making : next.caches.companions = middle.caches.companions := (keeps.consult _).of_run made
    rw [Host.takenFor, if_neg (fresh unknown), asked, making, asking]
    dsimp only
    rw [made]
    exact .nil _
  | @made base middle after _ companion result unknown asked made added =>
    have asking : middle.caches.companions = situation.caches.companions := (keeps.generatable file).of_run asked
    have making : after.caches.companions = middle.caches.companions := (keeps.consult _).of_run made
    have named : companion.name = file := right file base middle companion (by rw [made])
    rw [Host.takenFor, if_neg (fresh unknown), asked]
    dsimp only
    rw [made]
    dsimp only
    obtain ⟨unstated, -, rfl⟩ | ⟨stored, world, renders, own, -, rfl⟩ := addCompanion_cases added
    · rw [unstated, if_neg (by simp), making, asking]
      exact .nil _
    · rw [if_pos renders.isSome]
      dsimp only
      rw [making, asking]
      refine .cons renders own (fun old found => ?_) (.nil _)
      rw [named, unknown] at found
      cases found

/-- Whatever the unit of a name turns out to be, what is kept afterwards is known from what was taken in. -/
theorem sourceUnit_takesIn {generator : Generator ω} (right : generator.NamesRight host) (file : String)
    (situation : Situation ω) :
    host.TakesIn situation.caches.companions (host.takenFor generator file situation)
      ((host.sourceUnit generator file).run.run situation).2.caches.companions := by
  have keeps := host.keepsCompanions
  rcases ran : (host.sourceUnit generator file).run.run situation with ⟨outcome, next⟩
  dsimp only
  cases sourceUnit_answer ran with
  | companion intact asked answered => exact companionUnit_takesIn right intact asked
  | @summary middle _ _ passed has found =>
    have finding : next.caches.companions = middle.caches.companions := (keeps.summaryUnit file).of_run found
    rw [passed.takenFor, finding, passed.companions]
    exact .nil _
  | @file middle _ _ passed hasNot read =>
    have reading : next.caches.companions = middle.caches.companions := by
      split at read
      · exact (keeps.writtenUnit file).of_run read
      · exact (keeps.fileUnit generator file).of_run read
    rw [passed.takenFor, reading, passed.companions]
    exact .nil _

theorem answerCompiler_takesIn {generator : Generator ω} (right : generator.NamesRight host) (q : CompilerQuery)
    (situation : Situation ω) :
    host.TakesIn situation.caches.companions (host.takenForCompiler generator q situation)
      ((host.answerCompiler generator q).run situation).2.caches.companions := by
  have keeps := host.keepsCompanions
  cases q with
  | unit file =>
    have taken := sourceUnit_takesIn right file situation
    rcases ran : (host.sourceUnit generator file).run.run situation with ⟨outcome, next⟩
    rw [ran] at taken
    rw [answerCompiler, unitForCompiler, run_bind ran]
    cases outcome <;> exact taken
  | fileExists file => exact .of_alike (keeps.fileExists file) situation
  | read file => exact .of_alike (keeps.fileText file) situation
  | resolve name containing => exact .of_alike (keeps.resolveModule name containing) situation
  | currentDirectory => exact .nil _

/-! ## Updates -/

/-- A companion may take the place of the one that is kept under its name. -/
def Replaces (companion : Companion) (situation : Situation ω) : Prop :=
  companion.statements.isSome = true ∧ ∃ old, situation.caches.companions.get? companion.name = some old ∧
    companion.references = old.references

theorem updateCompanion_cases {companion : Companion} {situation next : Situation ω} {outcome : Outcome SourceUnit}
    (ran : (host.updateCompanion companion).run.run situation = (outcome, next)) :
    (¬Replaces companion situation ∧ (∃ error, outcome = .error error) ∧ next = situation) ∨
      (Replaces companion situation ∧
        (host.addCompanion companion companion.references).run.run situation = (outcome, next)) := by
  unfold updateCompanion at ran
  split at ran
  case isTrue unstated =>
    cases ran
    refine .inl ⟨fun replaces => ?_, ⟨_, rfl⟩, rfl⟩
    rw [Option.isNone_iff_eq_none] at unstated
    rw [Replaces, unstated] at replaces
    cases replaces.1
  case isFalse stated =>
    rw [Attempt.caches_bind] at ran
    cases found : situation.caches.companions.get? companion.name with
    | none =>
      rw [found] at ran
      cases ran
      refine .inl ⟨fun replaces => ?_, ⟨_, rfl⟩, rfl⟩
      obtain ⟨-, old, found', -⟩ := replaces
      rw [found] at found'
      cases found'
    | some old =>
      rw [found] at ran
      dsimp only at ran
      split at ran
      case isTrue same => exact .inr ⟨⟨Option.isSome_iff_ne_none.mpr (by simpa using stated), old, found, same⟩, ran⟩
      case isFalse differ =>
        cases ran
        refine .inl ⟨fun replaces => ?_, ⟨_, rfl⟩, rfl⟩
        obtain ⟨-, kept, found', same⟩ := replaces
        rw [found] at found'
        cases found'
        exact differ same

theorem addCompanion_takesIn {companion : Companion} {references : Names} {situation next : Situation ω}
    {outcome : Outcome SourceUnit} (own : references = companion.references)
    (fits : ∀ old, situation.caches.companions.get? companion.name = some old → old.references = references)
    (ran : (host.addCompanion companion references).run.run situation = (outcome, next)) :
    host.TakesIn situation.caches.companions (if outcome.isOk then [companion] else []) next.caches.companions := by
  obtain ⟨-, rfl, rfl⟩ | ⟨stored, world, renders, given, rfl, rfl⟩ := addCompanion_cases ran
  · exact .nil _
  · exact .cons renders (given.trans own) (fun old found => (fits old found).trans given.symm) (.nil _)

theorem updateCompanion_takesIn {companion : Companion} {situation next : Situation ω} {outcome : Outcome SourceUnit}
    (ran : (host.updateCompanion companion).run.run situation = (outcome, next)) :
    host.TakesIn situation.caches.companions (if outcome.isOk then [companion] else []) next.caches.companions := by
  obtain ⟨-, ⟨error, rfl⟩, rfl⟩ | ⟨⟨-, old, found, same⟩, ran⟩ := updateCompanion_cases ran
  · exact .nil _
  · refine addCompanion_takesIn rfl (fun other found' => ?_) ran
    rw [found] at found'
    cases found'
    exact same.symm

end Host

/-! ## Histories -/

namespace HostAct

variable {ω : Type} (host : Host ω)

/-- Generators make what they are asked for. A companion that is taken in outright comes with the modules that it imports
from, and not in place of one that imports from others. -/
def IsRegular (situation : Situation ω) : HostAct ω → Prop
  | compile generator _ | unit generator _ => generator.NamesRight host
  | addCompanion companion references =>
    references = companion.references ∧
      ∀ old, situation.caches.companions.get? companion.name = some old → old.references = references
  | _ => True

def AreRegular : List (HostAct ω) → Situation ω → Prop
  | [], _ => True
  | act :: rest, situation => act.IsRegular host situation ∧ AreRegular rest ((act.run host).run situation).2

variable {host} {situation : Situation ω}

theorem run_takesIn {act : HostAct ω} (regular : act.IsRegular host situation) :
    host.TakesIn situation.caches.companions (act.taken host situation)
      ((act.run host).run situation).2.caches.companions := by
  have keeps := host.keepsCompanions
  have unchanged {act : HostAct ω} (query : act.IsQuery) (unmade : act.generator? = none) :
      host.TakesIn situation.caches.companions [] ((act.run host).run situation).2.caches.companions := by
    refine .of_alike (query.within keeps.toAdmitsLookups (fun generator made => ?_) keeps.parked) situation
    rw [unmade] at made
    cases made
  cases act
  case compile generator dialogue =>
    refine Dialogue.run_record
      (S := fun before log after => host.TakesIn before.caches.companions log after.caches.companions)
      (fun _ => .nil _) Host.TakesIn.append (fun _ _ => .nil _) (Host.answerCompiler_takesIn regular) dialogue situation
  case unit generator file => exact Host.sourceUnit_takesIn regular file situation
  case addCompanion companion references => exact Host.addCompanion_takesIn regular.1 regular.2 rfl
  case updateCompanion companion => exact Host.updateCompanion_takesIn rfl
  case degrade => exact .nil _
  all_goals exact unchanged trivial rfl

/-- What is kept after some acts is known from what was taken in during them. -/
theorem situationAfter_takesIn {acts : List (HostAct ω)} (regular : AreRegular host acts situation) :
    host.TakesIn situation.caches.companions (takenDuring host acts situation)
      (situationAfter host acts situation).caches.companions := by
  induction acts generalizing situation with
  | nil => exact .nil _
  | cons act rest ih => exact (run_takesIn regular.1).append (ih regular.2)

end HostAct

end CompanionBuild
