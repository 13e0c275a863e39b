import CompanionBuild.Proofs.Host.Lookup
import CompanionBuild.Proofs.Lowering.Binding

/-! # Metadata and emitted units of one build

A build finds out the requests of a unit once, when it first collects metadata of the unit or emits it, and keeps them.
By then resources may be in place or not. Either way the metadata refers to what the emitted unit binds.
-/

namespace CompanionBuild.Host

open Lowering

variable {ω : Type}

/-! ## Requests -/

theorem requestsFor_cache (u : SourceUnit) (cache : RequestCache) : (Lowering.requestsFor defaultFields u).run cache =
    match cache.get? u.name with
    | some requests => (requests, cache)
    | none => (requestsOf defaultFields u, cache.put u.name (requestsOf defaultFields u)) := by
  rw [Lowering.requestsFor, StateT.run_bind, StateT.run_get, pure_bind]
  cases Table.get? cache u.name <;> rfl

theorem requestsFor_run {u : SourceUnit} {situation : Situation ω} {requests : Requests} {cache : RequestCache}
    (found : (Lowering.requestsFor defaultFields u).run situation.caches.requests = (requests, cache)) :
    (requestsFor u).run situation =
      (requests, { situation with caches := { situation.caches with requests := cache } }) := by
  change (((Lowering.requestsFor defaultFields u).run situation.caches.requests).1,
    { situation with
      caches := { situation.caches with
        requests := ((Lowering.requestsFor defaultFields u).run situation.caches.requests).2 } }) = _
  rw [found]

/-- Requests that are kept are used again. -/
theorem requestsFor_of_kept {u : SourceUnit} {situation : Situation ω} {requests : Requests}
    (kept : situation.caches.requests.get? u.name = some requests) :
    (requestsFor u).run situation = (requests, situation) := by
  have found := requestsFor_cache u situation.caches.requests
  rw [kept] at found
  exact requestsFor_run found

/-- Requests that are not kept are found out and kept. -/
theorem requestsFor_of_fresh {u : SourceUnit} {situation : Situation ω}
    (fresh : situation.caches.requests.get? u.name = none) :
    ∃ next : Situation ω, (requestsFor u).run situation = (requestsOf defaultFields u, next) ∧
      next.caches.requests.get? u.name = some (requestsOf defaultFields u) := by
  have found := requestsFor_cache u situation.caches.requests
  rw [fresh] at found
  refine ⟨_, requestsFor_run found, ?_⟩
  rw [Table.get?_put_self]

/-- A look at the disk leaves requests alone. -/
theorem requests_of_peeks {α : Type} {step : HostM ω α} {situation next : Situation ω} {value : α} (peeks : Peeks step)
    (ran : step.run situation = (value, next)) : next.caches.requests = situation.caches.requests := by
  have same : next.apartFromDisk = situation.apartFromDisk := peeks.of_run ran
  have requests := congrArg Caches.requests same
  exact requests

/-- The requests of a unit after a step: those kept before, or those of the unit, its resources in place or not. -/
structure Settles (u : SourceUnit) (situation next : Situation ω) (requests : Requests) : Prop where
  kept : next.caches.requests.get? u.name = some requests
  origin : situation.caches.requests.get? u.name = some requests ∨
    situation.caches.requests.get? u.name = none ∧ ∃ inlined : SourceUnit,
      inlined.isDeclaration = u.isDeclaration ∧
        List.Forall₂ (Resource.Inlined (exportedNames u)) u.items inlined.items ∧
          requests = requestsOf defaultFields inlined

theorem settles_requestsFor {u inlined : SourceUnit} (name : inlined.name = u.name)
    (same : inlined.isDeclaration = u.isDeclaration)
    (items : List.Forall₂ (Resource.Inlined (exportedNames u)) u.items inlined.items) (situation : Situation ω) :
    ∃ requests next, (requestsFor inlined).run situation = (requests, next) ∧ Settles u situation next requests := by
  cases kept : situation.caches.requests.get? u.name with
  | some requests =>
    exact ⟨requests, situation, requestsFor_of_kept (name ▸ kept), kept, .inl kept⟩
  | none =>
    obtain ⟨next, ran, keeps⟩ := requestsFor_of_fresh (name ▸ kept)
    exact ⟨_, next, ran, name ▸ keeps, .inr ⟨kept, inlined, same, items, rfl⟩⟩

/-! ## Metadata -/

/-- The metadata of a module lowered with some requests. -/
def LowersModule (requests : Requests) (u : SourceUnit) : Json → Json → Prop :=
  AtField "metadata" (AtEntries fun name json made => made = loweredMember requests u name json)

theorem metadataTransformer_run {u : SourceUnit} {situation next : Situation ω} {requests : Requests}
    (asked : (requestsFor u).run situation = (requests, next)) (name : String) (json : Json) :
    (metadataTransformer requestsFor u name json).run situation =
      ((loweredMember requests u name json, none), next) := by
  rw [metadataTransformer, StateT.run_bind, asked]
  rfl

/-- The lowering of one entry of a module's members. -/
def lowerEntry (u : SourceUnit) (entry : String × Json) : HostM ω (Revised (String × Json)) := do
  let (made, error) ← metadataTransformer requestsFor u entry.1 entry.2
  pure ((entry.1, made), error)

theorem lowerEntry_run {u : SourceUnit} {situation next : Situation ω} {requests : Requests}
    (asked : (requestsFor u).run situation = (requests, next)) (entry : String × Json) :
    (lowerEntry u entry).run situation = (((entry.1, loweredMember requests u entry.1 entry.2), none), next) := by
  rw [lowerEntry, StateT.run_bind, metadataTransformer_run asked]
  rfl

theorem reviseEach_cons {σ α : Type} {revise : α → StateM σ (Revised α)} {element made : α} {rest others : List α}
    {error : Option TransformError} {state middle after : σ}
    (first : (revise element).run state = ((made, none), middle))
    (later : (reviseEach revise rest).run middle = ((others, error), after)) :
    (reviseEach revise (element :: rest)).run state = ((made :: others, error), after) := by
  rw [reviseEach, StateT.run_bind, first]
  change (reviseEach revise rest >>= _).run middle = _
  rw [StateT.run_bind, later]
  rfl

theorem reviseEach_lowerEntry_of_kept {u : SourceUnit} {situation : Situation ω} {requests : Requests}
    (kept : situation.caches.requests.get? u.name = some requests) (entries : Table Json) :
    (reviseEach (lowerEntry u) entries).run situation =
      ((entries.map fun entry => (entry.1, loweredMember requests u entry.1 entry.2), none), situation) := by
  induction entries with
  | nil => rfl
  | cons entry rest ih =>
    exact reviseEach_cons (lowerEntry_run (requestsFor_of_kept kept) entry) ih

/-- All entries are lowered with the same requests, if there is an entry at all. -/
theorem reviseEach_lowerEntry (u : SourceUnit) (entries : Table Json) (situation : Situation ω) :
    ∃ made next, (reviseEach (lowerEntry u) entries).run situation = ((made, none), next) ∧
      (next = situation ∧ entries = [] ∧ made = [] ∨
        ∃ requests, Settles u situation next requests ∧
          made = entries.map fun entry => (entry.1, loweredMember requests u entry.1 entry.2)) := by
  cases entries with
  | nil => exact ⟨[], situation, rfl, .inl ⟨rfl, rfl, rfl⟩⟩
  | cons entry rest =>
    obtain ⟨requests, next, asked, settles⟩ := settles_requestsFor rfl rfl (Resource.inlined_self _ u.items) situation
    refine ⟨_, next, ?_, .inr ⟨requests, settles, rfl⟩⟩
    exact reviseEach_cons (lowerEntry_run asked entry) (reviseEach_lowerEntry_of_kept settles.kept rest)

theorem reviseMembers_object {fields entries : Table Json}
    (found : Table.get? fields "metadata" = some (.object entries)) (u : SourceUnit) :
    (reviseMembers u (metadataTransformer requestsFor) (.object fields) : HostM ω _) =
      reviseEach (lowerEntry u) entries >>= fun revised =>
        pure (Json.object (Table.put fields "metadata" (.object revised.1)), revised.2) := by
  rw [reviseMembers, Json.reviseField, found]
  dsimp only
  rw [bind_assoc]
  rfl

/-- All members of a module are lowered with the same requests, if there is a member at all. -/
theorem reviseMembers_run (u : SourceUnit) (json : Json) (situation : Situation ω) :
    ∃ made next, (reviseMembers u (metadataTransformer requestsFor) json).run situation = ((made, none), next) ∧
      (next = situation ∧ (∀ requests, LowersModule requests u json made) ∨
        ∃ requests, Settles u situation next requests ∧ LowersModule requests u json made) := by
  cases json with
  | object fields =>
    cases found : Table.get? fields "metadata" with
    | none =>
      refine ⟨.object fields, situation, ?_, .inl ⟨rfl, fun _ => .missing found⟩⟩
      rw [reviseMembers, Json.reviseField, found]
      rfl
    | some members =>
      have unlisted (plain : ∀ entries, members ≠ .object entries) (requests : Requests) :
          LowersModule requests u (.object fields) (.object (Table.put fields "metadata" members)) :=
        .changed found (.other plain) (Table.get?_put fields "metadata" members)
      cases members with
      | object entries =>
        obtain ⟨made, next, ran, lowers⟩ := reviseEach_lowerEntry u entries situation
        have put {requests : Requests}
            (each : made = entries.map fun entry => (entry.1, loweredMember requests u entry.1 entry.2)) :
            LowersModule requests u (.object fields) (.object (Table.put fields "metadata" (.object made))) := by
          subst each
          refine .changed found (.changed ?_) (Table.get?_put fields "metadata" _)
          exact List.forall₂_map_right_iff.mpr (List.forall₂_same.mpr fun entry _ => ⟨rfl, rfl⟩)
        refine ⟨.object (Table.put fields "metadata" (.object made)), next, ?_, ?_⟩
        · rw [reviseMembers_object found, StateT.run_bind, ran]
          rfl
        · obtain ⟨same, rfl, none⟩ | ⟨requests, settles, each⟩ := lowers
          · exact .inl ⟨same, fun _ => put none⟩
          · exact .inr ⟨requests, settles, put each⟩
      | _ =>
        refine ⟨_, situation, ?_, .inl ⟨rfl, unlisted fun entries same => by cases same⟩⟩
        rw [reviseMembers, Json.reviseField, found]
        rfl
  | _ => exact ⟨_, situation, rfl, .inl ⟨rfl, fun _ => .other fun fields same => by cases same⟩⟩

theorem reviseModule_append {σ : Type} (u : SourceUnit) (transformers others : List (MetadataTransformer σ))
    (json : Json) :
    reviseModule u (transformers ++ others) json = reviseModule u transformers json >>= reviseModule u others := by
  induction transformers generalizing json with
  | nil => exact (pure_bind json _).symm
  | cons transformer rest ih =>
    rw [List.cons_append, reviseModule, reviseModule, bind_assoc]
    refine congrArg _ (funext fun revised => ?_)
    obtain ⟨made, error⟩ := revised
    cases error with
    | none => exact ih made
    | some error => rfl

variable (host : Host ω)

/-- The metadata of a unit before lowered names are put in place. -/
def collectedMetadata (u : SourceUnit) : ResourceM (Situation ω) (Option Json) :=
  collectMetadata (fun u => HostM.inWorld (host.collect u))
    (if host.options.enableResourceInlining then [Resource.inlineMetadata host.resources] else []) u

theorem peeks_collectedMetadata (u : SourceUnit) : Peeks (host.collectedMetadata u).run := by
  refine .collectMetadata (fun u => .inWorld (fun _ _ => rfl) _) u fun transformer member name json => ?_
  split at member
  · rw [List.mem_singleton.mp member]
    exact .inlineMetadata host.peeks.resources_get u name json
  · cases member

variable {host}

/-- Lowered names put in place in collected metadata, unless the unit is a declaration file. -/
def lowerCollected (u : SourceUnit) : Option Json → ResourceM (Situation ω) (Option Json)
  | none => pure none
  | some json =>
    if u.isDeclaration then pure (some json)
    else do
      let made ← reviseModule u [metadataTransformer requestsFor] json
      pure (some made)

theorem collectMetadata_eq (enabled : host.options.disableExpressionLowering = false) (u : SourceUnit) :
    collectMetadata (fun u => HostM.inWorld (host.collect u)) host.metadataTransformers u =
      host.collectedMetadata u >>= lowerCollected u := by
  rw [metadataTransformers, enabled, if_neg Bool.false_ne_true, collectedMetadata, collectMetadata, collectMetadata,
    bind_assoc]
  refine congrArg _ (funext fun collected => ?_)
  cases collected with
  | none => rfl
  | some json =>
    dsimp only
    split
    case isTrue declares =>
      rw [pure_bind, lowerCollected, if_pos declares]
    case isFalse defines =>
      rw [reviseModule_append, bind_assoc, bind_assoc]
      refine congrArg _ (funext fun json => ?_)
      rw [pure_bind, lowerCollected, if_neg defines]

/-- Metadata that was not found before is collected and lowered. -/
theorem unitMetadata_run (enabled : host.options.disableExpressionLowering = false) {u : SourceUnit}
    {situation next : Situation ω} {made : Option Json}
    (missing : Table.get? situation.caches.metadata u.name = none)
    (ran : (host.unitMetadata u).run.run situation = (.ok made, next)) :
    ∃ collected middle last, (host.collectedMetadata u).run.run situation = (.ok collected, middle) ∧
      (lowerCollected u collected).run.run middle = (.ok made, last) ∧
        next.caches.requests = last.caches.requests := by
  obtain ⟨caches, same, first, ran⟩ := run_bind_ok ran
  cases first
  dsimp only at ran
  rw [missing] at ran
  obtain ⟨value, last, computed, ran⟩ := run_bind_ok ran
  obtain ⟨_, after, kept, ran⟩ := run_bind_ok ran
  cases kept
  cases ran
  have computed := run_adapt_ok computed
  rw [collectMetadata_eq enabled] at computed
  obtain ⟨collected, middle, collects, lowers⟩ := run_bind_ok computed
  exact ⟨collected, middle, last, collects, lowers, rfl⟩

/-! ## Traces -/

/-- The transforms that put resources in place and lower expressions, as the host has them. -/
def loweringTransforms (host : Host ω) : List (Transform (Situation ω)) :=
  [Resource.inlining host.resources, Lowering.expressions requestsFor]

/-- What a build makes of a unit: its metadata, found out in some situation, or the unit emitted. -/
inductive UnitEvent (ω : Type) where
  | metadata (situation : Situation ω) (made : Option Json)
  | emitted (outcome : Except TransformError SourceUnit)

/-- What a build makes of a unit, in any order and with anything else going on that leaves its requests alone. The unit
is emitted where its resources can be put in place. -/
inductive UnitTrace (host : Host ω) (symbols : SymbolResolver) (u : SourceUnit) :
    Situation ω → List (UnitEvent ω) → Situation ω → Prop
  | done (situation : Situation ω) : UnitTrace host symbols u situation [] situation
  | other {situation next last : Situation ω} {events : List (UnitEvent ω)}
      (same : next.caches.requests.get? u.name = situation.caches.requests.get? u.name)
      (rest : UnitTrace host symbols u next events last) : UnitTrace host symbols u situation events last
  | metadata {situation next last : Situation ω} {events : List (UnitEvent ω)} {made : Option Json}
      (missing : Table.get? situation.caches.metadata u.name = none)
      (ran : (host.unitMetadata u).run.run situation = (.ok made, next))
      (rest : UnitTrace host symbols u next events last) :
      UnitTrace host symbols u situation (.metadata situation made :: events) last
  | emit {situation next last : Situation ω} {events : List (UnitEvent ω)} {outcome : Except TransformError SourceUnit}
      (findings : Findings) {after : Findings}
      (inlines : Succeeds (Resource.inlineUnit host.resources u) situation)
      (ran : ((Transform.applyAll symbols host.loweringTransforms u).run.run findings).run situation =
        ((outcome, after), next))
      (rest : UnitTrace host symbols u next events last) :
      UnitTrace host symbols u situation (.emitted outcome :: events) last

/-- What a build has made of a unit, lowering with given requests. -/
def UnitEvent.IsMadeWith (host : Host ω) (u : SourceUnit) (requests : Requests) : UnitEvent ω → Prop
  | .metadata situation made => ∀ json, made = some json → ∃ before middle,
    (host.collectedMetadata u).run.run situation = (.ok (some before), middle) ∧ LowersModule requests u before json
  | .emitted outcome => ∃ inlined : SourceUnit,
    List.Forall₂ (Resource.Inlined (exportedNames u)) u.items inlined.items ∧ outcome = .ok (lowerUnit requests inlined)

/-- A step of a trace either lowers nothing, or settles the requests it lowers with. -/
inductive Lowers (host : Host ω) (u : SourceUnit) (situation : Situation ω) (event : UnitEvent ω) (next : Situation ω) :
    Prop
  | nothing (same : next.caches.requests.get? u.name = situation.caches.requests.get? u.name)
      (made : ∀ requests : Requests, requests.Suits u → event.IsMadeWith host u requests)
  | settled (requests : Requests) (settles : Settles u situation next requests)
      (made : event.IsMadeWith host u requests)

section

variable {symbols : SymbolResolver} {u : SourceUnit} {situation next : Situation ω}

theorem reviseModule_run {json : Json} {made : Json}
    (ran : (reviseModule u [metadataTransformer requestsFor] json).run.run situation = (.ok made, next)) :
    next = situation ∧ (∀ requests, LowersModule requests u json made) ∨
      ∃ requests, Settles u situation next requests ∧ LowersModule requests u json made := by
  obtain ⟨revised, after, members, lowers⟩ := reviseMembers_run u json situation
  obtain ⟨value, middle, first, ran⟩ := run_bind_ok ran
  change (Except.ok ((reviseMembers u (metadataTransformer requestsFor) json).run situation).1,
    ((reviseMembers u (metadataTransformer requestsFor) json).run situation).2) = _ at first
  rw [members] at first
  cases first
  cases ran
  exact lowers

theorem lowers_metadata {made : Option Json} (enabled : host.options.disableExpressionLowering = false)
    (missing : Table.get? situation.caches.metadata u.name = none)
    (ran : (host.unitMetadata u).run.run situation = (.ok made, next)) :
    Lowers host u situation (.metadata situation made) next := by
  obtain ⟨collected, middle, last, collects, lowers, ends⟩ := unitMetadata_run enabled missing ran
  have same := requests_of_peeks (host.peeks_collectedMetadata u) collects
  cases collected with
  | none =>
    cases lowers
    refine .nothing (by rw [ends, same]) fun requests _ json absent => ?_
    cases absent
  | some before =>
    rw [lowerCollected] at lowers
    split at lowers
    case isTrue declares =>
      cases lowers
      refine .nothing (by rw [ends, same]) fun requests suits json found => ⟨before, middle, collects, ?_⟩
      obtain rfl := Option.some.inj found
      cases suits with
      | declaration _ none =>
        rw [none]
        exact atField_self before fun members => atEntries_self members fun _ _ => rfl
      | source defines _ =>
        rw [declares] at defines
        cases defines
    case isFalse defines =>
      obtain ⟨json, after, revised, lowers⟩ := run_bind_ok lowers
      cases lowers
      have made {requests : Requests} (lowers : LowersModule requests u before json) :
          (UnitEvent.metadata situation (some json)).IsMadeWith host u requests := by
        intro result found
        obtain rfl := Option.some.inj found
        exact ⟨before, middle, collects, lowers⟩
      obtain ⟨rfl, any⟩ | ⟨requests, settles, lowers⟩ := reviseModule_run revised
      · exact .nothing (by rw [ends, same]) fun requests _ => made (any requests)
      · exact .settled requests ⟨ends ▸ settles.kept, same ▸ settles.origin⟩ (made lowers)

/-- Once resources are in place, nothing can fail. -/
theorem loweringTransforms_run {inlined : SourceUnit} {middle : Situation ω} {requests : Requests}
    (success : (Resource.inlineUnit host.resources u).run.run situation = (.ok inlined, middle))
    (asked : (requestsFor inlined).run middle = (requests, next)) (findings : Findings) :
    ((Transform.applyAll symbols host.loweringTransforms u).run.run findings).run situation =
      ((.ok (lowerUnit requests inlined), findings), next) := by
  have first : (((Resource.inlining host.resources).apply symbols u).run.run findings).run situation =
      ((.ok inlined, findings), middle) := by
    change (do let outcome ← (Resource.inlineUnit host.resources u).run; pure (outcome, findings) : StateM _ _).run
      situation = _
    rw [StateT.run_bind, success]
    rfl
  have second : (((expressions requestsFor).apply symbols inlined).run.run findings).run middle =
      ((.ok (lowerUnit requests inlined), findings), next) := by
    change (do let requests ← requestsFor inlined; pure (Except.ok (lowerUnit requests inlined), findings) :
      StateM _ _).run middle = _
    rw [StateT.run_bind, asked]
    rfl
  rw [loweringTransforms, Transform.applyAll, ExceptT.run_bind, StateT.run_bind, StateT.run_bind, first]
  change (((Transform.applyAll symbols [expressions requestsFor] inlined).run.run findings).run middle) = _
  rw [Transform.applyAll, ExceptT.run_bind, StateT.run_bind, StateT.run_bind, second]
  rfl

theorem lowers_emit {findings after : Findings} {outcome : Except TransformError SourceUnit}
    (inlines : Succeeds (Resource.inlineUnit host.resources u) situation)
    (ran : ((Transform.applyAll symbols host.loweringTransforms u).run.run findings).run situation =
      ((outcome, after), next)) : Lowers host u situation (.emitted outcome) next := by
  obtain ⟨inlined, middle, success⟩ := inlines
  obtain ⟨name, declares, items⟩ := Resource.inlineUnit_yields (exportedNames u) ⟨situation, middle, success⟩
  have same := requests_of_peeks (.inlineUnit host.peeks.resources_get u) success
  obtain ⟨requests, last, asked, settles⟩ := settles_requestsFor name declares items middle
  rw [loweringTransforms_run success asked] at ran
  cases ran
  exact .settled requests ⟨settles.kept, same ▸ settles.origin⟩ ⟨inlined, items, rfl⟩

theorem Settles.eq_of_kept {requests used : Requests} (settles : Settles u situation next used)
    (kept : situation.caches.requests.get? u.name = some requests) : used = requests := by
  obtain own | ⟨none, -⟩ := settles.origin
  · exact Option.some.inj (own.symm.trans kept)
  · rw [kept] at none
    cases none

theorem Settles.suits {used : Requests} (settles : Settles u situation next used)
    (fresh : situation.caches.requests.get? u.name = none) (separate : (places u.items.walk).Nodup) :
    used.Suits u := by
  obtain own | ⟨-, inlined, declares, items, rfl⟩ := settles.origin
  · rw [fresh] at own
    cases own
  · exact suits_requestsOf separate items declares

/-- A step keeps requests, and lowers with them. -/
theorem Lowers.keeps {event : UnitEvent ω} {requests : Requests} (lowers : Lowers host u situation event next)
    (suits : requests.Suits u) (kept : situation.caches.requests.get? u.name = some requests) :
    event.IsMadeWith host u requests ∧ next.caches.requests.get? u.name = some requests := by
  cases lowers with
  | nothing same made => exact ⟨made requests suits, same.trans kept⟩
  | settled used settles made =>
    obtain rfl := settles.eq_of_kept kept
    exact ⟨made, settles.kept⟩

variable {events : List (UnitEvent ω)} {last : Situation ω}
  (enabled : host.options.disableExpressionLowering = false)

include enabled

/-- Once requests are kept, everything is made with them. -/
theorem UnitTrace.isMadeWith {requests : Requests} (trace : UnitTrace host symbols u situation events last)
    (suits : requests.Suits u) (kept : situation.caches.requests.get? u.name = some requests) :
    ∀ event ∈ events, event.IsMadeWith host u requests := by
  induction trace with
  | done => exact fun event none => by cases none
  | other same _ ih => exact ih (same.trans kept)
  | metadata missing ran _ ih =>
    obtain ⟨made, kept⟩ := (lowers_metadata enabled missing ran).keeps suits kept
    exact List.forall_mem_cons.mpr ⟨made, ih kept⟩
  | emit findings inlines ran _ ih =>
    obtain ⟨made, kept⟩ := (lowers_emit inlines ran).keeps suits kept
    exact List.forall_mem_cons.mpr ⟨made, ih kept⟩

variable (fresh : situation.caches.requests.get? u.name = none) (separate : (places u.items.walk).Nodup)

include fresh separate

/-- The first step that lowers something settles the requests for all that follow. -/
theorem Lowers.exists_isMadeWith {event : UnitEvent ω} (lowers : Lowers host u situation event next)
    (rest : UnitTrace host symbols u next events last)
    (later : next.caches.requests.get? u.name = none →
      ∃ requests : Requests, requests.Suits u ∧ ∀ event ∈ events, event.IsMadeWith host u requests) :
    ∃ requests : Requests, requests.Suits u ∧ ∀ made ∈ event :: events, made.IsMadeWith host u requests := by
  cases lowers with
  | nothing same made =>
    obtain ⟨requests, suits, others⟩ := later (same.trans fresh)
    exact ⟨requests, suits, List.forall_mem_cons.mpr ⟨made requests suits, others⟩⟩
  | settled requests settles made =>
    have suits := settles.suits fresh separate
    exact ⟨requests, suits, List.forall_mem_cons.mpr ⟨made, rest.isMadeWith enabled suits settles.kept⟩⟩

/-- Everything a build makes of a unit is made with the same requests. -/
theorem UnitTrace.exists_isMadeWith (trace : UnitTrace host symbols u situation events last) :
    ∃ requests : Requests, requests.Suits u ∧ ∀ event ∈ events, event.IsMadeWith host u requests := by
  induction trace with
  | done =>
    have suits := suits_requestsOf separate (Resource.inlined_self _ u.items) rfl
    exact ⟨requestsOf defaultFields u, suits, fun event none => by cases none⟩
  | other same _ ih => exact ih (same.trans fresh)
  | metadata missing ran rest ih =>
    exact (lowers_metadata enabled missing ran).exists_isMadeWith enabled fresh separate rest ih
  | emit findings inlines ran rest ih =>
    exact (lowers_emit inlines ran).exists_isMadeWith enabled fresh separate rest ih

end

/-- Metadata refers to what emitted units bind, in whatever order a build makes them. -/
theorem UnitTrace.metadata_refers {symbols : SymbolResolver} {u : SourceUnit} {start last : Situation ω}
    {events : List (UnitEvent ω)} (trace : UnitTrace host symbols u start events last)
    (enabled : host.options.disableExpressionLowering = false)
    (fresh : start.caches.requests.get? u.name = none) (separate : (places u.items.walk).Nodup) :
    ∀ outcome, .emitted outcome ∈ events → ∃ emitted slots, outcome = .ok emitted ∧ Inserts u emitted slots ∧
      ∀ found json, .metadata found (some json) ∈ events → ∃ before middle,
        (host.collectedMetadata u).run.run found = (.ok (some before), middle) ∧
          RefersModule (Binds emitted slots) u before json := by
  intro outcome emission
  obtain ⟨requests, suits, made⟩ := trace.exists_isMadeWith enabled fresh separate
  obtain ⟨inlined, items, rfl⟩ := made _ emission
  obtain ⟨slots, inserts, refers⟩ := refersMember_lowerUnit separate items suits
  refine ⟨_, slots, rfl, inserts, fun found json event => ?_⟩
  obtain ⟨before, middle, collects, lowers⟩ := made _ event json rfl
  refine ⟨before, middle, collects, lowers.imp fun _ _ members => members.imp fun name value value' lowered => ?_⟩
  rw [lowered]
  exact refers name value

/-! ## A component with a factory -/

/-- A component with a template in a file and a factory, and a variable that holds a function. -/
def factoryUnit : SourceUnit where
  name := "/app.ts"
  text := ""
  isDeclaration := false
  items := [
    ⟨⟨0, 10, some 0⟩, .imports { specifiers := [.named "Component" none false], source := "@annex/core" }⟩,
    ⟨⟨10, 40, some 0⟩, .exportDecl (.classDecl {
      name := "App"
      decorators := [.call ⟨11, 30, some 0⟩ (.ident ⟨11, 13, some 0⟩ "Component") [.object ⟨14, 29, some 0⟩ [
        .named "templateUrl" (.literal ⟨15, 16, some 0⟩ (.string "./app.html")),
        .named "useFactory" (.arrow ⟨17, 20, some 0⟩ [] (.literal ⟨18, 19, some 0⟩ .null))]]] })⟩,
    ⟨⟨40, 60, some 0⟩, .decl (.variable {
      name := "make"
      init := some (.arrow ⟨45, 55, some 0⟩ [] (.literal ⟨50, 51, some 0⟩ .null)) })⟩]

/-- Its metadata, given the values of the factory and of the variable. -/
def factoryMetadata (factory make : Json) : Json :=
  .object [("metadata", .object [
    ("App", .object [("__symbolic", .text "class"), ("decorators", .array [
      .object [("__symbolic", .text "call"), ("arguments", .array [.object [("useFactory", factory)]])]])]),
    ("make", make)])]

def factoryHost : Host Unit where
  options := {}
  roots := []
  files :=
    { fileExists := fun _ => pure true
      directoryExists := fun _ => pure true
      read := fun _ => pure none
      write := fun _ _ _ => pure (.ok ())
      currentDirectory := "/" }
  parse name text := pure (.plain name text)
  collect _ :=
    pure (some (factoryMetadata (.object [("__symbolic", .text "error")]) (.object [("__symbolic", .text "error")])))
  overrides :=
    { resourceFile := some fun _ _ => pure (some "/app.html")
      readResource := some fun _ => pure (.ready "<p></p>") }

/-- The unit is emitted, its metadata found out, and the unit emitted again. -/
theorem factory_metadata_refers : ∃ first second found last,
    UnitTrace factoryHost .localOnly factoryUnit ⟨(), {}⟩ [.emitted first,
      .metadata found (some (factoryMetadata (reference "ɵ0") (reference "ɵ1"))), .emitted second] last ∧
    ∃ emitted slots, first = .ok emitted ∧ Inserts factoryUnit emitted slots ∧ ∃ before middle,
      (factoryHost.collectedMetadata factoryUnit).run.run found = (.ok (some before), middle) ∧
        RefersModule (Binds emitted slots) factoryUnit before (factoryMetadata (reference "ɵ0") (reference "ɵ1")) := by
  obtain ⟨first, second, found, last, trace⟩ : ∃ first second found last,
      UnitTrace factoryHost .localOnly factoryUnit ⟨(), {}⟩ [.emitted first,
        .metadata found (some (factoryMetadata (reference "ɵ0") (reference "ɵ1"))), .emitted second] last :=
    ⟨_, _, _, _, .emit {} ⟨_, _, rfl⟩ rfl (.metadata rfl rfl (.emit {} ⟨_, _, rfl⟩ rfl (.done _)))⟩
  refine ⟨first, second, found, last, trace, ?_⟩
  obtain ⟨emitted, slots, succeeds, inserts, refers⟩ :=
    trace.metadata_refers rfl rfl (by decide) first (List.mem_cons_self ..)
  exact ⟨emitted, slots, succeeds, inserts, refers found _ (List.mem_cons_of_mem _ (List.mem_cons_self ..))⟩

end CompanionBuild.Host
