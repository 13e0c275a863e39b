import CompanionBuild.Build.Emit
import CompanionBuild.Proofs.Host.Lowering
import CompanionBuild.Proofs.Lowering.Commutation
import CompanionBuild.Proofs.Resource.Completeness

/-! # What the transforms of an emit rest on

Of everything around them, the transforms of an emit look at a few things only: the statements that a companion has for
the unit, the texts of the unit's resources, the requests that are kept for it, and what its names stand for. Two emits
that find these alike, and the unit too, make the same of it.
-/

namespace CompanionBuild

/-! ## Transforms in a row -/

namespace Transform

variable {σ : Type} {symbols : SymbolResolver} {transform : Transform σ} {rest : List (Transform σ)}
  {u made : SourceUnit} {findings found : Findings} {state ended : σ}

theorem applyAll_cons_ok
    (ran : ((applyAll symbols (transform :: rest) u).run.run findings).run state = ((.ok made, found), ended)) :
    ∃ v between middle, ((transform.apply symbols u).run.run findings).run state = ((.ok v, between), middle) ∧
      ((applyAll symbols rest v).run.run between).run middle = ((.ok made, found), ended) := by
  rw [applyAll, ExceptT.run_bind, StateT.run_bind, StateT.run_bind] at ran
  rcases first : ((transform.apply symbols u).run.run findings).run state with ⟨⟨_ | v, between⟩, middle⟩
  · rw [first] at ran
    cases ran
  · rw [first] at ran
    exact ⟨v, between, middle, rfl, ran⟩

/-- A transform that is only there when it is wanted. -/
theorem applyAll_optional_ok {wanted : Prop} [Decidable wanted]
    (ran : ((applyAll symbols ((if wanted then [transform] else []) ++ rest) u).run.run findings).run state =
      ((.ok made, found), ended)) :
    ∃ v between middle,
      ((if wanted then transform.apply symbols u else pure u).run.run findings).run state = ((.ok v, between), middle) ∧
        ((applyAll symbols rest v).run.run between).run middle = ((.ok made, found), ended) := by
  split at ran
  case isTrue wanted =>
    rw [if_pos wanted]
    exact applyAll_cons_ok ran
  case isFalse unwanted =>
    rw [if_neg unwanted]
    exact ⟨u, findings, state, rfl, ran⟩

/-- Transforms that only map units, one after the other. -/
theorem applyAll_maps (maps : List (String × (SourceUnit → SourceUnit))) :
    applyAll symbols (maps.map (fun map => ofMap map.1 map.2) ++ rest) u =
      applyAll symbols rest (maps.foldl (fun u map => map.2 u) u) := by
  induction maps generalizing u with
  | nil => rfl
  | cons map maps ih =>
    rw [List.map_cons, List.cons_append, applyAll, ofMap, pure_bind, ih]
    rfl

end Transform

/-- Lowering asks for the names of the unit alone. -/
theorem DecoratorLowering.lowerFrom_congr {settings : DecoratorLowering} {symbols others : SymbolResolver} {u : SourceUnit}
    (same : ∀ w : SourceUnit, w.name = u.name → symbols w = others w) (findings : Findings) (done items : Items) :
    settings.lowerFrom symbols u findings done items = settings.lowerFrom others u findings done items := by
  induction items generalizing findings done with
  | nil => rfl
  | cons item rest ih =>
    have resolve : symbols { u with items := done ++ item :: rest } = others { u with items := done ++ item :: rest } :=
      same _ rfl
    rw [lowerFrom_cons, lowerFrom_cons, ih, addFindings, addFindings, lowerItem, lowerItem, resolve]

namespace Resource

variable {σ : Type} {host : ResourceHost σ} {u : SourceUnit}

/-- The resources that the component arguments of a unit name, in order, each with the text that it has in a state. -/
def Finds (host : ResourceHost σ) (u : SourceUnit) (state : σ) (log : Log) : Prop :=
  (∃ after, Loads (host.get u.name) state log after) ∧
    ∃ made, Refilled (Assembled Property.key?) (hollowUnit u) log (hollowUnit made)

/-- Where the resources of a unit have the texts that they had, inlining makes the same unit. -/
theorem inlineUnit_congr {state after other : σ} {made : SourceUnit}
    (ran : (inlineUnit host u).run.run state = (.ok made, after))
    (same : ∀ log, Finds host u state log → Finds host u other log) :
    ∃ last, (inlineUnit host u).run.run other = (.ok made, last) := by
  obtain ⟨log, loads, refilled, replays⟩ := gives_inlineUnit host u gives_inlineObject state made after ran
  obtain ⟨⟨last, again⟩, -⟩ := same log ⟨⟨after, loads⟩, made, refilled⟩
  exact ⟨last, replays other last again⟩

end Resource

/-! ## Hosts with the same resources -/

namespace Host

variable {ω : Type} {host other : Host ω}

theorem firstOnDisk_congr (files : host.files = other.files) : host.firstOnDisk = other.firstOnDisk := by
  funext list
  induction list with
  | nil => rfl
  | cons file rest ih => rw [firstOnDisk, firstOnDisk, ih, exists?, exists?, files]

/-- Resources are found through the file system and the overrides alone. -/
theorem resources_congr (files : host.files = other.files) (overrides : host.overrides = other.overrides) :
    host.resources = other.resources := by
  have fileOf : host.resourceFile = other.resourceFile := by
    funext name containing
    rw [resourceFile, resourceFile, overrides, firstOnDisk_congr files]
  have load : host.loadResource = other.loadResource := by
    funext file
    rw [loadResource, loadResource, overrides, exists?, exists?, readDisk, readDisk, files]
  rw [resources, resources, fileOf, load]

end Host

/-! ## Units that are filled -/

namespace Companion

variable {companions : List Companion}

/-- Where names are distinct, the statements for a name are those of its companion. -/
theorem statementsFor?_of_mem (distinct : ∀ c ∈ companions, ∀ d ∈ companions, c.name = d.name → c = d) {c : Companion}
    (member : c ∈ companions) : statementsFor? companions c.name = c.statements := by
  cases found : statementsFor? companions c.name with
  | none =>
    have none := List.findSome?_eq_none_iff.mp found c (List.mem_reverse.mpr member)
    rw [if_pos rfl] at none
    exact none.symm
  | some items =>
    obtain ⟨d, listed, own⟩ := List.exists_of_findSome?_eq_some found
    split at own
    case isTrue same => rw [← own, distinct d (List.mem_reverse.mp listed) c member same]
    case isFalse => cases own

theorem statementsFor?_eq_none {name : String} (absent : ∀ c ∈ companions, c.name = name → c.statements = none) :
    statementsFor? companions name = none := by
  refine List.findSome?_eq_none_iff.mpr fun c listed => ?_
  split
  case isTrue same => exact absent c (List.mem_reverse.mp listed) same
  case isFalse => rfl

end Companion

theorem SourceUnit.exists_items (u : SourceUnit) : ∃ items : Items, u = { u with items } := by
  refine ⟨u.items, ?_⟩
  cases u
  rfl

theorem SourceUnit.filled_eq_self {companions : List Companion} {u : SourceUnit} (closure : Bool)
    (own : Companion.statementsFor? companions u.name = none) : u.filled companions closure = u := by
  rw [filled, own]

/-- The statements of a companion take the place of whatever was there. -/
theorem SourceUnit.filled_items {companions : List Companion} {u : SourceUnit} {statements : Items} (closure : Bool)
    (taken : Companion.statementsFor? companions u.name = some statements) (items : Items) :
    SourceUnit.filled companions closure { u with items } = u.filled companions closure := by
  rw [filled, filled]
  dsimp only
  rw [taken]

theorem SourceUnit.filled_keeps (companions : List Companion) (closure : Bool) (u : SourceUnit) :
    (u.filled companions closure).name = u.name ∧ (u.filled companions closure).text = u.text ∧
      (u.filled companions closure).isDeclaration = u.isDeclaration := by
  rw [filled]
  split <;> exact ⟨rfl, rfl, rfl⟩

/-! ## The transforms of an emit -/

/-- What the transforms of an emit see around a unit. -/
structure EmitContext (ω : Type) where
  companions : List Companion
  isCore : Bool
  symbols : SymbolResolver
  situation : Situation ω

namespace EmitContext

open Lowering (Requests defaultFields lowerUnit requestsOf)

variable {ω : Type} (context other : EmitContext ω) (options : Options) (host : Host ω)
  (maps : List (String × (SourceUnit → SourceUnit)))

/-- The transforms of an emit turn one unit into another, where the caller's transforms only map units. -/
def Makes (u made : SourceUnit) : Prop :=
  ∃ found ended, ((Transform.applyAll context.symbols (Pipeline.ofOptions options host.resources Host.requestsFor
      context.companions context.isCore (maps.map fun map => .ofMap map.1 map.2) []).before u).run.run {}).run
    context.situation = ((.ok made, found), ended)

/-- The unit with its resources in place, as far as that is asked for. -/
def inlined (u : SourceUnit) : ResourceM (Situation ω) SourceUnit :=
  if options.enableResourceInlining then Resource.inlineUnit host.resources u else pure u

/-- The unit with its expressions lowered, as far as that is asked for. -/
def lowered (kept : Option Requests) (u : SourceUnit) : SourceUnit :=
  if options.disableExpressionLowering then u else lowerUnit (kept.getD (requestsOf defaultFields u)) u

/-- The unit with its decorators lowered, as far as that is asked for. -/
def decorated (u : SourceUnit) : SourceUnit :=
  if options.lowersDecorators then
    (DecoratorLowering.lower ⟨context.isCore, options.annotateForClosureCompiler, false⟩ context.symbols u {}).1
  else u

/-- What is left to do once resources are in place: no step of it can fail or asks the host for anything. -/
def concluded (u : SourceUnit) : SourceUnit :=
  context.decorated options <| maps.foldl (fun u map => map.2 u) <|
    SourceUnit.filled context.companions options.annotateForClosureCompiler <|
      lowered options (context.situation.caches.requests.get? u.name) u

variable {context other options host maps} {u v made : SourceUnit}

/-- The requests of a unit are those that are kept, and found out only if none are. -/
theorem requests_eq (u : SourceUnit) (situation : Situation ω) :
    ((Host.requestsFor u).run situation).1 =
      (situation.caches.requests.get? u.name).getD (requestsOf defaultFields u) := by
  cases kept : situation.caches.requests.get? u.name with
  | none =>
    obtain ⟨next, ran, -⟩ := Host.requestsFor_of_fresh kept
    rw [ran]
    rfl
  | some requests =>
    rw [Host.requestsFor_of_kept kept]
    rfl

theorem inlining_ok {plain : SourceUnit} {findings between : Findings} {situation middle : Situation ω}
    (ran : ((if options.enableResourceInlining then (Resource.inlining host.resources).apply context.symbols u
      else pure u).run.run findings).run situation = ((.ok plain, between), middle)) :
    (inlined options host u).run.run situation = (.ok plain, middle) ∧ between = findings := by
  rw [inlined]
  split at ran
  case isTrue wanted =>
    rw [if_pos wanted]
    rw [Resource.inlining_run] at ran
    obtain ⟨outcome, ended⟩ := Prod.mk.inj ran
    obtain ⟨success, same⟩ := Prod.mk.inj outcome
    exact ⟨Prod.ext success ended, same.symm⟩
  case isFalse unwanted =>
    rw [if_neg unwanted]
    cases ran
    exact ⟨rfl, rfl⟩

variable (context options) in
theorem lowering_run (u : SourceUnit) (findings : Findings) (situation : Situation ω) :
    ∃ after, ((if ¬ options.disableExpressionLowering then
        (Lowering.expressions Host.requestsFor).apply context.symbols u else pure u).run.run findings).run situation =
      ((.ok (lowered options (situation.caches.requests.get? u.name) u), findings), after) := by
  rw [lowered, ← requests_eq]
  cases options.disableExpressionLowering <;> exact ⟨_, rfl⟩

variable (context options) in
theorem decorating_run (u : SourceUnit) (situation : Situation ω) :
    ∃ found, ((Transform.applyAll context.symbols (if options.lowersDecorators then
        [DecoratorLowering.transform ⟨context.isCore, options.annotateForClosureCompiler, false⟩]
      else []) u).run.run {}).run situation = ((.ok (context.decorated options u), found), situation) := by
  rw [decorated]
  split <;> exact ⟨_, rfl⟩

/-- Inlining leaves requests alone. -/
theorem requests_inlined {plain : SourceUnit} {situation middle : Situation ω}
    (ran : (inlined options host u).run.run situation = (.ok plain, middle)) :
    middle.caches.requests = situation.caches.requests := by
  rw [inlined] at ran
  split at ran
  · exact Host.requests_of_peeks (.inlineUnit host.peeks.resources_get u) ran
  · cases ran
    rfl

/-- Once resources are in place, the outcome is a function of the unit and of what the emit sees around it. -/
theorem Makes.concluded (makes : context.Makes options host maps u made) :
    ∃ plain middle, (inlined options host u.detached).run.run context.situation = (.ok plain, middle) ∧
      made = context.concluded options maps plain := by
  obtain ⟨found, ended, ran⟩ := makes
  rw [Pipeline.ofOptions, ← ite_not (options.disableExpressionLowering = true)] at ran
  simp only [List.append_assoc, List.cons_append, List.nil_append] at ran
  obtain ⟨detached, _, _, detaches, ran⟩ := Transform.applyAll_cons_ok ran
  cases detaches
  obtain ⟨plain, between, middle, inlining, ran⟩ := Transform.applyAll_optional_ok ran
  obtain ⟨inlines, rfl⟩ := inlining_ok inlining
  obtain ⟨lowered, between, later, lowers, ran⟩ := Transform.applyAll_optional_ok ran
  obtain ⟨after, runs⟩ := lowering_run context options plain {} middle
  rw [runs] at lowers
  cases lowers
  obtain ⟨filled, between, later, fills, ran⟩ := Transform.applyAll_cons_ok ran
  cases fills
  rw [Transform.applyAll_maps] at ran
  obtain ⟨found, runs⟩ := decorating_run context options _ _
  rw [runs] at ran
  cases ran
  refine ⟨plain, middle, inlines, ?_⟩
  rw [EmitContext.concluded, requests_inlined inlines]

/-! ## Emits that see the same -/

variable (context other options host u v) in
/-- Two emits find the same of a unit: its tree, with the statements of its companion in place, and what its names stand
for. Where no companion takes the place of the unit, its resources and requests count too. -/
structure FindsAlike : Prop where
  statements :
    Companion.statementsFor? context.companions u.name = Companion.statementsFor? other.companions v.name
  tree : u.detached.filled context.companions options.annotateForClosureCompiler =
    v.detached.filled other.companions options.annotateForClosureCompiler
  resources : Companion.statementsFor? context.companions u.name = none → options.enableResourceInlining = true →
    ∀ log, Resource.Finds host.resources u.detached context.situation log →
      Resource.Finds host.resources v.detached other.situation log
  requests : Companion.statementsFor? context.companions u.name = none → options.disableExpressionLowering = false →
    context.situation.caches.requests.get? u.name = other.situation.caches.requests.get? v.name
  symbols : options.lowersDecorators = true →
    ∀ w : SourceUnit, w.name = u.name → context.symbols w = other.symbols w
  core : options.lowersDecorators = true → context.isCore = other.isCore

theorem FindsAlike.keeps (alike : context.FindsAlike other options host u v) :
    u.name = v.name ∧ u.text = v.text ∧ u.isDeclaration = v.isDeclaration := by
  obtain ⟨name, text, source⟩ := u.detached.filled_keeps context.companions options.annotateForClosureCompiler
  obtain ⟨otherName, otherText, otherSource⟩ :=
    v.detached.filled_keeps other.companions options.annotateForClosureCompiler
  rw [alike.tree] at name text source
  exact ⟨name.symm.trans otherName, text.symm.trans otherText, source.symm.trans otherSource⟩

/-- Inlining and lowering change the items of a unit alone. -/
theorem exists_items_of_inlined {plain : SourceUnit} {situation middle : Situation ω}
    (ran : (inlined options host u).run.run situation = (.ok plain, middle)) :
    ∃ items : Items, plain = { u with items } := by
  rw [inlined] at ran
  split at ran
  · obtain ⟨items, -, made, -⟩ := Resource.exists_of_inlineUnit ran
    exact ⟨items, made⟩
  · cases ran
    exact u.exists_items

theorem exists_items_of_lowered {plain : SourceUnit} {situation middle : Situation ω}
    (ran : (inlined options host u).run.run situation = (.ok plain, middle)) (kept : Option Requests) :
    ∃ items : Items, lowered options kept plain = { u with items } := by
  obtain ⟨items, rfl⟩ := exists_items_of_inlined ran
  rw [lowered, lowerUnit]
  split
  · exact ⟨items, rfl⟩
  · split <;> exact ⟨_, rfl⟩

/-- Without a companion, the resources and the requests of the unit decide. -/
theorem FindsAlike.lowered_eq (alike : context.FindsAlike other options host u v)
    (own : Companion.statementsFor? context.companions u.name = none) {plain otherPlain : SourceUnit}
    {middle otherMiddle : Situation ω}
    (ran : (inlined options host u.detached).run.run context.situation = (.ok plain, middle))
    (otherRan : (inlined options host v.detached).run.run other.situation = (.ok otherPlain, otherMiddle)) :
    lowered options (context.situation.caches.requests.get? plain.name) plain =
      lowered options (other.situation.caches.requests.get? otherPlain.name) otherPlain := by
  have otherOwn : Companion.statementsFor? other.companions v.name = none := alike.statements ▸ own
  have tree : u.detached = v.detached := by
    calc u.detached = u.detached.filled context.companions options.annotateForClosureCompiler :=
          (SourceUnit.filled_eq_self (u := u.detached) _ own).symm
      _ = v.detached.filled other.companions options.annotateForClosureCompiler := alike.tree
      _ = v.detached := SourceUnit.filled_eq_self (u := v.detached) _ otherOwn
  obtain rfl : plain = otherPlain := by
    rw [← tree] at otherRan
    by_cases inlining : options.enableResourceInlining = true
    · have resources := alike.resources own inlining
      rw [← tree] at resources
      rw [inlined, if_pos inlining] at ran otherRan
      obtain ⟨last, again⟩ := Resource.inlineUnit_congr ran resources
      exact Except.ok.inj (congrArg Prod.fst (again.symm.trans otherRan))
    · rw [inlined, if_neg inlining] at ran otherRan
      cases ran
      cases otherRan
      rfl
  have name : plain.name = u.name := by
    obtain ⟨items, rfl⟩ := exists_items_of_inlined ran
    rfl
  rw [lowered, lowered]
  split
  case isTrue => rfl
  case isFalse enabled =>
    have kept := alike.requests own (Bool.not_eq_true _ ▸ enabled)
    rw [← alike.keeps.1] at kept
    rw [name, kept]

/-- With a companion, nothing of the unit's own statements is left. -/
theorem filled_concluded {statements : Items} (taken : Companion.statementsFor? context.companions u.name = some statements)
    {plain : SourceUnit} {middle : Situation ω}
    (ran : (inlined options host u.detached).run.run context.situation = (.ok plain, middle)) (kept : Option Requests) :
    SourceUnit.filled context.companions options.annotateForClosureCompiler (lowered options kept plain) =
      u.detached.filled context.companions options.annotateForClosureCompiler := by
  obtain ⟨items, lowers⟩ := exists_items_of_lowered ran kept
  rw [lowers]
  exact SourceUnit.filled_items (u := u.detached) _ taken items

/-- The unit before the caller's transforms. -/
theorem FindsAlike.filled_eq (alike : context.FindsAlike other options host u v) {plain otherPlain : SourceUnit}
    {middle otherMiddle : Situation ω}
    (ran : (inlined options host u.detached).run.run context.situation = (.ok plain, middle))
    (otherRan : (inlined options host v.detached).run.run other.situation = (.ok otherPlain, otherMiddle)) :
    SourceUnit.filled context.companions options.annotateForClosureCompiler
        (lowered options (context.situation.caches.requests.get? plain.name) plain) =
      SourceUnit.filled other.companions options.annotateForClosureCompiler
        (lowered options (other.situation.caches.requests.get? otherPlain.name) otherPlain) := by
  cases own : Companion.statementsFor? context.companions u.name with
  | none =>
    obtain ⟨items, lowers⟩ := exists_items_of_lowered ran (context.situation.caches.requests.get? plain.name)
    obtain ⟨others, otherLowers⟩ :=
      exists_items_of_lowered otherRan (other.situation.caches.requests.get? otherPlain.name)
    have ownToo : Companion.statementsFor? other.companions v.name = none := alike.statements ▸ own
    rw [SourceUnit.filled_eq_self _ (by rw [lowers]; exact own),
      SourceUnit.filled_eq_self _ (by rw [otherLowers]; exact ownToo), alike.lowered_eq own ran otherRan]
  | some statements =>
    rw [filled_concluded own ran, filled_concluded (alike.statements ▸ own) otherRan, alike.tree]

theorem decorated_congr (symbols : options.lowersDecorators = true →
      ∀ w : SourceUnit, w.name = u.name → context.symbols w = other.symbols w)
    (core : options.lowersDecorators = true → context.isCore = other.isCore) :
    context.decorated options u = other.decorated options u := by
  rw [decorated, decorated]
  split
  case isTrue wanted =>
    rw [core wanted, DecoratorLowering.lower, DecoratorLowering.lower,
      DecoratorLowering.lowerFrom_congr (symbols wanted)]
  case isFalse => rfl

theorem name_foldl (named : ∀ map ∈ maps, ∀ w : SourceUnit, (map.2 w).name = w.name) (u : SourceUnit) :
    (maps.foldl (fun u map => map.2 u) u).name = u.name := by
  induction maps generalizing u with
  | nil => rfl
  | cons map maps ih =>
    obtain ⟨first, others⟩ := List.forall_mem_cons.mp named
    rw [List.foldl_cons, ih others, first]

/-- Emits that find the same of a unit make the same of it. -/
theorem FindsAlike.made_eq (alike : context.FindsAlike other options host u v)
    (named : ∀ map ∈ maps, ∀ w : SourceUnit, (map.2 w).name = w.name) {otherMade : SourceUnit}
    (makes : context.Makes options host maps u made) (otherMakes : other.Makes options host maps v otherMade) :
    made = otherMade := by
  obtain ⟨plain, middle, ran, rfl⟩ := makes.concluded
  obtain ⟨otherPlain, otherMiddle, otherRan, rfl⟩ := otherMakes.concluded
  rw [EmitContext.concluded, EmitContext.concluded, ← alike.filled_eq ran otherRan]
  refine decorated_congr (fun wanted w same => alike.symbols wanted w ?_) alike.core
  obtain ⟨items, lowers⟩ := exists_items_of_lowered ran (context.situation.caches.requests.get? plain.name)
  rw [same, name_foldl named, (SourceUnit.filled_keeps ..).1, lowers]
  rfl

end EmitContext

end CompanionBuild
