import CompanionBuild.Build.Emit
import Mathlib.Logic.Function.Basic

/-! # What becomes of outputs

Outputs that are passed on end up in the store of the file system, unless they are withheld. The router notes which
output came of which unit.
-/

namespace CompanionBuild

variable {ω : Type}

/-! ## Stores -/

/-- The texts of files by name. -/
abbrev Store := String → Option String

namespace Store

def put (store : Store) (file : String × String) : Store :=
  Function.update store file.1 (some file.2)

theorem put_self (store : Store) (file : String × String) : store.put file file.1 = some file.2 :=
  Function.update_self ..

theorem put_of_ne (store : Store) {file : String × String} {name : String} (other : name ≠ file.1) :
    store.put file name = store name :=
  Function.update_of_ne other ..

def putAll (store : Store) (files : List (String × String)) : Store :=
  files.foldl put store

theorem putAll_append (store : Store) (files others : List (String × String)) :
    store.putAll (files ++ others) = (store.putAll files).putAll others :=
  List.foldl_append

/-- What is stored was stored before or is among the files. -/
theorem putAll_eq_some {store : Store} {files : List (String × String)} {name text : String}
    (found : store.putAll files name = some text) : (name, text) ∈ files ∨ store name = some text := by
  induction files generalizing store with
  | nil => exact .inr found
  | cons file rest ih =>
    obtain inRest | before := ih found
    · exact .inl (List.mem_cons_of_mem _ inRest)
    · by_cases same : name = file.1
      · subst same
        rw [put_self] at before
        cases before
        exact .inl (List.mem_cons_self ..)
      · rw [put_of_ne store same] at before
        exact .inr before

/-- A file that is not written keeps its text. -/
theorem putAll_of_forall_ne {store : Store} {files : List (String × String)} {name : String}
    (other : ∀ file ∈ files, file.1 ≠ name) : store.putAll files name = store name := by
  induction files generalizing store with
  | nil => rfl
  | cons file rest ih =>
    have first : file.1 ≠ name := other file (List.mem_cons_self ..)
    calc (store.put file).putAll rest name
        = store.put file name := ih fun file member => other file (List.mem_cons_of_mem _ member)
      _ = store name := store.put_of_ne first.symm

/-- A file has a text when all that is written under its name is that text, and it is written or was there before. -/
theorem putAll_of_forall {store : Store} {files : List (String × String)} {name text : String}
    (same : ∀ file ∈ files, file.1 = name → file.2 = text) (present : (name, text) ∈ files ∨ store name = some text) :
    store.putAll files name = some text := by
  induction files generalizing store with
  | nil => exact present.resolve_left (List.not_mem_nil)
  | cons file rest ih =>
    refine ih (fun other member => same other (List.mem_cons_of_mem _ member)) ?_
    by_cases named : file.1 = name
    · have text := same file (List.mem_cons_self ..) named
      subst named text
      exact .inr (store.put_self file)
    · obtain member | before := present
      · refine .inl ((List.mem_cons.mp member).resolve_left ?_)
        rintro rfl
        exact named rfl
      · exact .inr ((store.put_of_ne (Ne.symm named)).trans before)

/-- What is found under a name depends on what was there under that name only. -/
theorem putAll_congr {store other : Store} {name : String} (same : store name = other name)
    (files : List (String × String)) : store.putAll files name = other.putAll files name := by
  induction files generalizing store other with
  | nil => exact same
  | cons file rest ih =>
    refine ih ?_
    by_cases named : name = file.1
    · subst named
      rw [put_self, put_self]
    · rw [put_of_ne store named, put_of_ne other named, same]

/-- What is found under a name that is written does not depend on what was there. -/
theorem putAll_of_mem {store other : Store} {files : List (String × String)} {file : String × String}
    (written : file ∈ files) : store.putAll files file.1 = other.putAll files file.1 := by
  obtain ⟨before, after, rfl⟩ := List.append_of_mem written
  rw [putAll_append, putAll_append]
  refine putAll_congr ?_ after
  rw [put_self, put_self]

/-- Under a name that only one part writes is found what that part writes. -/
theorem putAll_flatMap {part : String} {parts : List String} {files : String → List (String × String)} {name : String}
    {store : Store} (only : ∀ other ∈ parts, ∀ file ∈ files other, file.1 = name → other = part) :
    store.putAll (parts.flatMap files) name = if part ∈ parts then store.putAll (files part) name else store name := by
  induction parts generalizing store with
  | nil => rfl
  | cons other rest ih =>
    rw [List.flatMap_cons, putAll_append, ih fun other member => only other (List.mem_cons_of_mem _ member)]
    by_cases same : part = other
    · subst same
      rw [if_pos (List.mem_cons_self ..)]
      split
      · by_cases written : ∃ file ∈ files part, file.1 = name
        · obtain ⟨file, member, rfl⟩ := written
          exact putAll_of_mem member
        · exact putAll_of_forall_ne fun file member named => written ⟨file, member, named⟩
      · rfl
    · have untouched : store.putAll (files other) name = store name :=
        putAll_of_forall_ne fun file member named => same (only other (List.mem_cons_self ..) file member named).symm
      rw [putAll_congr untouched, untouched]
      simp only [List.mem_cons, same, false_or]

/-- The order of parts that write different files does not matter, and neither do parts that write nothing. -/
theorem putAll_flatMap_congr {parts others : List String} {files : String → List (String × String)}
    (separate : ∀ part other, ∀ file ∈ files part, ∀ file' ∈ files other, file.1 = file'.1 → part = other)
    (same : ∀ part, files part ≠ [] → (part ∈ parts ↔ part ∈ others)) (store : Store) :
    store.putAll (parts.flatMap files) = store.putAll (others.flatMap files) := by
  funext name
  by_cases written : ∃ part, ∃ file ∈ files part, file.1 = name
  · obtain ⟨part, file, member, rfl⟩ := written
    have only (other : String) : ∀ file' ∈ files other, file'.1 = file.1 → other = part :=
      fun file' member' named => separate other part file' member' file member named
    rw [putAll_flatMap fun other _ => only other, putAll_flatMap fun other _ => only other]
    simp only [same part (List.ne_nil_of_mem member)]
  · have untouched (list : List String) : store.putAll (list.flatMap files) name = store name := by
      refine putAll_of_forall_ne fun file member named => ?_
      obtain ⟨part, -, member⟩ := List.mem_flatMap.mp member
      exact written ⟨part, file, member, named⟩
    rw [untouched, untouched]

end Store

/-- A view of the world shows what the file system has been given to write. -/
structure FileSystem.Stores (files : FileSystem ω) (stored : ω → Store) : Prop where
  write : ∀ {name text : String} {sources : List String} {world after : ω},
    (files.write name text sources).run world = (.ok (), after) → stored after = (stored world).put (name, text)

/-! ## Emits under way -/

/-- Between two states of an emit files were written, outputs mapped to their units, and units counted as emitted. -/
structure Emission.Grows (stored : ω → Store) (files mapping : List (String × String)) (units : List SourceUnit)
    (before after : Emission ω) : Prop where
  store : stored after.situation.world = (stored before.situation.world).putAll files
  mapping : after.routed.mapping = before.routed.mapping ++ mapping
  units : after.routed.units = before.routed.units ++ units

namespace Emission.Grows

variable {stored : ω → Store}

theorem refl (emission : Emission ω) : Grows stored [] [] [] emission emission :=
  ⟨rfl, (List.append_nil _).symm, (List.append_nil _).symm⟩

theorem trans {files mapping otherFiles otherMapping : List (String × String)} {units otherUnits : List SourceUnit}
    {before middle after : Emission ω} (first : Grows stored files mapping units before middle)
    (second : Grows stored otherFiles otherMapping otherUnits middle after) :
    Grows stored (files ++ otherFiles) (mapping ++ otherMapping) (units ++ otherUnits) before after where
  store := by rw [second.store, first.store, Store.putAll_append]
  mapping := by rw [second.mapping, first.mapping, List.append_assoc]
  units := by rw [second.units, first.units, List.append_assoc]

/-- Only the store of a situation counts. -/
theorem of_stored {files mapping : List (String × String)} {units : List SourceUnit} {situation ready : Situation ω}
    {routed : Routed} {after : Emission ω} (grows : Grows stored files mapping units ⟨ready, routed⟩ after)
    (same : stored ready.world = stored situation.world) : Grows stored files mapping units ⟨situation, routed⟩ after :=
  ⟨same ▸ grows.store, grows.mapping, grows.units⟩

end Emission.Grows

/-! ## Routers -/

namespace Router

variable (router : Router ω)

/-- The companion that an output was made from. -/
def companionOf (output : OutputFile) : Option Companion :=
  (single? output.sources).bind router.companions.get?

/-- A file that is written under a name for a companion, none if it is withheld. -/
def fileOf (name text : String) (companion : Option Companion) : List (String × String) :=
  if router.isWithheld name companion then [] else [(name, text)]

/-- The outputs that are written. -/
def kept (outputs : List OutputFile) : List (String × String) :=
  outputs.flatMap fun output => router.fileOf output.name output.text (router.companionOf output)

theorem exists_of_mem_kept {outputs : List OutputFile} {file : String × String} (kept : file ∈ router.kept outputs) :
    ∃ output ∈ outputs, file = (output.name, output.text) := by
  obtain ⟨output, member, file_mem⟩ := List.mem_flatMap.mp kept
  rw [fileOf] at file_mem
  split at file_mem
  · cases file_mem
  · exact ⟨output, member, List.mem_singleton.mp file_mem⟩

/-- Outputs made from exactly one unit, with its name. -/
def mapped (outputs : List OutputFile) : List (String × String) :=
  outputs.filterMap fun output => (single? output.sources).map (output.name, ·)

/-- The units that count as emitted with some outputs. -/
def emittedUnits (outputs : List OutputFile) : List SourceUnit :=
  outputs.filterMap fun output => (single? output.sources).bind router.emittedUnit?

/-- Between two states of an emit outputs were passed on. -/
def Delivers (stored : ω → Store) (outputs : List OutputFile) (before after : Emission ω) : Prop :=
  Emission.Grows stored (router.kept outputs) (mapped outputs) (router.emittedUnits outputs) before after

variable {router} {stored : ω → Store}

theorem Delivers.trans {outputs others : List OutputFile} {before middle after : Emission ω}
    (first : router.Delivers stored outputs before middle) (second : router.Delivers stored others middle after) :
    router.Delivers stored (outputs ++ others) before after := by
  have both := Emission.Grows.trans first second
  rwa [kept, kept, ← List.flatMap_append, mapped, mapped, ← List.filterMap_append, emittedUnits, emittedUnits,
    ← List.filterMap_append] at both

theorem ofRouter_run {α : Type} {step : RouterM ω α} {before : Emission ω} {outcome : Outcome α} {routed : Routed}
    {world : ω} (ran : (step.run.run before.routed).run before.situation.world = ((outcome, routed), world)) :
    (Emission.ofRouter step).run.run before = (outcome, ⟨{ before.situation with world }, routed⟩) := by
  change (((step.run.run before.routed).run before.situation.world).1.1,
    (⟨{ before.situation with world := ((step.run.run before.routed).run before.situation.world).2 },
      ((step.run.run before.routed).run before.situation.world).1.2⟩ : Emission ω)) = _
  rw [ran]

theorem run_bind_of_ok {α β : Type} {step : RouterM ω α} {next : α → RouterM ω β} {routed routed' : Routed}
    {world world' : ω} {value : α} (ran : (step.run.run routed).run world = ((.ok value, routed'), world')) :
    ((step >>= next).run.run routed).run world = ((next value).run.run routed').run world' := by
  rw [ExceptT.run_bind, StateT.run_bind, StateT.run_bind, ran]
  rfl

variable (router) in
theorem pass_run (name text : String) (companion : Option Companion) (sources : List String) (before : Emission ω) :
    (Emission.ofRouter (router.pass name text companion sources)).run.run before =
      let noted := { before.routed with
        summaries := before.routed.summaries ++ router.newSummaries name text companion }
      if router.isWithheld name companion then (.ok (), { before with routed := noted })
      else
        match (router.files.write name text sources).run before.situation.world with
        | (.error reason, world) =>
          (.error (.io name reason), ⟨{ before.situation with world }, noted⟩)
        | (.ok (), world) =>
          (.ok (), ⟨{ before.situation with world }, { noted with written := noted.written ++ [name] }⟩) := by
  unfold pass
  split
  · rfl
  · rcases wrote : (router.files.write name text sources).run before.situation.world with ⟨outcome, world⟩
    have lifted (routed : Routed) :
        (((router.files.write name text sources : StateM ω _) : RouterM ω _).run.run routed).run before.situation.world =
          ((.ok outcome, routed), world) := by
      change (router.files.write name text sources >>= fun outcome => pure (Except.ok outcome, routed)).run _ = _
      rw [StateT.run_bind, wrote]
      rfl
    cases outcome with
    | error reason => exact ofRouter_run ((run_bind_of_ok rfl).trans (run_bind_of_ok (lifted _)))
    | ok done => exact ofRouter_run ((run_bind_of_ok rfl).trans (run_bind_of_ok (lifted _)))

/-- What is passed on under a name is stored, unless it is withheld. -/
theorem pass_ok (stores : router.files.Stores stored) {name text : String} {companion : Option Companion}
    {sources : List String} {before after : Emission ω}
    (passed : (Emission.ofRouter (router.pass name text companion sources)).run.run before = (.ok (), after)) :
    Emission.Grows stored (router.fileOf name text companion) [] [] before after := by
  rw [pass_run] at passed
  dsimp only at passed
  rw [fileOf]
  split at passed
  case isTrue withheld =>
    rw [if_pos withheld]
    cases passed
    exact ⟨rfl, (List.append_nil _).symm, (List.append_nil _).symm⟩
  case isFalse written =>
    rw [if_neg written]
    rcases wrote : (router.files.write name text sources).run before.situation.world with ⟨_ | _, world⟩
    · rw [wrote] at passed
      cases passed
    · rw [wrote] at passed
      cases passed
      exact ⟨stores.write wrote, (List.append_nil _).symm, (List.append_nil _).symm⟩

/-- An output is mapped to its unit before it is written. -/
theorem passOutput_delivers (stores : router.files.Stores stored) {output : OutputFile} {before after : Emission ω}
    (passed : (Emission.ofRouter (router.passOutput output)).run.run before = (.ok (), after)) :
    router.Delivers stored [output] before after := by
  unfold passOutput at passed
  rw [Delivers, kept, List.flatMap_singleton, companionOf, mapped, emittedUnits, List.filterMap_cons,
    List.filterMap_cons]
  cases source : single? output.sources with
  | none =>
    rw [source] at passed
    exact pass_ok stores passed
  | some name =>
    rw [source] at passed
    have grows : Emission.Grows stored _ [] [] { before with routed := { before.routed with
        mapping := before.routed.mapping ++ [(output.name, name)]
        units := before.routed.units ++ (router.emittedUnit? name).toList } } after := pass_ok stores passed
    refine ⟨grows.store, grows.mapping.trans (List.append_nil _), grows.units.trans ?_⟩
    rw [List.append_nil, Option.bind_some]
    cases router.emittedUnit? name <;> rfl

/-- Passing a text on changes the situation by writing it, if at all. -/
theorem pass_situation {P : Situation ω → Prop} {name text : String} {sources : List String}
    (companion : Option Companion) (before : Emission ω) (holds : P before.situation)
    (write : P { before.situation with world := ((router.files.write name text sources).run before.situation.world).2 }) :
    P ((Emission.ofRouter (router.pass name text companion sources)).run.run before).2.situation := by
  rw [pass_run]
  dsimp only
  split
  · exact holds
  · rcases wrote : (router.files.write name text sources).run before.situation.world with ⟨_ | _, world⟩ <;>
    · rw [wrote] at write
      exact write

theorem passOutput_situation {P : Situation ω → Prop} {output : OutputFile} (before : Emission ω)
    (holds : P before.situation)
    (write : P { before.situation with
      world := ((router.files.write output.name output.text output.sources).run before.situation.world).2 }) :
    P ((Emission.ofRouter (router.passOutput output)).run.run before).2.situation := by
  unfold passOutput
  cases source : single? output.sources with
  | none => exact pass_situation none before holds write
  | some name =>
    exact pass_situation (router.companions.get? name) { before with routed := { before.routed with
      mapping := before.routed.mapping ++ [(output.name, name)]
      units := before.routed.units ++ (router.emittedUnit? name).toList } } holds write

end Router

end CompanionBuild
