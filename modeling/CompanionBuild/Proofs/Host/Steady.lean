import CompanionBuild.Proofs.Host.Survey

/-! # Lookups on files that do not change

On files that do not change, what the host answers about files depends on what it has found out and not on the world it
is asked in, and so does what it finds out by that.
-/

namespace CompanionBuild

/-- The answer of a step and what is kept after it are the same in every world. -/
def Steady {ω α : Type} (step : HostM ω α) : Prop :=
  ∀ first second : Situation ω, first.caches = second.caches →
    (step.run first).1 = (step.run second).1 ∧ (step.run first).2.caches = (step.run second).2.caches

namespace Steady

variable {ω α β : Type}

theorem pure (value : α) : Steady (pure value : HostM ω α) :=
  fun _ _ same => ⟨rfl, same⟩

theorem bind {step : HostM ω α} {next : α → HostM ω β} (steady : Steady step) (rest : ∀ value, Steady (next value)) :
    Steady (step >>= next) := by
  intro first second same
  obtain ⟨answer, kept⟩ := steady first second same
  rw [StateT.run_bind, StateT.run_bind]
  rcases ran : step.run first with ⟨value, middle⟩
  rcases ran' : step.run second with ⟨value', middle'⟩
  rw [ran, ran'] at answer kept
  obtain rfl : value = value' := answer
  exact rest value middle middle' kept

theorem caches : Steady (HostM.caches : HostM ω Caches) :=
  fun _ _ same => ⟨same, same⟩

theorem modifyCaches (f : Caches → Caches) : Steady (HostM.modifyCaches f : HostM ω Unit) :=
  fun _ _ same => ⟨rfl, congrArg f same⟩

theorem inWorld {step : StateM ω α} (agrees : ∀ world other, (step.run world).1 = (step.run other).1) :
    Steady (HostM.inWorld step) :=
  fun first second same => ⟨agrees first.world second.world, same⟩

theorem memo {find : Caches → Option α} {keep : α → Caches → Caches} {compute : HostM ω α} (computes : Steady compute) :
    Steady (HostM.memo find keep compute) := by
  refine .bind .caches fun found => ?_
  split
  · exact .pure _
  · exact .bind computes fun value => .bind (.modifyCaches _) fun _ => .pure _

end Steady

namespace Host

variable {ω : Type} {host : Host ω} {disk : Disk} (sees : host.Sees disk)

include sees

theorem steady_exists? (file : String) : Steady (host.exists? file) :=
  .memo (.inWorld fun world other => by rw [sees.fileExists, sees.fileExists])

theorem steady_readDisk (file : String) : Steady (host.readDisk file) :=
  .inWorld fun world other => by rw [sees.read, sees.read]

theorem steady_readBundle (dir packageFile : String) : Steady (host.readBundle dir packageFile) := by
  refine .bind (steady_readDisk sees packageFile) fun text => ?_
  split
  · refine .bind (steady_exists? sees _) fun found => ?_
    split
    · refine .bind (steady_readDisk sees _) fun metadata => ?_
      split
      · unfold recordBundle
        split
        · exact .bind (.modifyCaches _) fun _ => .pure _
        · split
          · exact .bind (.modifyCaches _) fun _ => .pure _
          · exact .pure _
      · exact .pure _
    · exact .pure _
  · exact .pure _

theorem steady_isBundled (dirs : List String) : Steady (host.isBundled dirs) := by
  induction dirs with
  | nil => exact .pure _
  | cons dir parents ih =>
    refine .memo ?_
    split
    · exact .pure _
    · refine .bind (steady_exists? sees _) fun found => ?_
      split
      · exact steady_readBundle sees dir _
      · exact ih

theorem steady_isSourceDeclaration (file : String) : Steady (host.isSourceDeclaration file) := by
  unfold isSourceDeclaration
  split
  · exact .pure _
  · refine .bind (steady_isBundled sees _) fun bundled => ?_
    split
    · exact .bind .caches fun _ => .pure _
    · exact .pure _

theorem steady_isSource (file : String) : Steady (host.isSource file) := by
  refine .bind .caches fun caches => ?_
  split
  · exact .pure _
  · split
    · exact .pure _
    · split
      · exact .pure _
      · split
        · exact steady_isSourceDeclaration sees file
        · exact .pure _

theorem steady_firstSource (files : List String) : Steady (host.firstSource files) := by
  induction files with
  | nil => exact .pure _
  | cons file rest ih =>
    refine .bind (steady_isSource sees file) fun isSource => ?_
    split
    · refine .bind (steady_exists? sees file) fun found => ?_
      split
      · exact .pure _
      · exact ih
    · exact ih

theorem steady_generatable (file : String) : Steady (host.generatable file) := by
  unfold generatable
  split
  · exact .pure _
  · split
    · exact .pure _
    · split
      · exact .pure _
      · split
        · refine .bind .caches fun caches => ?_
          split
          · exact .pure _
          · refine .bind (steady_exists? sees _) fun found => ?_
            split <;> exact .pure _
        · refine .bind (steady_firstSource sees _) fun base => ?_
          split <;> exact .pure _

theorem steady_fileExists (file : String) : Steady (host.fileExists file) := by
  refine .bind .caches fun caches => ?_
  split
  · exact .pure _
  · refine .bind (steady_generatable sees file) fun verdict => ?_
    split
    · exact .pure _
    · exact steady_exists? sees file

end Host

end CompanionBuild
