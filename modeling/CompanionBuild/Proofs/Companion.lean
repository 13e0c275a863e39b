import CompanionBuild.Companion
import CompanionBuild.Proofs.Tree.Unplaced

/-! # Companions of the same content

A companion has statements or is a finished text. Among such companions the comparison is an equivalence: it holds
exactly if the names are the same and so is the content, where the content of statements is their printed text. Places in
the statements do not count. A companion that had both would be compared by its finished text on one side and by its
statements on the other.
-/

namespace CompanionBuild.Companion

theorem isEquivalent_self {c : Companion} (content : c.source.isSome ∨ c.statements.isSome) :
    c.isEquivalent c = true := by
  rw [isEquivalent]
  cases source : c.source with
  | some text => simp
  | none =>
    cases statements : c.statements with
    | some items => simp
    | none => simp_all

theorem name_of_isEquivalent {c d : Companion} (equivalent : d.isEquivalent c = true) : d.name = c.name := by
  rw [isEquivalent, Bool.and_eq_true] at equivalent
  exact of_decide_eq_true equivalent.1

theorem source_of_isEquivalent {c d : Companion} {text : String} (equivalent : d.isEquivalent c = true)
    (source : d.source = some text) : c.source = some text := by
  rw [isEquivalent, source] at equivalent
  simp_all

theorem statements_of_isEquivalent {c d : Companion} (equivalent : d.isEquivalent c = true) (source : d.source = none) :
    c.statements.isSome = true := by
  rw [isEquivalent, source] at equivalent
  cases statements : c.statements with
  | none => simp [statements] at equivalent
  | some items => rfl

/-- The companion has exactly one of statements and a finished text. -/
def IsSole (c : Companion) : Prop :=
  c.statements.isSome = !c.source.isSome

/-- What counts of a companion: its name, its finished text and the text of its statements. -/
def content (c : Companion) : String × Option String × Option String :=
  (c.name, c.source, c.statements.map fun items => (Items.print items).text)

variable {c d : Companion}

theorem IsSole.source_eq_none {items : Items} (sole : c.IsSole) (statements : c.statements = some items) :
    c.source = none := by
  rw [IsSole, statements, Option.isSome_some] at sole
  cases source : c.source with
  | none => rfl
  | some text => simp [source] at sole

theorem IsSole.statements_eq_none {text : String} (sole : c.IsSole) (source : c.source = some text) :
    c.statements = none := by
  rw [IsSole, source] at sole
  cases statements : c.statements with
  | none => rfl
  | some items => simp [statements] at sole

/-- Companions are compared by what counts. -/
theorem isEquivalent_iff (sole : c.IsSole) (soleToo : d.IsSole) : c.isEquivalent d = true ↔ c.content = d.content := by
  simp only [isEquivalent, content, Bool.and_eq_true, decide_eq_true_eq, Prod.mk.injEq]
  refine and_congr_right fun _ => ?_
  cases source : c.source with
  | some text =>
    -- the other companion has no statements either
    rw [sole.statements_eq_none source]
    constructor
    · intro same
      have same := of_decide_eq_true same
      exact ⟨same.symm, by rw [soleToo.statements_eq_none same]⟩
    · rintro ⟨same, -⟩
      exact decide_eq_true same.symm
  | none =>
    have shown : c.statements.isSome = true := by rw [sole, source]; rfl
    obtain ⟨items, statements⟩ := Option.isSome_iff_exists.mp shown
    rw [statements]
    cases others : d.statements with
    | none => simp
    | some others => simp [soleToo.source_eq_none others]

theorem equivalence_isEquivalent :
    Equivalence (fun c d : { c : Companion // c.IsSole } => c.val.isEquivalent d.val = true) where
  refl c := (isEquivalent_iff c.2 c.2).mpr rfl
  symm {c d} same := by
    rw [isEquivalent_iff c.2 d.2] at same
    exact (isEquivalent_iff d.2 c.2).mpr same.symm
  trans {c d e} first second := by
    rw [isEquivalent_iff c.2 d.2] at first
    rw [isEquivalent_iff d.2 e.2] at second
    exact (isEquivalent_iff c.2 e.2).mpr (first.trans second)

theorem isEquivalent_of_unplaced_eq {items others : Items} (sole : c.IsSole) (soleToo : d.IsSole)
    (name : c.name = d.name) (statements : c.statements = some items) (statementsToo : d.statements = some others)
    (same : items.unplaced = others.unplaced) : c.isEquivalent d = true := by
  rw [isEquivalent_iff sole soleToo, content, content, name, sole.source_eq_none statements, statements,
    soleToo.source_eq_none statementsToo, statementsToo, Option.map_some, Option.map_some,
    Items.text_print_eq_of_unplaced_eq same]

/-- Among companions with either statements or a finished text the comparison is an equivalence. It compares the names
and the contents. Statements that differ in places alone have the same content: no place shows in the printed text. -/
theorem isEquivalent_equivalence_on_content :
    Equivalence (fun c d : { c : Companion // c.IsSole } => c.val.isEquivalent d.val = true) ∧
      (∀ c d : Companion, c.IsSole → d.IsSole → (c.isEquivalent d = true ↔ c.content = d.content)) ∧
      (∀ (c d : Companion) (items others : Items), c.IsSole → d.IsSole → c.name = d.name → c.statements = some items →
        d.statements = some others → items.unplaced = others.unplaced → c.isEquivalent d = true) ∧
      ∀ items others : Items, items.unplaced = others.unplaced →
        (Items.print items).text = (Items.print others).text := by
  refine ⟨equivalence_isEquivalent, ?_, ?_, ?_⟩
  · intro c d sole soleToo
    exact isEquivalent_iff sole soleToo
  · intro c d items others sole soleToo name statements statementsToo same
    exact isEquivalent_of_unplaced_eq sole soleToo name statements statementsToo same
  · intro items others same
    exact Items.text_print_eq_of_unplaced_eq same

/-- A companion whose nodes all have one place. -/
def factoryAt (span : Span) : Companion where
  base := "/a.ts"
  name := "/a.axfactory.ts"
  statements := some [⟨span, .exportDecl (.classDecl {
    name := "AFactory"
    decorators := [.call span (.external span "m" "Factory") [.arrow span [] (.ident span "A")]]
    members := [⟨span, .constructor { params := [{ name := "a", span }], body := some [] }⟩] })⟩]

theorem factoryAt_isEquivalent :
    (factoryAt ⟨3, 9, some 0⟩).IsSole ∧ (factoryAt .synthetic).IsSole ∧
      (factoryAt ⟨3, 9, some 0⟩).isEquivalent (factoryAt .synthetic) = true :=
  ⟨rfl, rfl, isEquivalent_equivalence_on_content.2.2.1 _ _ _ _ rfl rfl rfl rfl rfl rfl⟩

end CompanionBuild.Companion
