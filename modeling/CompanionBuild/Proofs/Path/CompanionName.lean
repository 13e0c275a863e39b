import CompanionBuild.Proofs.Path.Naming

/-! # Companion names read back

A file can be read as a companion name in at most two ways: the style companion of something called `.shim` is also the
shim style companion of what stands before. Then the shim counts, and every other name is read as it was put together.
-/

namespace CompanionBuild

theorem CompanionKind.mem_all (kind : CompanionKind) : kind ∈ all := by
  cases kind <;> decide

theorem CompanionExtension.mem_all (extension : CompanionExtension) : extension ∈ all := by
  cases extension <;> decide

namespace CompanionName

/-- One of the ways to read a file as the name of a companion. -/
structure Reads (name : CompanionName) (file : String) : Prop where
  whole : name.render = file
  oneLine : '\n' ∉ name.base.toList

theorem base?_eq_some_iff {kind : CompanionKind} {extension : CompanionExtension} {file base : String} :
    base? kind extension file = some base ↔ Reads ⟨base, kind, extension⟩ file := by
  have whole : base ++ ("." ++ kind.text ++ "." ++ extension.text) = render ⟨base, kind, extension⟩ := by
    simp only [render, String.append_assoc]
  rw [base?, Option.filter_eq_some_iff, Text.dropTail?_eq_some_iff, whole]
  constructor
  · rintro ⟨same, oneLine⟩
    exact ⟨same, by simpa using oneLine⟩
  · rintro ⟨same, oneLine⟩
    exact ⟨same, by simpa using oneLine⟩

/-- The reading of a file as a companion of one kind. -/
def ofKind? (kind : CompanionKind) (file : String) : Option CompanionName :=
  CompanionExtension.all.findSome? fun extension => (base? kind extension file).map fun base => ⟨base, kind, extension⟩

theorem parse?_eq_findSome? (file : String) : parse? file = CompanionKind.all.findSome? (ofKind? · file) :=
  rfl

theorem reads_of_ofKind? {kind : CompanionKind} {file : String} {name : CompanionName}
    (found : ofKind? kind file = some name) : name.kind = kind ∧ name.Reads file := by
  obtain ⟨extension, -, inExtension⟩ := List.exists_of_findSome?_eq_some found
  obtain ⟨base, read, rfl⟩ := Option.map_eq_some_iff.mp inExtension
  exact ⟨rfl, base?_eq_some_iff.mp read⟩

theorem ofKind?_ne_none {file : String} {name : CompanionName} (reads : name.Reads file) :
    ofKind? name.kind file ≠ none := by
  intro none
  rw [ofKind?, List.findSome?_eq_none_iff] at none
  have read : base? name.kind name.extension file = some name.base := base?_eq_some_iff.mpr reads
  have missed := none name.extension (CompanionExtension.mem_all _)
  rw [read] at missed
  cases missed

theorem reads_of_parse? {file : String} {name : CompanionName} (parsed : parse? file = some name) : name.Reads file := by
  rw [parse?_eq_findSome?] at parsed
  obtain ⟨kind, -, found⟩ := List.exists_of_findSome?_eq_some parsed
  exact (reads_of_ofKind? found).2

theorem exists_parse?_of_reads {file : String} {name : CompanionName} (reads : name.Reads file) :
    ∃ other, parse? file = some other := by
  rw [← Option.isSome_iff_exists, parse?_eq_findSome?, List.findSome?_isSome_iff]
  exact ⟨name.kind, CompanionKind.mem_all _, Option.isSome_iff_ne_none.mpr (ofKind?_ne_none reads)⟩

/-! ## Two readings of one file -/

theorem render_reverse (name : CompanionName) : name.render.toList.reverse =
    name.extension.text.toList.reverse ++ '.' :: (name.kind.text.toList.reverse ++ '.' :: name.base.toList.reverse) := by
  simp [render]

/-- The end of a file tells the extension: no kind ends as the longer of two extensions starts. -/
theorem extension_eq_of_render_eq {name other : CompanionName} (same : name.render = other.render) :
    name.extension = other.extension := by
  have ends := congrArg (fun text => text.toList.reverse) same
  rw [render_reverse, render_reverse] at ends
  obtain ⟨base, kind, extension⟩ := name
  obtain ⟨base', kind', extension'⟩ := other
  cases extension <;> cases extension' <;> simp [CompanionExtension.text] at ends ⊢
  · cases kind' <;> simp [CompanionKind.text] at ends
  · cases kind <;> simp [CompanionKind.text] at ends

/-- The name of a style companion of something called `.shim`, and that of the shim style companion it counts as. -/
structure ShimOf (plain shim : CompanionName) : Prop where
  style : plain.kind = .style
  shimStyle : shim.kind = .shimStyle
  base : plain.base = shim.base ++ ".shim"
  extension : plain.extension = shim.extension

theorem ShimOf.render_eq {plain shim : CompanionName} (counts : plain.ShimOf shim) : plain.render = shim.render := by
  simp only [render, counts.style, counts.shimStyle, counts.base, counts.extension, CompanionKind.text]
  simp [← String.toList_inj]

/-- The kind is read from the end, too, and only one kind ends another. -/
theorem shimOf_of_kind_ne {name other : CompanionName} (same : name.render = other.render)
    (different : name.kind ≠ other.kind) : name.ShimOf other ∨ other.ShimOf name := by
  have extension := extension_eq_of_render_eq same
  have ends := congrArg (fun text => text.toList.reverse) same
  rw [render_reverse, render_reverse, extension, List.append_cancel_left_eq, List.cons_inj_right] at ends
  obtain ⟨base, kind, _⟩ := name
  obtain ⟨base', kind', _⟩ := other
  cases kind <;> cases kind' <;> simp [CompanionKind.text] at ends different
  case shimStyle.style =>
    refine .inr ⟨rfl, rfl, ?_, extension.symm⟩
    have reversed := congrArg List.reverse ends
    rw [← String.toList_inj]
    simpa using reversed.symm
  case style.shimStyle =>
    refine .inl ⟨rfl, rfl, ?_, extension⟩
    rw [← String.toList_inj]
    simpa using ends

theorem eq_or_shimOf {name other : CompanionName} (same : name.render = other.render) :
    name = other ∨ name.ShimOf other ∨ other.ShimOf name := by
  by_cases kind : name.kind = other.kind
  · have extension := extension_eq_of_render_eq same
    have base : name.base = other.base := by simpa [render, kind, extension] using same
    left
    cases name
    cases other
    simp_all
  · exact .inr (shimOf_of_kind_ne same kind)

/-! ## The reading that counts -/

/-- The shim style counts before the style. -/
theorem parse?_of_shimStyle {file : String} {name : CompanionName} (reads : name.Reads file)
    (shimStyle : name.kind = .shimStyle) : parse? file = some name := by
  obtain ⟨other, parsed⟩ := exists_parse?_of_reads reads
  have otherReads := reads_of_parse? parsed
  obtain rfl | counts | counts := eq_or_shimOf (otherReads.whole.trans reads.whole.symm)
  · exact parsed
  · -- the style would have been found although the kind before it reads the file, too
    rw [parse?_eq_findSome?, List.findSome?_eq_some_iff] at parsed
    obtain ⟨earlier, kind, later, order, found, missed⟩ := parsed
    have last : kind = .style := (reads_of_ofKind? found).1.symm.trans counts.style
    subst last
    have before : CompanionKind.shimStyle ∈ earlier := by
      rcases earlier with _ | ⟨first, _ | ⟨second, rest⟩⟩
      · cases order
      · cases order
      · obtain ⟨-, second, -⟩ : _ ∧ CompanionKind.shimStyle = second ∧ _ := by simpa [CompanionKind.all] using order
        simp [second]
    exact absurd (missed _ before) (shimStyle ▸ ofKind?_ne_none reads)
  · rw [counts.style] at shimStyle
    cases shimStyle

/-- The name is not that of a style companion that counts as one of a shim. -/
def IsPlain (name : CompanionName) : Prop :=
  ¬(name.kind = .style ∧ ".shim".toList <:+ name.base.toList)

theorem ShimOf.not_isPlain {plain shim : CompanionName} (counts : plain.ShimOf shim) : ¬plain.IsPlain := by
  intro isPlain
  apply isPlain
  refine ⟨counts.style, ?_⟩
  rw [counts.base, String.toList_append]
  exact List.suffix_append _ _

theorem exists_shimOf {name : CompanionName} (shim : ¬name.IsPlain) : ∃ other, name.ShimOf other := by
  obtain ⟨style, before, base⟩ := not_not.mp shim
  refine ⟨⟨String.ofList before, .shimStyle, name.extension⟩, style, rfl, ?_, rfl⟩
  rw [← String.toList_inj, String.toList_append, String.toList_ofList, base]

theorem ShimOf.reads {plain shim : CompanionName} (counts : plain.ShimOf shim) {file : String} (reads : plain.Reads file) :
    shim.Reads file := by
  refine ⟨counts.render_eq.symm.trans reads.whole, ?_⟩
  intro feed
  apply reads.oneLine
  rw [counts.base, String.toList_append]
  exact List.mem_append_left _ feed

theorem parse?_eq_some_iff {file : String} {name : CompanionName} :
    parse? file = some name ↔ name.Reads file ∧ name.IsPlain := by
  constructor
  · intro parsed
    have reads := reads_of_parse? parsed
    refine ⟨reads, ?_⟩
    by_contra shim
    obtain ⟨other, counts⟩ := exists_shimOf shim
    rw [parse?_of_shimStyle (counts.reads reads) counts.shimStyle] at parsed
    cases parsed
    cases counts.style.symm.trans counts.shimStyle
  · rintro ⟨reads, plain⟩
    obtain ⟨other, parsed⟩ := exists_parse?_of_reads reads
    have otherReads := reads_of_parse? parsed
    obtain rfl | counts | counts := eq_or_shimOf (otherReads.whole.trans reads.whole.symm)
    · exact parsed
    · exact parse?_of_shimStyle reads counts.shimStyle
    · exact absurd plain counts.not_isPlain

/-! ## Parts of names as texts -/

/-- Base, kind and extension as they are written. -/
def parts (name : CompanionName) : String × String × String :=
  (name.base, name.kind.text, name.extension.text)

def kindTexts : List String := ["axfactory", "shim.axstyle", "axstyle", "axsummary"]

def extensionTexts : List String := ["js", "d.ts", "tsx", "ts"]

/-- The texts are a base, a kind and an extension, and the kind does not go on with the end of the base. -/
structure AreParts (base kind extension : String) : Prop where
  isKind : kind ∈ kindTexts
  isExtension : extension ∈ extensionTexts
  oneLine : '\n' ∉ base.toList
  plain : ¬(kind = "axstyle" ∧ Text.endsWith base ".shim" = true)

theorem mem_kindTexts_iff {text : String} : text ∈ kindTexts ↔ ∃ kind : CompanionKind, kind.text = text := by
  have texts : kindTexts = CompanionKind.all.map CompanionKind.text := rfl
  simp [texts, CompanionKind.mem_all]

theorem mem_extensionTexts_iff {text : String} :
    text ∈ extensionTexts ↔ ∃ extension : CompanionExtension, extension.text = text := by
  have texts : extensionTexts = CompanionExtension.all.map CompanionExtension.text := rfl
  simp [texts, CompanionExtension.mem_all]

theorem isPlain_iff {name : CompanionName} :
    name.IsPlain ↔ ¬(name.kind.text = "axstyle" ∧ Text.endsWith name.base ".shim" = true) := by
  have style : name.kind = .style ↔ name.kind.text = "axstyle" := by
    cases name.kind <;> decide
  rw [IsPlain, style, Text.endsWith, List.isSuffixOf_iff_suffix]

/-- The parts of a name that counts, as texts. -/
theorem areParts_iff {base kind extension : String} : AreParts base kind extension ↔
    ∃ name : CompanionName, name.parts = (base, kind, extension) ∧ '\n' ∉ name.base.toList ∧ name.IsPlain := by
  constructor
  · intro proper
    obtain ⟨known, rfl⟩ := mem_kindTexts_iff.mp proper.isKind
    obtain ⟨ending, rfl⟩ := mem_extensionTexts_iff.mp proper.isExtension
    exact ⟨⟨base, known, ending⟩, rfl, proper.oneLine, isPlain_iff.mpr proper.plain⟩
  · rintro ⟨name, written, oneLine, plain⟩
    cases written
    exact ⟨mem_kindTexts_iff.mpr ⟨_, rfl⟩, mem_extensionTexts_iff.mpr ⟨_, rfl⟩, oneLine, isPlain_iff.mp plain⟩

theorem map_parts_parse?_iff {file base kind extension : String} :
    (parse? file).map parts = some (base, kind, extension) ↔
      AreParts base kind extension ∧ file = base ++ "." ++ kind ++ "." ++ extension := by
  rw [Option.map_eq_some_iff, areParts_iff]
  constructor
  · rintro ⟨name, parsed, written⟩
    obtain ⟨reads, plain⟩ := parse?_eq_some_iff.mp parsed
    refine ⟨⟨name, written, reads.oneLine, plain⟩, ?_⟩
    cases written
    exact reads.whole.symm
  · rintro ⟨⟨name, written, oneLine, plain⟩, whole⟩
    refine ⟨name, parse?_eq_some_iff.mpr ⟨⟨?_, oneLine⟩, plain⟩, written⟩
    cases written
    exact whole.symm

theorem isCompanion_iff_areParts {file : String} : Path.isCompanion file = true ↔
    ∃ base kind extension, AreParts base kind extension ∧ file = base ++ "." ++ kind ++ "." ++ extension := by
  constructor
  · intro companion
    obtain ⟨name, parsed⟩ := Option.isSome_iff_exists.mp companion
    refine ⟨name.base, name.kind.text, name.extension.text, map_parts_parse?_iff.mp ?_⟩
    rw [parsed, Option.map_some, parts]
  · rintro ⟨base, kind, extension, made⟩
    obtain ⟨name, parsed, -⟩ := Option.map_eq_some_iff.mp (map_parts_parse?_iff.mpr made)
    exact Option.isSome_iff_exists.mpr ⟨name, parsed⟩

/-- A file is read as a base, a kind and an extension exactly when it is made of them, the base is one line, and it is not
the style companion of something called `.shim`. So a file is a companion exactly when there are such parts, there is only
one choice of them, and a name that is put together of them is read as these; the style companion of something called
`.shim` is read as the shim style companion of what stands before. -/
theorem names_parse_back (file : String) :
    (∀ base kind extension, (parse? file).map parts = some (base, kind, extension) ↔
      AreParts base kind extension ∧ file = base ++ "." ++ kind ++ "." ++ extension) ∧
    (Path.isCompanion file = true ↔
      ∃ base kind extension, AreParts base kind extension ∧ file = base ++ "." ++ kind ++ "." ++ extension) ∧
    (∀ base kind extension base' kind' extension', AreParts base kind extension → AreParts base' kind' extension' →
      file = base ++ "." ++ kind ++ "." ++ extension → file = base' ++ "." ++ kind' ++ "." ++ extension' →
        base = base' ∧ kind = kind' ∧ extension = extension') ∧
    (∀ base kind extension, AreParts base kind extension →
      (parse? (base ++ "." ++ kind ++ "." ++ extension)).map parts = some (base, kind, extension)) ∧
    ∀ base extension, extension ∈ extensionTexts → '\n' ∉ base.toList →
      (parse? (base ++ ".shim" ++ "." ++ "axstyle" ++ "." ++ extension)).map parts =
        some (base, "shim.axstyle", extension) := by
  refine ⟨fun base kind extension => map_parts_parse?_iff, isCompanion_iff_areParts, ?_, ?_, ?_⟩
  · intro base kind extension base' kind' extension' proper proper' whole whole'
    have parsed := map_parts_parse?_iff.mpr ⟨proper, whole⟩
    rw [map_parts_parse?_iff.mpr ⟨proper', whole'⟩] at parsed
    cases parsed
    exact ⟨rfl, rfl, rfl⟩
  · intro base kind extension proper
    exact map_parts_parse?_iff.mpr ⟨proper, rfl⟩
  · intro base extension known oneLine
    refine map_parts_parse?_iff.mpr ⟨⟨by decide, known, oneLine, by simp⟩, ?_⟩
    simp [← String.toList_inj]

example : (parse? "/app/a.css.shim.axstyle.d.ts").map parts = some ("/app/a.css", "shim.axstyle", "d.ts") := by
  decide

end CompanionName

end CompanionBuild
