import CompanionBuild.Proofs.Path.Naming

/-! # Package names in paths

A package folder in a path ends with a slash and has no other, so it never reaches across one. The package of a path is
named after the first folder, and what is stripped of a path goes up to the last folder in a line. The two agree where
the path is one line up to there and the name of the package does not end like a folder itself.
-/

namespace CompanionBuild

theorem Text.isPrefixOf?_eq_none_iff {head text : List Char} : head.isPrefixOf? text = none ↔ ¬head <+: text := by
  rw [Option.eq_none_iff_forall_ne_some]
  constructor
  · rintro none ⟨rest, whole⟩
    exact none rest (List.isPrefixOf?_eq_some_iff_append_eq.mpr whole)
  · exact fun none rest found => none ⟨rest, List.isPrefixOf?_eq_some_iff_append_eq.mp found⟩

theorem Text.after?_eq_none_iff {needle text : List Char} : Text.after? needle text = none ↔ ¬needle <:+: text := by
  induction text with
  | nil => simp [Text.after?]
  | cons c rest ih =>
    rw [Text.after?, List.infix_cons_iff, not_or, ← ih, ← Text.isPrefixOf?_eq_none_iff]
    cases needle.isPrefixOf? (c :: rest) <;> simp

theorem Text.contains_eq_false_iff {text needle : String} :
    Text.contains text needle = false ↔ ¬needle.toList <:+: text.toList := by
  rw [Text.contains, Option.isSome_eq_false_iff, Option.isNone_iff_eq_none, Text.after?_eq_none_iff]

namespace Path.Chars

/-! ## Folders in a text -/

theorem packageFolder_eq : packageFolder = ['n', 'o', 'd', 'e', '_', 'm', 'o', 'd', 'u', 'l', 'e', 's'] ++ ['/'] :=
  rfl

/-- A folder that a text starts with ends at the first slash. -/
theorem prefix_of_prefix_append {first second : List Char} (start : packageFolder <+: first ++ '/' :: second) :
    packageFolder <+: first ++ ['/'] := by
  obtain ⟨rest, whole⟩ := start
  have noSlash : '/' ∉ ['n', 'o', 'd', 'e', '_', 'm', 'o', 'd', 'u', 'l', 'e', 's'] := by decide
  rw [packageFolder_eq] at whole ⊢
  generalize ['n', 'o', 'd', 'e', '_', 'm', 'o', 'd', 'u', 'l', 'e', 's'] = folder at whole noSlash ⊢
  rw [List.append_assoc, List.singleton_append] at whole
  obtain ⟨more, rfl, after⟩ | ⟨more, rfl, after⟩ := List.append_eq_append_iff.mp whole
  · cases more with
    | nil => simp
    | cons c more =>
      obtain ⟨rfl, -⟩ := List.cons.inj after
      exact ⟨more ++ ['/'], by simp⟩
  · cases more with
    | nil => simp
    | cons c more =>
      obtain ⟨rfl, -⟩ := List.cons.inj after
      exact (noSlash (by simp)).elim

theorem infix_append_slash_iff {first second : List Char} :
    packageFolder <:+: first ++ '/' :: second ↔ packageFolder <:+: first ++ ['/'] ∨ packageFolder <:+: second := by
  constructor
  · intro inside
    induction first with
    | nil =>
      obtain start | later := List.infix_cons_iff.mp inside
      · exact .inl (prefix_of_prefix_append start).isInfix
      · exact .inr later
    | cons c rest ih =>
      obtain start | later := List.infix_cons_iff.mp inside
      · exact .inl (@prefix_of_prefix_append (c :: rest) second start).isInfix
      · exact (ih later).imp_left fun found => found.trans (List.suffix_cons _ _).isInfix
  · rintro (left | right)
    · refine left.trans (List.IsPrefix.isInfix ⟨second, by simp⟩)
    · exact right.trans (List.IsSuffix.isInfix ⟨first ++ ['/'], by simp⟩)

/-! ## The package of a path -/

/-- A part of a package name. -/
structure IsPackagePart (part : List Char) : Prop where
  nonempty : part ≠ []
  chars : ∀ c ∈ part, isPackageChar c = true

/-- A package name, with a scope or without one. -/
inductive IsPackageName : List Char → Prop
  | plain {name : List Char} (part : IsPackagePart name) : IsPackageName name
  | inScope {scope name : List Char} (outer : IsPackagePart scope) (inner : IsPackagePart name) :
      IsPackageName ('@' :: scope ++ '/' :: name)

theorem not_isPackageChar : isPackageChar '/' = false ∧ isPackageChar '@' = false ∧ isPackageChar '\n' = false := by
  decide

namespace IsPackagePart

variable {part : List Char} (proper : IsPackagePart part)

include proper

theorem not_mem {c : Char} (other : isPackageChar c = false) : c ∉ part := by
  intro member
  rw [proper.chars c member] at other
  cases other

theorem takeWhile_append (rest : List Char) : (part ++ '/' :: rest).takeWhile isPackageChar = part := by
  rw [List.takeWhile_append_of_pos proper.chars, List.takeWhile_cons_of_neg (by simp [not_isPackageChar.1]), List.append_nil]

theorem dropWhile_append (rest : List Char) : (part ++ '/' :: rest).dropWhile isPackageChar = '/' :: rest := by
  rw [List.dropWhile_append_of_pos proper.chars, List.dropWhile_cons_of_neg (by simp [not_isPackageChar.1])]

end IsPackagePart

/-- A package name is read back from what follows the folder. -/
theorem packageHead?_append {name : List Char} (proper : IsPackageName name) (rest : List Char) :
    packageHead? (name ++ '/' :: rest) = some name := by
  cases proper with
  | plain part =>
    obtain ⟨c, more, rfl⟩ := List.exists_cons_of_ne_nil part.nonempty
    rw [packageHead?.eq_def, part.takeWhile_append]
  | inScope outer inner =>
    rename_i scope last
    obtain ⟨c, more, rfl⟩ := List.exists_cons_of_ne_nil outer.nonempty
    obtain ⟨d, others, rfl⟩ := List.exists_cons_of_ne_nil inner.nonempty
    have none : (('@' :: (c :: more) ++ '/' :: (d :: others)) ++ '/' :: rest).takeWhile isPackageChar = [] :=
      List.takeWhile_cons_of_neg (by simp [not_isPackageChar.2.1])
    have whole : ('@' :: (c :: more) ++ '/' :: (d :: others)) ++ '/' :: rest =
        '@' :: ((c :: more) ++ '/' :: ((d :: others) ++ '/' :: rest)) := by simp
    rw [packageHead?.eq_def, none, whole]
    simp only [outer.takeWhile_append, outer.dropWhile_append, inner.takeWhile_append]

theorem packageOf?_of_folder {name rest : List Char} (proper : IsPackageName name) :
    packageOf? (packageFolder ++ (name ++ '/' :: rest)) = some name := by
  have found : packageFolder.isPrefixOf? (packageFolder ++ (name ++ '/' :: rest)) = some (name ++ '/' :: rest) :=
    List.isPrefixOf?_eq_some_iff_append_eq.mpr rfl
  obtain ⟨c, more, whole⟩ : ∃ c more, packageFolder ++ (name ++ '/' :: rest) = c :: more := ⟨_, _, rfl⟩
  rw [whole, packageOf?, ← whole, found, Option.bind_some, packageHead?_append proper]

/-- A path is in the package that follows its first folder. -/
theorem packageOf?_append {before name rest : List Char} (free : ¬packageFolder <:+: before ++ ['/'])
    (proper : IsPackageName name) :
    packageOf? (before ++ '/' :: (packageFolder ++ (name ++ '/' :: rest))) = some name := by
  induction before with
  | nil =>
    have passed : packageFolder.isPrefixOf? ('/' :: (packageFolder ++ (name ++ '/' :: rest))) = none := rfl
    rw [List.nil_append, packageOf?, passed, Option.bind_none]
    exact packageOf?_of_folder proper
  | cons c before ih =>
    have passed : packageFolder.isPrefixOf? (c :: before ++ '/' :: (packageFolder ++ (name ++ '/' :: rest))) = none := by
      rw [Text.isPrefixOf?_eq_none_iff]
      exact fun start => free (prefix_of_prefix_append start).isInfix
    rw [List.cons_append] at passed ⊢
    rw [packageOf?, passed, Option.bind_none]
    exact ih fun inside => free (inside.trans (List.suffix_cons _ _).isInfix)

/-! ## The name inside the last folder -/

theorem afterLastFolder?_eq_none_iff {line : List Char} : afterLastFolder? line = none ↔ ¬packageFolder <:+: line := by
  induction line with
  | nil => simp [afterLastFolder?, packageFolder_eq]
  | cons c rest ih =>
    rw [afterLastFolder?, List.infix_cons_iff, not_or, ← ih, ← Text.isPrefixOf?_eq_none_iff]
    cases afterLastFolder? rest <;> simp

theorem length_lt_of_afterLastFolder? {line rest : List Char} (found : afterLastFolder? line = some rest) :
    rest.length < line.length := by
  induction line with
  | nil => cases found
  | cons c tail ih =>
    rw [afterLastFolder?] at found
    split at found
    · next later =>
      cases found
      exact Nat.lt_succ_of_lt (ih later)
    · have whole : packageFolder ++ rest = c :: tail := List.isPrefixOf?_eq_some_iff_append_eq.mp found
      have longer : (packageFolder ++ rest).length = rest.length + 13 := by
        rw [List.length_append, Nat.add_comm]
        rfl
      rw [← whole, longer]
      omega

theorem afterLastFolder?_append_of_some {line rest : List Char} (found : afterLastFolder? line = some rest)
    (before : List Char) : afterLastFolder? (before ++ line) = some rest := by
  induction before with
  | nil => exact found
  | cons c before ih => rw [List.cons_append, afterLastFolder?, ih]

/-- A line is cut after its last folder. -/
theorem afterLastFolder?_append {rest : List Char} (free : ¬packageFolder <:+: rest) (before : List Char) :
    afterLastFolder? (before ++ (packageFolder ++ rest)) = some rest := by
  refine afterLastFolder?_append_of_some ?_ before
  have last : packageFolder.isPrefixOf? (packageFolder ++ rest) = some rest :=
    List.isPrefixOf?_eq_some_iff_append_eq.mpr rfl
  have whole : packageFolder ++ rest = 'n' :: (['o', 'd', 'e', '_', 'm', 'o', 'd', 'u', 'l', 'e', 's'] ++ '/' :: rest) := rfl
  have none : afterLastFolder? (['o', 'd', 'e', '_', 'm', 'o', 'd', 'u', 'l', 'e', 's'] ++ '/' :: rest) = none := by
    rw [afterLastFolder?_eq_none_iff, infix_append_slash_iff, not_or]
    exact ⟨fun inside => absurd inside.length_le (by decide), free⟩
  rw [whole, afterLastFolder?, none]
  exact last

theorem IsPackageName.not_mem {name : List Char} (proper : IsPackageName name) : '\n' ∉ name := by
  cases proper with
  | plain part => exact part.not_mem not_isPackageChar.2.2
  | inScope outer inner =>
    simp [outer.not_mem not_isPackageChar.2.2, inner.not_mem not_isPackageChar.2.2]

theorem IsPackageName.exists_cons {name : List Char} (proper : IsPackageName name) :
    ∃ c rest, name = c :: rest ∧ c ≠ '/' := by
  cases proper with
  | plain part =>
    obtain ⟨c, rest, rfl⟩ := List.exists_cons_of_ne_nil part.nonempty
    exact ⟨c, rest, rfl, fun same => part.not_mem not_isPackageChar.1 (same ▸ List.mem_cons_self ..)⟩
  | inScope outer inner => exact ⟨'@', _, rfl, by decide⟩

/-- A text without all that its lines hold up to the last folder in the first line that has one. -/
def stripped (text : List Char) : List Char :=
  List.intercalate ['\n'] (stripFolder (Text.split '\n' text))

section

variable {before name inside : List Char}

/-- What follows the folder stays where no folder follows. -/
theorem stripped_of_free {rest : List Char} (line : '\n' ∉ before) (free : ¬packageFolder <:+: rest) :
    stripped (before ++ (packageFolder ++ rest)) = rest := by
  obtain ⟨head, tail, parts⟩ := List.exists_cons_of_ne_nil (Text.split_ne_nil '\n' rest)
  have outer : '\n' ∉ before ++ packageFolder := by
    rw [List.mem_append, not_or]
    exact ⟨line, by decide⟩
  have first : ¬packageFolder <:+: head := fun found =>
    free (found.trans (Text.infix_of_mem_split (parts ▸ List.mem_cons_self ..)))
  rw [stripped, ← List.append_assoc, Text.split_append_of_not_mem outer parts, stripFolder, List.append_assoc,
    afterLastFolder?_append first]
  dsimp only
  rw [← parts, Text.intercalate_split]

/-- A package name that holds a folder is not kept whole. -/
theorem stripped_ne_of_contains (line : '\n' ∉ before) (proper : '\n' ∉ name)
    (folder : packageFolder <:+: name ++ ['/']) :
    stripped (before ++ (name ++ '/' :: inside)) ≠ name ++ '/' :: inside := by
  obtain ⟨head, tail, parts⟩ := List.exists_cons_of_ne_nil (Text.split_ne_nil '\n' inside)
  have outer : '\n' ∉ name ++ ['/'] := by
    simp [proper]
  have whole : Text.split '\n' (name ++ '/' :: inside) = (name ++ '/' :: head) :: tail := by
    have cut := Text.split_append_of_not_mem outer parts
    rwa [List.append_assoc, List.append_assoc] at cut
  obtain ⟨rest, found⟩ : ∃ rest, afterLastFolder? (name ++ '/' :: head) = some rest := by
    rw [← Option.ne_none_iff_exists', Ne, afterLastFolder?_eq_none_iff, infix_append_slash_iff]
    exact fun free => free (.inl folder)
  have shorter := length_lt_of_afterLastFolder? found
  have result : stripped (before ++ (name ++ '/' :: inside)) = List.intercalate ['\n'] (rest :: tail) := by
    rw [stripped, Text.split_append_of_not_mem line whole, stripFolder, afterLastFolder?_append_of_some found]
  intro same
  rw [result, ← @Text.intercalate_split '\n' (name ++ '/' :: inside), whole] at same
  have lengths := congrArg List.length same
  cases tail with
  | nil =>
    simp [List.intercalate] at lengths shorter
    omega
  | cons next tail =>
    rw [Text.intercalate_cons (List.cons_ne_nil _ _), Text.intercalate_cons (List.cons_ne_nil _ _), List.length_append,
      List.length_append] at lengths
    omega

/-- A directory of several lines keeps its first line. -/
theorem stripped_of_mem (lines : '\n' ∈ before) (absolute : before.head? = some '/') (free : ¬packageFolder <:+: before)
    (rest : List Char) : (stripped (before ++ rest)).head? = some '/' := by
  obtain ⟨first, others, rfl, line⟩ := List.eq_append_cons_of_mem lines
  obtain ⟨text, rfl⟩ : ∃ text, first = '/' :: text := by
    cases first with
    | nil => simp at absolute
    | cons c text => exact ⟨text, by simpa using absolute⟩
  have plain : afterLastFolder? ('/' :: text) = none :=
    afterLastFolder?_eq_none_iff.mpr fun found => free (found.trans (List.prefix_append _ _).isInfix)
  have parts : Text.split '\n' ('/' :: text ++ '\n' :: others ++ rest) = ('/' :: text) :: Text.split '\n' (others ++ rest) := by
    have shape : '/' :: text ++ '\n' :: others ++ rest = '/' :: text ++ '\n' :: (others ++ rest) := by simp
    rw [shape, Text.split_append, Text.split_of_not_mem line]
    rfl
  rw [stripped, parts, stripFolder, plain]
  dsimp only
  cases stripFolder (Text.split '\n' (others ++ rest)) with
  | nil => simp [List.intercalate]
  | cons next tail => simp

/-- The name of a file inside the last folder is the name in its package just where the directory of the package is one
line and the name of the package holds no folder. -/
theorem stripped_eq_iff (free : ¬packageFolder <:+: before ++ ['/']) (absolute : before = [] ∨ before.head? = some '/')
    (proper : IsPackageName name) (inner : ¬packageFolder <:+: inside) :
    stripped (before ++ '/' :: (packageFolder ++ (name ++ '/' :: inside))) = name ++ '/' :: inside ↔
      '\n' ∉ before ∧ ¬packageFolder <:+: name ++ ['/'] := by
  constructor
  · intro same
    have line : '\n' ∉ before := by
      intro lines
      obtain rfl | absolute := absolute
      · cases lines
      · have outer : ¬packageFolder <:+: before := fun found => free (found.trans (List.prefix_append _ _).isInfix)
        have head := stripped_of_mem lines absolute outer ('/' :: (packageFolder ++ (name ++ '/' :: inside)))
        obtain ⟨c, rest, rfl, different⟩ := proper.exists_cons
        rw [same] at head
        exact different (by simpa using head)
    refine ⟨line, fun folder => ?_⟩
    have directory : '\n' ∉ before ++ '/' :: packageFolder := by
      rw [List.mem_append, not_or]
      exact ⟨line, by decide⟩
    have cut := @stripped_ne_of_contains _ _ inside directory proper.not_mem folder
    rw [List.append_assoc, List.cons_append] at cut
    exact cut same
  · rintro ⟨line, plain⟩
    have directory : '\n' ∉ before ++ ['/'] := by
      simp [line]
    have kept := stripped_of_free directory fun found => (infix_append_slash_iff.mp found).elim plain inner
    rwa [List.append_assoc, List.singleton_append] at kept

end

end Path.Chars

end CompanionBuild
