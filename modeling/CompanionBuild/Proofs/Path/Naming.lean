import CompanionBuild.Path.Naming
import CompanionBuild.Proofs.Path.Segments
import Mathlib.Data.List.Basic

/-! # What file names say, part by part

A name without its source extension is a beginning of the name, and only the last segment of a path loses anything.
-/

namespace CompanionBuild

theorem Text.dropTail?_eq_some_iff {tail text before : String} :
    Text.dropTail? tail text = some before ↔ before ++ tail = text := by
  constructor
  · intro found
    obtain ⟨rest, suffix, rfl⟩ := Option.map_eq_some_iff.mp found
    have whole : rest ++ tail.toList = text.toList := List.append_eq_of_isSuffixOf?_eq_some suffix
    rw [← String.toList_inj, String.toList_append, String.toList_ofList, whole]
  · rintro rfl
    have suffix : tail.toList.isSuffixOf? (before ++ tail).toList = some before.toList := by
      rw [List.isSuffixOf?_eq_some_iff_append_eq, String.toList_append]
    rw [Text.dropTail?, suffix, Option.map_some, String.ofList_toList]

namespace Path

/-! ## Extensions -/

/-- The endings that a source may have. -/
def sourceEndings : List String := [".d.ts", ".ts", ".js", ".jsx", ".tsx"]

theorem dropFirstEnding?_eq_some {endings : List String} {file before : String}
    (found : dropFirstEnding? endings file = some before) : ∃ ending ∈ endings, before ++ ending = file := by
  obtain ⟨ending, member, dropped⟩ := List.exists_of_findSome?_eq_some found
  exact ⟨ending, member, Text.dropTail?_eq_some_iff.mp dropped⟩

/-- An ending without a slash is one of the last segment. -/
theorem dropTail?_append {tail : String} (free : '/' ∉ tail.toList) (before text : String) :
    Text.dropTail? tail (before ++ "/" ++ text) = (Text.dropTail? tail text).map (before ++ "/" ++ ·) := by
  cases found : Text.dropTail? tail text with
  | some stem =>
    rw [← Text.dropTail?_eq_some_iff.mp found, Option.map_some, Text.dropTail?_eq_some_iff, String.append_assoc]
  | none =>
    rw [Option.map_none, Option.eq_none_iff_forall_ne_some]
    intro stem longer
    have whole := congrArg String.toList (Text.dropTail?_eq_some_iff.mp longer)
    rw [String.toList_append, String.toList_append] at whole
    have none (rest : List Char) (cut : rest ++ tail.toList = text.toList) : False := by
      have dropped : Text.dropTail? tail text = some (String.ofList rest) := by
        rw [Text.dropTail?_eq_some_iff, ← String.toList_inj, String.toList_append, String.toList_ofList, cut]
      rw [found] at dropped
      cases dropped
    obtain ⟨more, outer, inner⟩ | ⟨more, outer, inner⟩ := List.append_eq_append_iff.mp whole
    · -- The ending would reach back over the slash.
      obtain rfl | ⟨more, last, rfl⟩ := List.eq_nil_or_concat more
      · exact none [] inner
      · rw [List.concat_eq_append, ← List.append_assoc, String.toList_append] at outer
        obtain rfl : '/' = last := by simpa using List.append_inj_right' outer rfl
        exact free (by rw [inner]; simp)
    · exact none more inner.symm

theorem dropFirstEnding?_append {endings : List String} (free : ∀ ending ∈ endings, '/' ∉ ending.toList)
    (before text : String) :
    dropFirstEnding? endings (before ++ "/" ++ text) = (dropFirstEnding? endings text).map (before ++ "/" ++ ·) := by
  induction endings with
  | nil => rfl
  | cons ending rest ih =>
    unfold dropFirstEnding? at ih ⊢
    rw [List.findSome?_cons, List.findSome?_cons, dropTail?_append (free ending (List.mem_cons_self ..)),
      ih fun ending member => free ending (List.mem_cons_of_mem _ member)]
    cases Text.dropTail? ending text <;> rfl

/-- Only the last segment of a path has an extension to lose. -/
theorem stripExtension_append (before text : String) :
    stripExtension (before ++ "/" ++ text) = before ++ "/" ++ stripExtension text := by
  rw [stripExtension, dropFirstEnding?_append (by decide), stripExtension]
  cases dropFirstEnding? [".d.ts", ".ts", ".js", ".jsx", ".tsx"] text <;> rfl

/-- A name is its stem and perhaps an ending. -/
theorem exists_extension (file : String) :
    ∃ ending, (ending = "" ∨ ending ∈ sourceEndings) ∧ stripExtension file ++ ending = file := by
  unfold stripExtension
  cases found : dropFirstEnding? [".d.ts", ".ts", ".js", ".jsx", ".tsx"] file with
  | none => exact ⟨"", .inl rfl, String.append_empty⟩
  | some before =>
    obtain ⟨ending, member, whole⟩ := dropFirstEnding?_eq_some found
    exact ⟨ending, .inr member, whole⟩

/-- No ending is an absolute path. -/
theorem not_isAbsolute_ending {ending : String} (kind : ending = "" ∨ ending ∈ sourceEndings) :
    isAbsolute ending = false := by
  have each : ∀ ending ∈ sourceEndings, isAbsolute ending = false := by decide
  obtain rfl | member := kind
  · decide
  · exact each ending member

theorem isAbsolute_stripExtension {file : String} (absolute : isAbsolute file = true) :
    isAbsolute (stripExtension file) = true := by
  obtain ⟨ending, kind, whole⟩ := exists_extension file
  generalize stripExtension file = stem at whole ⊢
  subst whole
  unfold isAbsolute at absolute ⊢
  rw [String.toList_append] at absolute
  cases text : stem.toList with
  | nil =>
    rw [text, List.nil_append] at absolute
    exact absurd absolute (Bool.eq_false_iff.mp (not_isAbsolute_ending kind))
  | cons c rest =>
    rw [text] at absolute
    exact absolute

end Path

end CompanionBuild
