import CompanionBuild.Text.Offset
import Mathlib.Data.List.Basic
import Mathlib.Data.List.Induction

/-! # Offsets and places

The beginnings of a text, its offsets on character boundaries and its places correspond to each other: an offset leads to
the place at the end of the beginning it measures, a later offset to no earlier place, and no two beginnings of one text
end at the same place.
-/

namespace CompanionBuild.Text

/-! ## Offsets -/

theorem byteLength_append (chars more : List Char) : byteLength (chars ++ more) = byteLength chars + byteLength more := by
  induction chars with
  | nil => rw [List.nil_append, byteLength, Nat.zero_add]
  | cons c rest ih => rw [List.cons_append, byteLength, byteLength, ih, Nat.add_assoc]

theorem byteLength_le {head chars : List Char} (starts : head <+: chars) : byteLength head ≤ byteLength chars := by
  obtain ⟨rest, rfl⟩ := starts
  rw [byteLength_append]
  exact Nat.le_add_right ..

/-- The length of a beginning is the offset of its end. -/
theorem before?_append (head rest : List Char) : before? (head ++ rest) (byteLength head) = some head := by
  induction head with
  | nil => cases rest <;> simp [before?, byteLength]
  | cons c head ih =>
    have visible := c.utf8Size_pos
    rw [List.cons_append, before?, byteLength, if_neg (by omega), if_pos (by omega), Nat.add_sub_cancel_left, ih,
      Option.map_some]

/-- An offset past the end stands for the end. -/
theorem before?_of_le {chars : List Char} {offset : Nat} (past : byteLength chars ≤ offset) :
    before? chars offset = some chars := by
  induction chars generalizing offset with
  | nil => rfl
  | cons c rest ih =>
    have visible := c.utf8Size_pos
    rw [byteLength] at past
    rw [before?, if_neg (by omega), if_pos (by omega), ih (by omega), Option.map_some]

/-- A later offset measures a longer beginning. -/
theorem before?_mono {chars head other : List Char} {offset later : Nat} (found : before? chars offset = some head)
    (foundToo : before? chars later = some other) (ordered : offset ≤ later) : head <+: other := by
  induction chars generalizing head other offset later with
  | nil =>
    cases found
    exact List.nil_prefix
  | cons c rest ih =>
    rw [before?] at found foundToo
    by_cases start : offset = 0
    · rw [if_pos start] at found
      cases found
      exact List.nil_prefix
    · rw [if_neg start] at found
      rw [if_neg (by omega)] at foundToo
      split at found
      case isFalse => cases found
      case isTrue fits =>
        rw [if_pos (by omega)] at foundToo
        obtain ⟨head, measured, rfl⟩ := Option.map_eq_some_iff.mp found
        obtain ⟨other, measuredToo, rfl⟩ := Option.map_eq_some_iff.mp foundToo
        exact List.cons_prefix_cons.mpr ⟨rfl, ih measured measuredToo (by omega)⟩

/-- The offset does not lie inside a character of the text; past the end there are none. -/
def IsBoundary (text : String) (offset : Nat) : Prop :=
  byteLength text.toList ≤ offset ∨ ∃ head, head <+: text.toList ∧ byteLength head = offset

/-! ## Places -/

theorem lineColumn_of_start {text : String} {head : List Char} (starts : head <+: text.toList) :
    lineColumn text (byteLength head) = .ok (LineColumn.after ⟨0, 0⟩ head) := by
  obtain ⟨rest, whole⟩ := starts
  rw [lineColumn, ← whole, before?_append]

theorem lineColumn_of_boundary {text : String} {offset : Nat} (boundary : IsBoundary text offset) :
    ∃ place, lineColumn text offset = .ok place := by
  rcases boundary with past | ⟨head, starts, rfl⟩
  · exact ⟨_, by rw [lineColumn, before?_of_le past]⟩
  · exact ⟨_, lineColumn_of_start starts⟩

theorem lineColumn_eq_ok {text : String} {offset : Nat} {place : LineColumn} (found : lineColumn text offset = .ok place) :
    ∃ head, before? text.toList offset = some head ∧ LineColumn.after ⟨0, 0⟩ head = place := by
  rw [lineColumn] at found
  split at found
  case h_1 head measured =>
    cases found
    exact ⟨head, measured, rfl⟩
  case h_2 => cases found

/-- What stands after the last line feed. -/
def lastLine (text : List Char) : List Char :=
  (text.reverse.takeWhile (· ≠ '\n')).reverse

/-- The place of an offset: a line for each line feed before it, a column for each byte between the last one and it. -/
def placeOf (text : String) (offset : Nat) : LineColumn :=
  let head := (before? text.toList offset).getD []
  ⟨head.count '\n', byteLength (lastLine head)⟩

namespace LineColumn

theorem after_append (here : LineColumn) (text rest : List Char) :
    here.after (text ++ rest) = (here.after text).after rest :=
  List.foldl_append

/-- A text takes one line for each line feed, and in the last line as many columns as that has bytes. -/
theorem after_start (text : List Char) : after ⟨0, 0⟩ text = ⟨text.count '\n', byteLength (lastLine text)⟩ := by
  -- from the end, since the last character decides whether a line was begun
  induction text using List.reverseRecOn with
  | nil => rfl
  | append_singleton text c ih =>
    rw [after_append, ih]
    by_cases feed : c = '\n'
    · subst feed
      simp [after, advance, lastLine, byteLength]
    · have line : lastLine (text ++ [c]) = lastLine text ++ [c] := by simp [lastLine, feed]
      simp [after, advance, line, feed, byteLength_append, byteLength]

/-- The first place comes before the second. -/
def Before (here there : LineColumn) : Prop :=
  here.line < there.line ∨ here.line = there.line ∧ here.column < there.column

theorem Before.trans {here there beyond : LineColumn} (first : here.Before there) (second : there.Before beyond) :
    here.Before beyond := by
  unfold Before at *
  omega

theorem not_before (here : LineColumn) : ¬here.Before here := by
  unfold Before
  omega

theorem before_advance (here : LineColumn) (c : Char) : here.Before (here.advance c) := by
  have visible := c.utf8Size_pos
  unfold advance
  split
  · exact .inl (Nat.lt_succ_self _)
  · exact .inr ⟨rfl, Nat.lt_add_of_pos_right visible⟩

/-- Writing leads on. -/
theorem before_after (here : LineColumn) (c : Char) (text : List Char) : here.Before (here.after (c :: text)) := by
  induction text generalizing here c with
  | nil => exact here.before_advance c
  | cons next text ih => exact (here.before_advance c).trans (ih (here.advance c) next)

end LineColumn

theorem lineColumn_eq_placeOf {text : String} {offset : Nat} (boundary : IsBoundary text offset) :
    lineColumn text offset = .ok (placeOf text offset) := by
  obtain ⟨place, found⟩ := lineColumn_of_boundary boundary
  obtain ⟨head, measured, rfl⟩ := lineColumn_eq_ok found
  rw [found, placeOf, measured, Option.getD_some, LineColumn.after_start]

/-- The place of a later offset is the same or a later one. -/
theorem lineColumn_mono {text : String} {offset later : Nat} {place other : LineColumn}
    (found : lineColumn text offset = .ok place) (foundToo : lineColumn text later = .ok other)
    (ordered : offset ≤ later) : place = other ∨ place.Before other := by
  obtain ⟨head, measured, rfl⟩ := lineColumn_eq_ok found
  obtain ⟨longer, measuredToo, rfl⟩ := lineColumn_eq_ok foundToo
  obtain ⟨rest, rfl⟩ := before?_mono measured measuredToo ordered
  rw [LineColumn.after_append]
  cases rest with
  | nil => exact .inl rfl
  | cons c rest => exact .inr (LineColumn.before_after _ c rest)

/-- Beginnings of one text that end at the same place are the same. -/
theorem prefix_eq_of_after_eq {chars head other : List Char} {start : LineColumn} (starts : head <+: chars)
    (startsToo : other <+: chars) (same : start.after head = start.after other) : head = other := by
  -- the longer of the two would end at a later place
  have shorter : ∀ {short long : List Char}, short <+: long → start.after short = start.after long → short = long := by
    rintro short _ ⟨rest, rfl⟩ same
    cases rest with
    | nil => exact (List.append_nil short).symm
    | cons c rest =>
      have later := (start.after short).before_after c rest
      rw [← LineColumn.after_append, ← same] at later
      exact absurd later (LineColumn.not_before _)
  rcases List.prefix_or_prefix_of_prefix starts startsToo with first | first
  · exact shorter first same
  · exact (shorter first same.symm).symm

end CompanionBuild.Text
