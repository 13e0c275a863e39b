import CompanionBuild.Path.Basic
import Mathlib.Data.List.Induction

/-! # Reading a path onto a stack

The pieces of a path are read one after the other onto a stack of segments: names, and in a relative path below them the
steps up that had nothing to undo. Whatever is read, the stack keeps this form, and a stack that is read from its bottom
is built again.
-/

namespace CompanionBuild.Path.Chars

/-! ## Proper segments -/

/-- A segment that stands for itself in a path. -/
structure IsSegment (segment : List Char) : Prop where
  nonempty : segment ≠ []
  notHere : segment ≠ ['.']
  notUp : segment ≠ ['.', '.']
  noSlash : '/' ∉ segment
  noBackslash : '\\' ∉ segment

/-- Each of the segments stands for itself. -/
abbrev AreSegments (segments : List (List Char)) : Prop :=
  ∀ segment ∈ segments, IsSegment segment

variable {absolute : Bool} {kept : List (List Char)}

theorem enter_blank : enter absolute kept [] = kept :=
  if_pos (.inl rfl)

theorem enter_here : enter absolute kept ['.'] = kept :=
  if_pos (.inr rfl)

theorem enter_segment {segment : List Char} (proper : IsSegment segment) :
    enter absolute kept segment = segment :: kept := by
  rw [enter.eq_def, if_neg (not_or.mpr ⟨proper.nonempty, proper.notHere⟩), if_neg proper.notUp]

theorem enter_up {last : List Char} (proper : IsSegment last) : enter absolute (last :: kept) ['.', '.'] = kept := by
  simp [enter, proper.notUp]

theorem foldl_enter_segments {segments : List (List Char)} (proper : AreSegments segments) :
    segments.foldl (enter absolute) kept = segments.reverse ++ kept := by
  induction segments generalizing kept with
  | nil => rfl
  | cons segment rest ih =>
    rw [List.foldl_cons, enter_segment (proper segment (List.mem_cons_self ..)),
      ih fun segment member => proper segment (List.mem_cons_of_mem _ member)]
    simp

theorem foldl_enter_ups {segments : List (List Char)} (proper : AreSegments segments) :
    (segments.map fun _ => ['.', '.']).foldl (enter absolute) (segments ++ kept) = kept := by
  induction segments with
  | nil => rfl
  | cons segment rest ih =>
    rw [List.map_cons, List.foldl_cons, List.cons_append, enter_up (proper segment (List.mem_cons_self ..))]
    exact ih fun segment member => proper segment (List.mem_cons_of_mem _ member)

/-! ## The stack of segments -/

/-- What is kept while a path is read, the innermost first: names, in a relative path on top of steps up. -/
inductive Stacked (absolute : Bool) : List (List Char) → Prop
  | ups (count : Nat) (bounded : absolute = true → count = 0) : Stacked absolute (List.replicate count ['.', '.'])
  | name {segment : List Char} {outer : List (List Char)} (proper : IsSegment segment) (under : Stacked absolute outer) :
      Stacked absolute (segment :: outer)

theorem Stacked.nil : Stacked absolute [] :=
  .ups 0 fun _ => rfl

/-- A step up that has nothing to undo is kept in a relative path, and forgotten at the root. -/
theorem enter_up_of_ups (absolute : Bool) (count : Nat) :
    enter absolute (List.replicate count ['.', '.']) ['.', '.'] =
      List.replicate (if absolute then count else count + 1) ['.', '.'] := by
  cases count with
  | zero => cases absolute <;> rfl
  | succ count => cases absolute <;> simp [enter, List.replicate_succ]

/-- Reading a piece leaves a stack. -/
theorem Stacked.enter {piece : List Char} (stacked : Stacked absolute kept) (noSlash : '/' ∉ piece)
    (noBackslash : '\\' ∉ piece) : Stacked absolute (enter absolute kept piece) := by
  by_cases blank : piece = [] ∨ piece = ['.']
  · rw [Chars.enter.eq_def, if_pos blank]
    exact stacked
  by_cases up : piece = ['.', '.']
  · subst up
    cases stacked with
    | ups count bounded =>
      rw [enter_up_of_ups]
      apply Stacked.ups
      intro fromRoot
      rw [if_pos fromRoot]
      exact bounded fromRoot
    | name proper under =>
      rw [enter_up proper]
      exact under
  · rw [not_or] at blank
    have proper : IsSegment piece := ⟨blank.1, blank.2, up, noSlash, noBackslash⟩
    rw [enter_segment proper]
    exact .name proper stacked

/-- Whatever pieces are read onto a stack, it stays one. -/
theorem Stacked.foldl {pieces : List (List Char)} (stacked : Stacked absolute kept)
    (free : ∀ piece ∈ pieces, '/' ∉ piece ∧ '\\' ∉ piece) :
    Stacked absolute (pieces.foldl (Chars.enter absolute) kept) := by
  induction pieces generalizing kept with
  | nil => exact stacked
  | cons piece rest ih =>
    obtain ⟨noSlash, noBackslash⟩ := free piece (List.mem_cons_self ..)
    apply ih (stacked.enter noSlash noBackslash)
    intro piece member
    exact free piece (List.mem_cons_of_mem _ member)

theorem foldl_enter_ups_relative (count : Nat) :
    (List.replicate count ['.', '.']).foldl (enter false) [] = List.replicate count ['.', '.'] := by
  induction count with
  | zero => rfl
  | succ count ih =>
    rw [List.replicate_succ', List.foldl_append, ih, List.foldl_cons, List.foldl_nil, enter_up_of_ups]
    exact List.replicate_succ'

/-- Reading a stack from the bottom builds it again. -/
theorem Stacked.foldl_reverse (stacked : Stacked absolute kept) :
    kept.reverse.foldl (Chars.enter absolute) [] = kept := by
  induction stacked with
  | ups count bounded =>
    rw [List.reverse_replicate]
    cases absolute with
    | true => rw [bounded rfl]; rfl
    | false => exact foldl_enter_ups_relative count
  | name proper under ih =>
    rw [List.reverse_cons, List.foldl_append, ih, List.foldl_cons, List.foldl_nil, enter_segment proper]

/-- A piece that can be written between two separators and is not passed over when it is read. -/
structure IsPiece (piece : List Char) : Prop where
  nonempty : piece ≠ []
  notHere : piece ≠ ['.']
  noSlash : '/' ∉ piece
  noBackslash : '\\' ∉ piece

theorem Stacked.isPiece (stacked : Stacked absolute kept) : ∀ piece ∈ kept, IsPiece piece := by
  induction stacked with
  | ups count bounded =>
    intro piece member
    obtain rfl := List.eq_of_mem_replicate member
    constructor <;> decide
  | name proper under ih =>
    rintro piece (_ | ⟨_, member⟩)
    · exact ⟨proper.nonempty, proper.notHere, proper.noSlash, proper.noBackslash⟩
    · exact ih piece member

theorem Stacked.plain {segments : List (List Char)} (stacked : Stacked absolute segments.reverse) :
    ∀ piece ∈ segments, IsPiece piece := by
  intro piece member
  exact stacked.isPiece piece (List.mem_reverse.mpr member)

theorem Stacked.areSegments (stacked : Stacked true kept) : AreSegments kept := by
  induction stacked with
  | ups count bounded =>
    rw [bounded rfl]
    exact fun segment member => absurd member List.not_mem_nil
  | name proper under ih =>
    rintro segment (_ | ⟨_, member⟩)
    · exact proper
    · exact ih segment member

/-- Below the names there are only steps up. -/
theorem Stacked.exists_ups (stacked : Stacked absolute kept) :
    ∃ count names, kept.reverse = List.replicate count ['.', '.'] ++ names ∧ AreSegments names := by
  induction stacked with
  | ups count bounded =>
    refine ⟨count, [], by rw [List.reverse_replicate, List.append_nil], ?_⟩
    exact fun segment member => absurd member List.not_mem_nil
  | @name segment outer proper under ih =>
    obtain ⟨count, names, whole, inner⟩ := ih
    refine ⟨count, names ++ [segment], by rw [List.reverse_cons, whole, List.append_assoc], ?_⟩
    intro other member
    obtain inside | last := List.mem_append.mp member
    · exact inner other inside
    · rw [List.mem_singleton.mp last]
      exact proper

/-- Names above steps up are a stack; at the root there must be no steps up. -/
theorem Stacked.of_ups {count : Nat} {names : List (List Char)} (bounded : absolute = true → count = 0)
    (proper : AreSegments names) : Stacked absolute (List.replicate count ['.', '.'] ++ names).reverse := by
  induction names using List.reverseRecOn with
  | nil =>
    rw [List.append_nil, List.reverse_replicate]
    exact .ups count bounded
  | append_singleton names last ih =>
    have inner : AreSegments names := fun segment member => proper segment (List.mem_append_left _ member)
    rw [← List.append_assoc, List.reverse_append]
    exact .name (proper last (by simp)) (ih inner)

theorem AreSegments.stacked {names : List (List Char)} (proper : AreSegments names) (absolute : Bool) :
    Stacked absolute names.reverse := by
  have stacked := Stacked.of_ups (fun _ : absolute = true => rfl) proper
  rwa [List.replicate_zero, List.nil_append] at stacked

end CompanionBuild.Path.Chars
