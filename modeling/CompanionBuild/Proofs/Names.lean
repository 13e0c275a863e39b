import CompanionBuild.Names
import Mathlib.Data.List.Sort

/-! # Members of sets of names

A set of names is put together by inserting them one by one. It is in order, so it is known by its members.
-/

namespace CompanionBuild.Names

theorem mem_insert {name other : String} {names : Names} : other ∈ insert name names ↔ other = name ∨ other ∈ names := by
  induction names with
  | nil => rw [insert, List.mem_singleton, or_iff_left (List.not_mem_nil)]
  | cons first rest ih =>
    rw [insert]
    split
    · exact List.mem_cons
    · split
      case isTrue same =>
        subst same
        rw [List.mem_cons, or_self_left]
      case isFalse =>
        rw [List.mem_cons, ih, List.mem_cons, or_left_comm]

theorem mem_foldl_insert {name : String} {names : List String} {set : Names} :
    name ∈ names.foldl (fun set name => insert name set) set ↔ name ∈ names ∨ name ∈ set := by
  induction names generalizing set with
  | nil => rw [List.foldl_nil, or_iff_right (List.not_mem_nil)]
  | cons first rest ih => rw [List.foldl_cons, ih, mem_insert, List.mem_cons, or_left_comm, or_assoc]

theorem mem_ofList {name : String} {names : List String} : name ∈ ofList names ↔ name ∈ names := by
  rw [ofList, mem_foldl_insert, or_iff_left (List.not_mem_nil)]

theorem insert_ordered {names : Names} (ordered : names.Pairwise (· < ·)) (name : String) :
    (insert name names).Pairwise (· < ·) := by
  induction names with
  | nil => exact List.pairwise_singleton ..
  | cons first rest ih =>
    obtain ⟨above, restOrdered⟩ := List.pairwise_cons.mp ordered
    rw [insert]
    split
    case isTrue below =>
      refine List.pairwise_cons.mpr ⟨fun other member => ?_, ordered⟩
      obtain rfl | member := List.mem_cons.mp member
      · exact below
      · exact String.lt_trans below (above other member)
    case isFalse notBelow =>
      split
      case isTrue => exact ordered
      case isFalse different =>
        refine List.pairwise_cons.mpr ⟨fun other member => ?_, ih restOrdered⟩
        obtain rfl | member := mem_insert.mp member
        · exact Std.lt_of_le_of_ne (String.not_lt.mp notBelow) (Ne.symm different)
        · exact above other member

theorem ofList_ordered (names : List String) : (ofList names).Pairwise (· < ·) := by
  have all (set : Names) (ordered : set.Pairwise (· < ·)) :
      (names.foldl (fun set name => insert name set) set).Pairwise (· < ·) := by
    induction names generalizing set with
    | nil => exact ordered
    | cons first rest ih => exact ih _ (insert_ordered ordered first)
  exact all [] .nil

/-- Sets with the same members are the same. -/
theorem ofList_eq_iff {names others : List String} :
    ofList names = ofList others ↔ ∀ name, name ∈ names ↔ name ∈ others := by
  constructor
  · intro same name
    rw [← mem_ofList, same, mem_ofList]
  · intro same
    refine (ofList_ordered names).eq_of_mem_iff (ofList_ordered others) fun name => ?_
    rw [mem_ofList, mem_ofList]
    exact same name

end CompanionBuild.Names
