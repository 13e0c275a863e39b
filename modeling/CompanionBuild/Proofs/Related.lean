import Mathlib.Data.List.Forall2

/-! # Related lists and optional values -/

namespace CompanionBuild

variable {α β : Type}

theorem forall₂_append_left_iff {R : α → β → Prop} {front back : List α} {list : List β} :
    List.Forall₂ R (front ++ back) list ↔
      ∃ front' back', List.Forall₂ R front front' ∧ List.Forall₂ R back back' ∧ list = front' ++ back' := by
  constructor
  · intro related
    induction front generalizing list with
    | nil => exact ⟨[], list, .nil, related, rfl⟩
    | cons a rest ih =>
      cases related with
      | cons here related =>
        obtain ⟨front', back', first, second, rfl⟩ := ih related
        exact ⟨_ :: front', back', .cons here first, second, rfl⟩
  · rintro ⟨front', back', first, second, rfl⟩
    exact List.rel_append first second

/-- Where a relation on the images is the image of a relation, so it is for lists. -/
theorem forall₂_map_iff {R : α → α → Prop} {S : β → β → Prop} {f : α → β}
    (image : ∀ a b, S (f a) b ↔ ∃ a', R a a' ∧ b = f a') {list : List α} {made : List β} :
    List.Forall₂ S (list.map f) made ↔ ∃ list', List.Forall₂ R list list' ∧ made = list'.map f := by
  rw [List.forall₂_map_left_iff]
  constructor
  · intro related
    induction related with
    | nil => exact ⟨[], .nil, rfl⟩
    | cons first _ ih =>
      obtain ⟨a', here, rfl⟩ := (image _ _).mp first
      obtain ⟨rest', there, rfl⟩ := ih
      exact ⟨a' :: rest', .cons here there, rfl⟩
  · rintro ⟨list', related, rfl⟩
    rw [List.forall₂_map_right_iff]
    exact related.imp fun a a' here => (image a _).mpr ⟨a', here, rfl⟩

/-- What the relation leaves alone can be put back between what it relates. -/
theorem exists_of_forall₂_filter {R : α → α → Prop} {p : α → Bool} (stays : ∀ a, p a = false → R a a)
    (keeps : ∀ a b, R a b → p b = p a) {list made : List α} (related : List.Forall₂ R (list.filter p) made) :
    ∃ list', List.Forall₂ R list list' ∧ list'.filter p = made := by
  induction list generalizing made with
  | nil =>
    cases related
    exact ⟨[], .nil, rfl⟩
  | cons a rest ih =>
    cases chosen : p a with
    | false =>
      rw [List.filter_cons_of_neg (by simp [chosen])] at related
      obtain ⟨rest', there, rfl⟩ := ih related
      exact ⟨a :: rest', .cons (stays a chosen) there, List.filter_cons_of_neg (by simp [chosen])⟩
    | true =>
      rw [List.filter_cons_of_pos chosen] at related
      cases related with
      | cons here related =>
        obtain ⟨rest', there, rfl⟩ := ih related
        exact ⟨_, .cons here there, List.filter_cons_of_pos ((keeps _ _ here).trans chosen)⟩

theorem exists_of_mem_right {R : α → β → Prop} {list : List α} {made : List β} (related : List.Forall₂ R list made)
    {b : β} (mem : b ∈ made) : ∃ a ∈ list, R a b := by
  induction related with
  | nil => cases mem
  | cons first _ ih =>
    obtain rfl | mem := List.mem_cons.mp mem
    · exact ⟨_, List.mem_cons_self .., first⟩
    · obtain ⟨a, isIn, here⟩ := ih mem
      exact ⟨a, List.mem_cons_of_mem _ isIn, here⟩

theorem exists_forall₂ {R : α → β → Prop} {list : List α} (each : ∀ a ∈ list, ∃ b, R a b) :
    ∃ made, List.Forall₂ R list made := by
  induction list with
  | nil => exact ⟨[], .nil⟩
  | cons a rest ih =>
    obtain ⟨b, first⟩ := each a (List.mem_cons_self ..)
    obtain ⟨made, others⟩ := ih fun a mem => each a (List.mem_cons_of_mem _ mem)
    exact ⟨b :: made, .cons first others⟩

/-- What a partial function makes of a list is related to the members for which it is defined. -/
theorem forall₂_filter_filterMap {R : α → β → Prop} {p : α → Bool} {f : α → Option β} {list : List α}
    (defined : ∀ a ∈ list, (f a).isSome = p a) (related : ∀ a ∈ list, ∀ b, f a = some b → R a b) :
    List.Forall₂ R (list.filter p) (list.filterMap f) := by
  induction list with
  | nil => exact .nil
  | cons a rest ih =>
    obtain ⟨first, others⟩ := List.forall_mem_cons.mp defined
    obtain ⟨here, there⟩ := List.forall_mem_cons.mp related
    have tail := ih others there
    cases made : f a with
    | none =>
      rw [made] at first
      rwa [List.filter_cons_of_neg (by simp [← first]), List.filterMap_cons_none made]
    | some b =>
      rw [made] at first
      rw [List.filter_cons_of_pos first.symm, List.filterMap_cons_some made]
      exact .cons (here b made) tail

/-- A list each of whose members stays what it is stays what it is. -/
theorem eq_of_forall₂ {R : α → α → Prop} {list made : List α} (related : List.Forall₂ R list made)
    (stays : ∀ a ∈ list, ∀ b, R a b → b = a) : made = list := by
  induction related with
  | nil => rfl
  | cons first _ ih =>
    rw [stays _ (List.mem_cons_self ..) _ first, ih fun a mem => stays a (List.mem_cons_of_mem _ mem)]

theorem map_eq_of_forall₂ {R : α → α → Prop} {f : α → β} (keeps : ∀ a b, R a b → f b = f a) {list made : List α}
    (related : List.Forall₂ R list made) : made.map f = list.map f := by
  induction related with
  | nil => rfl
  | cons first _ ih => rw [List.map_cons, List.map_cons, keeps _ _ first, ih]

theorem foldl_eq_of_forall₂ {R : α → α → Prop} {f : β → α → β} (keeps : ∀ a b, R a b → ∀ start, f start b = f start a)
    {list made : List α} (related : List.Forall₂ R list made) (start : β) : made.foldl f start = list.foldl f start := by
  induction related generalizing start with
  | nil => rfl
  | cons first _ ih => rw [List.foldl_cons, List.foldl_cons, keeps _ _ first, ih]

theorem filterMap_eq_of_forall₂ {R : α → α → Prop} {f : α → Option β} (keeps : ∀ a b, R a b → f b = f a)
    {list made : List α} (related : List.Forall₂ R list made) : made.filterMap f = list.filterMap f := by
  induction related with
  | nil => rfl
  | cons first _ ih => rw [List.filterMap_cons, List.filterMap_cons, keeps _ _ first, ih]

theorem findSome?_eq_of_forall₂ {R : α → α → Prop} {f : α → Option β} (keeps : ∀ a b, R a b → f b = f a)
    {list made : List α} (related : List.Forall₂ R list made) : made.findSome? f = list.findSome? f := by
  induction related with
  | nil => rfl
  | cons first _ ih => rw [List.findSome?_cons, List.findSome?_cons, keeps _ _ first, ih]

/-! ## Optional values -/

theorem rel_bind {γ δ : Type} {R : α → β → Prop} {S : γ → δ → Prop} {a : Option α} {b : Option β}
    {f : α → Option γ} {g : β → Option δ} (first : Option.Rel R a b)
    (rest : ∀ x y, R x y → Option.Rel S (f x) (g y)) : Option.Rel S (a.bind f) (b.bind g) := by
  cases first with
  | some related => exact rest _ _ related
  | none => exact .none

theorem rel_eq (a : Option α) : Option.Rel Eq a a := by
  cases a with
  | some value => exact .some rfl
  | none => exact .none

theorem mapM_cons_eq_some {f : α → Option β} {a : α} {list : List α} {results : List β} :
    (a :: list).mapM f = some results ↔
      ∃ b others, f a = some b ∧ list.mapM f = some others ∧ b :: others = results := by
  simp [List.mapM_cons, Option.bind_eq_some_iff]

theorem mapM_eq_ite (f : α → Option β) (list : List α) :
    list.mapM f = if list.all fun a => (f a).isSome then some (list.filterMap f) else none := by
  induction list with
  | nil => rfl
  | cons a rest ih =>
    rw [List.mapM_cons, ih, List.all_cons, List.filterMap_cons]
    cases f a with
    | none => rfl
    | some b =>
      cases rest.all fun a => (f a).isSome <;> rfl

end CompanionBuild
