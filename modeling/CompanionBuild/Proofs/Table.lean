import CompanionBuild.Names

/-! # Looking up what was bound

The last binding of a name counts, whatever the table holds besides. A table that was put together by bindings is in the
order of its names, so it is known by what is found in it.
-/

namespace CompanionBuild.Table

variable {α β : Type}

theorem get?_put (table : Table α) (name : String) (value : α) (other : String) :
    (table.put name value).get? other = if name = other then some value else table.get? other := by
  induction table with
  | nil => rfl
  | cons entry rest ih =>
    obtain ⟨key, old⟩ := entry
    rw [put]
    split
    · rfl
    · split
      case isTrue same =>
        subst same
        rw [get?, get?]
        split <;> rfl
      case isFalse different =>
        rw [get?, ih, get?]
        split
        case isTrue found =>
          subst found
          rw [if_neg different]
        case isFalse => rfl

theorem get?_put_self (table : Table α) (name : String) (value : α) : (table.put name value).get? name = some value := by
  rw [get?_put, if_pos rfl]

theorem has_of_get?_eq_some {table : Table α} {name : String} {value : α} (found : table.get? name = some value) :
    table.has name = true := by
  rw [has, found, Option.isSome_some]

theorem has_of_get?_eq_none {table : Table α} {name : String} (unknown : table.get? name = none) :
    table.has name = false := by
  rw [has, unknown, Option.isSome_none]

theorem has_put (table : Table α) (name : String) (value : α) (other : String) :
    (table.put name value).has other = (name = other || table.has other) := by
  rw [has, get?_put, has]
  by_cases same : name = other
  · simp [same]
  · simp [same]

/-- Whatever is found in a table is found in another, which may hold more. -/
def Grows (table other : Table α) : Prop :=
  ∀ name value, table.get? name = some value → other.get? name = some value

theorem Grows.refl (table : Table α) : table.Grows table :=
  fun _ _ => id

theorem Grows.trans {table middle other : Table α} (first : table.Grows middle) (second : middle.Grows other) :
    table.Grows other :=
  fun name value => second name value ∘ first name value

/-- A name that was not found at first may be bound at last. -/
theorem Grows.put {table other : Table α} (grows : table.Grows other) {name : String} (fresh : table.get? name = none)
    (value : α) : table.Grows (other.put name value) := by
  intro key found kept
  have different : name ≠ key := by
    rintro rfl
    rw [fresh] at kept
    cases kept
  rw [get?_put, if_neg different]
  exact grows key found kept

variable {name : β → String} {value : β → α}

/-- A value found after some bindings is bound by one of them, or was there before and none of them is of its name. -/
theorem get?_foldl_put {list : List β} {table : Table α} {key : String} {found : α}
    (lookup : (list.foldl (fun table b => table.put (name b) (value b)) table).get? key = some found) :
    (∃ b ∈ list, name b = key ∧ value b = found) ∨ (table.get? key = some found ∧ ∀ b ∈ list, name b ≠ key) := by
  induction list generalizing table with
  | nil => exact .inr ⟨lookup, nofun⟩
  | cons b rest ih =>
    obtain ⟨later, member, named, bound⟩ | ⟨before, others⟩ := ih lookup
    · exact .inl ⟨later, List.mem_cons_of_mem _ member, named, bound⟩
    · rw [get?_put] at before
      split at before
      case isTrue named =>
        cases before
        exact .inl ⟨b, List.mem_cons_self .., named, rfl⟩
      case isFalse different =>
        refine .inr ⟨before, fun other member => ?_⟩
        obtain rfl | member := List.mem_cons.mp member
        · exact different
        · exact others other member

/-- Names that are not bound keep their values. -/
theorem get?_foldl_put_of_forall_ne {list : List β} {table : Table α} {key : String} (other : ∀ b ∈ list, name b ≠ key) :
    (list.foldl (fun table b => table.put (name b) (value b)) table).get? key = table.get? key := by
  induction list generalizing table with
  | nil => rfl
  | cons b rest ih =>
    calc (rest.foldl (fun table b => table.put (name b) (value b)) (table.put (name b) (value b))).get? key
        = (table.put (name b) (value b)).get? key := ih fun b member => other b (List.mem_cons_of_mem _ member)
      _ = table.get? key := by rw [get?_put, if_neg (other b (List.mem_cons_self ..))]

/-- A name that is bound at all has the value of one of its bindings. -/
theorem get?_foldl_put_of_exists {list : List β} {table : Table α} {key : String} (bound : ∃ b ∈ list, name b = key) :
    ∃ b ∈ list, name b = key ∧
      (list.foldl (fun table b => table.put (name b) (value b)) table).get? key = some (value b) := by
  induction list generalizing table with
  | nil =>
    obtain ⟨b, member, -⟩ := bound
    cases member
  | cons first rest ih =>
    by_cases later : ∃ b ∈ rest, name b = key
    · obtain ⟨b, member, named, found⟩ := ih later
      exact ⟨b, List.mem_cons_of_mem _ member, named, found⟩
    · have others : ∀ b ∈ rest, name b ≠ key := fun b member named => later ⟨b, member, named⟩
      obtain ⟨b, member, named⟩ := bound
      obtain rfl | member := List.mem_cons.mp member
      · refine ⟨b, List.mem_cons_self .., named, ?_⟩
        rw [List.foldl_cons, get?_foldl_put_of_forall_ne others, get?_put, if_pos named]
      · exact (others b member named).elim

theorem get?_remove (table : Table α) (name other : String) :
    (table.remove name).get? other = if name = other then none else table.get? other := by
  induction table with
  | nil =>
    rw [remove, List.filter_nil, get?]
    split <;> rfl
  | cons entry rest ih =>
    obtain ⟨key, value⟩ := entry
    rw [remove] at ih ⊢
    by_cases same : key = name
    · subst same
      rw [List.filter_cons_of_neg (by simp), ih, get?]
      split <;> rfl
    · rw [List.filter_cons_of_pos (by simp [same]), get?, get?, ih]
      by_cases found : key = other
      · rw [if_pos found, if_pos found, if_neg fun named => same (found.trans named.symm)]
      · rw [if_neg found, if_neg found]

/-! ## Order -/

/-- The names of the entries strictly increase. -/
def Ordered (table : Table α) : Prop :=
  table.Pairwise fun entry other => entry.1 < other.1

theorem get?_eq_none_of_lt {table : Table α} {name : String} (above : ∀ entry ∈ table, name < entry.1) :
    table.get? name = none := by
  induction table with
  | nil => rfl
  | cons entry rest ih =>
    have different : entry.1 ≠ name := fun same => String.lt_irrefl name (same ▸ above entry (List.mem_cons_self ..))
    rw [get?, if_neg different, ih fun other member => above other (List.mem_cons_of_mem _ member)]

/-- A name below the first is not bound. -/
theorem Ordered.get?_eq_none {entry : String × α} {rest : Table α} {name : String}
    (ordered : Ordered (entry :: rest)) (below : name < entry.1) : get? (entry :: rest) name = none := by
  refine get?_eq_none_of_lt fun other member => ?_
  obtain rfl | member := List.mem_cons.mp member
  · exact below
  · exact String.lt_trans below ((List.pairwise_cons.mp ordered).1 other member)

theorem mem_put {table : Table α} {name : String} {value : α} {entry : String × α}
    (member : entry ∈ table.put name value) : entry = (name, value) ∨ entry ∈ table := by
  induction table with
  | nil => exact .inl (List.mem_singleton.mp member)
  | cons first rest ih =>
    obtain ⟨key, old⟩ := first
    rw [put] at member
    split at member
    · exact List.mem_cons.mp member
    · split at member
      · obtain here | there := List.mem_cons.mp member
        · exact .inl here
        · exact .inr (List.mem_cons_of_mem _ there)
      · obtain here | there := List.mem_cons.mp member
        · exact .inr (here ▸ List.mem_cons_self ..)
        · exact (ih there).imp id (List.mem_cons_of_mem _)

theorem Ordered.put {table : Table α} (ordered : table.Ordered) (name : String) (value : α) :
    (table.put name value).Ordered := by
  induction table with
  | nil => exact List.pairwise_singleton ..
  | cons first rest ih =>
    obtain ⟨key, old⟩ := first
    obtain ⟨above, rest_ordered⟩ := List.pairwise_cons.mp ordered
    rw [Table.put]
    split
    case isTrue below =>
      refine List.pairwise_cons.mpr ⟨fun entry member => ?_, ordered⟩
      obtain rfl | member := List.mem_cons.mp member
      · exact below
      · exact String.lt_trans below (above entry member)
    case isFalse notBelow =>
      split
      case isTrue same =>
        subst same
        exact List.pairwise_cons.mpr ⟨above, rest_ordered⟩
      case isFalse different =>
        refine List.pairwise_cons.mpr ⟨fun entry member => ?_, ih rest_ordered⟩
        obtain rfl | member := mem_put member
        · exact Std.lt_of_le_of_ne (String.not_lt.mp notBelow) (Ne.symm different)
        · exact above entry member

theorem Ordered.remove {table : Table α} (ordered : table.Ordered) (name : String) : (table.remove name).Ordered :=
  List.Pairwise.filter _ ordered

theorem ordered_ofList (entries : List (String × α)) : (ofList entries).Ordered := by
  have all (table : Table α) (ordered : table.Ordered) :
      (entries.foldl (fun table entry => table.put entry.1 entry.2) table).Ordered := by
    induction entries generalizing table with
    | nil => exact ordered
    | cons entry rest ih => exact ih _ (ordered.put ..)
  exact all [] List.Pairwise.nil

/-- Tables in order with the same values are the same. -/
theorem Ordered.eq {table other : Table α} (ordered : table.Ordered) (ordered' : other.Ordered)
    (same : ∀ name, table.get? name = other.get? name) : table = other := by
  induction table generalizing other with
  | nil =>
    cases other with
    | nil => rfl
    | cons entry rest =>
      have found := same entry.1
      rw [get?, get?, if_pos rfl] at found
      cases found
  | cons entry rest ih =>
    obtain ⟨above, rest_ordered⟩ := List.pairwise_cons.mp ordered
    cases other with
    | nil =>
      have found := same entry.1
      rw [get?, get?, if_pos rfl] at found
      cases found
    | cons entry' rest' =>
      obtain ⟨above', rest_ordered'⟩ := List.pairwise_cons.mp ordered'
      -- The least name of one table is found in the other, so neither of the first names is below the other.
      have first : entry.1 = entry'.1 := by
        refine String.le_antisymm (String.not_lt.mp fun below => ?_) (String.not_lt.mp fun below => ?_)
        · have found := same entry'.1
          rw [ordered.get?_eq_none below, get?, if_pos rfl] at found
          cases found
        · have found := same entry.1
          rw [ordered'.get?_eq_none below, get?, if_pos rfl] at found
          cases found
      have value : entry.2 = entry'.2 := by
        have found := same entry.1
        rw [get?, if_pos rfl, get?, if_pos first.symm] at found
        exact Option.some.inj found
      have tail : rest = rest' := by
        refine ih rest_ordered rest_ordered' fun name => ?_
        have found := same name
        rw [get?, get?, ← first] at found
        by_cases here : entry.1 = name
        · subst here
          rw [get?_eq_none_of_lt above, get?_eq_none_of_lt (first ▸ above')]
        · rwa [if_neg here, if_neg here] at found
      rw [tail, Prod.ext first value]

/-! ## Tables of a list of entries -/

/-- The values that some entries give to a name, in their order. -/
def valuesAt (entries : List (String × α)) (name : String) : List α :=
  (entries.filter (·.1 = name)).map (·.2)

/-- The value that some entries give to a name; the last of several counts. -/
def valueAt (entries : List (String × α)) (name : String) : Option α :=
  (valuesAt entries name).getLast?

theorem valuesAt_cons (entry : String × α) (rest : List (String × α)) (name : String) :
    valuesAt (entry :: rest) name = if entry.1 = name then entry.2 :: valuesAt rest name else valuesAt rest name := by
  by_cases named : entry.1 = name
  · rw [if_pos named, valuesAt, List.filter_cons_of_pos (by simp [named])]
    rfl
  · rw [if_neg named, valuesAt, List.filter_cons_of_neg (by simp [named])]
    rfl

theorem valuesAt_append (entries others : List (String × α)) (name : String) :
    valuesAt (entries ++ others) name = valuesAt entries name ++ valuesAt others name := by
  rw [valuesAt, List.filter_append, List.map_append]
  rfl

theorem valuesAt_flatMap (list : List β) (f : β → List (String × α)) (name : String) :
    valuesAt (list.flatMap f) name = list.flatMap fun b => valuesAt (f b) name := by
  induction list with
  | nil => rfl
  | cons b rest ih => rw [List.flatMap_cons, valuesAt_append, ih, List.flatMap_cons]

theorem valuesAt_map (entries : List (String × α)) (f : α → β) (name : String) :
    valuesAt (entries.map fun entry => (entry.1, f entry.2)) name = (valuesAt entries name).map f := by
  simp only [valuesAt, List.filter_map, List.map_map]
  rfl

theorem valuesAt_eq_nil_iff {entries : List (String × α)} {name : String} :
    valuesAt entries name = [] ↔ name ∉ entries.map (·.1) := by
  rw [valuesAt, List.map_eq_nil_iff, List.filter_eq_nil_iff, List.mem_map]
  simp only [decide_eq_true_eq, not_exists, not_and]

theorem valuesAt_filter_ne (entries : List (String × α)) (removed name : String) :
    valuesAt (entries.filter (·.1 ≠ removed)) name = if removed = name then [] else valuesAt entries name := by
  by_cases same : removed = name
  · rw [if_pos same, valuesAt_eq_nil_iff]
    simp [same]
  · rw [if_neg same, valuesAt, valuesAt, List.filter_filter]
    congr 1
    refine List.filter_congr fun entry _ => ?_
    by_cases named : entry.1 = name
    · simp [named, Ne.symm same]
    · simp [named]

theorem valueAt_append (entries others : List (String × α)) (name : String) :
    valueAt (entries ++ others) name = (valueAt others name).or (valueAt entries name) := by
  rw [valueAt, valuesAt_append, List.getLast?_append]
  rfl

theorem valueAt_filter_ne (entries : List (String × α)) (removed name : String) :
    valueAt (entries.filter (·.1 ≠ removed)) name = if removed = name then none else valueAt entries name := by
  rw [valueAt, valuesAt_filter_ne]
  split <;> rfl

theorem valueAt_singleton (entry : String × α) (name : String) :
    valueAt [entry] name = if entry.1 = name then some entry.2 else none := by
  rw [valueAt, valuesAt_cons]
  split <;> rfl

theorem valueAt_map (entries : List (String × α)) (f : α → β) (name : String) :
    valueAt (entries.map fun entry => (entry.1, f entry.2)) name = (valueAt entries name).map f := by
  rw [valueAt, valuesAt_map, List.getLast?_map]
  rfl

theorem valueAt_eq_none_iff {entries : List (String × α)} {name : String} :
    valueAt entries name = none ↔ name ∉ entries.map (·.1) := by
  rw [valueAt, List.getLast?_eq_none_iff, valuesAt_eq_nil_iff]

/-- Of several bindings of a name the last counts. -/
theorem get?_ofList (entries : List (String × α)) (name : String) :
    (ofList entries).get? name = valueAt entries name := by
  have all (table : Table α) : (entries.foldl (fun table entry => table.put entry.1 entry.2) table).get? name =
      (valueAt entries name).or (table.get? name) := by
    induction entries generalizing table with
    | nil => rfl
    | cons entry rest ih =>
      rw [List.foldl_cons, ih, get?_put, ← List.singleton_append, valueAt_append, valueAt_singleton, Option.or_assoc]
      split <;> rfl
  rw [ofList, all, get?, Option.or_none]

/-- A table in order binds every name at most once. -/
theorem Ordered.valueAt_eq {table : Table α} (ordered : table.Ordered) (name : String) :
    valueAt table name = table.get? name := by
  induction table with
  | nil => rfl
  | cons entry rest ih =>
    obtain ⟨above, rest_ordered⟩ := List.pairwise_cons.mp ordered
    rw [valueAt, valuesAt_cons, get?]
    split
    case isTrue named =>
      have absent : valuesAt rest name = [] := by
        rw [valuesAt_eq_nil_iff, ← named]
        intro member
        obtain ⟨other, member, same⟩ := List.mem_map.mp member
        exact String.lt_irrefl entry.1 (same ▸ above other member)
      rw [absent]
      rfl
    case isFalse => exact ih rest_ordered

theorem valueAt_ofList (entries : List (String × α)) (name : String) :
    valueAt (ofList entries) name = valueAt entries name := by
  rw [(ordered_ofList entries).valueAt_eq, get?_ofList]

theorem mem_ofList {entries : List (String × α)} {entry : String × α} (member : entry ∈ ofList entries) :
    entry ∈ entries := by
  have all (list : List (String × α)) (table : Table α)
      (member : entry ∈ list.foldl (fun table entry => table.put entry.1 entry.2) table) :
      entry ∈ list ∨ entry ∈ table := by
    induction list generalizing table with
    | nil => exact .inr member
    | cons first rest ih =>
      obtain later | bound := ih _ member
      · exact .inl (List.mem_cons_of_mem _ later)
      · obtain rfl | before := mem_put bound
        · exact .inl (List.mem_cons_self ..)
        · exact .inr before
  exact (all entries [] member).resolve_right List.not_mem_nil

theorem ofList_append (entries others : List (String × α)) :
    ofList (entries ++ others) = others.foldl (fun table entry => table.put entry.1 entry.2) (ofList entries) :=
  List.foldl_append

theorem put_ofList (entries : List (String × α)) (name : String) (value : α) :
    (ofList entries).put name value = ofList (entries ++ [(name, value)]) := by
  rw [ofList_append]
  rfl

theorem remove_ofList (entries : List (String × α)) (name : String) :
    (ofList entries).remove name = ofList (entries.filter (·.1 ≠ name)) := by
  refine ((ordered_ofList entries).remove name).eq (ordered_ofList _) fun other => ?_
  rw [get?_remove, get?_ofList, get?_ofList, valueAt_filter_ne]

/-! ## Entries with distinct names -/

section Distinct

variable {entries : List (String × α)} (distinct : (entries.map (·.1)).Nodup)

include distinct

theorem valuesAt_of_distinct (name : String) : valuesAt entries name = (valueAt entries name).toList := by
  induction entries with
  | nil => rfl
  | cons entry rest ih =>
    obtain ⟨fresh, distinct⟩ := List.nodup_cons.mp distinct
    rw [valueAt, valuesAt_cons]
    split
    case isTrue named => rw [valuesAt_eq_nil_iff.mpr (named ▸ fresh)]; rfl
    case isFalse => exact ih distinct

theorem mem_iff_valueAt {entry : String × α} : entry ∈ entries ↔ valueAt entries entry.1 = some entry.2 := by
  have values : entry.2 ∈ valuesAt entries entry.1 ↔ entry ∈ entries := by
    simp [valuesAt]
  rw [← values, valuesAt_of_distinct distinct, Option.mem_toList]

/-- What the entries of two names contribute comes in the order in which the names stand. -/
theorem flatMap_of_two {f : String × α → List β} {first second : String} (different : first ≠ second)
    (only : ∀ entry : String × α, entry.1 ≠ first → entry.1 ≠ second → f entry = []) :
    entries.flatMap f =
      if [second, first].Sublist (entries.map (·.1)) then
        (valueAt entries second).toList.flatMap (fun value => f (second, value)) ++
          (valueAt entries first).toList.flatMap fun value => f (first, value)
      else
        (valueAt entries first).toList.flatMap (fun value => f (first, value)) ++
          (valueAt entries second).toList.flatMap fun value => f (second, value) := by
  simp only [← valuesAt_of_distinct distinct]
  induction entries with
  | nil => rfl
  | cons entry rest ih =>
    obtain ⟨name, value⟩ := entry
    obtain ⟨fresh, distinct⟩ := List.nodup_cons.mp distinct
    have absent := valuesAt_eq_nil_iff.mpr fresh
    rw [List.flatMap_cons, ih distinct, List.map_cons, valuesAt_cons, valuesAt_cons]
    by_cases isFirst : name = first
    · subst isFirst
      have apart (sub : [second, name].Sublist (rest.map (·.1))) : False := fresh (sub.mem (by simp))
      have apart' (sub : [second, name].Sublist (name :: rest.map (·.1))) : False :=
        apart ((List.sublist_cons_iff.mp sub).resolve_right (by simp [different.symm]))
      rw [if_neg apart, if_neg apart', if_pos rfl, if_neg different, absent]
      simp
    · by_cases isSecond : name = second
      · subst isSecond
        simp only [List.cons_sublist_cons, List.singleton_sublist, if_neg isFirst, if_pos, absent]
        by_cases member : first ∈ rest.map (·.1)
        · rw [if_pos member]
          split <;> simp
        · rw [if_neg member, valuesAt_eq_nil_iff.mpr member]
          split <;> simp
      · rw [if_neg isFirst, if_neg isSecond, only (name, value) isFirst isSecond, List.nil_append]
        have sub : [second, first].Sublist (name :: rest.map (·.1)) ↔ [second, first].Sublist (rest.map (·.1)) :=
          ⟨fun sub => (List.sublist_cons_iff.mp sub).resolve_right (by simp [Ne.symm isSecond]), .cons _⟩
        simp only [sub]

/-- What the entries of one name contribute. -/
theorem flatMap_of_one {f : String × α → List β} {name : String}
    (only : ∀ entry : String × α, entry.1 ≠ name → f entry = []) :
    entries.flatMap f = (valueAt entries name).toList.flatMap fun value => f (name, value) := by
  rw [← valuesAt_of_distinct distinct]
  clear distinct
  induction entries with
  | nil => rfl
  | cons entry rest ih =>
    rw [List.flatMap_cons, valuesAt_cons, ih]
    split
    case isTrue named => subst named; rfl
    case isFalse other => rw [only entry other, List.nil_append]

end Distinct

end CompanionBuild.Table
