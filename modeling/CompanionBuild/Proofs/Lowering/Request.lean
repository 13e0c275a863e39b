import CompanionBuild.Proofs.Lowering.Candidate
import Mathlib.Data.List.Induction

/-! # The requests of a unit

As long as no two nodes share a place, every node to be lowered gets a request of its own, under a name of its own, and
every request belongs to one of them.
-/

namespace CompanionBuild.Lowering

namespace Requests

theorem get?_cons (place : Place) (request : Request) (rest : Requests) (other : Place) :
    get? ((place, request) :: rest) other = if place = other then some request else rest.get? other := by
  rw [get?, List.find?_cons]
  by_cases same : place = other <;> simp [same, get?]

theorem get?_put (requests : Requests) (place : Place) (request : Request) (other : Place) :
    (requests.put place request).get? other = if place = other then some request else requests.get? other := by
  induction requests with
  | nil => exact get?_cons place request [] other
  | cons entry rest ih =>
    obtain ⟨key, old⟩ := entry
    rw [put]
    split
    · exact get?_cons ..
    · split
      case isTrue same =>
        subst same
        rw [get?_cons, get?_cons]
        split <;> rfl
      case isFalse different =>
        rw [get?_cons, ih, get?_cons]
        split
        case isTrue found =>
          subst found
          rw [if_neg different]
        case isFalse => rfl

theorem length_put {requests : Requests} {place : Place} (absent : requests.get? place = none) (request : Request) :
    (requests.put place request).length = requests.length + 1 := by
  induction requests with
  | nil => rfl
  | cons entry rest ih =>
    obtain ⟨key, old⟩ := entry
    rw [get?_cons] at absent
    rw [put]
    split
    · rfl
    · split
      case isTrue same => rw [if_pos same.symm] at absent; cases absent
      case isFalse different =>
        rw [if_neg (Ne.symm different)] at absent
        rw [List.length_cons, ih absent, List.length_cons]

theorem get?_add (requests : Requests) (c : Candidate) (place : Place) : (requests.add c).get? place =
    if c.node.place = place then some ⟨symbol requests.length, c.node.kind, c.initializerOf⟩
    else requests.get? place :=
  get?_put ..

theorem length_add {requests : Requests} {c : Candidate} (absent : requests.get? c.node.place = none) :
    (requests.add c).length = requests.length + 1 :=
  length_put absent _

/-- Every candidate has a request of its own, with a name of its own, and nothing else has one. -/
structure Serves (requests : Requests) (candidates : List Candidate) : Prop where
  granted : ∀ c ∈ candidates, ∃ request, requests.get? c.node.place = some request ∧ request.kind = c.node.kind ∧
    request.initializerOf = c.initializerOf
  asked : ∀ place request, requests.get? place = some request → ∃ c ∈ candidates, c.node.place = place
  named : ∀ place request place' request', requests.get? place = some request →
    requests.get? place' = some request' → request.name = request'.name → place = place'

theorem Serves.get?_eq_none {requests : Requests} {candidates : List Candidate} {place : Place}
    (serves : requests.Serves candidates) (fresh : ∀ c ∈ candidates, c.node.place ≠ place) :
    requests.get? place = none := by
  cases found : requests.get? place with
  | none => rfl
  | some request =>
    obtain ⟨c, member, same⟩ := serves.asked place request found
    exact (fresh c member same).elim

theorem Serves.of_mem_iff {requests : Requests} {candidates others : List Candidate}
    (serves : requests.Serves candidates) (same : ∀ c, c ∈ others ↔ c ∈ candidates) : requests.Serves others where
  granted c member := serves.granted c ((same c).mp member)
  asked place request found := by
    obtain ⟨c, member, placed⟩ := serves.asked place request found
    exact ⟨c, (same c).mpr member, placed⟩
  named := serves.named

end Requests

theorem symbol_injective {i j : Nat} (same : symbol i = symbol j) : i = j := by
  rw [symbol, symbol, String.ofList_inj, List.cons.injEq, Nat.toList_repr, Nat.toList_repr] at same
  have digits := congrArg (Nat.ofDigitChars 10 · 0) same.2
  rwa [Nat.ofDigitChars_toDigits (by decide) (by decide), Nat.ofDigitChars_toDigits (by decide) (by decide)] at digits

/-- The names given so far are numbered below the number of requests. -/
def Requests.Numbered (requests : Requests) : Prop :=
  ∀ place request, requests.get? place = some request → ∃ i < requests.length, request.name = symbol i

/-- One more candidate at a place of its own is served as well. -/
theorem Requests.Serves.add {requests : Requests} {candidates : List Candidate} {c : Candidate}
    (serves : requests.Serves candidates) (numbered : requests.Numbered)
    (fresh : ∀ other ∈ candidates, other.node.place ≠ c.node.place) :
    (requests.add c).Serves (candidates ++ [c]) ∧ (requests.add c).Numbered := by
  have length : (requests.add c).length = requests.length + 1 := length_add (serves.get?_eq_none fresh)
  have new {place : Place} {request : Request} (found : (requests.add c).get? place = some request) :
      c.node.place = place ∧ request.name = symbol requests.length ∨
        c.node.place ≠ place ∧ requests.get? place = some request := by
    rw [get?_add] at found
    split at found
    case isTrue same =>
      cases found
      exact .inl ⟨same, rfl⟩
    case isFalse different => exact .inr ⟨different, found⟩
  -- The new name is the number of requests, and all earlier ones are smaller.
  have clash {place : Place} {request : Request} (found : requests.get? place = some request)
      (same : request.name = symbol requests.length) : False := by
    obtain ⟨i, below, name⟩ := numbered place request found
    have equal := symbol_injective (name.symm.trans same)
    omega
  refine ⟨⟨fun other member => ?_, fun place request found => ?_, ?_⟩, fun place request found => ?_⟩
  · obtain member | member := List.mem_append.mp member
    · rw [get?_add, if_neg (fresh other member).symm]
      exact serves.granted other member
    · obtain rfl := List.mem_singleton.mp member
      rw [get?_add, if_pos rfl]
      exact ⟨_, rfl, rfl, rfl⟩
  · obtain ⟨placed, -⟩ | ⟨-, found⟩ := new found
    · exact ⟨c, List.mem_append_right _ (List.mem_singleton_self c), placed⟩
    · obtain ⟨other, member, placed⟩ := serves.asked place request found
      exact ⟨other, List.mem_append_left _ member, placed⟩
  · intro place request place' request' found found' same
    obtain ⟨placed, name⟩ | ⟨-, found⟩ := new found <;> obtain ⟨placed', name'⟩ | ⟨-, found'⟩ := new found'
    · exact placed.symm.trans placed'
    · exact (clash found' (same.symm.trans name)).elim
    · exact (clash found (same.trans name')).elim
    · exact serves.named place request place' request' found found' same
  · rw [length]
    obtain ⟨-, name⟩ | ⟨-, found⟩ := new found
    · exact ⟨requests.length, Nat.lt_succ_self _, name⟩
    · obtain ⟨i, below, name⟩ := numbered place request found
      exact ⟨i, Nat.lt_succ_of_lt below, name⟩

theorem Requests.Serves.foldl_add {requests : Requests} {candidates others : List Candidate}
    (serves : requests.Serves candidates) (numbered : requests.Numbered)
    (distinct : ((candidates ++ others).map (·.node.place)).Nodup) :
    (others.foldl Requests.add requests).Serves (candidates ++ others) := by
  induction others generalizing requests candidates with
  | nil => rwa [List.append_nil]
  | cons c rest ih =>
    have split : candidates ++ c :: rest = candidates ++ [c] ++ rest := by rw [List.append_assoc]; rfl
    have fresh : ∀ other ∈ candidates, other.node.place ≠ c.node.place := by
      intro other member same
      rw [List.map_append, List.nodup_append] at distinct
      exact distinct.2.2 _ (List.mem_map_of_mem member) _ (List.mem_map_of_mem (List.mem_cons_self ..)) same
    obtain ⟨servesMore, numberedMore⟩ := serves.add numbered fresh
    rw [split] at distinct ⊢
    exact ih servesMore numberedMore distinct

/-- Candidates at different places are all served. -/
theorem serves_foldl_add {candidates : List Candidate} (distinct : (candidates.map (·.node.place)).Nodup) :
    (candidates.foldl Requests.add []).Serves candidates := by
  have nothing : Requests.Serves [] [] := by
    refine ⟨fun c member => ?_, fun place request found => ?_, fun place request place' request' found => ?_⟩
    · cases member
    · cases found
    · cases found
  have unnumbered : Requests.Numbered [] := by
    intro place request found
    cases found
  exact nothing.foldl_add unnumbered distinct

/-- Candidates at different places are numbered in their order. -/
theorem get?_foldl_add {candidates : List Candidate} (distinct : (candidates.map (·.node.place)).Nodup) :
    (candidates.foldl Requests.add []).length = candidates.length ∧
      ∀ (i : Nat) (c : Candidate), candidates[i]? = some c →
        (candidates.foldl Requests.add []).get? c.node.place = some ⟨symbol i, c.node.kind, c.initializerOf⟩ := by
  induction candidates using List.reverseRecOn with
  | nil => exact ⟨rfl, fun i c found => by cases found⟩
  | append_singleton others last ih =>
    rw [List.map_append, List.nodup_append] at distinct
    obtain ⟨before, -, apart⟩ := distinct
    obtain ⟨length, numbered⟩ := ih before
    have fresh : ∀ other ∈ others, other.node.place ≠ last.node.place := fun other member =>
      apart _ (List.mem_map_of_mem member) _ (List.mem_singleton_self _)
    rw [List.foldl_append, List.foldl_cons, List.foldl_nil]
    refine ⟨?_, fun i c found => ?_⟩
    · rw [Requests.length_add ((serves_foldl_add before).get?_eq_none fresh), length, List.length_append,
        List.length_singleton]
    · rw [Requests.get?_add]
      obtain below | above := Nat.lt_or_ge i others.length
      · rw [List.getElem?_append_left below] at found
        rw [if_neg (fresh c (List.mem_of_getElem? found)).symm]
        exact numbered i c found
      · rw [List.getElem?_append_right above, List.getElem?_singleton] at found
        split at found
        case isTrue first =>
          obtain rfl := Option.some.inj found
          obtain rfl : i = others.length := by omega
          rw [if_pos rfl, length]
        case isFalse => cases found

end CompanionBuild.Lowering
