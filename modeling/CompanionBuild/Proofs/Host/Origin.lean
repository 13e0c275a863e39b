import CompanionBuild.Proofs.Diagnostic.Relocation
import CompanionBuild.Proofs.Host.Survey
import CompanionBuild.Proofs.Host.Source
import CompanionBuild.Proofs.Related
import CompanionBuild.Proofs.Tree.Place

/-! # Where generated code came from

A place in the text of a companion leads back to the innermost node that starts there, and so to the span of a template
that the node was made from. A diagnostic about the generated code is moved there.
-/

namespace CompanionBuild

/-! ## The mark at a place -/

namespace Origins

theorem mem_of_foldl_further {marks : List Mark} {mark : Mark} (found : marks.foldl further none = some mark) :
    mark ∈ marks := by
  induction marks using List.reverseRecOn generalizing mark with
  | nil => cases found
  | append_singleton marks next ih =>
    rw [List.foldl_append, List.foldl_cons, List.foldl_nil] at found
    rw [List.mem_append, List.mem_singleton]
    cases before : marks.foldl further none with
    | none =>
      rw [before] at found
      cases found
      exact .inr rfl
    | some best =>
      rw [before, further] at found
      split at found
      · cases found
        exact .inr rfl
      · cases found
        exact .inl (ih before)

/-- If some mark is as far right as can be, the last of those counts. -/
theorem foldl_further {marks : List Mark} {mark : Mark} (column : Nat) (bound : ∀ mark ∈ marks, mark.column ≤ column)
    (last : (marks.filter fun mark => mark.column = column).getLast? = some mark) :
    marks.foldl further none = some mark := by
  induction marks using List.reverseRecOn generalizing mark with
  | nil => cases last
  | append_singleton marks next ih =>
    have earlier : ∀ mark ∈ marks, mark.column ≤ column := fun mark member => bound mark (List.mem_append_left _ member)
    rw [List.filter_append] at last
    rw [List.foldl_append, List.foldl_cons, List.foldl_nil]
    by_cases here : next.column = column
    · rw [List.filter_cons_of_pos (by simpa using here), List.filter_nil, List.getLast?_concat] at last
      cases last
      cases before : marks.foldl further none with
      | none => rfl
      | some best => rw [further, if_pos (here ▸ earlier best (mem_of_foldl_further before))]
    · rw [List.filter_cons_of_neg (by simpa using here), List.filter_nil, List.append_nil] at last
      have there : mark.column = column := by simpa using List.of_mem_filter (List.mem_of_getLast? last)
      have short := bound next (List.mem_append_right _ (List.mem_singleton_self next))
      rw [ih earlier last, further, if_neg (by omega)]

/-- The last of the marks at a place is found there. -/
theorem markAt?_of_last {origins : Origins} {line column : Nat} {mark : Mark}
    (last : (origins.marks.filter fun mark => mark.line = line && mark.column = column).getLast? = some mark) :
    origins.markAt? line column = some mark := by
  refine foldl_further column (fun mark member => ?_) (Eq.trans ?_ last)
  · have kept := List.of_mem_filter member
    simp only [Bool.and_eq_true, decide_eq_true_eq] at kept
    exact kept.2
  · rw [List.filter_filter]
    congr 2
    funext mark
    by_cases here : mark.column = column <;> simp [here]

end Origins

/-! ## The innermost node at an offset -/

/-- The last of the visible nodes that start at an offset of the printed text. -/
def Items.lastAt? (items : Items) (offset : Nat) : Option Node :=
  ((items.placements.filter Placement.isVisible).filter fun placement => placement.offset = offset).getLast?.map (·.node)

namespace Placement.IsMarkedBy

variable {handle : String → String} {text : String} {marks : List Mark} {placements : List Placement}

/-- Texts that start at the same place start at the same offset. -/
theorem place_iff {mark other : Mark} {placement there : Placement} (marked : placement.IsMarkedBy handle text mark)
    (markedThere : there.IsMarkedBy handle text other) :
    mark.line = other.line ∧ mark.column = other.column ↔ placement.offset = there.offset := by
  obtain ⟨page, -, offset, head, -⟩ := marked.stands
  obtain ⟨page', -, offset', head', -⟩ := markedThere.stands
  have place := (Text.lineColumn_of_start head).symm.trans (offset ▸ marked.place)
  have place' := (Text.lineColumn_of_start head').symm.trans (offset' ▸ markedThere.place)
  rw [Except.ok.injEq] at place place'
  constructor
  · rintro ⟨line, column⟩
    have same : page.head = page'.head :=
      Text.prefix_eq_of_after_eq head head' (by rw [place, place', line, column])
    rw [← offset, ← offset', Page.offset, Page.offset, same]
  · intro same
    have places := marked.place.symm.trans (same ▸ markedThere.place)
    rw [Except.ok.injEq, Text.LineColumn.mk.injEq] at places
    exact places

/-- The last mark is that of the last node. -/
theorem getLast?_marks (marked : List.Forall₂ (IsMarkedBy handle text) marks placements) {last : Placement}
    (found : placements.getLast? = some last) : ∃ mark, marks.getLast? = some mark ∧ last.IsMarkedBy handle text mark := by
  induction marked with
  | nil => cases found
  | cons first rest ih =>
    cases rest with
    | nil =>
      cases found
      exact ⟨_, rfl, first⟩
    | cons second rest =>
      rw [List.getLast?_cons_cons] at found ⊢
      exact ih found

/-- The last mark at a place is that of the last node there. -/
theorem lastAt_marks (marked : List.Forall₂ (IsMarkedBy handle text) marks placements) {mark : Mark}
    {placement last : Placement} (here : placement.IsMarkedBy handle text mark)
    (found : (placements.filter fun other => other.offset = placement.offset).getLast? = some last) :
    ∃ top, (marks.filter fun other => other.line = mark.line && other.column = mark.column).getLast? = some top ∧
      last.IsMarkedBy handle text top := by
  refine getLast?_marks (List.rel_filter (fun other there markedThere => ?_) marked) found
  beta_reduce
  rw [Bool.and_eq_true, decide_eq_true_eq, decide_eq_true_eq, decide_eq_true_eq]
  exact markedThere.place_iff here

end Placement.IsMarkedBy

/-- At the place of a visible node the mark of the innermost node is found. -/
theorem Items.markAt?_place {items : Items} {placement : Placement} (member : placement ∈ items.placements)
    (visible : placement.isVisible = true) (sources : List NamedText) :
    placement.StandsIn items.handle (print items).text ∧
      ∃ place last mark, Text.lineColumn (print items).text placement.offset = .ok place ∧
        items.lastAt? placement.offset = some last ∧ mark.span = last.span ∧
        Origins.markAt? ⟨(print items).marks, sources⟩ place.line place.column = some mark := by
  have seen : placement ∈ items.placements.filter Placement.isVisible := List.mem_filter.mpr ⟨member, visible⟩
  obtain ⟨mark, -, here⟩ := exists_of_mem_right items.marks_print seen
  have there : placement ∈ (items.placements.filter Placement.isVisible).filter
    fun other => other.offset = placement.offset := List.mem_filter.mpr ⟨seen, decide_eq_true rfl⟩
  cases found : ((items.placements.filter Placement.isVisible).filter
      fun other => other.offset = placement.offset).getLast? with
  | none =>
    rw [List.getLast?_eq_none_iff.mp found] at there
    cases there
  | some last =>
    obtain ⟨top, marked, innermost⟩ := Placement.IsMarkedBy.lastAt_marks items.marks_print here found
    refine ⟨here.stands, _, last.node, top, here.place, ?_, innermost.span, Origins.markAt?_of_last marked⟩
    rw [lastAt?, found, Option.map_some]

/-! ## Diagnostics -/

theorem relocate_append {find : SpanFinder} {first second : List Diagnostic} {a b : Relocated}
    (relocated : relocate find first = .ok a) (relocatedToo : relocate find second = .ok b) :
    relocate find (first ++ second) = .ok ⟨a.kept ++ b.kept, a.moved ++ b.moved⟩ := by
  induction first generalizing a with
  | nil =>
    cases relocated
    exact relocatedToo
  | cons diagnostic rest ih =>
    rw [List.cons_append, relocate]
    rw [relocate] at relocated
    cases said : diagnostic.verdict find with
    | error split =>
      rw [said] at relocated
      cases relocated
    | ok verdict =>
      rw [said] at relocated
      cases others : relocate find rest with
      | error split =>
        rw [others] at relocated
        cases relocated
      | ok c =>
        rw [others] at relocated
        rw [ih others]
        cases verdict <;> cases relocated <;> rfl

/-- An offset of a companion leads to a span: the span is found at the place of the offset, and a diagnostic there is moved
onto it wherever it stands in a list. -/
structure LeadsTo (find : SpanFinder) (file : NamedText) (offset : Nat) (span : TemplateSpan) : Prop where
  found : ∃ place, Text.lineColumn file.text offset = .ok place ∧
    find file.name place.line place.column = .ok (some span)
  moved : 1 ≤ offset → ∀ diagnostic : Diagnostic, diagnostic.file = some file → diagnostic.start = some offset →
    diagnostic.code ≠ unusedDeclarationCode → ∀ {before after : List Diagnostic} {a b : Relocated},
    relocate find before = .ok a → relocate find after = .ok b →
      relocate find (before ++ diagnostic :: after) =
        .ok ⟨a.kept ++ b.kept, a.moved ++ diagnostic.onto span :: b.moved⟩

theorem Diagnostic.verdict_eq_move {find : SpanFinder} {diagnostic : Diagnostic} {file : NamedText} {offset : Nat}
    {place : Text.LineColumn} {span : TemplateSpan} (companion : Path.isCompanion file.name = true)
    (inFile : diagnostic.file = some file) (start : diagnostic.start = some offset) (inside : 1 ≤ offset)
    (used : diagnostic.code ≠ unusedDeclarationCode) (placed : Text.lineColumn file.text offset = .ok place)
    (found : find file.name place.line place.column = .ok (some span)) :
    diagnostic.verdict find = .ok (.move (diagnostic.onto span)) := by
  obtain ⟨before, rfl⟩ := Nat.exists_eq_add_of_le' inside
  have points : diagnostic.companionPlace? = some (file, before + 1) := by
    rw [companionPlace?, inFile, start]
    exact if_pos companion
  exact verdict_of_found points used placed found

theorem LeadsTo.of_found {find : SpanFinder} {file : NamedText} {offset : Nat} {place : Text.LineColumn}
    {span : TemplateSpan} (companion : Path.isCompanion file.name = true)
    (placed : Text.lineColumn file.text offset = .ok place)
    (found : find file.name place.line place.column = .ok (some span)) : LeadsTo find file offset span where
  found := ⟨place, placed, found⟩
  moved inside diagnostic inFile start used before after a b relocated relocatedToo := by
    have own := diagnostic.verdict_eq_move companion inFile start inside used placed found
    refine relocate_append relocated (b := ⟨b.kept, diagnostic.onto span :: b.moved⟩) ?_
    rw [relocate, own, relocatedToo]
    rfl

theorem TemplateSpan.of_boundary {source : NamedText} {start stop : Nat} (starts : Text.IsBoundary source.text start)
    (stops : Text.IsBoundary source.text stop) : ∃ span, TemplateSpan.of source start stop = .ok span := by
  obtain ⟨first, placed⟩ := Text.lineColumn_of_boundary starts
  obtain ⟨last, placedToo⟩ := Text.lineColumn_of_boundary stops
  refine ⟨⟨⟨source, start, first⟩, ⟨source, stop, last⟩⟩, ?_⟩
  rw [TemplateSpan.of, TemplateLocation.of, TemplateLocation.of, placed, placedToo]
  rfl

/-! ## Companions that are taken in -/

variable {ω : Type} {host : Host ω} {companion : Companion} {items : Items}

/-- The text of a companion leads back to its templates. Where the text of a visible node starts, the span of the innermost
visible node that starts there is found, if its file is one of the sources and it does not cut a character of it. -/
theorem Host.addCompanion_leadsTo (kept : ∀ text world, ((host.parse companion.name text).run world).1.text = text)
    (named : Path.isCompanion companion.name = true) (stated : companion.statements = some items) (references : Names)
    (situation : Situation ω) :
    ∃ u next, (host.addCompanion companion references).run.run situation = (.ok u, next) ∧
      items.placements.map (·.node) = items.nodes ∧
      ∀ placement ∈ items.placements, placement.isVisible = true →
        placement.StandsIn items.handle u.text ∧
        ∃ last, items.lastAt? placement.offset = some last ∧
          ∀ id source, last.span.file = some id → companion.origins[id]? = some source →
            Text.IsBoundary source.text last.span.start → Text.IsBoundary source.text last.span.stop →
            ∃ span, TemplateSpan.of source last.span.start last.span.stop = .ok span ∧
              ∀ caches : Caches,
                caches.companions.get? companion.name = next.caches.companions.get? companion.name →
                LeadsTo (Host.spanAt caches) ⟨companion.name, u.text⟩ placement.offset span := by
  rcases ran : (host.addCompanion companion references).run.run situation with ⟨outcome, next⟩
  obtain ⟨missing, -⟩ | ⟨stored, world, renders, -, rfl, rfl⟩ := addCompanion_cases ran
  · rw [stated] at missing
    cases missing
  obtain ⟨printed, read, moduleName, statedToo, made, origins⟩ := renders.unit
  obtain rfl : items = printed := Option.some.inj (stated.symm.trans statedToo)
  have text : stored.unit.text = (Items.print items).text := by
    rw [made]
    exact kept _ _
  refine ⟨stored.unit, _, rfl, items.map_node_placements, fun placement member visible => ?_⟩
  obtain ⟨stands, place, last, mark, placed, innermost, span, found⟩ :=
    Items.markAt?_place member visible companion.origins
  rw [text]
  refine ⟨stands, last, innermost, fun id source inFile listed starts stops => ?_⟩
  obtain ⟨template, located⟩ := TemplateSpan.of_boundary starts stops
  refine ⟨template, located, fun caches same => .of_found named placed ?_⟩
  rw [Table.get?_put_self] at same
  rw [Host.spanAt, same]
  dsimp only
  rw [Origins.spanAt, origins, found]
  dsimp only
  rw [span, inFile, Option.bind_some, listed]
  dsimp only
  rw [located]
  rfl

/-- A function in whose body a statement, the call in it and the name that is called start at the same offset. -/
def greetingItems : Items :=
  [.synthetic (.decl (.function ⟨"f", [], none, some [⟨⟨0, 9, some 0⟩,
    .expr (.call ⟨3, 9, some 0⟩ (.ident ⟨3, 5, some 0⟩ "é") [.literal ⟨6, 8, some 0⟩ (.string "ü")])⟩], false⟩))]

def greeting : Companion where
  base := "/a.html"
  name := "/a.axfactory.ts"
  statements := some greetingItems
  origins := [⟨"/a.html", "<p>é(ü)"⟩]

/-- The statement leads to the name that is called. -/
theorem greeting_leadsTo : ∃ u next,
    ((Disk.ofFiles []).host.addCompanion greeting []).run.run ⟨(), .ofSummaries []⟩ = (.ok u, next) ∧
      u.text = "function f() \x7b\n    é(\"ü\");\n\x7d\n" ∧
      LeadsTo (Host.spanAt next.caches) ⟨"/a.axfactory.ts", u.text⟩ 19
        ⟨⟨⟨"/a.html", "<p>é(ü)"⟩, 3, ⟨0, 3⟩⟩, ⟨⟨"/a.html", "<p>é(ü)"⟩, 5, ⟨0, 5⟩⟩⟩ := by
  obtain ⟨u, next, ran, -, leads⟩ := @Host.addCompanion_leadsTo Unit (Disk.ofFiles []).host greeting greetingItems
    (fun _ _ => rfl) (by decide +kernel) rfl [] ⟨(), .ofSummaries []⟩
  have member : _ ∈ greetingItems.placements := List.mem_of_getElem? (i := 1) rfl
  obtain ⟨-, last, innermost, leads⟩ := leads _ member rfl
  obtain rfl : Node.expr (.ident ⟨3, 5, some 0⟩ "é") = last := Option.some.inj (Eq.trans rfl innermost)
  obtain ⟨span, located, leads⟩ := leads 0 _ rfl rfl (.inr ⟨"<p>".toList, by decide, by decide⟩)
    (.inr ⟨"<p>é".toList, by decide, by decide⟩)
  cases located
  refine ⟨u, next, ran, ?_, leads next.caches rfl⟩
  cases ran
  rfl

end CompanionBuild
