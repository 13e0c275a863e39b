import CompanionBuild.Proofs.Related
import CompanionBuild.Proofs.Tree.Place

/-! # Positions in the text of a unit

The nodes of a unit are marked at the places where their texts start in the finished text, below its header. A later node
never starts before an earlier one: what is drawn stays on the page, and where a mark waits for its margin the pen writes
it before anything else happens. So the places of the marks do not go back.
-/

namespace CompanionBuild

/-- The first mark has the same place as the second or one before it. -/
def Mark.UpTo (mark later : Mark) : Prop :=
  mark.line < later.line ∨ mark.line = later.line ∧ mark.column ≤ later.column

/-! ## The order of offsets -/

namespace Page

variable {page : Page} {strokes : List Stroke}

@[simp] theorem offset_stroke_mark (page : Page) (span : Span) : (page.stroke (.mark span)).offset = page.offset := by
  rw [offset, head_stroke_mark, offset]

/-- A mark starts at or after the end of what is on the page. -/
theorem byteLength_text_le_offsets {offset : Nat} (made : offset ∈ page.offsets strokes) :
    Text.byteLength page.text.toList ≤ offset := by
  induction strokes generalizing page with
  | nil => cases made
  | cons stroke rest ih =>
    have kept : page.text.toList <+: (page.stroke stroke).text.toList := page.text_prefix_draw [stroke]
    have later (made : offset ∈ (page.stroke stroke).offsets rest) : Text.byteLength page.text.toList ≤ offset :=
      (Text.byteLength_le kept).trans (ih made)
    rw [offsets] at made
    split at made
    · obtain rfl | made := List.mem_cons.mp made
      · exact Text.byteLength_le (List.prefix_append ..)
      · exact later made
    · exact later made

/-- Where the pen stands inside a line or writes next, a mark starts at or after the text that is written next. -/
theorem offset_le_offsets (anchored : page.here.column ≠ 0 ∨ Stroke.writesNext strokes = true) {offset : Nat}
    (made : offset ∈ page.offsets strokes) : page.offset ≤ offset := by
  obtain inside | writes := anchored
  · have bare : page.head = page.text.toList := by rw [head, margin, if_neg inside, List.append_nil]
    rw [Page.offset, bare]
    exact byteLength_text_le_offsets made
  · induction strokes generalizing page with
    | nil => cases writes
    | cons stroke rest ih =>
      cases stroke with
      | mark span =>
        obtain rfl | made := List.mem_cons.mp made
        · exact Nat.le_refl _
        · exact page.offset_stroke_mark span ▸ ih made writes
      | write text =>
        have made : offset ∈ (page.stroke (.write text)).offsets rest := made
        rw [Stroke.writesNext_write, Bool.or_eq_true, decide_eq_true_eq] at writes
        by_cases visible : text = ""
        · rw [Page.stroke, if_pos visible] at made
          exact ih made (writes.resolve_left (not_not_intro visible))
        · have alone : Stroke.writesNext [.write text] = true := by simp [Stroke.writesNext, visible]
          have written : page.head <+: (page.draw [.write text]).text.toList := page.head_prefix_draw (.inr alone)
          exact (Text.byteLength_le written).trans (byteLength_text_le_offsets made)
      | _ => cases writes

end Page

namespace Marked

variable {handle : String → String} {page : Page} {nodes : List Node} {strokes : List Stroke}

/-- Every node starts at or after the nodes before it. -/
theorem pairwise_offsets (marked : Marked handle page nodes strokes) : (page.offsets strokes).Pairwise (· ≤ ·) := by
  induction marked with
  | done => exact .nil
  | @node page node nodes rest printed anchored later ih =>
    refine .cons (fun offset made => ?_) ih
    rw [← page.offset_stroke_mark node.span]
    apply Page.offset_le_offsets _ made
    rw [Page.here_stroke_mark]
    exact anchored
  | plain unmarked later ih =>
    rwa [Page.offsets, if_neg (by simp [unmarked])]

theorem map_offset_placements (marked : Marked handle page nodes strokes) :
    (page.placements nodes strokes).map (·.offset) = page.offsets strokes := by
  induction marked with
  | done => rfl
  | node printed anchored later ih => exact congrArg _ ih
  | plain unmarked later ih => rwa [placements_plain unmarked, Page.offsets, if_neg (by simp [unmarked])]

theorem pairwise_placements (marked : Marked handle page nodes strokes) :
    (page.placements nodes strokes).Pairwise (·.offset ≤ ·.offset) := by
  have ordered := marked.pairwise_offsets
  rwa [← marked.map_offset_placements, List.pairwise_map] at ordered

end Marked

/-- Marks of nodes in the order of their offsets do not go back. -/
theorem Placement.IsMarkedBy.pairwise_marks {handle : String → String} {text : String} {marks : List Mark}
    {placements : List Placement} (placed : List.Forall₂ (IsMarkedBy handle text) marks placements)
    (ordered : placements.Pairwise (·.offset ≤ ·.offset)) : marks.Pairwise Mark.UpTo := by
  induction placed with
  | nil => exact .nil
  | @cons mark placement marks placements here rest ih =>
    obtain ⟨first, ordered⟩ := List.pairwise_cons.mp ordered
    refine .cons (fun other member => ?_) (ih ordered)
    obtain ⟨there, among, marked⟩ := exists_of_mem_right rest.flip member
    obtain same | before := Text.lineColumn_mono here.place marked.place (first there among)
    · obtain ⟨line, column⟩ := Text.LineColumn.mk.inj same
      exact .inr ⟨line, column.le⟩
    · exact before.imp_right fun ⟨line, column⟩ => ⟨line, column.le⟩

/-! ## What is drawn before a node -/

/-- The strokes before each mark. -/
def Stroke.beforeMarks : List Stroke → List (List Stroke)
  | [] => []
  | stroke :: rest => (if stroke.isMark then [[]] else []) ++ (beforeMarks rest).map (stroke :: ·)

theorem Page.offsets_eq_map (page : Page) (strokes : List Stroke) :
    page.offsets strokes = (Stroke.beforeMarks strokes).map fun before => (page.draw before).offset := by
  induction strokes generalizing page with
  | nil => rfl
  | cons stroke rest ih =>
    rw [offsets, Stroke.beforeMarks, List.map_append, List.map_map, ih (page.stroke stroke)]
    split <;> rfl

/-- A node together with everything that is drawn before it. -/
structure Drawing where
  before : List Stroke
  node : Node

namespace Drawing

/-- The page on which the node is drawn next. -/
def page (drawing : Drawing) : Page :=
  ({} : Page).draw drawing.before

/-- The placement of the node: its text starts after what is on the page and after the margin. -/
def placement (drawing : Drawing) : Placement :=
  ⟨drawing.node, drawing.page.offset⟩

/-- Of some strokes, those of the node come next, and in the text that they make the node stands after its margin. -/
structure IsPartOf (drawing : Drawing) (handle : String → String) (strokes : List Stroke) : Prop where
  next : drawing.before ++ drawing.node.strokes handle <+: strokes
  head : drawing.page.head <+: (Printed.ofStrokes strokes).text.toList

/-- The mark of a node has its span and the place of its offset in the text. -/
structure IsMarkedBy (text : String) (mark : Mark) (drawing : Drawing) : Prop where
  span : mark.span = drawing.node.span
  place : Text.lineColumn text drawing.placement.offset = .ok ⟨mark.line, mark.column⟩

end Drawing

/-- Every mark comes right before the strokes of its node, and what is on the page then stays in front of them. -/
theorem Marked.forall₂_beforeMarks {handle : String → String} {page : Page} {nodes : List Node} {strokes : List Stroke}
    (marked : Marked handle page nodes strokes) :
    List.Forall₂ (fun before node => before ++ node.strokes handle <+: strokes ∧
      (page.draw before).head <+: (page.draw strokes).text.toList) (Stroke.beforeMarks strokes) nodes := by
  induction marked with
  | done => exact .nil
  | @node page node nodes rest printed anchored later ih =>
    refine .cons ⟨printed, page.head_prefix_draw anchored⟩ (List.forall₂_map_left_iff.mpr (ih.imp ?_))
    rintro before node ⟨next, head⟩
    exact ⟨List.cons_prefix_cons.mpr ⟨rfl, next⟩, head⟩
  | @plain page stroke nodes rest unmarked later ih =>
    rw [Stroke.beforeMarks, if_neg (by simp [unmarked]), List.nil_append]
    refine List.forall₂_map_left_iff.mpr (ih.imp ?_)
    rintro before node ⟨next, head⟩
    exact ⟨List.cons_prefix_cons.mpr ⟨rfl, next⟩, head⟩

/-! ## The text of a unit -/

namespace SourceUnit

/-- The strokes of the header comment, which has no marks, and of the items. -/
def strokes (u : SourceUnit) : List Stroke :=
  u.header.elim [] (fun comment => [Stroke.comment comment, .newline]) ++ Items.strokes u.items

theorem print_eq (u : SourceUnit) : u.print = .ofStrokes u.strokes := by
  rw [print, strokes]
  cases u.header <;> rfl

theorem marked (u : SourceUnit) : Marked u.items.handle {} u.items.nodes u.strokes := by
  rw [strokes]
  cases u.header with
  | none => exact u.items.marked {}
  | some comment => exact .plain rfl (.plain rfl (u.items.marked _))

/-- The nodes of the unit, the first with what is drawn before the first mark and so on. -/
def drawings (u : SourceUnit) : List Drawing :=
  List.zipWith Drawing.mk (Stroke.beforeMarks u.strokes) u.items.nodes

theorem map_placement_drawings (u : SourceUnit) :
    u.drawings.map (·.placement) = ({} : Page).placements u.items.nodes u.strokes := by
  rw [drawings, Page.placements, Page.offsets_eq_map, List.map_zipWith, List.zipWith_map_right, List.zipWith_comm]
  rfl

theorem map_node_drawings (u : SourceUnit) : u.drawings.map (·.node) = u.items.nodes := by
  have nodes := congrArg (List.map (·.node)) u.map_placement_drawings
  rwa [u.marked.map_node_placements, List.map_map] at nodes

/-- The nodes of a unit are drawn one after the other, each right after the strokes before its mark. Their offsets in the
text are in order. The marks are those of the visible nodes, each with the line and the column of the offset at which the
text of its node starts; so the places of the marks are in order as well. -/
theorem print_positions_exact (u : SourceUnit) :
    u.print = .ofStrokes u.strokes ∧ u.drawings.map (·.before) = Stroke.beforeMarks u.strokes ∧
      u.drawings.map (·.node) = u.items.nodes ∧
      (∀ drawing ∈ u.drawings, drawing.IsPartOf u.items.handle u.strokes) ∧
      u.drawings.Pairwise (·.placement.offset ≤ ·.placement.offset) ∧
      List.Forall₂ (Drawing.IsMarkedBy u.print.text) u.print.marks (u.drawings.filter (·.placement.isVisible)) ∧
      u.print.marks.Pairwise Mark.UpTo := by
  obtain ⟨marks, made, placed⟩ := u.marked.marks_draw rfl (List.prefix_refl _)
  have text : u.print.text = (({} : Page).draw u.strokes).text := u.print_eq ▸ rfl
  have all : u.print.marks = marks := u.print_eq ▸ made.trans (List.nil_append _)
  have each := u.marked.forall₂_beforeMarks
  have ordered := u.marked.pairwise_placements
  rw [← text, ← all] at placed
  have inOrder := Placement.IsMarkedBy.pairwise_marks placed (ordered.sublist List.filter_sublist)
  rw [← u.map_placement_drawings, List.filter_map, List.forall₂_map_right_iff] at placed
  rw [← u.map_placement_drawings, List.pairwise_map] at ordered
  refine ⟨u.print_eq, ?_, u.map_node_drawings, ?_, ordered, placed.imp fun mark drawing here => ⟨here.span, here.place⟩,
    inOrder⟩
  · rw [drawings, ← List.map_uncurry_zip_eq_zipWith, List.map_map]
    exact List.map_fst_zip each.length_eq.le
  · intro drawing member
    rw [drawings, ← List.map_uncurry_zip_eq_zipWith] at member
    obtain ⟨⟨before, node⟩, paired, rfl⟩ := List.mem_map.mp member
    obtain ⟨next, head⟩ := (List.forall₂_iff_zip.mp each).2 paired
    exact ⟨next, head⟩

end SourceUnit

end CompanionBuild
