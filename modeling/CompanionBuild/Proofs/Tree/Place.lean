import CompanionBuild.Proofs.Text.Offset
import CompanionBuild.Proofs.Tree.Node
import CompanionBuild.Proofs.Tree.Reference

/-! # Places of nodes

Every node of some items has an offset in their printed text, at which its own text starts. The printer keeps line and
column while it writes: the mark of a node is the place of its offset in the finished text.
-/

namespace CompanionBuild

namespace Page

/-! ## Offsets on a page -/

/-- Everything before the text that is written next. -/
def head (page : Page) : List Char :=
  page.text.toList ++ page.margin

/-- The offset of the text that is written next. -/
def offset (page : Page) : Nat :=
  Text.byteLength page.head

/-- The offset of each mark that is made while some strokes are drawn. -/
def offsets : Page → List Stroke → List Nat
  | _, [] => []
  | page, stroke :: rest =>
    if stroke.isMark then page.offset :: (page.stroke stroke).offsets rest else (page.stroke stroke).offsets rest

/-- The pen stands at the end of the text. -/
def Tracks (page : Page) : Prop :=
  page.here = Text.LineColumn.after ⟨0, 0⟩ page.text.toList

variable {page : Page}

theorem Tracks.append (tracks : page.Tracks) (chars : List Char) : (page.append chars).Tracks := by
  unfold Tracks Page.append at *
  rw [String.toList_append, String.toList_ofList, Text.LineColumn.after_append, ← tracks]

theorem Tracks.stroke (tracks : page.Tracks) (stroke : Stroke) : (page.stroke stroke).Tracks := by
  cases stroke with
  | write text =>
    rw [Page.stroke]
    split
    · exact tracks
    · exact tracks.append _
  | newline => exact tracks.append _
  | deeper => exact tracks
  | shallower => exact tracks
  | mark span =>
    rw [Page.stroke]
    split
    · exact tracks
    · exact tracks

@[simp] theorem head_stroke_mark (page : Page) (span : Span) : (page.stroke (.mark span)).head = page.head := by
  rw [Page.stroke]
  split <;> rfl

theorem marks_stroke {stroke : Stroke} (unmarked : stroke.isMark = false) : (page.stroke stroke).marks = page.marks := by
  cases stroke with
  | write text =>
    rw [Page.stroke]
    split <;> rfl
  | mark span => cases unmarked
  | _ => rfl

/-- What is on a page stays there. -/
theorem text_prefix_draw (page : Page) (strokes : List Stroke) :
    page.text.toList <+: (page.draw strokes).text.toList := by
  have level : page.Level page := ⟨rfl, rfl⟩
  obtain ⟨added, drawn, -⟩ := level.draw strokes
  rw [drawn, String.toList_append]
  exact List.prefix_append ..

/-- The margin before a text is written with it. -/
theorem head_prefix_draw {strokes : List Stroke}
    (anchored : page.here.column ≠ 0 ∨ Stroke.writesNext strokes = true) :
    page.head <+: (page.draw strokes).text.toList := by
  rcases anchored with inside | writes
  · rw [head, margin, if_neg inside, List.append_nil]
    exact page.text_prefix_draw strokes
  · induction strokes generalizing page with
    | nil => cases writes
    | cons stroke rest ih =>
      cases stroke with
      | mark span => exact page.head_stroke_mark span ▸ ih writes
      | write text =>
        rw [Stroke.writesNext_write, Bool.or_eq_true, decide_eq_true_eq] at writes
        by_cases visible : text = ""
        · have unchanged : page.draw (.write text :: rest) = page.draw rest := by
            rw [draw, List.foldl_cons, Page.stroke, if_pos visible, draw]
          rw [unchanged]
          exact ih (writes.resolve_left (not_not_intro visible))
        · have written : page.head <+: (page.stroke (.write text)).text.toList := by
            rw [Page.stroke, if_neg visible, Page.append, String.toList_append, String.toList_ofList, head,
              ← List.append_assoc]
            exact List.prefix_append ..
          exact written.trans (text_prefix_draw _ rest)
      | _ => cases writes

/-- A mark is the place of the text that is written next. -/
theorem Tracks.after_head (tracks : page.Tracks) : Text.LineColumn.after ⟨0, 0⟩ page.head =
    ⟨page.here.line, if page.here.column = 0 then 4 * page.depth else page.here.column⟩ := by
  have blanks (here : Text.LineColumn) (count : Nat) :
      here.after (List.replicate count ' ') = ⟨here.line, here.column + count⟩ := by
    induction count generalizing here with
    | zero => rfl
    | succ count ih =>
      rw [List.replicate_succ, Text.LineColumn.after, List.foldl_cons]
      refine (ih _).trans ?_
      have size : Char.utf8Size ' ' = 1 := rfl
      rw [Text.LineColumn.advance, if_neg (by decide), size]
      simp only [Text.LineColumn.mk.injEq, true_and]
      omega
  rw [head, Text.LineColumn.after_append, ← tracks, margin]
  split
  case isTrue edge => rw [blanks, edge, Nat.zero_add]
  case isFalse => rfl

end Page

/-! ## Offsets of nodes -/

/-- A node and the offset of its text. -/
structure Placement where
  node : Node
  offset : Nat

namespace Placement

/-- The node was not made up. -/
def isVisible (placement : Placement) : Bool :=
  !placement.node.span.isSynthetic

/-- The text of the node stands at the offset: a page holds what comes before, and the node is drawn on it next. -/
def StandsIn (placement : Placement) (handle : String → String) (text : String) : Prop :=
  ∃ page : Page, page.Tracks ∧ page.offset = placement.offset ∧ page.head <+: text.toList ∧
    (page.draw (placement.node.strokes handle)).text.toList <+: text.toList

/-- The mark of a node has its span and the place of its offset. -/
structure IsMarkedBy (handle : String → String) (text : String) (mark : Mark) (placement : Placement) : Prop where
  span : mark.span = placement.node.span
  place : Text.lineColumn text placement.offset = .ok ⟨mark.line, mark.column⟩
  stands : placement.StandsIn handle text

end Placement

/-- The nodes with the offsets of the marks that some strokes make on a page. -/
def Page.placements (page : Page) (nodes : List Node) (strokes : List Stroke) : List Placement :=
  List.zipWith Placement.mk nodes (page.offsets strokes)

namespace Marked

variable {handle : String → String} {page : Page} {nodes : List Node} {strokes : List Stroke}

theorem placements_plain {stroke : Stroke} (unmarked : stroke.isMark = false) :
    page.placements nodes (stroke :: strokes) = (page.stroke stroke).placements nodes strokes := by
  rw [Page.placements, Page.offsets, if_neg (by simp [unmarked]), Page.placements]

/-- Every node has an offset. -/
theorem map_node_placements (marked : Marked handle page nodes strokes) :
    (page.placements nodes strokes).map (·.node) = nodes := by
  induction marked with
  | done => rfl
  | node printed anchored later ih => exact congrArg _ ih
  | plain unmarked later ih => rwa [placements_plain unmarked]

/-- While the strokes are drawn, each visible node gets its mark. -/
theorem marks_draw (marked : Marked handle page nodes strokes) (tracks : page.Tracks) {text : String}
    (drawn : (page.draw strokes).text.toList <+: text.toList) :
    ∃ marks, (page.draw strokes).marks = page.marks ++ marks ∧
      List.Forall₂ (Placement.IsMarkedBy handle text) marks
        ((page.placements nodes strokes).filter Placement.isVisible) := by
  induction marked with
  | done page => exact ⟨[], (List.append_nil _).symm, .nil⟩
  | @node page node nodes rest printed anchored later ih =>
    obtain ⟨marks, made, placed⟩ := ih (tracks.stroke _) drawn
    have split : page.placements (node :: nodes) (.mark node.span :: rest) =
      ⟨node, page.offset⟩ :: (page.stroke (.mark node.span)).placements nodes rest := rfl
    rw [split]
    by_cases visible : node.span.isSynthetic = true
    · have unmarked : (page.stroke (.mark node.span)).marks = page.marks := by rw [Page.stroke, if_pos visible]
      rw [List.filter_cons_of_neg (by simp [Placement.isVisible, visible])]
      exact ⟨marks, made.trans (by rw [unmarked]), placed⟩
    · have head : page.head <+: text.toList := by
        refine (page.head_prefix_draw ?_).trans drawn
        exact anchored
      refine ⟨⟨page.here.line, if page.here.column = 0 then 4 * page.depth else page.here.column, node.span⟩ :: marks,
        ?_, ?_⟩
      · have added : (page.stroke (.mark node.span)).marks = page.marks ++
            [⟨page.here.line, if page.here.column = 0 then 4 * page.depth else page.here.column, node.span⟩] := by
          rw [Page.stroke, if_neg visible]
        refine made.trans ?_
        rw [added, List.append_assoc, List.singleton_append]
      · rw [List.filter_cons_of_pos (by simp [Placement.isVisible, visible])]
        refine .cons ⟨rfl, ?_, page, tracks, rfl, head, ?_⟩ placed
        · exact (Text.lineColumn_of_start head).trans (by rw [tracks.after_head])
        · obtain ⟨rest, whole⟩ := printed
          rw [← whole, Page.draw_append] at drawn
          exact (Page.text_prefix_draw _ rest).trans drawn
  | plain unmarked later ih =>
    obtain ⟨marks, made, placed⟩ := ih (tracks.stroke _) drawn
    rw [placements_plain unmarked]
    exact ⟨marks, made.trans (by rw [Page.marks_stroke unmarked]), placed⟩

end Marked

/-! ## Offsets in the text of some items -/

namespace Items

/-- The name of the import of each module in the text of the items. -/
def handle (items : Items) : String → String :=
  aliasOf (externalsInOrder items)

theorem marked (items : Items) (page : Page) : Marked items.handle page items.nodes (strokes items) := by
  have imports : MarksAnywhere items.handle (hoisted 0 (externalsInOrder items)) [] := by
    refine .plain _ ?_
    generalize externalsInOrder items = sources
    generalize 0 = position
    induction sources generalizing position with
    | nil => nofun
    | cons source rest ih =>
      rintro stroke (_ | ⟨_, _ | ⟨_, member⟩⟩)
      · rfl
      · rfl
      · exact ih _ stroke member
  have whole := imports.after items.marks_body page [] [] .done
  rwa [List.append_nil, List.append_nil] at whole

/-- The nodes of the items with their offsets in the printed text. -/
def placements (items : Items) : List Placement :=
  ({} : Page).placements items.nodes (strokes items)

theorem map_node_placements (items : Items) : items.placements.map (·.node) = items.nodes :=
  (items.marked {}).map_node_placements

/-- The printed marks are the marks of the visible nodes, in their order. -/
theorem marks_print (items : Items) : List.Forall₂ (Placement.IsMarkedBy items.handle (print items).text)
    (print items).marks (items.placements.filter Placement.isVisible) := by
  obtain ⟨marks, made, placed⟩ := (items.marked {}).marks_draw rfl (List.prefix_refl _)
  have all : (print items).marks = marks := made.trans (List.nil_append _)
  exact all ▸ placed

end Items

end CompanionBuild
