import CompanionBuild.Proofs.Names
import CompanionBuild.Proofs.Tree.Mention
import Mathlib.Data.List.Induction
import Mathlib.Data.List.Nodup

/-! # References that their imports resolve

The imports at the head of a text are those of the modules that the walk over the expressions finds, in the order of
first use. Every reference in the text is then bound, and the imports are in the order of the text, exactly where types
follow the expressions: a type that is the first to refer to a module has to stand before the next module that
expressions bring in, and that has to be the same one.
-/

namespace CompanionBuild

/-! ## First uses -/

theorem eraseDups_nodup (list : List String) : list.eraseDups.Nodup := by
  induction list using List.reverseRecOn with
  | nil => exact List.nodup_nil
  | append_singleton list last ih =>
    rw [List.eraseDups_append]
    by_cases member : last ∈ list
    · rw [List.removeAll, List.filter_cons_of_neg (by simpa using member)]
      rwa [List.filter_nil, List.eraseDups_nil, List.append_nil]
    · rw [List.removeAll, List.filter_cons_of_pos (by simpa using member)]
      refine List.nodup_append.mpr ⟨ih, by simp [List.eraseDups_cons], fun a inList b isLast same => ?_⟩
      rw [List.mem_eraseDups] at inList
      rw [List.filter_nil, List.mem_eraseDups, List.mem_singleton] at isLast
      exact member (isLast ▸ same ▸ inList)

/-- Keeping what was not seen before keeps the first of each. -/
theorem foldl_unseen_eq_eraseDups (list : List String) :
    list.foldl (fun seen source => if seen.contains source then seen else seen ++ [source]) [] = list.eraseDups := by
  induction list using List.reverseRecOn with
  | nil => rfl
  | append_singleton list last ih =>
    rw [List.foldl_append, ih, List.foldl_cons, List.foldl_nil, List.eraseDups_append, List.removeAll]
    by_cases member : last ∈ list
    · simp [member]
    · simp [member, List.eraseDups_cons]

theorem Items.externalsInOrder_eq_eraseDups (items : Items) :
    items.externalsInOrder = ((Mention.outside items.mentions).map (·.source)).eraseDups := by
  have all {f : List String → Expr → List String}
      (refers : ∀ seen span source name, f seen (.external span source name) =
        if seen.contains source then seen else seen ++ [source])
      (others : ∀ seen e, e.mention? false = none → f seen e = seen) (exprs : List Expr) (seen : List String) :
      exprs.foldl f seen = ((Mention.among false exprs).map (·.source)).foldl
        (fun seen source => if seen.contains source then seen else seen ++ [source]) seen := by
    induction exprs generalizing seen with
    | nil => rfl
    | cons e rest ih =>
      rw [List.foldl_cons, ih]
      cases e
      case external span source name =>
        rw [refers]
        rfl
      all_goals
        rw [others _ _ rfl]
        rfl
  rw [Items.outside_mentions, ← foldl_unseen_eq_eraseDups]
  refine all (fun _ _ _ _ => rfl) (fun seen e none => ?_) items.walk []
  cases e
  case external => cases none
  all_goals rfl

/-- Where a type is the first to refer to a module, with some modules seen before, the next module that expressions refer
to for the first time is the same one. -/
def TypesFollow (seen : List String) : List Mention → Prop
  | [] => True
  | mention :: rest =>
    (mention.inType = true → mention.source ∉ seen →
      ((Mention.outside rest).map (·.source)).find? (· ∉ seen) = some mention.source) ∧
    TypesFollow (mention.source :: seen) rest

theorem eraseDups_eq_cons_iff {list rest : List String} {first : String} :
    list.eraseDups = first :: rest ↔ list.head? = some first ∧ (list.filter fun other => !other == first).eraseDups = rest := by
  cases list with
  | nil => simp
  | cons head tail =>
    rw [List.eraseDups_cons, List.cons.injEq, List.head?_cons, Option.some.injEq]
    refine and_congr_right fun same => ?_
    subst same
    rw [List.filter_cons_of_neg (by simp)]

/-- Among the modules not seen before, the first uses in expressions are the first uses in the text exactly where types
follow. -/
theorem eraseDups_outside_iff (seen : List String) (mentions : List Mention) :
    (((Mention.outside mentions).map (·.source)).filter (· ∉ seen)).eraseDups =
        ((mentions.map (·.source)).filter (· ∉ seen)).eraseDups ↔ TypesFollow seen mentions := by
  induction mentions generalizing seen with
  | nil => exact iff_of_true rfl trivial
  | cons mention rest ih =>
    have unseen (list : List String) : list.filter (· ∉ mention.source :: seen) =
        (list.filter (· ∉ seen)).filter fun other => !other == mention.source := by
      rw [List.filter_filter]
      refine List.filter_congr fun source _ => ?_
      simp [not_or, beq_eq_decide]
    rw [TypesFollow, ← ih, List.map_cons]
    by_cases known : mention.source ∈ seen
    · -- Nothing new is mentioned, so neither of the two lists changes.
      have same (list : List String) : list.filter (· ∉ mention.source :: seen) = list.filter (· ∉ seen) := by
        refine List.filter_congr fun source _ => ?_
        by_cases named : source = mention.source
        · simp [named, known]
        · simp [named]
      have spoken : ((Mention.outside (mention :: rest)).map (·.source)).filter (· ∉ seen) =
          ((Mention.outside rest).map (·.source)).filter (· ∉ seen) := by
        cases inType : mention.inType <;> simp [Mention.outside, inType, known]
      rw [spoken, same, same, List.filter_cons_of_neg (by simpa using known)]
      exact (and_iff_right fun _ fresh => (fresh known).elim).symm
    · rw [List.filter_cons_of_pos (by simpa using known), unseen, unseen, List.eraseDups_cons]
      cases inType : mention.inType with
      | false =>
        have spoken : Mention.outside (mention :: rest) = mention :: Mention.outside rest := by
          simp [Mention.outside, inType]
        rw [spoken, List.map_cons, List.filter_cons_of_pos (by simpa using known), List.eraseDups_cons,
          List.cons.injEq]
        simp
      | true =>
        have spoken : Mention.outside (mention :: rest) = Mention.outside rest := by
          simp [Mention.outside, inType]
        rw [spoken, eraseDups_eq_cons_iff, List.head?_filter]
        simp [known]

theorem Items.externalsInOrder_eq_iff (items : Items) :
    items.externalsInOrder = (items.mentions.map (·.source)).eraseDups ↔ TypesFollow [] items.mentions := by
  have all (list : List String) : list.filter (· ∉ []) = list := by simp
  rw [← eraseDups_outside_iff, all, all, Items.externalsInOrder_eq_eraseDups]

/-! ## Imports -/

/-- A line that imports a module as a whole. -/
structure NamespaceImport where
  /-- The name that the module goes by in the text. -/
  handle : String
  source : String
deriving DecidableEq, Repr

def NamespaceImport.line (imported : NamespaceImport) : String :=
  "import * as " ++ imported.handle ++ " from " ++ Text.quote imported.source ++ ";"

def importsFrom (position : Nat) : List String → List NamespaceImport
  | [] => []
  | source :: rest => ⟨aliasAt position, source⟩ :: importsFrom (position + 1) rest

theorem hoisted_eq_flatMap (position : Nat) (sources : List String) :
    hoisted position sources = (importsFrom position sources).flatMap fun imported => [.write imported.line, .newline] := by
  induction sources generalizing position with
  | nil => rfl
  | cons source rest ih =>
    rw [hoisted, ih]
    rfl

theorem map_source_importsFrom (position : Nat) (sources : List String) :
    (importsFrom position sources).map (·.source) = sources := by
  induction sources generalizing position with
  | nil => rfl
  | cons source rest ih => rw [importsFrom, List.map_cons, ih]

/-- A module that is imported is so by one line alone, under its name in the text. -/
theorem filter_importsFrom {sources : List String} (distinct : sources.Nodup) {source : String} {offset : Nat}
    (found : sources.idxOf? source = some offset) (position : Nat) :
    (importsFrom position sources).filter (·.source = source) = [⟨aliasAt (position + offset), source⟩] := by
  induction sources generalizing position offset with
  | nil => cases found
  | cons first rest ih =>
    obtain ⟨fresh, distinct⟩ := List.nodup_cons.mp distinct
    rw [List.idxOf?_cons] at found
    by_cases here : first = source
    · subst here
      rw [if_pos (beq_self_eq_true first), Option.some.injEq] at found
      subst found
      have others : (importsFrom (position + 1) rest).filter (·.source = first) = [] := by
        refine List.filter_eq_nil_iff.mpr fun imported member named => fresh ?_
        rw [← of_decide_eq_true named, ← map_source_importsFrom (position + 1) rest]
        exact List.mem_map_of_mem member
      rw [importsFrom, List.filter_cons_of_pos (by simp), others, Nat.add_zero]
    · rw [if_neg (by simpa using here)] at found
      obtain ⟨earlier, there, rfl⟩ := Option.map_eq_some_iff.mp found
      rw [importsFrom, List.filter_cons_of_neg (by simpa using here), ih distinct there, Nat.add_right_comm,
        Nat.add_assoc]

theorem aliasAt_injective {position other : Nat} (same : aliasAt position = aliasAt other) : position = other := by
  have digits := (String.append_right_inj _).mp same
  rw [Nat.repr_eq_ofList_toDigits, Nat.repr_eq_ofList_toDigits, String.ofList_inj] at digits
  rw [← Nat.ofDigitChars_ten_toDigits (n := position), digits, Nat.ofDigitChars_ten_toDigits]

theorem mem_importsFrom {sources : List String} {position : Nat} {imported : NamespaceImport}
    (member : imported ∈ importsFrom position sources) :
    ∃ offset, imported.handle = aliasAt (position + offset) ∧ sources[offset]? = some imported.source := by
  induction sources generalizing position with
  | nil => cases member
  | cons source rest ih =>
    obtain rfl | member := List.mem_cons.mp member
    · exact ⟨0, rfl, rfl⟩
    · obtain ⟨offset, handle, found⟩ := ih member
      exact ⟨offset + 1, by rw [handle, Nat.add_right_comm, Nat.add_assoc], found⟩

/-- Modules with one name are the same. -/
theorem source_eq_of_handle_eq {sources : List String} {position : Nat} {imported other : NamespaceImport}
    (member : imported ∈ importsFrom position sources) (otherMember : other ∈ importsFrom position sources)
    (same : imported.handle = other.handle) : imported.source = other.source := by
  obtain ⟨offset, handle, found⟩ := mem_importsFrom member
  obtain ⟨otherOffset, otherHandle, otherFound⟩ := mem_importsFrom otherMember
  have place : offset = otherOffset := by
    have := aliasAt_injective (handle.symm.trans (same.trans otherHandle))
    omega
  subst place
  exact Option.some.inj (found.symm.trans otherFound)

/-! ## Texts -/

theorem Text.LineColumn.after_column {here there : Text.LineColumn} (same : here.column = there.column)
    (text : List Char) : (here.after text).column = (there.after text).column := by
  induction text generalizing here there with
  | nil => exact same
  | cons c rest ih =>
    refine ih ?_
    unfold Text.LineColumn.advance
    split
    · rfl
    · exact congrArg (· + c.utf8Size) same

namespace Page

/-- Pages on which the next text is drawn alike. -/
def Level (page other : Page) : Prop :=
  page.here.column = other.here.column ∧ page.depth = other.depth

theorem Level.stroke {page other : Page} (level : page.Level other) (stroke : Stroke) :
    ∃ added, (page.stroke stroke).text = page.text ++ added ∧ (other.stroke stroke).text = other.text ++ added ∧
      (page.stroke stroke).Level (other.stroke stroke) := by
  obtain ⟨column, depth⟩ := level
  cases stroke with
  | write text =>
    rw [Page.stroke, Page.stroke]
    split
    · exact ⟨"", by simp, by simp, column, depth⟩
    · have margin : page.margin = other.margin := by rw [Page.margin, Page.margin, column, depth]
      rw [margin]
      exact ⟨_, rfl, rfl, Text.LineColumn.after_column column _, depth⟩
  | newline => exact ⟨_, rfl, rfl, Text.LineColumn.after_column column _, depth⟩
  | deeper => exact ⟨"", by simp [Page.stroke], by simp [Page.stroke], column, congrArg (· + 1) depth⟩
  | shallower => exact ⟨"", by simp [Page.stroke], by simp [Page.stroke], column, congrArg (· - 1) depth⟩
  | mark span =>
    rw [Page.stroke, Page.stroke]
    split
    · exact ⟨"", by simp, by simp, column, depth⟩
    · exact ⟨"", by simp, by simp, column, depth⟩

/-- What is drawn on a page depends on its margin alone. -/
theorem Level.draw {page other : Page} (level : page.Level other) (strokes : List Stroke) :
    ∃ added, (page.draw strokes).text = page.text ++ added ∧ (other.draw strokes).text = other.text ++ added := by
  induction strokes generalizing page other with
  | nil => exact ⟨"", by simp [Page.draw], by simp [Page.draw]⟩
  | cons stroke rest ih =>
    obtain ⟨first, drawn, drawnToo, level⟩ := level.stroke stroke
    obtain ⟨added, last, lastToo⟩ := ih level
    refine ⟨first ++ added, ?_, ?_⟩
    · rw [← String.append_assoc, ← drawn]
      exact last
    · rw [← String.append_assoc, ← drawnToo]
      exact lastToo

theorem draw_append (page : Page) (strokes rest : List Stroke) :
    page.draw (strokes ++ rest) = (page.draw strokes).draw rest :=
  List.foldl_append

/-- A line is drawn as it is on a page that has no margin, and the page has none after it. -/
theorem draw_line {page : Page} (level : page.Level {}) {line : String} (visible : line ≠ "") :
    (page.draw [.write line, .newline]).text = page.text ++ (line ++ "\n") ∧
      (page.draw [.write line, .newline]).Level {} := by
  have margin : page.margin = [] := by
    rw [Page.margin, if_pos level.1, level.2]
    rfl
  have drawn : page.draw [.write line, .newline] = (page.append line.toList).append ['\n'] := by
    rw [Page.draw, List.foldl_cons, Page.stroke, if_neg visible, margin]
    rfl
  rw [drawn]
  refine ⟨?_, rfl, level.2⟩
  simp [Page.append, String.append_assoc]

theorem draw_lines {page : Page} (level : page.Level {}) {lines : List String} (visible : ∀ line ∈ lines, line ≠ "") :
    (page.draw (lines.flatMap fun line => [.write line, .newline])).text =
        page.text ++ String.join (lines.map (· ++ "\n")) ∧
      (page.draw (lines.flatMap fun line => [.write line, .newline])).Level {} := by
  induction lines generalizing page with
  | nil => exact ⟨by simp [Page.draw], level⟩
  | cons line rest ih =>
    obtain ⟨text, after⟩ := draw_line level (visible line (List.mem_cons_self ..))
    obtain ⟨texts, last⟩ := ih after fun other member => visible other (List.mem_cons_of_mem _ member)
    rw [List.flatMap_cons, draw_append, texts, text, List.map_cons, String.join_cons, String.append_assoc]
    exact ⟨rfl, last⟩

end Page

/-- The imports at the head of the text of some items. -/
def Items.hoistedImports (items : Items) : List NamespaceImport :=
  importsFrom 0 items.externalsInOrder

/-- The text of some items: the imports, one on a line, then the items. -/
theorem Items.print_text (items : Items) : items.print.text =
    String.join (items.hoistedImports.map (·.line ++ "\n")) ++
      (Printed.ofStrokes (items.body (aliasOf items.externalsInOrder))).text := by
  have visible : ∀ line ∈ items.hoistedImports.map NamespaceImport.line, line ≠ "" := by
    intro line member
    obtain ⟨imported, -, rfl⟩ := List.mem_map.mp member
    simp [NamespaceImport.line]
  have start : ({} : Page).Level {} := ⟨rfl, rfl⟩
  obtain ⟨head, level⟩ := Page.draw_lines start visible
  obtain ⟨added, text, alone⟩ := level.draw (items.body (aliasOf items.externalsInOrder))
  calc items.print.text
      = ((({} : Page).draw ((items.hoistedImports.map NamespaceImport.line).flatMap
          fun line => [.write line, .newline])).draw (items.body (aliasOf items.externalsInOrder))).text := by
        rw [← Page.draw_append, List.flatMap_map, Items.hoistedImports, ← hoisted_eq_flatMap]
        rfl
    _ = String.join (items.hoistedImports.map (·.line ++ "\n")) ++ added := by
        rw [text, head, List.map_map]
        simp [Function.comp_def]
    _ = _ := by
        rw [Printed.ofStrokes, alone]
        simp

/-! ## Resolution -/

/-- Some of the references in the text of some items resolve: they are to the modules that are collected, one line alone
imports the module of each and does so under the name that the reference is written through, and the modules are imported
in the order in which these references first name them. -/
structure Items.Resolves (items : Items) (mentions : List Mention) : Prop where
  collected : ∀ source, source ∈ mentions.map (·.source) ↔ source ∈ items.externals
  bound : ∀ mention ∈ mentions, items.hoistedImports.filter (·.source = mention.source) =
    [⟨aliasOf items.externalsInOrder mention.source, mention.source⟩]
  ordered : items.hoistedImports.map (·.source) = (mentions.map (·.source)).eraseDups

theorem Items.resolves_iff (items : Items) (mentions : List Mention) :
    items.Resolves mentions ↔ items.externalsInOrder = (mentions.map (·.source)).eraseDups := by
  refine ⟨fun resolves => ?_, fun ordered => ⟨fun source => ?_, fun mention member => ?_, ?_⟩⟩
  · rw [← resolves.ordered, Items.hoistedImports, map_source_importsFrom]
  · rw [Items.externals, Names.mem_ofList, ordered, List.mem_eraseDups]
  · have named : mention.source ∈ items.externalsInOrder := by
      rw [ordered, List.mem_eraseDups]
      exact List.mem_map_of_mem member
    obtain ⟨offset, found⟩ := Option.isSome_iff_exists.mp (List.isSome_idxOf?.mpr named)
    have distinct : items.externalsInOrder.Nodup := ordered ▸ eraseDups_nodup _
    rw [Items.hoistedImports, filter_importsFrom distinct found, aliasOf, found, Nat.zero_add]
  · rw [Items.hoistedImports, map_source_importsFrom, ordered]

theorem aliasOf_unknown {sources : List String} {source : String} (unknown : source ∉ sources) :
    aliasOf sources source = "" := by
  rw [aliasOf, List.idxOf?_eq_none_iff.mpr unknown]

/-- The text of some items is that of their imports, under names that are distinct for distinct modules, and then of the
items, with every reference written through the name of its module. The references outside of types resolve. So do all
references exactly where types follow, and those to a module that is not collected are written without a name. -/
theorem references_resolve_iff (items : Items) :
    Prints items.body items.mentions ∧
    items.print.text = String.join (items.hoistedImports.map (·.line ++ "\n")) ++
      (Printed.ofStrokes (items.body (aliasOf items.externalsInOrder))).text ∧
    (∀ imported ∈ items.hoistedImports, ∀ other ∈ items.hoistedImports, imported.source ≠ other.source →
      imported.handle ≠ other.handle) ∧
    items.Resolves (Mention.outside items.mentions) ∧
    (items.Resolves items.mentions ↔ TypesFollow [] items.mentions) ∧
    ∀ mention ∈ items.mentions, mention.source ∉ items.externals → aliasOf items.externalsInOrder mention.source = "" := by
  refine ⟨items.body_prints, items.print_text, fun imported member other otherMember differ same => ?_, ?_, ?_,
    fun mention _ unknown => ?_⟩
  · exact differ (source_eq_of_handle_eq member otherMember same)
  · exact (items.resolves_iff _).mpr items.externalsInOrder_eq_eraseDups
  · rw [items.resolves_iff, items.externalsInOrder_eq_iff]
  · rw [Items.externals, Names.mem_ofList] at unknown
    exact aliasOf_unknown unknown

end CompanionBuild
