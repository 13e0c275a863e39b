import CompanionBuild.Diagnostic.Relocation
import CompanionBuild.Proofs.Related
import CompanionBuild.Proofs.Text.Offset

/-! # Every diagnostic ends up in one place

A complaint about something unused in a companion is dropped. Any other diagnostic stays as it is, or is moved onto the
span that its place in a companion came from, and both lists keep the order. Only the offsets have to fall between the
characters of their texts.
-/

namespace CompanionBuild

namespace Diagnostic

/-- The diagnostic stays as it is. -/
def isKept (find : SpanFinder) (diagnostic : Diagnostic) : Bool :=
  match diagnostic.verdict find with
  | .ok .keep => true
  | _ => false

/-- The diagnostic on its template, if it is moved there. -/
def moved? (find : SpanFinder) (diagnostic : Diagnostic) : Option TemplateDiagnostic :=
  match diagnostic.verdict find with
  | .ok (.move moved) => some moved
  | _ => none

end Diagnostic

/-- Relocating looks at each diagnostic for itself. -/
theorem relocate_eq {find : SpanFinder} {diagnostics : List Diagnostic}
    (whole : ∀ d ∈ diagnostics, (d.verdict find).isOk = true) :
    relocate find diagnostics =
      .ok ⟨diagnostics.filter (·.isKept find), diagnostics.filterMap (·.moved? find)⟩ := by
  induction diagnostics with
  | nil => rfl
  | cons d rest ih =>
    have others := ih fun d member => whole d (List.mem_cons_of_mem _ member)
    have own := whole d (List.mem_cons_self ..)
    cases said : d.verdict find with
    | error split =>
      rw [said] at own
      cases own
    | ok verdict =>
      rw [relocate, others, List.filter_cons, List.filterMap_cons, Diagnostic.isKept, Diagnostic.moved?, said]
      cases verdict <;> rfl

/-! ## Where diagnostics point to -/

/-- The spans that the lines and columns of files came from. -/
abbrev SpanMap := String → Nat → Nat → Option TemplateSpan

namespace SpanMap

/-- The finder that always answers. -/
def finder (spans : SpanMap) : SpanFinder :=
  fun file line column => .ok (spans file line column)

/-- The span that the place of an offset came from. -/
def at? (spans : SpanMap) (file : NamedText) (offset : Nat) : Option TemplateSpan :=
  spans file.name (Text.placeOf file.text offset).line (Text.placeOf file.text offset).column

end SpanMap

namespace Diagnostic

/-- The diagnostic has an offset of at least one in a companion. -/
def pointsIntoCompanion (diagnostic : Diagnostic) : Bool :=
  diagnostic.file.any (Path.isCompanion ·.name) && diagnostic.start.any (1 ≤ ·)

/-- The span that the place of the diagnostic came from. -/
def origin? (spans : SpanMap) (diagnostic : Diagnostic) : Option TemplateSpan :=
  diagnostic.file.bind fun file => diagnostic.start.bind (spans.at? file)

/-- The offset does not cut a character of the text. -/
def IsPlaced (diagnostic : Diagnostic) : Prop :=
  ∀ file offset, diagnostic.file = some file → diagnostic.start = some offset → Text.IsBoundary file.text offset

/-- The diagnostic complains about something unused in a companion. -/
def isDropped (diagnostic : Diagnostic) : Bool :=
  diagnostic.pointsIntoCompanion && diagnostic.code = 6133

/-- The diagnostic points elsewhere, or to a place of unknown origin. -/
def isLeft (spans : SpanMap) (diagnostic : Diagnostic) : Bool :=
  !diagnostic.isDropped && (!diagnostic.pointsIntoCompanion || (diagnostic.origin? spans).isNone)

/-- The diagnostic points to a place in a companion whose origin is known. -/
def isTraced (spans : SpanMap) (diagnostic : Diagnostic) : Bool :=
  diagnostic.pointsIntoCompanion && diagnostic.code ≠ 6133 && (diagnostic.origin? spans).isSome

/-- The diagnostic as it is said of the span that it came from. -/
def MovesTo (spans : SpanMap) (diagnostic : Diagnostic) (moved : TemplateDiagnostic) : Prop :=
  ∃ span, diagnostic.origin? spans = some span ∧
    moved = { message := diagnostic.flatMessage, category := diagnostic.category, code := 100, span := some span,
              chain := none, position := none }

variable {diagnostic : Diagnostic}

/-- The three fates exclude each other, and there is no fourth. -/
theorem count_fates (spans : SpanMap) (diagnostic : Diagnostic) :
    [diagnostic.isDropped, diagnostic.isLeft spans, diagnostic.isTraced spans].count true = 1 := by
  unfold isLeft isTraced isDropped
  cases diagnostic.pointsIntoCompanion with
  | false => rfl
  | true =>
    by_cases unused : diagnostic.code = 6133
    · simp [unused]
    · cases diagnostic.origin? spans <;> simp [unused]

/-! ## One diagnostic -/

theorem companionPlace?_of_not_points (outside : diagnostic.pointsIntoCompanion = false) :
    diagnostic.companionPlace? = none := by
  unfold pointsIntoCompanion at outside
  unfold companionPlace?
  split
  · next file start inFile offset =>
    rw [inFile, offset] at outside
    have other : Path.isCompanion file.name = false := by simpa using outside
    simp [other]
  · rfl

theorem exists_companionPlace? (points : diagnostic.pointsIntoCompanion = true) :
    ∃ file offset, diagnostic.file = some file ∧ diagnostic.start = some offset ∧
      diagnostic.companionPlace? = some (file, offset) := by
  unfold pointsIntoCompanion at points
  cases inFile : diagnostic.file with
  | none => simp [inFile] at points
  | some file =>
    cases start : diagnostic.start with
    | none => simp [start] at points
    | some offset =>
      have inside : Path.isCompanion file.name = true ∧ 1 ≤ offset := by simpa [inFile, start] using points
      obtain ⟨before, rfl⟩ := Nat.exists_eq_add_of_le' inside.2
      refine ⟨file, before + 1, rfl, rfl, ?_⟩
      rw [companionPlace?, inFile, start]
      exact if_pos inside.1

theorem verdict_of_not_points (outside : diagnostic.pointsIntoCompanion = false) (find : SpanFinder) :
    diagnostic.verdict find = .ok .keep := by
  rw [verdict, companionPlace?_of_not_points outside]
  rfl

theorem verdict_of_isDropped (unused : diagnostic.isDropped = true) (find : SpanFinder) :
    diagnostic.verdict find = .ok .drop := by
  obtain ⟨points, code⟩ := Bool.and_eq_true_iff.mp unused
  obtain ⟨file, offset, -, -, place⟩ := exists_companionPlace? points
  rw [verdict, place]
  exact if_pos (of_decide_eq_true code)

/-- What is said of a place in a companion is moved to where it came from, if that is known. -/
theorem verdict_of_found {find : SpanFinder} {file : NamedText} {offset : Nat} {place : Text.LineColumn}
    {span : Option TemplateSpan} (points : diagnostic.companionPlace? = some (file, offset))
    (used : diagnostic.code ≠ unusedDeclarationCode) (placed : Text.lineColumn file.text offset = .ok place)
    (found : find file.name place.line place.column = .ok span) :
    diagnostic.verdict find = .ok (span.elim .keep fun span => .move (diagnostic.onto span)) := by
  rw [verdict, points]
  dsimp only
  rw [if_neg used, placed]
  show (find file.name place.line place.column >>= _) = _
  rw [found]
  cases span <;> rfl

theorem verdict_of_points (spans : SpanMap) (points : diagnostic.pointsIntoCompanion = true)
    (used : diagnostic.code ≠ 6133) (placed : diagnostic.IsPlaced) :
    diagnostic.verdict spans.finder =
      .ok ((diagnostic.origin? spans).elim .keep fun span => .move (diagnostic.onto span)) := by
  obtain ⟨file, offset, inFile, start, place⟩ := exists_companionPlace? points
  have origin : diagnostic.origin? spans = spans.at? file offset := by
    rw [origin?, inFile, start, Option.bind_some, Option.bind_some]
  rw [origin]
  exact verdict_of_found place used (Text.lineColumn_eq_placeOf (placed file offset inFile start)) rfl

/-- A diagnostic is relocated as the place says to which it points. -/
structure Settles (spans : SpanMap) (diagnostic : Diagnostic) : Prop where
  whole : (diagnostic.verdict spans.finder).isOk = true
  kept : diagnostic.isKept spans.finder = diagnostic.isLeft spans
  traced : (diagnostic.moved? spans.finder).isSome = diagnostic.isTraced spans
  moves (moved : TemplateDiagnostic) : diagnostic.moved? spans.finder = some moved → diagnostic.MovesTo spans moved

theorem Settles.of_drop {spans : SpanMap} (unused : diagnostic.isDropped = true) : Settles spans diagnostic := by
  have said := verdict_of_isDropped unused spans.finder
  obtain ⟨-, code⟩ := Bool.and_eq_true_iff.mp unused
  constructor
  · rw [said]
    rfl
  · simp [isKept, said, isLeft, unused]
  · simp [moved?, said, isTraced, of_decide_eq_true code]
  · simp [moved?, said]

theorem Settles.of_keep {spans : SpanMap} (said : diagnostic.verdict spans.finder = .ok .keep)
    (left : diagnostic.isLeft spans = true) (untraced : diagnostic.isTraced spans = false) :
    Settles spans diagnostic := by
  constructor
  · rw [said]
    rfl
  · simp [isKept, said, left]
  · simp [moved?, said, untraced]
  · simp [moved?, said]

theorem Settles.of_move {spans : SpanMap} {span : TemplateSpan} (origin : diagnostic.origin? spans = some span)
    (said : diagnostic.verdict spans.finder = .ok (.move (diagnostic.onto span)))
    (points : diagnostic.pointsIntoCompanion = true) (used : diagnostic.code ≠ 6133) : Settles spans diagnostic := by
  constructor
  · rw [said]
    rfl
  · simp [isKept, said, isLeft, points, origin]
  · simp [moved?, said, isTraced, points, used, origin]
  · intro moved made
    rw [moved?, said] at made
    cases made
    exact ⟨span, origin, rfl⟩

theorem IsPlaced.settles (spans : SpanMap) (placed : diagnostic.IsPlaced) : Settles spans diagnostic := by
  cases points : diagnostic.pointsIntoCompanion with
  | false =>
    apply Settles.of_keep (verdict_of_not_points points _)
    · simp [isLeft, isDropped, points]
    · simp [isTraced, points]
  | true =>
    by_cases unused : diagnostic.code = 6133
    · apply Settles.of_drop
      simp [isDropped, points, unused]
    · have said := verdict_of_points spans points unused placed
      cases origin : diagnostic.origin? spans with
      | none =>
        rw [origin] at said
        apply Settles.of_keep said
        · simp [isLeft, isDropped, unused, origin]
        · simp [isTraced, origin]
      | some span =>
        rw [origin] at said
        exact .of_move origin said points unused

end Diagnostic

/-! ## All diagnostics -/

open Diagnostic

/-- Diagnostics whose offsets cut no character are all relocated. The dropped ones are exactly those that complain about
something unused past the beginning of a companion. The kept list has, unchanged and in order, those that point elsewhere
or to a place of unknown origin; the moved list has, in order, each of the others on the span that it came from. Every
diagnostic has exactly one of these fates. -/
theorem relocation_loses_nothing (spans : SpanMap) {diagnostics : List Diagnostic}
    (placed : ∀ diagnostic ∈ diagnostics, diagnostic.IsPlaced) :
    (∀ diagnostic : Diagnostic,
      [diagnostic.isDropped, diagnostic.isLeft spans, diagnostic.isTraced spans].count true = 1) ∧
    ∃ relocated, relocate spans.finder diagnostics = .ok relocated ∧
      relocated.kept = diagnostics.filter (isLeft spans) ∧
      List.Forall₂ (MovesTo spans) (diagnostics.filter (isTraced spans)) relocated.moved := by
  have settles : ∀ diagnostic ∈ diagnostics, Settles spans diagnostic :=
    fun diagnostic member => (placed diagnostic member).settles spans
  refine ⟨count_fates spans, _, relocate_eq fun diagnostic member => (settles diagnostic member).whole, ?_, ?_⟩
  · apply List.filter_congr
    intro diagnostic member
    exact (settles diagnostic member).kept
  · apply forall₂_filter_filterMap
    · intro diagnostic member
      exact (settles diagnostic member).traced
    · intro diagnostic member
      exact (settles diagnostic member).moves

/-- The spans of a companion whose second line came from `nme` in a template. -/
def templateSpans : SpanMap := fun file line _ =>
  if file = "/app/a.axfactory.ts" ∧ line = 1 then
    some ⟨⟨⟨"/app/a.html", "nme"⟩, 0, ⟨0, 0⟩⟩, ⟨⟨"/app/a.html", "nme"⟩, 3, ⟨0, 3⟩⟩⟩
  else none

/-- A complaint about a place in a file. -/
def complaint (name text : String) (offset : Nat) (code : Int) : Diagnostic :=
  { message := "Property 'nme' does not exist", code, file := some ⟨name, text⟩, start := some offset }

/-- A user's file, four places in a companion, and nowhere. -/
def complaints : List Diagnostic := [
  complaint "/app/a.ts" "let x = 1;" 4 2339,
  complaint "/app/a.axfactory.ts" "é;\nctx.nme;" 8 2339,
  complaint "/app/a.axfactory.ts" "é;\nctx.nme;" 8 6133,
  complaint "/app/a.axfactory.ts" "é;\nctx.nme;" 2 2339,
  complaint "/app/a.axfactory.ts" "é;\nctx.nme;" 0 6133,
  { message := "global", code := 5023 }]

theorem complaints_relocated : ∃ relocated, relocate templateSpans.finder complaints = .ok relocated ∧
    relocated.kept.map (fun diagnostic => (diagnostic.start, diagnostic.code)) =
      [(some 4, 2339), (some 2, 2339), (some 0, 6133), (none, 5023)] ∧
    relocated.moved.map (fun moved => (moved.message, moved.code, moved.span)) =
      [("Property 'nme' does not exist", 100,
        some ⟨⟨⟨"/app/a.html", "nme"⟩, 0, ⟨0, 0⟩⟩, ⟨⟨"/app/a.html", "nme"⟩, 3, ⟨0, 3⟩⟩⟩)] := by
  have within {name text : String} {offset : Nat} {code : Int} (head : List Char) (starts : head <+: text.toList)
      (ends : Text.byteLength head = offset) : (complaint name text offset code).IsPlaced := by
    intro file start inFile startsAt
    cases inFile
    cases startsAt
    exact .inr ⟨head, starts, ends⟩
  have placed : ∀ diagnostic ∈ complaints, diagnostic.IsPlaced := by
    simp only [complaints, List.forall_mem_cons]
    refine ⟨within "let ".toList ?_ ?_, within "é;\nctx.".toList ?_ ?_, within "é;\nctx.".toList ?_ ?_,
      within "é".toList ?_ ?_, within [] ?_ ?_, ?nowhere, List.forall_mem_nil _⟩
    case nowhere =>
      intro file offset inFile
      cases inFile
    all_goals decide
  obtain ⟨-, relocated, ran, kept, moved⟩ := relocation_loses_nothing templateSpans placed
  refine ⟨relocated, ran, ?_, ?_⟩
  · rw [kept]
    decide
  · have only : complaints.filter (isTraced templateSpans) =
      [complaint "/app/a.axfactory.ts" "é;\nctx.nme;" 8 2339] := by rfl
    rw [only] at moved
    obtain ⟨_, _, ⟨span, found, rfl⟩, nothing, whole⟩ := List.forall₂_cons_left_iff.mp moved
    cases nothing
    cases found
    rw [whole]
    rfl

end CompanionBuild
