import CompanionBuild.Json.Document
import CompanionBuild.Proofs.Json.Token
import CompanionBuild.Proofs.Related

/-! # Values read back

A value without numbers that is not nested too deeply is read back from what is written for it, compactly or indented. Its
objects come back as tables, so that of repeated fields the last one stays.
-/

namespace CompanionBuild.Json

/-- The value has no numbers in it and at most so many nested containers. -/
inductive Plain : Nat → Json → Prop
  | null {limit : Nat} : Plain limit .null
  | bool {limit : Nat} (value : Bool) : Plain limit (.bool value)
  | text {limit : Nat} (value : String) : Plain limit (.text value)
  | array {limit : Nat} {elements : List Json} :
      (∀ element ∈ elements, Plain limit element) → Plain (limit + 1) (.array elements)
  | object {limit : Nat} {fields : List (String × Json)} :
      (∀ field ∈ fields, Plain limit field.2) → Plain (limit + 1) (.object fields)

mutual

/-- The value with a table for the fields of every object. -/
def tabled : Json → Json
  | .array elements => .array (tabledElements elements)
  | .object fields => .object (Table.ofList (tabledFields fields))
  | json => json

def tabledElements : List Json → List Json
  | [] => []
  | element :: rest => element.tabled :: tabledElements rest

def tabledFields : List (String × Json) → List (String × Json)
  | [] => []
  | (name, value) :: rest => (name, value.tabled) :: tabledFields rest

end

theorem tabledElements_eq_map (elements : List Json) : tabledElements elements = elements.map tabled := by
  induction elements with
  | nil => rfl
  | cons element rest ih => rw [tabledElements, ih, List.map_cons]

theorem tabledFields_eq_map (fields : List (String × Json)) :
    tabledFields fields = fields.map fun field => (field.1, field.2.tabled) := by
  induction fields with
  | nil => rfl
  | cons field rest ih => rw [tabledFields, ih, List.map_cons]

theorem renderElements_eq_map (elements : List Json) : renderElements elements = elements.map render := by
  induction elements with
  | nil => rfl
  | cons element rest ih => rw [renderElements, ih, List.map_cons]

theorem renderFields_eq_map (fields : List (String × Json)) :
    renderFields fields = fields.map fun field => quoted field.1 ++ ":" ++ field.2.render := by
  induction fields with
  | nil => rfl
  | cons field rest ih => rw [renderFields, ih, List.map_cons]

theorem prettyElements_eq_map (indent : String) (elements : List Json) :
    prettyElements indent elements = elements.map (pretty indent) := by
  induction elements with
  | nil => rfl
  | cons element rest ih => rw [prettyElements, ih, List.map_cons]

theorem prettyFields_eq_map (indent : String) (fields : List (String × Json)) :
    prettyFields indent fields = fields.map fun field => quoted field.1 ++ ": " ++ field.2.pretty indent := by
  induction fields with
  | nil => rfl
  | cons field rest ih => rw [prettyFields, ih, List.map_cons]

/-! ## The machine on the tokens of a value -/

namespace Document

/-- The tokens lead the machine from one state to another. -/
def Runs (state : State) (tokens : List Token) (next : State) : Prop :=
  tokens.foldlM step? state = some next

theorem Runs.nil (state : State) : Runs state [] state :=
  rfl

section

variable {state middle next : State} {tokens more : List Token} {token : Token}

theorem Runs.cons (steps : step? state token = some middle) (runs : Runs middle tokens next) :
    Runs state (token :: tokens) next := by
  rw [Runs, List.foldlM_cons, steps]
  exact runs

theorem Runs.append (runs : Runs state tokens middle) (runsOn : Runs middle more next) :
    Runs state (tokens ++ more) next := by
  rw [Runs, List.foldlM_append, runs]
  exact runsOn

end

/-- Where a value may start, the tokens complete the document. -/
def Completes (tokens : List Token) (document : Document) : Prop :=
  ∀ pending, Runs (.value pending) tokens (close document pending)

namespace Completes

variable {tokens : List Token} {document : Document} (completes : Completes tokens document)

include completes

theorem ne_nil : tokens ≠ [] := by
  rintro rfl
  have run := completes []
  simp [Runs, close] at run

/-- At the start of an array a value is read as its first element: no value starts with a bracket that ends one. -/
theorem elementOrEnd (pending : List Frame) :
    Runs (.elementOrEnd pending) tokens (.commaOrEnd (.array [document]) pending) := by
  obtain ⟨token, rest, rfl⟩ := List.exists_cons_of_ne_nil completes.ne_nil
  have different : token ≠ .rightBracket := by
    rintro rfl
    have run := completes []
    simp [Runs, step?, begin?] at run
  have first : step? (.elementOrEnd pending) token = step? (.value (.array [] :: pending)) token := if_neg different
  have run := completes (.array [] :: pending)
  rw [Runs, List.foldlM_cons] at run ⊢
  rw [first, run]
  rfl

end Completes

theorem intercalate_comma (first : List Token) (rest : List (List Token)) :
    List.intercalate [.comma] (first :: rest) = first ++ rest.flatMap (.comma :: ·) := by
  induction rest generalizing first with
  | nil => simp
  | cons second rest ih => simp [ih]

/-- After an element, each further one goes behind a comma. -/
theorem runs_elements {made : List (List Token × Document)} (each : ∀ m ∈ made, Completes m.1 m.2)
    (seen : List Document) (pending : List Frame) :
    Runs (.commaOrEnd (.array seen) pending) (made.flatMap (fun m => .comma :: m.1) ++ [.rightBracket])
      (close (.array (seen.reverse ++ made.map (·.2))) pending) := by
  induction made generalizing seen with
  | nil =>
    rw [List.map_nil, List.append_nil]
    exact .cons rfl (.nil _)
  | cons m made ih =>
    obtain ⟨first, others⟩ := List.forall_mem_cons.mp each
    have tail := ih others (m.2 :: seen)
    rw [List.reverse_cons, List.append_assoc] at tail
    rw [List.flatMap_cons, List.append_assoc]
    exact .cons rfl ((first _).append tail)

theorem completes_array {made : List (List Token × Document)} (each : ∀ m ∈ made, Completes m.1 m.2) :
    Completes (.leftBracket :: List.intercalate [.comma] (made.map (·.1)) ++ [.rightBracket])
      (.array (made.map (·.2))) := by
  intro pending
  cases made with
  | nil => exact .cons rfl (.cons rfl (.nil _))
  | cons m made =>
    obtain ⟨first, others⟩ := List.forall_mem_cons.mp each
    rw [List.map_cons, intercalate_comma, List.flatMap_map, List.cons_append, List.append_assoc]
    exact .cons rfl ((first.elementOrEnd pending).append (runs_elements others [m.2] pending))

/-- After a field, each further one goes behind a comma. -/
theorem runs_fields {made : List (List Piece × List Token × Document)} (each : ∀ m ∈ made, Completes m.2.1 m.2.2)
    (seen : List (List Piece × Document)) (key : List Piece) (pending : List Frame) :
    Runs (.commaOrEnd (.object seen key) pending)
      (made.flatMap (fun m => .comma :: .text m.1 :: .colon :: m.2.1) ++ [.rightBrace])
      (close (.object (seen.reverse ++ made.map fun m => (m.1, m.2.2))) pending) := by
  induction made generalizing seen key with
  | nil =>
    rw [List.map_nil, List.append_nil]
    exact .cons rfl (.nil _)
  | cons m made ih =>
    obtain ⟨first, others⟩ := List.forall_mem_cons.mp each
    have tail := ih others ((m.1, m.2.2) :: seen) m.1
    rw [List.reverse_cons, List.append_assoc] at tail
    rw [List.flatMap_cons, List.append_assoc]
    exact .cons rfl (.cons rfl (.cons rfl ((first _).append tail)))

theorem completes_object {made : List (List Piece × List Token × Document)}
    (each : ∀ m ∈ made, Completes m.2.1 m.2.2) :
    Completes (.leftBrace :: List.intercalate [.comma] (made.map fun m => .text m.1 :: .colon :: m.2.1) ++ [.rightBrace])
      (.object (made.map fun m => (m.1, m.2.2))) := by
  intro pending
  cases made with
  | nil => exact .cons rfl (.cons rfl (.nil _))
  | cons m made =>
    obtain ⟨first, others⟩ := List.forall_mem_cons.mp each
    rw [List.map_cons, intercalate_comma, List.flatMap_map, List.cons_append, List.append_assoc]
    exact .cons rfl (.cons rfl (.cons rfl ((first _).append (runs_fields others [(m.1, m.2.2)] m.1 pending))))

end Document

/-! ## From a value to its text and back -/

open Token (Scans Closes isBlank)

/-- The value is written as the tokens, in both forms, and the tokens are read as the value. -/
structure Tells (limit : Nat) (json : Json) (tokens : List Token) (document : Document) : Prop where
  compact : Scans json.render.toList tokens
  indented (indent : String) : (∀ c ∈ indent.toList, isBlank c = true) → Scans (json.pretty indent).toList tokens
  completes : Document.Completes tokens document
  value : document.value? limit = some json.tabled

/-- A value that is written the same in both forms, as one token. -/
theorem Tells.of_token {limit : Nat} {json : Json} {token : Token} {document : Document}
    (same : ∀ indent, json.pretty indent = json.render) (scans : Scans json.render.toList [token])
    (begins : ∀ pending, Document.begin? pending token = some (Document.close document pending))
    (value : document.value? limit = some json.tabled) : Tells limit json [token] document where
  compact := scans
  indented indent _ := same indent ▸ scans
  completes pending := .cons (begins pending) (.nil _)
  value := value

theorem isBlank_deeper {indent : String} (blank : ∀ c ∈ indent.toList, isBlank c = true) :
    ∀ c ∈ (indent ++ "  ").toList, isBlank c = true := by
  rw [String.toList_append]
  exact List.forall_mem_append.mpr ⟨blank, List.all_eq_true.mp (by decide)⟩

section

variable {left right : Char} {leftToken rightToken : Token} {items : List String} {lists : List (List Token)}
  (opens : Token.start? left = some ([leftToken], .between)) (ends : Token.start? right = some ([rightToken], .between))
  (notBare : Token.isBare right = false) (scans : List.Forall₂ Scans (items.map String.toList) lists)

include opens ends notBare scans

theorem closes_compact :
    Closes (String.ofList [left] ++ String.intercalate "," items ++ String.ofList [right]).toList
      (leftToken :: List.intercalate [.comma] lists ++ [rightToken]) := by
  have enclosed := Token.closes_enclosed scans opens ends notBare (List.forall_mem_nil _) (List.forall_mem_nil _)
  simpa [String.toList_intercalate] using enclosed

/-- An indented container has the tokens of its items, whether there are any or none. -/
theorem closes_block {indent : String} (blank : ∀ c ∈ indent.toList, isBlank c = true) :
    Closes (block indent (String.ofList [left]) (String.ofList [right]) items).toList
      (leftToken :: List.intercalate [.comma] lists ++ [rightToken]) := by
  unfold block
  split
  case isTrue none =>
    obtain rfl := List.isEmpty_iff.mp none
    cases scans
    simpa using (Token.closes_mark opens).append (Token.closes_mark ends)
  case isFalse =>
    have shifted : List.Forall₂ Scans (items.map fun item => (indent ++ "  ").toList ++ item.toList) lists := by
      rw [List.forall₂_map_left_iff] at scans ⊢
      exact scans.imp fun item tokens scanned => (Token.closes_blanks (isBlank_deeper blank)).append_scans scanned
    have outer : ∀ c ∈ '\n' :: indent.toList, isBlank c = true := List.forall_mem_cons.mpr ⟨rfl, blank⟩
    have enclosed := Token.closes_enclosed shifted opens ends notBare
      (List.forall_mem_singleton.mpr (rfl : isBlank '\n' = true)) outer
    simpa [String.toList_intercalate, Function.comp_def] using enclosed

end

/-- The text of a field: its name, a colon and maybe blanks, and its value. -/
theorem scans_field {name value : String} {pieces : List Piece} {tokens : List Token} {blanks : List Char}
    (closes : Closes (quoted name).toList [.text pieces]) (blank : ∀ c ∈ blanks, isBlank c = true)
    (scans : Scans value.toList tokens) :
    Scans (quoted name ++ String.ofList (':' :: blanks) ++ value).toList (.text pieces :: .colon :: tokens) := by
  have colon : Closes (':' :: blanks) [.colon] := (Token.closes_mark rfl).append (Token.closes_blanks blank)
  rw [String.toList_append, String.toList_append, String.toList_ofList]
  exact (closes.append colon).append_scans scans

theorem tells_bool (limit : Nat) (value : Bool) : Tells limit (.bool value) [.bool value] (.bool value) := by
  refine .of_token (fun _ => by simp [pretty, render]) ?_ (fun _ => rfl) (by simp [Document.value?, tabled])
  cases value with
  | false => exact Token.scans_word rfl (List.all_eq_true.mp (by decide)) rfl
  | true => exact Token.scans_word rfl (List.all_eq_true.mp (by decide)) rfl

theorem tells_null (limit : Nat) : Tells limit .null [.null] .null :=
  .of_token (fun _ => by simp [pretty, render]) (Token.scans_word rfl (List.all_eq_true.mp (by decide)) rfl)
    (fun _ => rfl) (by simp [Document.value?, tabled])

theorem exists_tells_text (limit : Nat) (value : String) : ∃ tokens document, Tells limit (.text value) tokens document := by
  obtain ⟨pieces, read, closes⟩ := Token.exists_closes_quoted value
  refine ⟨[.text pieces], .text pieces, .of_token (fun _ => by simp [pretty, render]) ?_ (fun _ => rfl) ?_⟩
  · simpa [render] using closes.scans
  · simp [Document.value?, read, tabled]

theorem elements?_of_forall₂ {limit : Nat} {values : List Json} {documents : List Document}
    (each : List.Forall₂ (fun value document => document.value? limit = some value) values documents) :
    Document.elements? limit documents = some values := by
  induction each with
  | nil => simp [Document.elements?]
  | cons first _ ih => simp [Document.elements?, first, ih]

theorem fields?_of_forall₂ {limit : Nat} {entries : List (String × Json)} {fields : List (List Piece × Document)}
    (each : List.Forall₂ (fun entry field => Piece.string? field.1 = some entry.1 ∧
      field.2.value? limit = some entry.2) entries fields) : Document.fields? limit fields = some entries := by
  induction each with
  | nil => simp [Document.fields?]
  | cons first _ ih => simp [Document.fields?, first, ih]

theorem exists_tells_array {limit : Nat} {elements : List Json}
    (each : ∀ element ∈ elements, ∃ tokens document, Tells limit element tokens document) :
    ∃ tokens document, Tells (limit + 1) (.array elements) tokens document := by
  obtain ⟨made, told⟩ : ∃ made : List (List Token × Document),
      List.Forall₂ (fun element m => Tells limit element m.1 m.2) elements made := by
    apply exists_forall₂
    intro element member
    obtain ⟨tokens, document, tells⟩ := each element member
    exact ⟨(tokens, document), tells⟩
  have completes : ∀ m ∈ made, Document.Completes m.1 m.2 := by
    intro m member
    obtain ⟨element, -, tells⟩ := exists_of_mem_right told member
    exact tells.completes
  refine ⟨_, _, ?_, ?_, Document.completes_array completes, ?_⟩
  · have items : List.Forall₂ Scans ((elements.map render).map String.toList) (made.map (·.1)) := by
      rw [List.map_map, List.forall₂_map_left_iff, List.forall₂_map_right_iff]
      exact told.imp fun _ _ tells => tells.compact
    rw [render, renderElements_eq_map]
    exact (closes_compact rfl rfl rfl items).scans
  · intro indent blank
    have items : List.Forall₂ Scans ((elements.map (pretty (indent ++ "  "))).map String.toList) (made.map (·.1)) := by
      rw [List.map_map, List.forall₂_map_left_iff, List.forall₂_map_right_iff]
      exact told.imp fun _ _ tells => tells.indented _ (isBlank_deeper blank)
    rw [pretty, prettyElements_eq_map]
    exact (closes_block rfl rfl rfl items blank).scans
  · have values : Document.elements? limit (made.map (·.2)) = some (elements.map tabled) := by
      apply elements?_of_forall₂
      rw [List.forall₂_map_left_iff, List.forall₂_map_right_iff]
      exact told.imp fun _ _ tells => tells.value
    simp [Document.value?, values, tabled, tabledElements_eq_map]

theorem exists_tells_object {limit : Nat} {fields : List (String × Json)}
    (each : ∀ field ∈ fields, ∃ tokens document, Tells limit field.2 tokens document) :
    ∃ tokens document, Tells (limit + 1) (.object fields) tokens document := by
  obtain ⟨made, told⟩ : ∃ made : List (List Piece × List Token × Document),
      List.Forall₂ (fun field m => (Piece.string? m.1 = some field.1 ∧ Closes (quoted field.1).toList [.text m.1]) ∧
        Tells limit field.2 m.2.1 m.2.2) fields made := by
    apply exists_forall₂
    intro field member
    obtain ⟨tokens, document, tells⟩ := each field member
    obtain ⟨pieces, named⟩ := Token.exists_closes_quoted field.1
    exact ⟨(pieces, tokens, document), named, tells⟩
  have completes : ∀ m ∈ made, Document.Completes m.2.1 m.2.2 := by
    intro m member
    obtain ⟨field, -, -, tells⟩ := exists_of_mem_right told member
    exact tells.completes
  refine ⟨_, _, ?_, ?_, Document.completes_object completes, ?_⟩
  · have items : List.Forall₂ Scans ((fields.map fun field => quoted field.1 ++ ":" ++ field.2.render).map String.toList)
        (made.map fun m => .text m.1 :: .colon :: m.2.1) := by
      rw [List.map_map, List.forall₂_map_left_iff, List.forall₂_map_right_iff]
      exact told.imp fun _ _ both => scans_field both.1.2 (List.forall_mem_nil _) both.2.compact
    rw [render, renderFields_eq_map]
    exact (closes_compact rfl rfl rfl items).scans
  · intro indent blank
    have items : List.Forall₂ Scans
        ((fields.map fun field => quoted field.1 ++ ": " ++ field.2.pretty (indent ++ "  ")).map String.toList)
        (made.map fun m => .text m.1 :: .colon :: m.2.1) := by
      rw [List.map_map, List.forall₂_map_left_iff, List.forall₂_map_right_iff]
      have space : ∀ c ∈ [' '], isBlank c = true := List.forall_mem_singleton.mpr rfl
      exact told.imp fun _ _ both => scans_field both.1.2 space (both.2.indented _ (isBlank_deeper blank))
    rw [pretty, prettyFields_eq_map]
    exact (closes_block rfl rfl rfl items blank).scans
  · have entries : Document.fields? limit (made.map fun m => (m.1, m.2.2)) =
        some (fields.map fun field => (field.1, field.2.tabled)) := by
      apply fields?_of_forall₂
      rw [List.forall₂_map_left_iff, List.forall₂_map_right_iff]
      exact told.imp fun _ _ both => ⟨both.1.1, both.2.value⟩
    simp [Document.value?, entries, tabled, tabledFields_eq_map]

theorem Plain.exists_tells {limit : Nat} {json : Json} (plain : Plain limit json) :
    ∃ tokens document, Tells limit json tokens document := by
  induction plain with
  | null => exact ⟨_, _, tells_null _⟩
  | bool value => exact ⟨_, _, tells_bool _ value⟩
  | text value => exact exists_tells_text _ value
  | array _ ih => exact exists_tells_array ih
  | object _ ih => exact exists_tells_object ih

theorem read?_of_scans {text : String} {tokens : List Token} {document : Document} (scans : Scans text.toList tokens)
    (completes : Document.Completes tokens document) : read? text = document.value? Document.nestingLimit := by
  have runs : tokens.foldlM Document.step? (.value []) = some (.finished document) := completes []
  rw [read?, Document.parse?, Token.ofText?_of_scans scans, Option.bind_some, Document.ofTokens?, runs]
  rfl

variable {json : Json} (plain : Plain Document.nestingLimit json)

include plain

theorem read?_render : read? json.render = some json.tabled := by
  obtain ⟨tokens, document, tells⟩ := plain.exists_tells
  rw [read?_of_scans tells.compact tells.completes, tells.value]

theorem read?_pretty {indent : String} (blank : ∀ c ∈ indent.toList, isBlank c = true) :
    read? (json.pretty indent) = some json.tabled := by
  obtain ⟨tokens, document, tells⟩ := plain.exists_tells
  rw [read?_of_scans (tells.indented indent blank) tells.completes, tells.value]

end CompanionBuild.Json
