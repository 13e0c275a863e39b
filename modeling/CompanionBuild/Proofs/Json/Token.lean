import CompanionBuild.Json.Printer
import CompanionBuild.Proofs.Text.Literal
import Mathlib.Data.List.Forall2

/-! # Tokens of written texts

A piece of a JSON text has the same tokens wherever it stands: what is scanned after it is scanned as if it stood alone. A
mark, a string and blanks end by themselves; a word ends where no character follows that could go on with it.
-/

namespace CompanionBuild.Json.Token

theorem scan?_cons (mode : Mode) (c : Char) (rest : List Char) :
    scan? mode (c :: rest) = (step? mode c).bind fun made => (scan? made.2 rest).map (made.1 ++ ·) := by
  have opened : scan? mode (c :: rest) =
      (step? mode c).bind fun made => (scan? made.2 rest).bind fun others => some (made.1 ++ others) := by
    cases mode <;> rfl
  rw [opened]
  congr 1
  funext made
  cases scan? made.2 rest <;> rfl

/-- A character that completes no token only moves the scanner on. -/
theorem scan?_silent {mode next : Mode} {c : Char} (steps : step? mode c = some ([], next)) (rest : List Char) :
    scan? mode (c :: rest) = scan? next rest := by
  rw [scan?_cons, steps, Option.bind_some]
  cases scan? next rest <;> rfl

/-- A character that completes one token puts it before the tokens of the rest. -/
theorem scan?_single {mode next : Mode} {c : Char} {token : Token} (steps : step? mode c = some ([token], next))
    (rest : List Char) : scan? mode (c :: rest) = (scan? next rest).map (token :: ·) := by
  rw [scan?_cons, steps, Option.bind_some]
  rfl

/-! ## Texts that end by themselves -/

/-- The text is scanned as the tokens, whatever follows. -/
def Closes (text : List Char) (tokens : List Token) : Prop :=
  ∀ rest, scan? .between (text ++ rest) = (scan? .between rest).map (tokens ++ ·)

/-- What follows does not go on with a number or a word. -/
def Stops (rest : List Char) : Prop :=
  ∀ c ∈ rest.head?, isBare c = false

/-- The text is scanned as the tokens, if what follows does not go on with its last one. -/
def Scans (text : List Char) (tokens : List Token) : Prop :=
  ∀ rest, Stops rest → scan? .between (text ++ rest) = (scan? .between rest).map (tokens ++ ·)

variable {text more : List Char} {tokens others : List Token}

theorem Closes.scans (closes : Closes text tokens) : Scans text tokens :=
  fun rest _ => closes rest

theorem Closes.nil : Closes [] [] := by
  intro rest
  rw [List.nil_append]
  cases scan? .between rest <;> rfl

theorem map_append_append (tokens others : List Token) (scanned : Option (List Token)) :
    (scanned.map (others ++ ·)).map (tokens ++ ·) = scanned.map (tokens ++ others ++ ·) := by
  cases scanned <;> simp

theorem Closes.append (closes : Closes text tokens) (closesToo : Closes more others) :
    Closes (text ++ more) (tokens ++ others) := by
  intro rest
  rw [List.append_assoc, closes, closesToo, map_append_append]

theorem Closes.append_scans (closes : Closes text tokens) (scans : Scans more others) :
    Scans (text ++ more) (tokens ++ others) := by
  intro rest stops
  rw [List.append_assoc, closes, scans rest stops, map_append_append]

/-- A text that does not go on with a word ends the word before it. -/
theorem Scans.append_closes (scans : Scans text tokens) (closes : Closes more others) (stops : Stops more)
    (nonempty : more ≠ []) : Closes (text ++ more) (tokens ++ others) := by
  intro rest
  have first : Stops (more ++ rest) := by
    obtain ⟨c, tail, rfl⟩ := List.exists_cons_of_ne_nil nonempty
    exact stops
  rw [List.append_assoc, scans _ first, closes, map_append_append]

theorem ofText?_of_scans {text : String} (scans : Scans text.toList tokens) : ofText? text = some tokens := by
  have whole := scans [] (by simp [Stops])
  rw [List.append_nil] at whole
  rw [ofText?, whole]
  simp [scan?]

/-! ## Marks and blanks -/

theorem closes_mark {c : Char} {token : Token} (starts : start? c = some ([token], .between)) : Closes [c] [token] := by
  intro rest
  have steps : step? .between c = some ([token], .between) := starts
  rw [List.singleton_append, scan?_single steps]
  rfl

theorem closes_blanks (blank : ∀ c ∈ text, isBlank c = true) : Closes text [] := by
  induction text with
  | nil => exact Closes.nil
  | cons c rest ih =>
    obtain ⟨first, others⟩ := List.forall_mem_cons.mp blank
    have starts : step? .between c = some ([], .between) := if_pos first
    intro tail
    rw [List.cons_append, scan?_silent starts]
    exact ih others tail

/-! ## Words -/

theorem scan?_bare {word : List Char} (bare : ∀ c ∈ word, isBare c = true) (seen rest : List Char) :
    scan? (.bare seen) (word ++ rest) = scan? (.bare (word.reverse ++ seen)) rest := by
  induction word generalizing seen with
  | nil => rfl
  | cons c word ih =>
    obtain ⟨first, others⟩ := List.forall_mem_cons.mp bare
    have steps : step? (.bare seen) c = some ([], .bare (c :: seen)) := if_pos first
    rw [List.cons_append, scan?_silent steps, ih others]
    simp

/-- The end of a word completes its token before anything else is scanned. -/
theorem scan?_bare_end {seen rest : List Char} {token : Token} (read : ofBare? seen.reverse = some token)
    (stops : Stops rest) : scan? (.bare seen) rest = (scan? .between rest).map (token :: ·) := by
  cases rest with
  | nil => simp [scan?, read]
  | cons c rest =>
    have other : isBare c = false := stops c rfl
    have steps : step? (.bare seen) c = (start? c).map fun made => (token :: made.1, made.2) := by
      rw [step?, if_neg (by simp [other]), read]
      cases start? c <;> rfl
    have starts : step? .between c = start? c := rfl
    rw [scan?_cons, scan?_cons, steps, starts]
    cases start? c with
    | none => rfl
    | some made => simp [Function.comp_def]

theorem scans_word {c : Char} {word : List Char} {token : Token} (starts : start? c = some ([], .bare [c]))
    (bare : ∀ c ∈ word, isBare c = true) (read : ofBare? (c :: word) = some token) : Scans (c :: word) [token] := by
  intro rest stops
  have steps : step? .between c = some ([], .bare [c]) := starts
  have whole : ofBare? (word.reverse ++ [c]).reverse = some token := by simpa using read
  rw [List.cons_append, scan?_silent steps, scan?_bare bare, scan?_bare_end whole stops]
  rfl

/-! ## Strings -/

/-- What is written for a character between quotes is kept as the piece, and the piece is read as the character. -/
structure Keeps (piece : Piece) (c : Char) : Prop where
  scanned (seen : List Piece) (rest : List Char) :
    scan? (.text seen) (escapeChar c ++ rest) = scan? (.text (piece :: seen)) rest
  read (pieces : List Piece) : Piece.chars? (piece :: pieces) = (Piece.chars? pieces).map (c :: ·)

theorem Keeps.of_letter {letter c : Char} (written : escapeChar c = ['\\', letter]) (escape : escaped? letter = some c)
    (different : letter ≠ 'u') : Keeps (.char c) c := by
  refine ⟨fun seen rest => ?_, fun pieces => rfl⟩
  have backslash : step? (.text seen) '\\' = some ([], .escape seen) := rfl
  have steps : step? (.escape seen) letter = some ([], .text (.char c :: seen)) := by
    rw [step?, if_neg different, escape, Option.map_some]
  rw [written, List.cons_append, scan?_silent backslash, List.singleton_append, scan?_silent steps]

/-- Four digits are kept as the number that they are written for. -/
theorem Keeps.of_control {c : Char} (written : escapeChar c = Text.unicodeEscape c) (control : c.toNat < 32) :
    Keeps (.unit c.toNat) c := by
  constructor
  · intro seen rest
    have small (n : Nat) : n % 16 < 16 := Nat.mod_lt n (by decide)
    have backslash : step? (.text seen) '\\' = some ([], .escape seen) := rfl
    have letter : step? (.escape seen) 'u' = some ([], .code seen 3 0) := rfl
    have digit (left value n : Nat) : step? (.code seen (left + 1) value) (Text.hexDigit (n % 16)) =
        some ([], .code seen left (16 * value + n % 16)) := by
      rw [step?, Text.hexValue?_hexDigit _ (small n)]
      rfl
    have last (value n : Nat) : step? (.code seen 0 value) (Text.hexDigit (n % 16)) =
        some ([], .text (.unit (16 * value + n % 16) :: seen)) := by
      rw [step?, Text.hexValue?_hexDigit _ (small n)]
      rfl
    have number : 16 * (16 * (16 * (16 * 0 + c.toNat / 4096 % 16) + c.toNat / 256 % 16) + c.toNat / 16 % 16) +
        c.toNat % 16 = c.toNat := by omega
    rw [written, Text.unicodeEscape]
    simp only [List.cons_append, List.nil_append]
    rw [scan?_silent backslash, scan?_silent letter, scan?_silent (digit ..), scan?_silent (digit ..),
      scan?_silent (digit ..), scan?_silent (last ..), number]
  · intro pieces
    rw [Piece.chars?.eq_def]
    dsimp only
    rw [if_neg (by omega), if_neg (by omega), Char.ofNat_toNat]

theorem Keeps.of_plain {c : Char} (written : escapeChar c = [c]) (notQuote : c ≠ '"') (notBackslash : c ≠ '\\')
    (visible : ¬c.toNat < 32) : Keeps (.char c) c := by
  refine ⟨fun seen rest => ?_, fun pieces => rfl⟩
  have steps : step? (.text seen) c = some ([], .text (.char c :: seen)) := by
    rw [step?, if_neg notQuote, if_neg notBackslash, if_neg visible]
  rw [written, List.singleton_append, scan?_silent steps]

theorem exists_keeps (c : Char) : ∃ piece, Keeps piece c := by
  by_cases letter : c ∈ ['"', '\\', '\x08', '\x0c', '\n', '\r', '\t']
  · simp only [List.mem_cons, List.not_mem_nil, or_false] at letter
    obtain rfl | rfl | rfl | rfl | rfl | rfl | rfl := letter <;> exact ⟨_, .of_letter rfl rfl (by decide)⟩
  · simp only [List.mem_cons, List.not_mem_nil, or_false, not_or] at letter
    obtain ⟨notQuote, notBackslash, notBack, notFeed, notLine, notReturn, notTab⟩ := letter
    have written : escapeChar c = if c.toNat < 32 then Text.unicodeEscape c else [c] := by
      simp only [escapeChar, notQuote, notBackslash, notBack, notFeed, notLine, notReturn, notTab, if_false]
    by_cases control : c.toNat < 32
    · exact ⟨_, .of_control (written.trans (if_pos control)) control⟩
    · exact ⟨_, .of_plain (written.trans (if_neg control)) notQuote notBackslash control⟩

/-- What is written between quotes is scanned up to the closing one, and read as the text it was written for. -/
theorem exists_pieces (text : List Char) : ∃ pieces, Piece.chars? pieces = some text ∧
    ∀ seen rest, scan? (.text seen) (text.flatMap escapeChar ++ '"' :: rest) =
      (scan? .between rest).map (.text (seen.reverse ++ pieces) :: ·) := by
  induction text with
  | nil =>
    refine ⟨[], rfl, fun seen rest => ?_⟩
    have quote : step? (.text seen) '"' = some ([.text seen.reverse], .between) := rfl
    rw [List.flatMap_nil, List.nil_append, scan?_single quote, List.append_nil]
  | cons c text ih =>
    obtain ⟨pieces, read, scanned⟩ := ih
    obtain ⟨piece, keeps⟩ := exists_keeps c
    refine ⟨piece :: pieces, by rw [keeps.read, read, Option.map_some], fun seen rest => ?_⟩
    rw [List.flatMap_cons, List.append_assoc, keeps.scanned, scanned]
    simp

theorem exists_closes_quoted (text : String) :
    ∃ pieces, Piece.string? pieces = some text ∧ Closes (quoted text).toList [.text pieces] := by
  obtain ⟨pieces, read, scanned⟩ := exists_pieces text.toList
  refine ⟨pieces, by rw [Piece.string?, read, Option.map_some, String.ofList_toList], fun rest => ?_⟩
  have quote : step? .between '"' = some ([], .text []) := rfl
  have whole : (quoted text).toList ++ rest = '"' :: (text.toList.flatMap escapeChar ++ '"' :: rest) := by
    simp [quoted]
  rw [whole, scan?_silent quote, scanned]
  rfl

/-! ## Lists of items -/

theorem not_isBare_of_isBlank {c : Char} (blank : isBlank c = true) : isBare c = false := by
  simp only [isBlank, Bool.or_eq_true, decide_eq_true_eq] at blank
  obtain ((rfl | rfl) | rfl) | rfl := blank <;> decide

theorem stops_append {blanks rest : List Char} (blank : ∀ c ∈ blanks, isBlank c = true) (stops : Stops rest) :
    Stops (blanks ++ rest) := by
  cases blanks with
  | nil => exact stops
  | cons c blanks =>
    intro first found
    obtain rfl : c = first := by simpa using found
    exact not_isBare_of_isBlank (blank c (List.mem_cons_self ..))

section

variable {items : List (List Char)} {lists : List (List Token)} (scans : List.Forall₂ Scans items lists)

include scans

/-- Items with commas between them, and blanks after the commas. -/
theorem scans_intercalate {blanks : List Char} (blank : ∀ c ∈ blanks, isBlank c = true) :
    Scans (List.intercalate (',' :: blanks) items) (List.intercalate [.comma] lists) := by
  have comma : Closes (',' :: blanks) [.comma] := (closes_mark rfl).append (closes_blanks blank)
  induction scans with
  | nil => exact Closes.nil.scans
  | cons first rest ih =>
    cases rest with
    | nil => simpa using first
    | cons second rest =>
      have ends := first.append_closes comma (by simp [Stops, isBare]) (List.cons_ne_nil _ _)
      simpa using ends.append_scans ih

/-- Items between two marks, with blanks after the first mark, after the commas and before the last mark. -/
theorem closes_enclosed {left right : Char} {leftToken rightToken : Token} {inner outer : List Char}
    (opens : start? left = some ([leftToken], .between)) (ends : start? right = some ([rightToken], .between))
    (notBare : isBare right = false) (innerBlank : ∀ c ∈ inner, isBlank c = true)
    (outerBlank : ∀ c ∈ outer, isBlank c = true) :
    Closes (left :: inner ++ List.intercalate (',' :: inner) items ++ (outer ++ [right]))
      (leftToken :: List.intercalate [.comma] lists ++ [rightToken]) := by
  have start : Closes (left :: inner) [leftToken] := (closes_mark opens).append (closes_blanks innerBlank)
  have stop : Closes (outer ++ [right]) [rightToken] := (closes_blanks outerBlank).append (closes_mark ends)
  have stops : Stops (outer ++ [right]) := stops_append outerBlank (by simpa [Stops] using notBare)
  exact (start.append_scans (scans_intercalate scans innerBlank)).append_closes stop stops (by simp)

end

end CompanionBuild.Json.Token
