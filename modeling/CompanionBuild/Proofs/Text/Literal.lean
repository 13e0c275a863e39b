import CompanionBuild.Json.Token
import CompanionBuild.Tree.Printer

/-! # Literals read back

A literal goes from its first delimiter to the next one that is not escaped, and stands for what lies between with its
escapes decoded. Whatever the text, the literal that is written for it ends where it was ended, whatever follows, and
stands for that text.
-/

namespace CompanionBuild

namespace Text

/-! ## Escaped characters -/

/-- Whether a character is escaped, given the one before it and whether that was. -/
def escapesNext (escaped : Bool) (c : Char) : Bool :=
  !escaped && c = '\\'

/-- The text ends with a backslash that is not itself escaped. -/
def endsEscaping (text : List Char) : Bool :=
  text.foldl escapesNext false

/-- Every occurrence of the needle in the body is escaped. -/
def Guards (needle body : List Char) : Prop :=
  ∀ before after, body = before ++ (needle ++ after) → endsEscaping before = true

/-- The text up to the first delimiter that is not escaped, and the text after it. -/
def upTo? (delimiter : Char) : Bool → List Char → Option (List Char × List Char)
  | _, [] => none
  | escaped, c :: cs =>
    if c = delimiter ∧ escaped = false then some ([], cs)
    else (upTo? delimiter (escapesNext escaped c) cs).map fun found => (c :: found.1, found.2)

theorem not_cons_prefix_of_ne {first c : Char} {needle rest : List Char} (different : first ≠ c) :
    ¬first :: needle <+: c :: rest :=
  fun begins => different (List.cons_prefix_cons.mp begins).1

theorem endsEscaping_plain {c : Char} (plain : c ≠ '\\') (text : List Char) :
    endsEscaping (c :: text) = endsEscaping text := by
  simp [endsEscaping, escapesNext, plain]

theorem endsEscaping_escape (c : Char) (text : List Char) :
    endsEscaping ('\\' :: c :: text) = endsEscaping text := by
  simp [endsEscaping, escapesNext]

namespace Guards

variable {needle body : List Char}

theorem nil (nonempty : needle ≠ []) : Guards needle [] := by
  intro before after parts
  simp_all

theorem plain {c : Char} (plain : c ≠ '\\') (absent : ¬needle <+: c :: body) (inner : Guards needle body) :
    Guards needle (c :: body) := by
  intro before after parts
  cases before with
  | nil => exact (absent ⟨after, parts.symm⟩).elim
  | cons first before =>
    obtain ⟨rfl, within⟩ := List.cons.inj parts
    rw [endsEscaping_plain plain]
    exact inner before after within

theorem escape {c : Char} (absent : ¬needle <+: '\\' :: c :: body) (inner : Guards needle body) :
    Guards needle ('\\' :: c :: body) := by
  intro before after parts
  cases before with
  | nil => exact (absent ⟨after, parts.symm⟩).elim
  | cons first before =>
    obtain ⟨rfl, later⟩ := List.cons.inj parts
    cases before with
    | nil => rfl
    | cons second before =>
      obtain ⟨rfl, within⟩ := List.cons.inj later
      rw [endsEscaping_escape]
      exact inner before after within

end Guards

/-- A body whose delimiters are all escaped, and which escapes nothing after it, ends at the delimiter that follows. -/
theorem upTo?_append {delimiter : Char} {body : List Char} (escaped : Bool)
    (guards : ∀ before after, body = before ++ delimiter :: after → before.foldl escapesNext escaped = true)
    (ends : body.foldl escapesNext escaped = false) (rest : List Char) :
    upTo? delimiter escaped (body ++ delimiter :: rest) = some (body, rest) := by
  induction body generalizing escaped with
  | nil => exact if_pos ⟨rfl, ends⟩
  | cons c body ih =>
    have unclosed : ¬(c = delimiter ∧ escaped = false) := by
      rintro ⟨rfl, unescaped⟩
      have escapes : escaped = true := guards [] body rfl
      simp [unescaped] at escapes
    have inner := ih (escapesNext escaped c) (fun before after parts => guards (c :: before) after (by rw [parts]; rfl)) ends
    rw [List.cons_append, upTo?, if_neg unclosed, inner]
    rfl

/-! ## Decoding -/

/-- Where the decoding of a body stands. -/
inductive EscapeMode where
  | plain
  /-- After a backslash. -/
  | escape
  /-- After the `u` of an escape. -/
  | unicode
  /-- One hexadecimal digit is to come, and so many more. -/
  | code (left value : Nat)
  /-- Inside the braces of an escape, after a digit. -/
  | braced (value : Nat)
  /-- At the first digit inside the braces of an escape. -/
  | brace
  /-- After an escaped zero, which no digit may follow. -/
  | zero
  /-- After an escaped carriage return, to which a line feed belongs. -/
  | carriage
deriving DecidableEq

namespace EscapeMode

open Json (Piece)

/-- The character that a letter stands for after a backslash; most characters stand for themselves. -/
def escaped (c : Char) : Char :=
  if c = 'b' then '\x08'
  else if c = 'f' then '\x0c'
  else if c = 'n' then '\n'
  else if c = 'r' then '\r'
  else if c = 't' then '\t'
  else if c = 'v' then '\x0b'
  else c

def outside (c : Char) : List Piece × EscapeMode :=
  if c = '\\' then ([], .escape) else ([.char c], .plain)

/-- The character after a backslash. An escaped end of a line stands for nothing. -/
def afterBackslash (c : Char) : Option (List Piece × EscapeMode) :=
  if c = 'u' then some ([], .unicode)
  else if c = 'x' then some ([], .code 1 0)
  else if c = '0' then some ([.char '\x00'], .zero)
  else if c.isDigit then none
  else if c = '\r' then some ([], .carriage)
  else if c = '\n' ∨ c = '\u2028' ∨ c = '\u2029' then some ([], .plain)
  else some ([.char (escaped c)], .plain)

/-- A number with so many digits to come. -/
def numbered : Nat → Nat → List Piece × EscapeMode
  | 0, value => ([.unit value], .plain)
  | left + 1, value => ([], .code left value)

def digit (left value : Nat) (c : Char) : Option (List Piece × EscapeMode) :=
  (Json.Token.hexValue? c).map fun digit => numbered left (16 * value + digit)

/-- A digit inside the braces of an escape, whose number is that of a code point. -/
def bracedDigit (value : Nat) (c : Char) : Option (List Piece × EscapeMode) := do
  let digit ← Json.Token.hexValue? c
  if 16 * value + digit < 0x110000 then some ([], .braced (16 * value + digit)) else none

/-- One character: the pieces it completes and where the decoding stands after it. -/
def step? : EscapeMode → Char → Option (List Piece × EscapeMode)
  | .plain, c => some (outside c)
  | .escape, c => afterBackslash c
  | .unicode, c => if c = '\x7b' then some ([], .brace) else digit 3 0 c
  | .code left value, c => digit left value c
  | .brace, c => bracedDigit 0 c
  | .braced value, c => if c = '\x7d' then some ([.unit value], .plain) else bracedDigit value c
  | .zero, c => if c.isDigit then none else some (outside c)
  | .carriage, c => if c = '\n' then some ([], .plain) else some (outside c)

/-- The pieces of a body from a place in it on. No body ends inside an escape. -/
def pieces? : EscapeMode → List Char → Option (List Piece)
  | mode, [] => if mode = .plain ∨ mode = .zero ∨ mode = .carriage then some [] else none
  | mode, c :: cs => (mode.step? c).bind fun read => (pieces? read.2 cs).map (read.1 ++ ·)

theorem pieces?_step {mode next : EscapeMode} {c : Char} {pieces : List Piece}
    (step : mode.step? c = some (pieces, next)) (rest : List Char) :
    pieces? mode (c :: rest) = (pieces? next rest).map (pieces ++ ·) := by
  rw [pieces?, step]
  rfl

end EscapeMode

/-- The text that a body stands for. Escapes that form a surrogate pair are one character. -/
def unescape? (body : List Char) : Option (List Char) :=
  (EscapeMode.pieces? .plain body).bind Json.Piece.chars?

/-- A piece of a body that is read as one character is the first of the text. -/
theorem unescape?_of_pieces? {body rest : List Char} {piece : Json.Piece} {c : Char}
    (reads : EscapeMode.pieces? .plain body = (EscapeMode.pieces? .plain rest).map (piece :: ·))
    (stands : ∀ more, Json.Piece.chars? (piece :: more) = (Json.Piece.chars? more).map (c :: ·)) :
    unescape? body = (unescape? rest).map (c :: ·) := by
  rw [unescape?, unescape?, reads]
  cases EscapeMode.pieces? .plain rest with
  | none => rfl
  | some more => exact stands more

theorem unescape?_plain {c : Char} (plain : c ≠ '\\') (rest : List Char) :
    unescape? (c :: rest) = (unescape? rest).map (c :: ·) := by
  have read : EscapeMode.step? .plain c = some ([.char c], .plain) := congrArg some (if_neg plain)
  exact unescape?_of_pieces? (EscapeMode.pieces?_step read rest) fun _ => rfl

theorem unescape?_escape {letter c : Char} (escape : EscapeMode.step? .escape letter = some ([.char c], .plain))
    (rest : List Char) : unescape? ('\\' :: letter :: rest) = (unescape? rest).map (c :: ·) := by
  have backslash : EscapeMode.step? .plain '\\' = some ([], .escape) := rfl
  have read : EscapeMode.pieces? .plain ('\\' :: letter :: rest) =
      (EscapeMode.pieces? .plain rest).map (.char c :: ·) := by
    rw [EscapeMode.pieces?_step backslash, EscapeMode.pieces?_step escape, Option.map_map]
    rfl
  exact unescape?_of_pieces? read fun _ => rfl

/-! ## String literals -/

theorem hexValue?_hexDigit : ∀ n < 16, Json.Token.hexValue? (hexDigit n) = some n := by
  decide

theorem hexDigit_plain : ∀ n < 16,
    hexDigit n ≠ '\\' ∧ hexDigit n ≠ '"' ∧ hexDigit n ≠ '\x7b' ∧ 32 ≤ (hexDigit n).toNat := by
  decide

theorem digit_hexDigit (left value : Nat) {n : Nat} (small : n < 16) :
    EscapeMode.digit left value (hexDigit n) = some (EscapeMode.numbered left (16 * value + n)) := by
  rw [EscapeMode.digit, hexValue?_hexDigit n small]
  rfl

/-- The four digits of an escape are read as the number of its character. -/
theorem pieces?_unicodeEscape {c : Char} (control : c.toNat < 32) (rest : List Char) :
    EscapeMode.pieces? .plain (unicodeEscape c ++ rest) =
      (EscapeMode.pieces? .plain rest).map (.unit c.toNat :: ·) := by
  have small (n : Nat) : n % 16 < 16 := Nat.mod_lt n (by decide)
  have backslash : EscapeMode.step? .plain '\\' = some ([], .escape) := rfl
  have letter : EscapeMode.step? .escape 'u' = some ([], .unicode) := rfl
  have first : EscapeMode.step? .unicode (hexDigit (c.toNat / 4096 % 16)) = some (EscapeMode.numbered 3 _) :=
    (if_neg (hexDigit_plain _ (small _)).2.2.1).trans (digit_hexDigit 3 0 (small _))
  have next (left value n : Nat) : EscapeMode.step? (.code left value) (hexDigit (n % 16)) =
      some (EscapeMode.numbered left (16 * value + n % 16)) := digit_hexDigit left value (small n)
  have number : 16 * (16 * (16 * (16 * 0 + c.toNat / 4096 % 16) + c.toNat / 256 % 16) + c.toNat / 16 % 16) +
      c.toNat % 16 = c.toNat := by omega
  simp only [unicodeEscape, List.cons_append, List.nil_append]
  rw [EscapeMode.pieces?_step backslash, EscapeMode.pieces?_step letter, EscapeMode.pieces?_step first,
    EscapeMode.pieces?_step (next 2 _ _), EscapeMode.pieces?_step (next 1 _ _), EscapeMode.pieces?_step (next 0 _ _),
    number]
  simp only [Option.map_map]
  rfl

theorem unescape?_unicodeEscape {c : Char} (control : c.toNat < 32) (rest : List Char) :
    unescape? (unicodeEscape c ++ rest) = (unescape? rest).map (c :: ·) := by
  refine unescape?_of_pieces? (pieces?_unicodeEscape control rest) fun more => ?_
  have high : ¬(0xD800 ≤ c.toNat ∧ c.toNat < 0xDC00) := by omega
  have low : ¬(0xDC00 ≤ c.toNat ∧ c.toNat < 0xE000) := by omega
  rw [Json.Piece.chars?.eq_def]
  simp only [high, low, Char.ofNat_toNat]
  rfl

/-- The ways to write a character between quotes: a letter or the character itself after a backslash, its number, or the
character alone. -/
inductive Writes (c : Char) : List Char → Prop
  | escape {letter : Char} (stands : EscapeMode.step? .escape letter = some ([.char c], .plain))
      (visible : 32 ≤ letter.toNat) : Writes c ['\\', letter]
  | number (control : c.toNat < 32) : Writes c (unicodeEscape c)
  | alone (plain : c ≠ '\\') (inner : c ≠ '"') (visible : 32 ≤ c.toNat) : Writes c [c]

theorem writes_escapeChar (c : Char) : Writes c (escapeChar c) := by
  fun_cases escapeChar c with
  | case1 quote =>
    subst quote
    exact .escape rfl (by decide)
  | case2 _ backslash =>
    subst backslash
    exact .escape rfl (by decide)
  | case3 _ _ line =>
    subst line
    exact .escape rfl (by decide)
  | case4 _ _ _ carriage =>
    subst carriage
    exact .escape rfl (by decide)
  | case5 _ _ _ _ tab =>
    subst tab
    exact .escape rfl (by decide)
  | case6 _ _ _ _ _ control => exact .number control
  | case7 inner plain _ _ _ visible => exact .alone plain inner (Nat.le_of_not_lt visible)

section

variable {c : Char} {written : List Char} (writes : Writes c written) (rest : List Char)

include writes

theorem Writes.unescape? : unescape? (written ++ rest) = (Text.unescape? rest).map (c :: ·) := by
  cases writes with
  | escape stands => exact unescape?_escape stands rest
  | number control => exact unescape?_unicodeEscape control rest
  | alone plain => exact unescape?_plain plain rest

theorem Writes.endsEscaping : endsEscaping (written ++ rest) = Text.endsEscaping rest := by
  have small (n : Nat) : n % 16 < 16 := Nat.mod_lt n (by decide)
  cases writes with
  | escape => exact endsEscaping_escape _ rest
  | alone plain => exact endsEscaping_plain plain rest
  | number =>
    have digit (n : Nat) (rest : List Char) : Text.endsEscaping (hexDigit (n % 16) :: rest) = Text.endsEscaping rest :=
      endsEscaping_plain (hexDigit_plain _ (small n)).1 rest
    simp only [unicodeEscape, List.cons_append, List.nil_append, endsEscaping_escape, digit]

theorem Writes.guards {rest : List Char} (inner : Guards ['"'] rest) : Guards ['"'] (written ++ rest) := by
  have small (n : Nat) : n % 16 < 16 := Nat.mod_lt n (by decide)
  cases writes with
  | escape => exact inner.escape (not_cons_prefix_of_ne (by decide))
  | alone plain different => exact inner.plain plain (not_cons_prefix_of_ne (Ne.symm different))
  | number =>
    have digit (n : Nat) {rest : List Char} (inner : Guards ['"'] rest) : Guards ['"'] (hexDigit (n % 16) :: rest) :=
      inner.plain (hexDigit_plain _ (small n)).1 (not_cons_prefix_of_ne (Ne.symm (hexDigit_plain _ (small n)).2.1))
    exact (digit _ (digit _ (digit _ (digit _ inner)))).escape (not_cons_prefix_of_ne (by decide))

omit rest in
theorem Writes.visible : ∀ d ∈ written, 32 ≤ d.toNat := by
  have digit (n : Nat) : 32 ≤ (hexDigit (n % 16)).toNat := (hexDigit_plain _ (Nat.mod_lt n (by decide))).2.2.2
  cases writes with
  | escape _ visible => simpa using visible
  | alone _ _ visible => simpa using visible
  | number => simp [unicodeEscape, digit]

end

theorem unescape?_quoteBody (text : List Char) : unescape? (quoteBody text) = some text := by
  induction text with
  | nil => rfl
  | cons c rest ih =>
    rw [quoteBody, List.flatMap_cons, (writes_escapeChar c).unescape?]
    exact congrArg (Option.map (c :: ·)) ih

theorem endsEscaping_quoteBody (text : List Char) : endsEscaping (quoteBody text) = false := by
  induction text with
  | nil => rfl
  | cons c rest ih => rwa [quoteBody, List.flatMap_cons, (writes_escapeChar c).endsEscaping]

theorem guards_quoteBody (text : List Char) : Guards ['"'] (quoteBody text) := by
  induction text with
  | nil => exact .nil (by decide)
  | cons c rest ih =>
    rw [quoteBody, List.flatMap_cons]
    exact (writes_escapeChar c).guards ih

theorem visible_quoteBody (text : List Char) : ∀ c ∈ quoteBody text, 32 ≤ c.toNat := by
  intro c member
  obtain ⟨d, -, written⟩ := List.mem_flatMap.mp member
  exact (writes_escapeChar d).visible c written

/-! ## Template literals -/

theorem unescape?_templateBody (text : List Char) : unescape? (templateBody text) = some text := by
  fun_induction templateBody text with
  | case1 => rfl
  | case2 rest ih =>
    rw [unescape?_escape rfl, ih]
    rfl
  | case3 rest _ ih =>
    rw [unescape?_escape rfl, ih]
    rfl
  | case4 c rest _ _ opens ih =>
    obtain ⟨rfl, -⟩ := opens
    rw [unescape?_escape rfl, ih]
    rfl
  | case5 c rest plain _ _ ih =>
    rw [unescape?_plain plain, ih]
    rfl

theorem endsEscaping_templateBody (text : List Char) : endsEscaping (templateBody text) = false := by
  fun_induction templateBody text with
  | case1 => rfl
  | case2 rest ih => rwa [endsEscaping_escape]
  | case3 rest _ ih => rwa [endsEscaping_escape]
  | case4 c rest _ _ _ ih => rwa [endsEscaping_escape]
  | case5 c rest plain _ _ ih => rwa [endsEscaping_plain plain]

theorem guards_templateBody (text : List Char) : Guards [backQuote] (templateBody text) := by
  have escaped (c : Char) {rest : List Char} (ih : Guards [backQuote] rest) : Guards [backQuote] ('\\' :: c :: rest) :=
    ih.escape (not_cons_prefix_of_ne (by decide))
  fun_induction templateBody text with
  | case1 => exact .nil (by decide)
  | case2 rest ih => exact escaped _ ih
  | case3 rest _ ih => exact escaped _ ih
  | case4 c rest _ _ _ ih => exact escaped _ ih
  | case5 c rest plain inner _ ih => exact ih.plain plain (not_cons_prefix_of_ne (Ne.symm inner))

/-- A body starts with an opening brace only where its text does. -/
theorem head?_of_templateBody {text : List Char} (opens : (templateBody text).head? = some '\x7b') :
    text.head? = some '\x7b' := by
  revert opens
  fun_cases templateBody text with
  | case1 => simp
  | case2 => simp
  | case3 => simp
  | case4 => simp
  | case5 => simp

theorem guards_templateBody_substitution (text : List Char) : Guards ['$', '\x7b'] (templateBody text) := by
  have escaped (c : Char) {rest : List Char} (ih : Guards ['$', '\x7b'] rest) :
      Guards ['$', '\x7b'] ('\\' :: c :: rest) := ih.escape (not_cons_prefix_of_ne (by decide))
  fun_induction templateBody text with
  | case1 => exact .nil (by decide)
  | case2 rest ih => exact escaped _ ih
  | case3 rest _ ih => exact escaped _ ih
  | case4 c rest _ _ _ ih => exact escaped _ ih
  | case5 c rest plain _ closed ih =>
    refine ih.plain plain fun opens => closed ?_
    obtain ⟨dollar, brace⟩ := List.cons_prefix_cons.mp opens
    exact ⟨dollar.symm, head?_of_templateBody (List.singleton_prefix_iff_head?_eq_some.mp brace)⟩

/-- The text with a backslash before every occurrence of the needle. -/
def guarded (needle : List Char) : List Char → List Char
  | [] => []
  | c :: cs => if needle <+: c :: cs then '\\' :: c :: guarded needle cs else c :: guarded needle cs

theorem guarded_of_absent {needle rest : List Char} {c : Char} (absent : ¬needle <+: c :: rest) :
    guarded needle (c :: rest) = c :: guarded needle rest :=
  if_neg absent

theorem guarded_of_ne {first c : Char} {needle rest : List Char} (different : first ≠ c) :
    guarded (first :: needle) (c :: rest) = c :: guarded (first :: needle) rest :=
  guarded_of_absent (not_cons_prefix_of_ne different)

theorem guarded_self (c : Char) (rest : List Char) : guarded [c] (c :: rest) = '\\' :: c :: guarded [c] rest :=
  if_pos ⟨rest, rfl⟩

/-- A backslash before other characters leaves an opening brace where it is. -/
theorem head?_guarded {c : Char} (different : c ≠ '\x7b') (text : List Char) :
    (guarded [c] text).head? = some '\x7b' ↔ text.head? = some '\x7b' := by
  cases text with
  | nil => rfl
  | cons first rest =>
    by_cases same : c = first
    · subst same
      simp [guarded_self, different]
    · simp [guarded_of_ne same]

/-- One pass does what three do in turn, the one over backslashes first. -/
theorem templateBody_eq_guarded (text : List Char) :
    templateBody text = guarded ['$', '\x7b'] (guarded [backQuote] (guarded ['\\'] text)) := by
  have opens (rest : List Char) :
      (guarded [backQuote] (guarded ['\\'] rest)).head? = some '\x7b' ↔ rest.head? = some '\x7b' :=
    (head?_guarded (by decide) _).trans (head?_guarded (by decide) _)
  fun_induction templateBody text with
  | case1 => rfl
  | case2 rest ih =>
    rw [guarded_self, guarded_of_ne (by decide), guarded_of_ne (by decide), guarded_of_ne (by decide),
      guarded_of_ne (by decide), ih]
  | case3 rest _ ih =>
    rw [guarded_of_ne (by decide), guarded_self, guarded_of_ne (by decide), guarded_of_ne (by decide), ih]
  | case4 c rest plain inner substitutes ih =>
    obtain ⟨rfl, brace⟩ := substitutes
    rw [guarded_of_ne (Ne.symm plain), guarded_of_ne (Ne.symm inner), ih]
    obtain ⟨more, whole⟩ := List.head?_eq_some_iff.mp ((opens rest).mpr brace)
    rw [whole]
    exact (if_pos ⟨more, rfl⟩).symm
  | case5 c rest plain inner closed ih =>
    rw [guarded_of_ne (Ne.symm plain), guarded_of_ne (Ne.symm inner), guarded_of_absent, ih]
    intro begins
    obtain ⟨dollar, brace⟩ := List.cons_prefix_cons.mp begins
    exact closed ⟨dollar.symm, (opens rest).mp (List.singleton_prefix_iff_head?_eq_some.mp brace)⟩

/-! ## What literals stand for -/

/-- Between two delimiters the body is a literal that stands for the text, and the literal ends there, whatever
follows. -/
structure StandsFor (delimiter : Char) (body text : List Char) : Prop where
  decodes : unescape? body = some text
  guards : Guards [delimiter] body
  ends : ∀ rest, upTo? delimiter false (body ++ delimiter :: rest) = some (body, rest)

theorem StandsFor.of_guards {delimiter : Char} {body text : List Char} (decodes : unescape? body = some text)
    (guards : Guards [delimiter] body) (ends : endsEscaping body = false) : StandsFor delimiter body text where
  decodes := decodes
  guards := guards
  ends := upTo?_append false guards ends

/-- A body between the quotes of a string literal, on one line and without other control characters. -/
structure IsStringBody (body text : List Char) : Prop extends StandsFor '"' body text where
  visible : ∀ c ∈ body, 0x20 ≤ c.toNat

/-- A body between the quotes of a template literal, without substitutions. -/
structure IsTemplateBody (body text : List Char) : Prop extends StandsFor backQuote body text where
  whole : Guards ['$', '\x7b'] body

end Text

/-- A literal is written on a page in one piece, its own line ends left as they are. -/
theorem Page.text_draw_literal (page : Page) (span : Span) (handle : String → String) {value : Literal}
    (nonempty : value.text ≠ "") :
    (page.draw ((Expr.literal span value).strokes handle)).text.toList =
      page.text.toList ++ (page.margin ++ value.text.toList) := by
  have marked : (page.stroke (.mark span)).text = page.text ∧ (page.stroke (.mark span)).margin = page.margin := by
    simp only [Page.stroke]
    split <;> exact ⟨rfl, rfl⟩
  have drawn : page.draw ((Expr.literal span value).strokes handle) =
      (page.stroke (.mark span)).stroke (.write value.text) := rfl
  rw [drawn, Page.stroke, if_neg nonempty, Page.append, marked.1, marked.2]
  simp

/-- Whatever the text, its string literal and the template literal that is written for it on a page stand for it and end
where they were ended. A template escapes backslashes, back quotes and openings of substitutions, in this order, and
nothing else. -/
theorem Text.literals_read_back (text : String) :
    (∃ body, (quote text).toList = '"' :: body ++ ['"'] ∧ IsStringBody body text.toList) ∧
    ∃ body, (∀ page span handle, (Page.draw page ((Expr.literal span (.template text)).strokes handle)).text.toList =
        page.text.toList ++ (page.margin ++ (backQuote :: body ++ [backQuote]))) ∧
      IsTemplateBody body text.toList ∧
      body = guarded ['$', '\x7b'] (guarded [backQuote] (guarded ['\\'] text.toList)) := by
  constructor
  · refine ⟨quoteBody text.toList, by simp [quote], ?_⟩
    exact ⟨.of_guards (unescape?_quoteBody _) (guards_quoteBody _) (endsEscaping_quoteBody _), visible_quoteBody _⟩
  · have written : (Literal.template text).text.toList = backQuote :: templateBody text.toList ++ [backQuote] :=
      String.toList_ofList
    have nonempty : (Literal.template text).text ≠ "" := by
      intro empty
      simp [empty] at written
    refine ⟨templateBody text.toList, fun page span handle => ?_, ?_, templateBody_eq_guarded _⟩
    · rw [page.text_draw_literal span handle nonempty, written]
    · exact ⟨.of_guards (unescape?_templateBody _) (guards_templateBody _) (endsEscaping_templateBody _),
        guards_templateBody_substitution _⟩

/-- Escapes that no literal is written with are decoded, too. -/
example : Text.unescape? "\\x41\\u\x7b1f600\x7d\\ud83d\\ude00\\0\\v\\\r\n\\q".toList =
    some ['A', '😀', '😀', '\x00', '\x0b', 'q'] := by
  decide +kernel

end CompanionBuild
