/-! # Byte offsets in a text

Offsets and columns count the bytes of the UTF-8 form. An offset past the end stands for the end; an offset between
the bytes of one character stands for nothing and is refused.
-/

namespace CompanionBuild.Text

/-- A place in a text, both parts counted from zero. -/
structure LineColumn where
  line : Nat
  column : Nat
deriving DecidableEq, Repr, Inhabited

/-- The refusal of an offset that lies inside a character. -/
structure SplitCharacter where
  offset : Nat
deriving DecidableEq, Repr

def byteLength : List Char → Nat
  | [] => 0
  | c :: rest => c.utf8Size + byteLength rest

/-- The characters that end at or before `offset`, none when `offset` lies inside a character. -/
def before? : List Char → Nat → Option (List Char)
  | [], _ => some []
  | c :: cs, offset =>
    if offset = 0 then some []
    else if c.utf8Size ≤ offset then (before? cs (offset - c.utf8Size)).map (c :: ·)
    else none

/-- The place after `c` is written at `here`. -/
def LineColumn.advance (here : LineColumn) (c : Char) : LineColumn :=
  if c = '\n' then ⟨here.line + 1, 0⟩ else ⟨here.line, here.column + c.utf8Size⟩

/-- The place after a whole text is written at `here`. -/
def LineColumn.after (here : LineColumn) (text : List Char) : LineColumn :=
  text.foldl LineColumn.advance here

/-- Line and column of a byte offset. -/
def lineColumn (text : String) (offset : Nat) : Except SplitCharacter LineColumn :=
  match before? text.toList offset with
  | some head => .ok (LineColumn.after ⟨0, 0⟩ head)
  | none => .error ⟨offset⟩

end CompanionBuild.Text
