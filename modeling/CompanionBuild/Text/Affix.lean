/-! # Beginnings, ends and pieces of texts

Texts are compared as lists of characters. A look-up that can fail returns what is left of the text,
so every use that needs the remainder also has it.
-/

namespace CompanionBuild.Text

/-- What precedes `tail` in `text`, when `text` ends with `tail`. -/
def dropTail? (tail text : String) : Option String :=
  (tail.toList.isSuffixOf? text.toList).map String.ofList

/-- What follows `head` in `text`, when `text` starts with `head`. -/
def dropHead? (head text : String) : Option String :=
  (head.toList.isPrefixOf? text.toList).map String.ofList

def startsWith (text head : String) : Bool :=
  head.toList.isPrefixOf text.toList

def endsWith (text tail : String) : Bool :=
  tail.toList.isSuffixOf text.toList

/-- The text after the first occurrence of `needle`. -/
def after? (needle : List Char) : List Char → Option (List Char)
  | [] => if needle.isEmpty then some [] else none
  | c :: cs =>
    match needle.isPrefixOf? (c :: cs) with
    | some rest => some rest
    | none => after? needle cs

def contains (text needle : String) : Bool :=
  (after? needle.toList text.toList).isSome

/-- The pieces between separators; there is always at least one. -/
def split (separator : Char) : List Char → List (List Char)
  | [] => [[]]
  | c :: cs =>
    if c = separator then [] :: split separator cs
    else match split separator cs with
      | [] => [[c]]
      | piece :: pieces => (c :: piece) :: pieces

/-- The texts with `separator` between each two neighbours. -/
def joined (separator : String) (texts : List String) : String :=
  String.intercalate separator texts

theorem split_ne_nil (separator : Char) (text : List Char) : split separator text ≠ [] := by
  cases text with
  | nil => simp [split]
  | cons c cs =>
    simp only [split]
    split
    · simp
    · split <;> simp

end CompanionBuild.Text
