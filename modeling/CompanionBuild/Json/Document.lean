import CompanionBuild.Json.Token

/-! # JSON documents

A document is the tree of a JSON text before anything is decided about its strings, numbers and repeated fields.
The reader is a machine on tokens: a stack of containers that are still open, and what may come next.
-/

namespace CompanionBuild.Json

inductive Document where
  | null
  | bool (value : Bool)
  | number (value : Numeral)
  | text (pieces : List Piece)
  | array (elements : List Document)
  | object (fields : List (List Piece × Document))
deriving Inhabited

namespace Document

/-- A container that is still open, with what it holds so far in reverse. -/
inductive Frame where
  | array (seen : List Document)
  | object (seen : List (List Piece × Document)) (key : List Piece)

/-- What may come next. -/
inductive State where
  | value (pending : List Frame)
  | elementOrEnd (pending : List Frame)
  | fieldOrEnd (pending : List Frame)
  | field (seen : List (List Piece × Document)) (pending : List Frame)
  | colon (seen : List (List Piece × Document)) (key : List Piece) (pending : List Frame)
  | commaOrEnd (frame : Frame) (pending : List Frame)
  | finished (document : Document)

/-- A complete value goes into the innermost open container, or is the document. -/
def close (document : Document) : List Frame → State
  | [] => .finished document
  | .array seen :: pending => .commaOrEnd (.array (document :: seen)) pending
  | .object seen key :: pending => .commaOrEnd (.object ((key, document) :: seen) key) pending

/-- A token where a value may start. -/
def begin? (pending : List Frame) : Token → Option State
  | .leftBrace => some (.fieldOrEnd pending)
  | .leftBracket => some (.elementOrEnd pending)
  | .null => some (close .null pending)
  | .bool value => some (close (.bool value) pending)
  | .number value => some (close (.number value) pending)
  | .text pieces => some (close (.text pieces) pending)
  | _ => none

def step? : State → Token → Option State
  | .value pending, token => begin? pending token
  | .elementOrEnd pending, token =>
    if token = .rightBracket then some (close (.array []) pending)
    else begin? (.array [] :: pending) token
  | .fieldOrEnd pending, .rightBrace => some (close (.object []) pending)
  | .fieldOrEnd pending, .text key => some (.colon [] key pending)
  | .field seen pending, .text key => some (.colon seen key pending)
  | .colon seen key pending, .colon => some (.value (.object seen key :: pending))
  | .commaOrEnd (.array seen) pending, .comma => some (.value (.array seen :: pending))
  | .commaOrEnd (.array seen) pending, .rightBracket => some (close (.array seen.reverse) pending)
  | .commaOrEnd (.object seen _) pending, .comma => some (.field seen pending)
  | .commaOrEnd (.object seen _) pending, .rightBrace => some (close (.object seen.reverse) pending)
  | _, _ => none

def ofTokens? (tokens : List Token) : Option Document :=
  match tokens.foldlM step? (.value []) with
  | some (.finished document) => some document
  | _ => none

/-- The document of a whole text. -/
def parse? (text : String) : Option Document :=
  (Token.ofText? text).bind ofTokens?

/-- How many containers may be nested in a value. -/
def nestingLimit : Nat := 127

mutual

/-- The value of a document with at most `limit` nested containers; of repeated fields the last one stays. -/
def value? (limit : Nat) : Document → Option Json
  | .null => some .null
  | .bool value => some (.bool value)
  | .number value => value.number?.map .number
  | .text pieces => (Piece.string? pieces).map .text
  | .array elements =>
    match limit with
    | 0 => none
    | limit + 1 => (elements? limit elements).map .array
  | .object fields =>
    match limit with
    | 0 => none
    | limit + 1 => (fields? limit fields).map fun entries => .object (Table.ofList entries)

def elements? (limit : Nat) : List Document → Option (List Json)
  | [] => some []
  | document :: rest => do
    let value ← document.value? limit
    let values ← elements? limit rest
    some (value :: values)

def fields? (limit : Nat) : List (List Piece × Document) → Option (List (String × Json))
  | [] => some []
  | (key, document) :: rest => do
    let name ← Piece.string? key
    let value ← document.value? limit
    let entries ← fields? limit rest
    some ((name, value) :: entries)

end

end Document

/-- The value of a JSON text. -/
def read? (text : String) : Option Json :=
  (Document.parse? text).bind (Document.value? Document.nestingLimit)

end CompanionBuild.Json
