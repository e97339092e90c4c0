import WidgetFlow.Json.Basic

/-!
# Reading JSON

A text is cut into tokens, and the tokens are read with a stack of the arrays and objects that are still open. Both are
folds, over the characters and over the tokens. Text after the value is refused. An array or object that is nested too
deep only has to be well formed, and nothing can be read from it.
-/

namespace WidgetFlow.Json

open Spelling

/-! ## Tokens -/

/-- What a word outside of strings means. -/
def word? (cs : List Char) : Option Json :=
  if cs = "null".toList then some .null
  else if cs = "true".toList then some (.bool true)
  else if cs = "false".toList then some (.bool false)
  else if isNumber cs then some (.number (String.ofList cs))
  else none

inductive Token where
  | openArr | closeArr | openObj | closeObj | comma | colon
  | text (spelling : String)
  | word (j : Json)

/-- Where the scanner is: between tokens, in a word, in a string, or after a backslash in a string. What was read of
the word or string comes last character first. -/
inductive Scan where
  | between
  | word (read : List Char)
  | text (read : List Char)
  | escape (read : List Char)

/-- The scanner and its tokens, last token first. -/
structure Scanner where
  mode : Scan := .between
  tokens : List Token := []

def isBlank (c : Char) : Bool := c = ' ' || c = '\t' || c = '\n' || c = '\r'

def punctuation? : Char → Option Token
  | '[' => some .openArr
  | ']' => some .closeArr
  | '\x7b' => some .openObj
  | '\x7d' => some .closeObj
  | ',' => some .comma
  | ':' => some .colon
  | _ => none

/-- A character between tokens. -/
def scanBetween (tokens : List Token) (c : Char) : Scanner :=
  if isBlank c then { tokens }
  else if c = '"' then { mode := .text [], tokens }
  else match punctuation? c with
    | some t => { tokens := t :: tokens }
    | none => { mode := .word [c], tokens }

/-- The end of a string. -/
def scanText (tokens : List Token) (cs : List Char) : Option Scanner :=
  if isString cs then some { tokens := .text (String.ofList cs) :: tokens } else none

def Scanner.step (s : Scanner) (c : Char) : Option Scanner :=
  match s.mode with
  | .between => some (scanBetween s.tokens c)
  | .word read =>
    if isBlank c || c = '"' || (punctuation? c).isSome then
      (word? read.reverse).map fun j => scanBetween (.word j :: s.tokens) c
    else some { s with mode := .word (c :: read) }
  | .text read =>
    if c = '"' then scanText s.tokens read.reverse
    else if c = '\\' then some { s with mode := .escape (c :: read) }
    else some { s with mode := .text (c :: read) }
  | .escape read => some { s with mode := .text (c :: read) }

/-- The tokens at the end of the text. -/
def Scanner.finish (s : Scanner) : Option (List Token) :=
  match s.mode with
  | .between => some s.tokens.reverse
  | .word read => (word? read.reverse).map fun j => (.word j :: s.tokens).reverse
  | _ => none

def tokens? (cs : List Char) : Option (List Token) :=
  (cs.foldlM Scanner.step {}).bind Scanner.finish

/-! ## Values -/

/-- An array or object that is open: what it has so far, last first, and the name of the member that is read. -/
inductive Frame where
  | arr (items : List Json)
  | obj (members : List (String × Json)) (name : String)

/-- What must follow: a value; a first item or the end of the array; a first name or the end of the object; a name; a
colon; or, after a complete value, a comma or an end. -/
inductive Parse where
  | value (frames : List Frame)
  | firstItem (frames : List Frame)
  | firstName (frames : List Frame)
  | name (members : List (String × Json)) (frames : List Frame)
  | colon (members : List (String × Json)) (name : String) (frames : List Frame)
  | after (j : Json) (frames : List Frame)

/-- Arrays and objects that are nested this deep cannot be read. -/
def maxDepth : Nat := 128

/-- A complete array or object inside of the frames. -/
def closed (frames : List Frame) (j : Json) : Json :=
  if frames.length + 1 < maxDepth then j else .unreadable

/-- A token where a value begins. -/
def beginValue (frames : List Frame) : Token → Option Parse
  | .word j => some (.after j frames)
  | .text s => some (.after (.string s) frames)
  | .openArr => some (.firstItem frames)
  | .openObj => some (.firstName frames)
  | _ => none

/-- A token after a complete value. -/
def endValue (j : Json) : List Frame → Token → Option Parse
  | .arr items :: frames, .comma => some (.value (.arr (j :: items) :: frames))
  | .arr items :: frames, .closeArr => some (.after (closed frames (.arr (j :: items).reverse)) frames)
  | .obj members name :: frames, .comma => some (.name ((name, j) :: members) frames)
  | .obj members name :: frames, .closeObj =>
    some (.after (closed frames (.object ((name, j) :: members).reverse)) frames)
  | _, _ => none

def Parse.step : Parse → Token → Option Parse
  | .value frames, t => beginValue frames t
  | .firstItem frames, .closeArr => some (.after (closed frames (.arr [])) frames)
  | .firstItem frames, t => beginValue (.arr [] :: frames) t
  | .firstName frames, .closeObj => some (.after (closed frames (.object [])) frames)
  | .firstName frames, .text s => some (.colon [] s frames)
  | .firstName _, _ => none
  | .name members frames, .text s => some (.colon members s frames)
  | .name _ _, _ => none
  | .colon members key frames, .colon => some (.value (.obj members key :: frames))
  | .colon _ _ _, _ => none
  | .after j frames, t => endValue j frames t

/-- The value at the end of the tokens. -/
def Parse.finish : Parse → Option Json
  | .after j [] => some j
  | _ => none

/-- The value that a text holds. -/
def read? (text : String) : Option Json := do
  let tokens ← tokens? text.toList
  let parse ← tokens.foldlM Parse.step (.value [])
  parse.finish

end WidgetFlow.Json
