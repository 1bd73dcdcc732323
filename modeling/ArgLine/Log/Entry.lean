import ArgLine.Log.Level

/-!
# ArgLine.Log.Entry

A log entry: a level, a message and fields in order.  `Entry.line` writes it as
one line of JSON.

1. The level and the message come first, then the fields; a field may repeat a
   key, or be called like the first two.
2. There is no blank between the parts.
3. A string escapes the quote, the backslash, newline, carriage return and tab
   by a letter, other controls by `\u` and four digits, and a stray byte as the
   replacement character; all else stands for itself.
4. An entry of level `error` or above ends with a stack trace, written `-`.
5. An address is shown by what matters of it, `<aligned>` for a multiple of 64
   other than zero, because where memory lies changes from run to run.
-/

namespace ArgLine

namespace Log

/-- The value of a field. -/
inductive Value where
  | text (t : Bytes)
  | int (n : Int)
  | flag (b : Bool)
  /-- Where a byte lies in memory. -/
  | address (a : UInt64)
  deriving DecidableEq, Repr

/-- A key with its value. -/
structure Field where
  key : Bytes
  value : Value
  deriving DecidableEq, Repr

/-- What is logged at once. -/
structure Entry where
  level : Level
  message : Bytes
  fields : List Field
  deriving DecidableEq, Repr

/-- How an address is shown. -/
def showAddress (a : UInt64) : Bytes :=
  if a ≠ 0 ∧ a % 64 = 0 then ascii "<aligned>"
  else ascii "0x" ++ Hexadecimal.ofNat a.toNat

/-! ## Lines -/

/-- A character inside a JSON string. -/
def escapeChar (c : Char) : Bytes :=
  if c = '"' ∨ c = '\\' then ascii "\\" ++ String.utf8EncodeChar c
  else if c = '\n' then ascii "\\n"
  else if c = '\r' then ascii "\\r"
  else if c = '\t' then ascii "\\t"
  else if c.toNat < 0x20 then ascii "\\u" ++ Hexadecimal.padded 4 c.toNat
  else String.utf8EncodeChar c

/-- A piece of a text inside a JSON string. -/
def escape : Utf8.Piece → Bytes
  | .scalar c => escapeChar c
  | .stray _ => ascii "\\ufffd"

/-- A text as a JSON string. -/
def jsonString (text : Bytes) : Bytes :=
  ascii "\"" ++ (Utf8.pieces text).flatMap escape ++ ascii "\""

/-- A value as JSON. -/
def Value.json : Value → Bytes
  | text t => jsonString t
  | int n => Decimal.ofInt n
  | flag true => ascii "true"
  | flag false => ascii "false"
  | address a => jsonString (showAddress a)

/-- A field as a member of a JSON object, with the comma before it. -/
def Field.json (f : Field) : Bytes :=
  ascii "," ++ jsonString f.key ++ ascii ":" ++ f.value.json

/-- The stack trace of an entry, for the levels that have one. -/
def traceFields (l : Level) : List Field :=
  if Level.error ≤ l then [⟨ascii "stacktrace", .text (ascii "-")⟩] else []

/-- An entry as one line of JSON. -/
def Entry.line (e : Entry) : Bytes :=
  ascii "\x7b\"level\":" ++ jsonString e.level.name ++ ascii ",\"msg\":" ++ jsonString e.message ++
    (e.fields ++ traceFields e.level).flatMap Field.json ++ ascii "\x7d" ++ [Bytes.newline]

end Log

end ArgLine
