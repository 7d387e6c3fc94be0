/-
  TokenTrust.Json.Fault — what can be wrong with a JSON text, and where. A fault found in the text
  lies a number of bytes before its end. A fault of a whole container (a member missing, or given
  twice) is pending until the container's end has been looked for, and lies there.
-/

import TokenTrust.Decimal.Shortest
import TokenTrust.Text.Quoted

namespace TokenTrust.Json

/-- A value of another type than the one expected. -/
inductive Found where
  | integer (n : Int)
  | floating (x : Float)
  | boolean (b : Bool)
  | text (s : String)
  | null
  | map
  | sequence
  deriving DecidableEq

def Found.describe : Found → String
  | .integer n => s!"integer `{n}`"
  | .floating x => s!"floating point `{Decimal.ofFloat x}`"
  | .boolean b => s!"boolean `{b}`"
  | .text s => s!"string {Text.quoted s}"
  | .null => "null"
  | .map => "map"
  | .sequence => "sequence"

inductive Cause where
  | endInValue
  | endInText
  | endInList
  | endInObject
  | expectedValue
  | expectedIdent
  | expectedColon
  | expectedCommaOrBrace
  | expectedCommaOrBracket
  | keyNotText
  | trailingComma
  | trailingCharacters
  | badNumber
  | numberTooLarge
  | badEscape
  | endOfHexEscape
  | loneSurrogate
  | controlCharacter
  | wrongType (found : Found) (expected : String)
  | outOfRange (n : Int) (expected : String)
  | unknownVariant (name : String) (known : List String)
  /-- A variant with a payload, given by its name alone. -/
  | bareVariant
  | missingMember (name : String)
  | duplicateMember (name : String)
  | wrongLength (n : Nat) (expected : String)
  /-- A value refused by a reader that is stricter than the format. -/
  | refused (value : String)
  deriving DecidableEq

/-- The names a variant may have: one, two, or a list. -/
def alternatives : List String → String
  | [a] => s!"`{a}`"
  | [a, b] => s!"`{a}` or `{b}`"
  | names => "one of " ++ ", ".intercalate (names.map fun a => s!"`{a}`")

def Cause.message : Cause → String
  | .endInValue => "EOF while parsing a value"
  | .endInText => "EOF while parsing a string"
  | .endInList => "EOF while parsing a list"
  | .endInObject => "EOF while parsing an object"
  | .expectedValue => "expected value"
  | .expectedIdent => "expected ident"
  | .expectedColon => "expected `:`"
  | .expectedCommaOrBrace => "expected `,` or `\x7d`"
  | .expectedCommaOrBracket => "expected `,` or `]`"
  | .keyNotText => "key must be a string"
  | .trailingComma => "trailing comma"
  | .trailingCharacters => "trailing characters"
  | .badNumber => "invalid number"
  | .numberTooLarge => "number out of range"
  | .badEscape => "invalid escape"
  | .endOfHexEscape => "unexpected end of hex escape"
  | .loneSurrogate => "lone leading surrogate in hex escape"
  | .controlCharacter => "control character (\\u0000-\\u001F) found while parsing a string"
  | .wrongType found expected => s!"invalid type: {found.describe}, expected {expected}"
  | .outOfRange n expected => s!"invalid value: integer `{n}`, expected {expected}"
  | .unknownVariant name known => s!"unknown variant `{name}`, expected {alternatives known}"
  | .bareVariant => "invalid type: unit variant, expected newtype variant"
  | .missingMember name => s!"missing field `{name}`"
  | .duplicateMember name => s!"duplicate field `{name}`"
  | .wrongLength n expected => s!"invalid length {n}, expected {expected}"
  | .refused value => s!"refused value {value}"

/-- A fault, and how many bytes of the text lie after it, or the text left when it became
pending. -/
inductive Fault where
  | placed (cause : Cause) (left : Nat)
  | pending (cause : Cause) (rest : List Char)
  deriving DecidableEq

def width : List Char → Nat
  | [] => 0
  | c :: cs => c.utf8Size + width cs

namespace Fault

def cause : Fault → Cause
  | placed c _ => c
  | pending c _ => c

/-- A fault right before the rest of the text. -/
def here (c : Cause) (rest : List Char) : Fault := placed c (width rest)

/-- A fault just past the next byte of the rest, if there is one. -/
def past (c : Cause) (rest : List Char) : Fault := placed c (width rest - 1)

/-- Places a pending fault, where `finish` says what follows the container's end. -/
def settle (finish : List Char → List Char) : Fault → Fault
  | placed c left => placed c left
  | pending c rest => here c (finish rest)

end Fault

/-- Line and column of the byte at `offset`; columns count the bytes since the last line end. -/
def lineColumn : Nat → Nat → Nat → List Char → Nat × Nat
  | line, column, offset, c :: cs =>
    if offset < c.utf8Size then (line, column + offset)
    else if c = '\n' then lineColumn (line + 1) 0 (offset - 1) cs
    else lineColumn line (column + c.utf8Size) (offset - c.utf8Size) cs
  | line, column, _, [] => (line, column)

def Fault.describe (text : List Char) : Fault → String
  | .pending c _ => c.message
  | .placed c left =>
    let (line, column) := lineColumn 1 0 (width text - left) text
    s!"{c.message} at line {line} column {column}"

end TokenTrust.Json
