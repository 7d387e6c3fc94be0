/-
  TokenTrust.Json.Skip — passing over the value of a member nobody asked for. Its syntax is
  checked to any depth, but nothing of it is kept: escapes need not form characters, and numbers
  need not fit any type.
-/

import TokenTrust.Json.Scan

namespace TokenTrust.Json

/-! ## Texts and numbers -/

def skipTextFrom : TextState → List Char → Except Fault (List Char)
  | .plain, c :: s =>
    if c = '"' then .ok s
    else if c = '\\' then skipTextFrom .escape s
    else if c.toNat < 0x20 then .error (.here .controlCharacter (c :: s))
    else skipTextFrom .plain s
  | .escape, c :: s =>
    if c = 'u' then skipTextFrom (.hex none 3 0) s
    else if (escaped? c).isSome then skipTextFrom .plain s
    else .error (.past .badEscape (c :: s))
  | .hex high n value, c :: s =>
    match hexDigit? c, n with
    | none, _ => .error (hexFault (n + 1) (c :: s))
    | some _, 0 => skipTextFrom .plain s
    | some _, n + 1 => skipTextFrom (.hex high n value) s
  | _, _ => .error (.placed .endInText 0)

def skipText (s : List Char) : Except Fault (List Char) := skipTextFrom .plain s

def skipExponent (s : List Char) : Except Fault (List Char) :=
  let s := match s with
    | '+' :: r => r
    | '-' :: r => r
    | r => r
  match s with
  | [] => .error (.placed .badNumber 0)
  | c :: r =>
    if c.isDigit then .ok (r.dropWhile Char.isDigit) else .error (.past .badNumber (c :: r))

def skipNumberTail (s : List Char) : Except Fault (List Char) :=
  match s with
  | '.' :: r =>
    match digits r with
    | ([], r) => .error (.past .badNumber r)
    | (_, 'e' :: r) => skipExponent r
    | (_, 'E' :: r) => skipExponent r
    | (_, r) => .ok r
  | 'e' :: r => skipExponent r
  | 'E' :: r => skipExponent r
  | r => .ok r

def skipNumber (s : List Char) : Except Fault (List Char) :=
  match s with
  | [] => .error (.placed .badNumber 0)
  | c :: r =>
    if c = '0' then
      match r with
      | c' :: _ => if c'.isDigit then .error (.past .badNumber r) else skipNumberTail r
      | [] => .ok []
    else if c.isDigit then skipNumberTail (r.dropWhile Char.isDigit)
    else .error (.past .badNumber (c :: r))

/-! ## Values -/

inductive Bracket where
  | list
  | object
  deriving DecidableEq

def Bracket.close : Bracket → Char
  | .list => ']'
  | .object => '\x7d'

def Bracket.endFault : Bracket → Fault
  | .list => .placed .endInList 0
  | .object => .placed .endInObject 0

def Bracket.expectedComma : Bracket → Cause
  | .list => .expectedCommaOrBracket
  | .object => .expectedCommaOrBrace

/-- What is to be read next inside the open brackets, the innermost first. -/
inductive Next where
  | value
  /-- A bracket has just been opened. -/
  | first (b : Bracket)
  | key
  /-- A value has just ended. -/
  | after
  deriving DecidableEq

def scalar (s : List Char) : Except Fault (List Char) :=
  match s with
  | 'n' :: r => word ['u', 'l', 'l'] r
  | 't' :: r => word ['r', 'u', 'e'] r
  | 'f' :: r => word ['a', 'l', 's', 'e'] r
  | '-' :: r => skipNumber r
  | '"' :: r => skipText r
  | c :: _ => if c.isDigit then skipNumber s else .error (.past .expectedValue s)
  | [] => .error (.placed .endInValue 0)

def colon (s : List Char) : Except Fault (List Char) :=
  match skip s with
  | [] => .error (.placed .endInObject 0)
  | c :: r => if c = ':' then .ok r else .error (.past .expectedColon (c :: r))

/-- Reads on in at most `fuel` steps, each of which takes a character or closes the last value. -/
def skipFrom : Nat → Next → List Bracket → List Char → Except Fault (List Char)
  | 0, _, _, s => .ok s
  | fuel + 1, .value, within, s =>
    match skip s with
    | '[' :: r => skipFrom fuel (.first .list) within r
    | '{' :: r => skipFrom fuel (.first .object) within r
    | s => do
      let r ← scalar s
      skipFrom fuel .after within r
  | fuel + 1, .first b, within, s =>
    match skip s with
    | [] => .error b.endFault
    | c :: r =>
      if c = b.close then skipFrom fuel .after within r
      else skipFrom fuel (if b = .list then .value else .key) (b :: within) (c :: r)
  | fuel + 1, .key, within, s =>
    match skip s with
    | [] => .error (.placed .endInObject 0)
    | c :: r =>
      if c = '"' then do
        let r ← skipText r
        let r ← colon r
        skipFrom fuel .value within r
      else .error (.past .keyNotText (c :: r))
  | _ + 1, .after, [], s => .ok s
  | fuel + 1, .after, b :: within, s =>
    match skip s with
    | [] => .error b.endFault
    | c :: r =>
      if c = ',' then skipFrom fuel (if b = .list then .value else .key) (b :: within) r
      else if c = b.close then skipFrom fuel .after within r
      else .error (.past b.expectedComma (c :: r))

def skipValue (s : List Char) : Except Fault (List Char) :=
  skipFrom (2 * s.length + 2) .value [] s

end TokenTrust.Json
