/-
  TokenTrust.Cache.Key — what a token is kept under: its kind, its subject, the labels excluded
  from it, the delegations behind it, and its target, joined into one text. Labels stand in
  increasing order, delegations in the order they happened.
-/

import TokenTrust.Token.Basic

namespace TokenTrust.Cache

structure Key where
  text : String
  deriving DecidableEq, Repr

namespace Key

/-- Stands between the parts of a key. -/
def partMark : Char := '\x1f'

/-- Stands between the items of a part that is a list. -/
def itemMark : Char := '\x1e'

def joinedBy (mark : Char) (texts : List String) : String :=
  (String.singleton mark).intercalate texts

/-- The key of a request. Excluding nothing and excluding no label are the same, as are no
delegations and an empty list of them. -/
def of (kind : TokenKind) (subject : String) (exclude : Option (OrderedSet String))
    (chain : Option (List String)) (target : String) : Key :=
  ⟨joinedBy partMark [kind.name, subject, joinedBy itemMark (exclude.elim [] (·.toList)),
    joinedBy itemMark (chain.getD []), target]⟩

/-- How messages show one character of the parts after the first. -/
def shownChar (c : Char) : Char := if c = partMark then '|' else if c = itemMark then ',' else c

/-- The key as messages show it: the first part as it is, the others with visible marks. -/
def describe (k : Key) : String :=
  let first := k.text.toList.takeWhile (· ≠ partMark)
  let rest := k.text.toList.dropWhile (· ≠ partMark)
  String.ofList (first ++ rest.map shownChar)

def codec : Json.Codec Key where
  read s := (Json.text.read s).map fun (t, r) => (⟨t⟩, r)
  write k := Json.writeText k.text

end Key

end TokenTrust.Cache
