/-
  TokenTrust.Text.Listed — labels in one text, with commas between them. Blanks around a label and
  empty places between commas mean nothing.
-/

import TokenTrust.Ordered.Set
import TokenTrust.Text.Blank

namespace TokenTrust.Text

def pieces (sep : Char) : List Char → List (List Char)
  | [] => [[]]
  | c :: cs =>
    match c == sep, pieces sep cs with
    | true, rest => [] :: rest
    | false, first :: rest => (c :: first) :: rest
    | false, [] => [[c]]

def labels (s : String) : OrderedSet String :=
  OrderedSet.ofList ((((pieces ',' s.toList).map trimList).filter (· ≠ [])).map String.ofList)

end TokenTrust.Text
