/-
  TokenTrust.TrustMode — how far a client trusts the tokens it gets. Production is the mode of
  choice whenever a mode's name is not known.
-/

import TokenTrust.Json.Codec
import TokenTrust.Text.Blank
import TokenTrust.Text.Casing

namespace TokenTrust

inductive TrustMode where
  /-- Tokens are made up locally; nothing is checked. -/
  | mock
  /-- Requests are not signed, and responses not checked. -/
  | unauthenticated
  /-- Requests are signed, and responses checked. -/
  | production
  deriving DecidableEq, Repr

namespace TrustMode

def name : TrustMode → String
  | mock => "mock"
  | unauthenticated => "unauthenticated"
  | production => "production"

def describe : TrustMode → String
  | mock => "Mock"
  | unauthenticated => "Unauthenticated"
  | production => "Production"

/-- The mode with a name in any case, blanks around it apart. -/
def recognise? (text : String) : Option TrustMode :=
  match Text.Casing.lowerWord (Text.trim text) with
  | "mock" => some mock
  | "unauthenticated" | "dev" => some unauthenticated
  | "production" | "prod" | "real" => some production
  | _ => none

/-- The mode with a name, production if the name is unknown. -/
def ofText (text : String) : TrustMode := (recognise? text).getD production

def checksTokens : TrustMode → Bool
  | production => true
  | _ => false

def codec : Json.Codec TrustMode where
  read s := (Json.text.read s).map fun (t, r) => (ofText t, r)
  write m := Json.writeText m.name

/-- The form that refuses unknown names. -/
def strictCodec : Json.Codec TrustMode where
  read s := do
    let (t, r) ← Json.text.read s
    match recognise? t with
    | some m => .ok (m, r)
    | none => .error (.here (.refused t) r)
  write m := Json.writeText m.name

end TrustMode

end TokenTrust
