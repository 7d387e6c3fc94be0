/-
  TokenTrust.Signing.Signed — signatures on what travels between applications. Tokens and principals
  carry theirs inside, over their canonical text; requests and assertions have theirs beside them,
  that of an assertion over exactly its bytes.
-/

import TokenTrust.Session.Run
import TokenTrust.Signing.Canonical
import TokenTrust.Text.Bytes

namespace TokenTrust

abbrev Verifier (σ : Type) := List UInt8 → String → Run σ Bool

variable {σ : Type}

/-- Checks signatures under a key; what cannot be checked is refused. -/
def KeyPair.verifier (k : KeyPair) : Verifier σ := fun bytes signature =>
  match k.check bytes signature with
  | .ok accepted => return accepted
  | .error fault => do
    Run.log (.uncheckable fault)
    return false

/-- Signs the bytes of a value that keeps its signature: what comes of it, and what the value is then.
Where signing fails, the value is as it was. -/
def KeyPair.signInPlace {α : Type} (k : KeyPair) (bytes : List UInt8) (withSignature : String → α)
    (unsigned : α) : Except KeyError Unit × α :=
  match k.sign bytes with
  | .ok signature => (.ok (), withSignature signature)
  | .error e => (.error e, unsigned)

namespace Token

def signedBytes (t : Token) : List UInt8 := Text.bytes t.canonical

def withSignature (t : Token) (signature : String) : Token :=
  { t with validity := { t.validity with signature := some signature } }

def signInPlace (t : Token) (k : KeyPair) : Except KeyError Unit × Token :=
  k.signInPlace t.signedBytes t.withSignature t

def sign (t : Token) (k : KeyPair) : Except KeyError Token :=
  let signed := t.signInPlace k
  signed.1.map fun _ => signed.2

def verify (t : Token) (check : Verifier σ) : Run σ Bool :=
  match t.validity.signature with
  | some signature => check t.signedBytes signature
  | none => do
    Run.log (.unsignedToken t.subject)
    return false

end Token

namespace Principal

def signedBytes (p : Principal) : List UInt8 := Text.bytes p.canonical

def withSignature (p : Principal) (signature : String) : Principal :=
  { p with validity := { p.validity with signature := some signature } }

def signInPlace (p : Principal) (k : KeyPair) : Except KeyError Unit × Principal :=
  k.signInPlace p.signedBytes p.withSignature p

def sign (p : Principal) (k : KeyPair) : Except KeyError Principal :=
  let signed := p.signInPlace k
  signed.1.map fun _ => signed.2

def verify (p : Principal) (check : Verifier σ) : Run σ Bool :=
  match p.validity.signature with
  | some signature => check p.signedBytes signature
  | none => return false

end Principal

namespace Request

def signedBytes (r : Request) : List UInt8 := Text.bytes r.canonical

def sign (r : Request) (k : KeyPair) : Except KeyError String := k.sign r.signedBytes

def verify (r : Request) (signature : String) (check : Verifier σ) : Run σ Bool :=
  check r.signedBytes signature

end Request

/-- The signed assertion that someone is the user. -/
def AssertedUser.sign (u : AssertedUser) (k : KeyPair) : Except TrustError Assertion :=
  let text := AssertedUser.codec.render u
  ((k.sign (Text.bytes text)).mapError (·.toTrustError)).map fun signature => ⟨text, signature⟩

def Assertion.verify (a : Assertion) (check : Verifier σ) : Run σ Bool :=
  check (Text.bytes a.text) a.signature

end TokenTrust
