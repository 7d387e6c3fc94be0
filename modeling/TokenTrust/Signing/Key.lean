/-
  TokenTrust.Signing.Key — key pairs, of which a holder may have one half, both or neither. A key
  is written as the base64 text of its 32 bytes: the seed of a private half, or the public half.
  A private half always brings the public half that belongs to it.
-/

import TokenTrust.Crypto.Ed25519
import TokenTrust.Text.Base64
import TokenTrust.Text.Blank
import TokenTrust.Text.Quoted
import TokenTrust.TrustError

namespace TokenTrust

inductive KeyError where
  | noPrivateKey
  | noPublicKey
  | invalidKey (message : String)
  deriving DecidableEq, Repr

namespace KeyError

def message : KeyError → String
  | noPrivateKey => "no private key available for signing"
  | noPublicKey => "no public key available for verification"
  | invalidKey message => s!"invalid key: {message}"

def toTrustError (e : KeyError) : TrustError := .signingFailed e.message (some e.message)

end KeyError

/-- What keeps a signature from being checked at all. -/
inductive SignatureFault where
  | noPublicKey
  | notBase64
  | wrongLength (bytes : Nat)
  deriving DecidableEq, Repr

open Crypto

inductive KeyPair where
  /-- Neither half. -/
  | empty
  | verifying (key : Ed25519.PublicKey)
  | signing (seed : List UInt8) (key : Ed25519.PublicKey) (belongs : key = Ed25519.publicKey seed)
  deriving DecidableEq

namespace KeyPair

def keySize : Nat := 32
def signatureSize : Nat := 64

def ofSeed (seed : List UInt8) : KeyPair := .signing seed (Ed25519.publicKey seed) rfl

def seed? : KeyPair → Option (List UInt8)
  | signing seed _ _ => some seed
  | _ => none

def publicKey? : KeyPair → Option Ed25519.PublicKey
  | empty => none
  | verifying key => some key
  | signing _ key _ => some key

def hasPrivate (k : KeyPair) : Bool := k.seed?.isSome
def hasPublic (k : KeyPair) : Bool := k.publicKey?.isSome

def withoutPrivate : KeyPair → KeyPair
  | signing _ key _ => .verifying key
  | k => k

/-! ## Texts of keys -/

/-- The 32 bytes of a key's text, blanks around it apart. -/
def bytesOfText (text : String) : Except KeyError (List UInt8) :=
  match Text.Base64.decode (Text.trim text) with
  | .error e => .error (.invalidKey e.message)
  | .ok bytes =>
    if bytes.length = keySize then .ok bytes
    else .error (.invalidKey s!"expected {keySize} bytes, got {bytes.length}")

def ofPrivateText (text : String) : Except KeyError KeyPair := (bytesOfText text).map ofSeed

def ofPublicText (text : String) : Except KeyError KeyPair := do
  let bytes ← bytesOfText text
  match Ed25519.PublicKey.ofBytes? bytes with
  | some key => .ok (.verifying key)
  | none => .error (.invalidKey "signature error: Cannot decompress Edwards point")

def privateText (k : KeyPair) : Except KeyError String :=
  match k.seed? with
  | some seed => .ok (Text.Base64.encode seed)
  | none => .error .noPrivateKey

def publicText? (k : KeyPair) : Option String :=
  k.publicKey?.map fun key => Text.Base64.encode key.bytes

/-- The pair as messages show it: the public half, and whether there is a private one. -/
def describe (k : KeyPair) : String :=
  let shown := k.publicText?.elim "None" fun text => s!"Some({Text.quoted text})"
  s!"KeyPair \x7b has_private_key: {k.hasPrivate}, public_key: {shown} \x7d"

/-! ## Signing and checking -/

/-- The signature of some bytes, as base64 text. -/
def sign (k : KeyPair) (bytes : List UInt8) : Except KeyError String :=
  match k with
  | .signing seed key _ => .ok (Text.Base64.encode (Ed25519.sign seed key bytes))
  | _ => .error .noPrivateKey

/-- The 64 bytes of a signature's text; blanks are not allowed around it. -/
def signatureBytes (signature : String) : Except SignatureFault (List UInt8) :=
  match Text.Base64.decode signature with
  | .error _ => .error .notBase64
  | .ok raw => if raw.length = signatureSize then .ok raw else .error (.wrongLength raw.length)

/-- Whether a text is a signature of the bytes, or why that cannot be said. -/
def check (k : KeyPair) (bytes : List UInt8) (signature : String) : Except SignatureFault Bool :=
  match k.publicKey? with
  | none => .error .noPublicKey
  | some key => (signatureBytes signature).map fun raw => Ed25519.verify key bytes raw

/-- Whether a text is a signature of the bytes; one that cannot be checked is none. -/
def accepts (k : KeyPair) (bytes : List UInt8) (signature : String) : Bool :=
  (k.check bytes signature).toOption.getD false

end KeyPair

end TokenTrust
