/-
  TokenTrust.Client.Setup — setting up a client. Keys and a source that are given count; the others
  come from the settings.
-/

import TokenTrust.Client.Basic

namespace TokenTrust.Client

structure Setup (σ : Type) where
  settings : Settings
  pool : Option (Pool σ) := none
  directory : String → Option String := fun _ => none
  source : Option (Source σ) := none
  appKey : Option KeyPair := none
  issuerKey : Option KeyPair := none
  frontEndKey : Option KeyPair := none

variable {σ : Type}

namespace Setup

def keyFrom (given : Option KeyPair) (text : Option String) (what : String)
    (read : String → Except KeyError KeyPair) : Except TrustError (Option KeyPair) :=
  match given, text with
  | some key, _ => .ok (some key)
  | none, some text =>
    ((read text).mapError fun e => .configuration s!"{what} key: {e.message}").map some
  | none, none => .ok none

def build (s : Setup σ) : Attempt σ (Client σ) := do
  if s.settings.ownId = "" then throw (.configuration "security_id is not set")
  let appKey ← Attempt.ofExcept
    (keyFrom s.appKey s.settings.appPrivateKey "application private" KeyPair.ofPrivateText)
  let issuerKey ← Attempt.ofExcept
    (keyFrom s.issuerKey s.settings.issuerPublicKey "issuer public" KeyPair.ofPublicText)
  let frontEndKey ← Attempt.ofExcept
    (keyFrom s.frontEndKey s.settings.frontEndPublicKey "front-end public" KeyPair.ofPublicText)
  let source ← match s.source with
    | some source => pure source
    | none => Source.ofSettings s.settings s.pool appKey issuerKey
  if s.settings.useMock then Attempt.log (.mockClient s.settings.mockUser)
  Attempt.log (.clientReady s.settings.ownId source.mode)
  return { settings := s.settings, source, directory := s.directory, issuerKey, frontEndKey }

end Setup

end TokenTrust.Client
