/-
  TokenTrust.Settings.Basic — what a client is set up with. Keys are given as base64 text: the
  application's private key, and the public keys of the issuer and of the front end.
-/

import TokenTrust.Cache.Basic
import TokenTrust.Json.Record
import TokenTrust.Text.Listed
import TokenTrust.Text.Numeral
import TokenTrust.TrustMode

namespace TokenTrust

structure Settings where
  /-- The id of this application. -/
  ownId : String := ""
  mode : TrustMode := .production
  /-- Puts a configured user in the place of one that no header names. -/
  useMock : Bool := false
  mockUser : String := ""
  mockTarget : Option String := none
  mockLabels : OrderedSet String := Text.labels "U"
  cacheSize : UInt64 := UInt64.ofNat Cache.defaultCapacity
  /-- How long the assertion of a configured user is good for, in seconds. -/
  userLifetime : UInt64 := 600
  /-- The name under which the pool knows the issuing service. -/
  serviceName : String := "token-issuer"
  appPrivateKey : Option String := none
  issuerPublicKey : Option String := none
  frontEndPublicKey : Option String := none
  deriving DecidableEq

inductive SettingsError where
  | invalidValue (key value message : String)
  | unreadable (path reason : String)
  | unparsable (path reason : String)
  deriving DecidableEq, Repr

namespace SettingsError

def message : SettingsError → String
  | invalidValue key value message => s!"invalid value '{value}' for '{key}': {message}"
  | unreadable path _ => s!"failed to read configuration file '{path}'"
  | unparsable path _ => s!"failed to parse configuration file '{path}'"

def source : SettingsError → Option String
  | invalidValue .. => none
  | unreadable _ reason | unparsable _ reason => some reason

end SettingsError

namespace Settings

/-- Turns on mock mode for a user. -/
def mockedAs (s : Settings) (user : String) : Settings :=
  { s with useMock := true, mockUser := user }

def userLifetimeMillis (s : Settings) : Nat := s.userLifetime.toNat * 1000

/-- The cache of a client that is given none. -/
def newCache (s : Settings) : Cache := Cache.ofCapacity s.cacheSize.toNat

open Json in
/-- The members of a settings document. One that is absent has its default. -/
def fields (mode : Codec TrustMode) : Fields [String, TrustMode, Bool, String, Option String,
    OrderedSet String, UInt64, UInt64, String, Option String, Option String, Option String] :=
  let s : Settings := {}
  .cons (.withDefault "security_id" text s.ownId) <| .cons (.withDefault "mode" mode s.mode) <|
  .cons (.withDefault "use_mock" boolean s.useMock) <|
  .cons (.withDefault "mock_user" text s.mockUser) <|
  .cons (.withDefault "mock_target" (Json.optional text) s.mockTarget) <|
  .cons (.withDefault "mock_token_auths" (set text) s.mockLabels) <|
  .cons (.withDefault "cache_max_size" (uint64 "usize") s.cacheSize) <|
  .cons (.withDefault "cache_default_ttl_secs" (uint64 "u64") s.userLifetime) <|
  .cons (.withDefault "service_name" text s.serviceName) <|
  .cons (.withDefault "app_private_key" (Json.optional text) s.appPrivateKey) <|
  .cons (.withDefault "issuer_public_key" (Json.optional text) s.issuerPublicKey) <|
  .cons (.withDefault "front_end_public_key" (Json.optional text) s.frontEndPublicKey) .nil

def row (s : Settings) : Json.Row [String, TrustMode, Bool, String, Option String,
    OrderedSet String, UInt64, UInt64, String, Option String, Option String, Option String] :=
  (s.ownId, s.mode, s.useMock, s.mockUser, s.mockTarget, s.mockLabels, s.cacheSize, s.userLifetime,
    s.serviceName, s.appPrivateKey, s.issuerPublicKey, s.frontEndPublicKey, ())

/-- The form of a settings document, given the form of the mode in it. -/
def codecWith (mode : Json.Codec TrustMode) : Json.Codec Settings :=
  Json.record "ClientConfig" (fields mode) row
    (fun (ownId, mode, useMock, mockUser, mockTarget, mockLabels, cacheSize, userLifetime,
        serviceName, appPrivateKey, issuerPublicKey, frontEndPublicKey, ()) =>
      ⟨ownId, mode, useMock, mockUser, mockTarget, mockLabels, cacheSize, userLifetime,
        serviceName, appPrivateKey, issuerPublicKey, frontEndPublicKey⟩)

def codec : Json.Codec Settings := codecWith TrustMode.codec

end Settings

end TokenTrust
