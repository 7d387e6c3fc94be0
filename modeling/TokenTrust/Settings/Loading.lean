/-
  TokenTrust.Settings.Loading — settings from properties and documents, and overrides from the
  variables of a process. A mode that is not known is taken for production, with a warning; any
  other value that cannot be read is an error.
-/

import TokenTrust.Session.Run
import TokenTrust.Settings.Basic
import TokenTrust.Text.Bytes

namespace TokenTrust

/-- Named texts, such as properties or the variables of a process. -/
abbrev Variables := String → Option String

variable {σ : Type}

namespace TrustMode

def choose (text : String) : Run σ TrustMode := do
  if (recognise? text).isNone then Run.log (.unknownMode text)
  return ofText text

/-- Reads a text with a mode in it, with a warning if the mode is unknown. The strict form of the
text refuses unknown modes. -/
def parseAround {α : Type} (strict codec : Json.Codec α) (text : String) :
    Run σ (Except String α) := do
  match strict.refused? text with
  | some mode => Run.log (.unknownMode mode)
  | none => pure ()
  return codec.parse text

end TrustMode

namespace Settings

/-! ## Properties -/

namespace Property

def ownId : String := "tessera.security.id"
def mode : String := "tessera.security.client.mode"
def useMock : String := "tessera.security.client.use.mock"
def mockUser : String := "tessera.security.client.mock.user"
def mockTarget : String := "tessera.security.client.mock.target.id"
def mockLabels : String := "tessera.security.client.mock.auths"
def cacheSize : String := "tessera.security.cache.max.size"
def userLifetime : String := "tessera.security.cache.ttl.seconds"
def serviceName : String := "tessera.security.service.name"
def appPrivateKey : String := "tessera.security.app.private.key"
def issuerPublicKey : String := "tessera.security.issuer.public.key"
def frontEndPublicKey : String := "tessera.security.frontend.public.key"

end Property

/-- The value of a property, without the blanks around it; a blank one is none. -/
def property? (properties : Variables) (key : String) : Option String :=
  ((properties key).map Text.trim).filter (· ≠ "")

def readBoolean (key value : String) : Except SettingsError Bool :=
  match Text.Casing.lowerWord (Text.trim value) with
  | "true" | "1" | "yes" | "on" => .ok true
  | "false" | "0" | "no" | "off" => .ok false
  | _ => .error (.invalidValue key value "expected a boolean")

def readNumber (key value : String) : Except SettingsError UInt64 :=
  (Text.readUInt64 (Text.trim value)).mapError fun e => .invalidValue key value e.message

def readProperty {α : Type} (properties : Variables) (key : String) (absent : α)
    (read : String → String → Except SettingsError α) : Except SettingsError α :=
  match property? properties key with
  | some value => read key value
  | none => .ok absent

def ofProperties (properties : Variables) : Except SettingsError Settings := do
  let s : Settings := {}
  let get := property? properties
  let useMock ← readProperty properties Property.useMock s.useMock readBoolean
  let cacheSize ← readProperty properties Property.cacheSize s.cacheSize readNumber
  let userLifetime ← readProperty properties Property.userLifetime s.userLifetime readNumber
  return {
    ownId := (get Property.ownId).getD s.ownId
    mode := ((get Property.mode).map TrustMode.ofText).getD s.mode
    useMock
    mockUser := (get Property.mockUser).getD s.mockUser
    mockTarget := get Property.mockTarget
    mockLabels := ((get Property.mockLabels).map Text.labels).getD s.mockLabels
    cacheSize
    userLifetime
    serviceName := (get Property.serviceName).getD s.serviceName
    appPrivateKey := get Property.appPrivateKey
    issuerPublicKey := get Property.issuerPublicKey
    frontEndPublicKey := get Property.frontEndPublicKey }

def load (properties : Variables) : Run σ (Except SettingsError Settings) := do
  match property? properties Property.mode with
  | some text => discard (TrustMode.choose text)
  | none => pure ()
  match ofProperties properties with
  | .ok s =>
    Run.log (.propertiesLoaded s.mode s.ownId)
    return .ok s
  | .error e => return .error e

/-! ## Documents -/

/-- Loads settings from the document at a path, whose bytes are given if there is one. -/
def loadDocument (path : String) (content : Option (List UInt8)) :
    Run σ (Except SettingsError Settings) := do
  match content with
  | none => return .error (.unreadable path "No such file or directory (os error 2)")
  | some bytes =>
    match Text.ofBytes? bytes with
    | none => return .error (.unreadable path "stream did not contain valid UTF-8")
    | some text =>
      match ← TrustMode.parseAround (codecWith TrustMode.strictCodec) codec text with
      | .error reason => return .error (.unparsable path reason)
      | .ok s =>
        Run.log (.documentLoaded path s.mode)
        return .ok s

/-! ## Variables of a process -/

namespace Variable

def mode : String := "TESSERA_CLIENT_MODE"
def useMock : String := "TESSERA_USE_MOCK"
def mockUser : String := "TESSERA_MOCK_USER"
def ownId : String := "TESSERA_SECURITY_ID"

end Variable

/-- Replaces settings by the variables that are given, one after the other; a value that cannot be
read ends this, and what was replaced before stays replaced. -/
def override (s : Settings) (vars : Variables) : Run σ (Except SettingsError Unit × Settings) := do
  let mode ← match vars Variable.mode with
    | some text => TrustMode.choose text
    | none => pure s.mode
  let s := { s with mode }
  let useMock := match vars Variable.useMock with
    | some value => readBoolean Variable.useMock value
    | none => .ok s.useMock
  match useMock with
  | .error e => return (.error e, s)
  | .ok useMock =>
    return (.ok (), { s with
      useMock
      mockUser := (vars Variable.mockUser).getD s.mockUser
      ownId := (vars Variable.ownId).getD s.ownId })

end Settings

end TokenTrust
