/-
  TokenTrust.Proofs.Client.Built — what setting up a client leaves in it.

  - `gives_build`: a client keeps the settings that it was set up with, and without a source of its
    own it has one of the mode in them.
  - `gives_build_keys`: for production it needs a key with a private half, and signs with that.
  - `gives_build_production`: in production that source checks tokens under the very key under which
    the client checks what peers present.

  `Gateway.client` is one client in production, for the cases at the end of the modules that follow.
-/

import TokenTrust.Client.Setup
import TokenTrust.Proofs.Session.Ending

namespace TokenTrust

variable {σ : Type} {s s' : Session σ} {es : List Entry}

namespace Source

variable {settings : Settings} {pool : Option (Pool σ)} {appKey issuerKey : Option KeyPair}
  {source : Source σ}

/-- Production needs a pool, a key to sign with and one to check with, and works with them. -/
theorem gives_ofSettings_production (hmode : settings.mode = .production)
    (h : (ofSettings settings pool appKey issuerKey).Gives s source es s') :
    ∃ p app issuer, pool = some p ∧ appKey = some app ∧ app.hasPrivate = true ∧
      issuerKey = some issuer ∧
      source = production ⟨settings.ownId, settings.serviceName, p⟩ app issuer := by
  unfold ofSettings at h
  simp only [hmode, Attempt.gives_bind, Attempt.gives_require, Attempt.gives_pure,
    Option.filter_eq_some_iff] at h
  obtain ⟨app, _, _, _, ⟨⟨happ, hprivate⟩, -, -⟩, h, -⟩ := h
  obtain ⟨issuer, _, _, _, ⟨⟨hissuer, -⟩, -, -⟩, h, -⟩ := h
  obtain ⟨channel, _, _, _, hchannel, ⟨hsource, -, -⟩, -⟩ := h
  obtain ⟨p, _, _, _, ⟨hp, -, -⟩, ⟨rfl, -, -⟩, -⟩ := hchannel
  exact ⟨p, app, issuer, hp, happ, hprivate, hissuer, hsource⟩

theorem mode_of_gives_ofSettings
    (h : (ofSettings settings pool appKey issuerKey).Gives s source es s') :
    source.mode = settings.mode := by
  cases hmode : settings.mode with
  | mock =>
    unfold ofSettings at h
    simp only [hmode, Attempt.gives_bind, Attempt.gives_pure] at h
    obtain ⟨_, _, _, _, -, ⟨rfl, -, -⟩, -⟩ := h
    rfl
  | unauthenticated =>
    unfold ofSettings at h
    simp only [hmode, Attempt.gives_bind, Attempt.gives_pure] at h
    obtain ⟨_, _, _, _, -, ⟨_, _, _, _, -, ⟨rfl, -, -⟩, -⟩, -⟩ := h
    rfl
  | production =>
    obtain ⟨_, _, _, -, -, -, -, rfl⟩ := gives_ofSettings_production hmode h
    rfl

end Source

namespace Client.Setup

variable {setup : Setup σ} {c : Client σ}

def sourceWith (setup : Setup σ) (appKey issuerKey : Option KeyPair) : Attempt σ (Source σ) :=
  match setup.source with
  | some source => pure source
  | none => Source.ofSettings setup.settings setup.pool appKey issuerKey

def announce (setup : Setup σ) (issuerKey frontEndKey : Option KeyPair) (source : Source σ) :
    Attempt σ (Client σ) := do
  if setup.settings.useMock then Attempt.log (.mockClient setup.settings.mockUser)
  Attempt.log (.clientReady setup.settings.ownId source.mode)
  return { settings := setup.settings, source, directory := setup.directory, issuerKey, frontEndKey }

theorem build_eq (setup : Setup σ) (hid : setup.settings.ownId ≠ "") : setup.build = (do
    let appKey ← Attempt.ofExcept (keyFrom setup.appKey setup.settings.appPrivateKey
      "application private" KeyPair.ofPrivateText)
    let issuerKey ← Attempt.ofExcept (keyFrom setup.issuerKey setup.settings.issuerPublicKey
      "issuer public" KeyPair.ofPublicText)
    let frontEndKey ← Attempt.ofExcept (keyFrom setup.frontEndKey setup.settings.frontEndPublicKey
      "front-end public" KeyPair.ofPublicText)
    let source ← setup.sourceWith appKey issuerKey
    setup.announce issuerKey frontEndKey source) := by
  unfold build sourceWith
  rw [if_neg hid]
  cases setup.source with
  | some source => rfl
  | none => rfl

theorem build_nameless {setup : Setup σ} (hid : setup.settings.ownId = "") :
    setup.build = throw (.configuration "security_id is not set") := by
  unfold build
  rw [if_pos hid]
  rfl

theorem gives_announce {issuerKey frontEndKey : Option KeyPair} {source : Source σ}
    (h : (setup.announce issuerKey frontEndKey source).Gives s c es s') :
    c = { settings := setup.settings, source, directory := setup.directory, issuerKey, frontEndKey } := by
  have hlast : ∀ s es s', (do
      Attempt.log (.clientReady setup.settings.ownId source.mode)
      return { settings := setup.settings, source, directory := setup.directory, issuerKey,
               frontEndKey } : Attempt σ (Client σ)).Gives s c es s' →
      c = { settings := setup.settings, source, directory := setup.directory, issuerKey, frontEndKey } := by
    intro s es s' h
    obtain ⟨_, _, _, h⟩ := h.last
    exact (Attempt.gives_pure.mp h).1
  unfold announce at h
  by_cases hmock : setup.settings.useMock = true
  · rw [if_pos hmock] at h
    obtain ⟨_, _, _, h⟩ := h.last
    exact hlast _ _ _ h
  · rw [if_neg hmock] at h
    exact hlast _ _ _ h

theorem gives_build (hown : setup.source = none) (h : setup.build.Gives s c es s') :
    c.settings = setup.settings ∧ c.directory = setup.directory ∧
      ∃ app s₁ es₁ s₂,
        keyFrom setup.appKey setup.settings.appPrivateKey "application private"
          KeyPair.ofPrivateText = .ok app ∧
        (Source.ofSettings setup.settings setup.pool app c.issuerKey).Gives s₁ c.source es₁ s₂ := by
  by_cases hid : setup.settings.ownId = ""
  · rw [build_nameless hid] at h
    exact absurd h Attempt.gives_throw
  rw [build_eq setup hid, Attempt.gives_bind] at h
  obtain ⟨app, _, _, _, happ, h, -⟩ := h
  obtain ⟨issuer, _, _, h⟩ := h.last
  obtain ⟨frontEnd, _, _, h⟩ := h.last
  rw [Attempt.gives_bind] at h
  obtain ⟨source, es₁, s₁, _, hsource, h, -⟩ := h
  rw [gives_announce h]
  rw [sourceWith, hown] at hsource
  exact ⟨rfl, rfl, app, _, es₁, s₁, (Attempt.gives_ofExcept.mp happ).1, hsource⟩

/-- A client set up for production without a source of its own signs with the key that it was set up
with. -/
theorem gives_build_keys (hown : setup.source = none) (hmode : setup.settings.mode = .production)
    (h : setup.build.Gives s c es s') :
    c.settings = setup.settings ∧ ∃ pool app issuer,
      setup.pool = some pool ∧
      keyFrom setup.appKey setup.settings.appPrivateKey "application private"
        KeyPair.ofPrivateText = .ok (some app) ∧
      app.hasPrivate = true ∧ c.issuerKey = some issuer ∧
      c.source = .production ⟨c.ownId, c.settings.serviceName, pool⟩ app issuer := by
  obtain ⟨hsettings, -, app, s₁, es₁, s₂, hkey, hsource⟩ := gives_build hown h
  obtain ⟨pool, app, issuer, hpool, rfl, hprivate, hissuer, hsource⟩ :=
    Source.gives_ofSettings_production hmode hsource
  rw [← hsettings] at hsource
  exact ⟨hsettings, pool, app, issuer, hpool, hkey, hprivate, hissuer, hsource⟩

theorem gives_build_production (hown : setup.source = none) (h : setup.build.Gives s c es s')
    (hmode : c.source.mode = .production) :
    c.settings = setup.settings ∧ ∃ channel app issuer,
      c.issuerKey = some issuer ∧ c.source = .production channel app issuer := by
  obtain ⟨-, -, _, _, _, _, -, hsource⟩ := gives_build hown h
  have hproduction : setup.settings.mode = .production := by
    rw [← Source.mode_of_gives_ofSettings hsource, hmode]
  obtain ⟨hsettings, _, app, issuer, -, -, -, hissuer, hsource⟩ := gives_build_keys hown hproduction h
  exact ⟨hsettings, _, app, issuer, hissuer, hsource⟩

end Client.Setup

/-! ## A gateway

A client in production, in a world where the clock stands still. -/

/-- The instant, and the tokens that the service is going to answer. -/
structure Scene where
  time : Millis
  answers : List Token

namespace Scene

instance : Clock Scene := ⟨fun w => (w.time, w)⟩

def answer (w : Scene) : Except ServiceError Token × Scene :=
  match w.answers with
  | t :: rest => (.ok t, { w with answers := rest })
  | [] => (.error (.transport "no answer"), w)

def pool : Pool Scene where
  borrow _ w := (.ok ⟨0⟩, w)
  request _ _ _ w := w.answer
  refresh _ _ _ w := w.answer
  ping _ w := (.ok true, w)
  giveBack _ _ w := w

end Scene

namespace Gateway

def issuerKey : KeyPair := .verifying <|
  ((Text.Base64.decode "rNsOKXQ/DMuGhtChBMuW4Fq+/sFTh2XnWVhp99yMSao=").toOption.bind
    Crypto.Ed25519.PublicKey.ofBytes?).getD ⟨[], .zero⟩

def setup : Client.Setup Scene where
  settings := { ownId := "1234" }
  pool := some Scene.pool
  appKey := some (.ofSeed (List.replicate 32 0xa1))
  issuerKey := some issuerKey

def client : Client Scene where
  settings := setup.settings
  source := .production ⟨"1234", "token-issuer", Scene.pool⟩ (.ofSeed (List.replicate 32 0xa1)) issuerKey
  directory := setup.directory
  issuerKey := some issuerKey
  frontEndKey := none

theorem built (s : Session Scene) :
    setup.build.Gives s client [.event (.clientReady "1234" .production)] s := rfl

def session (answers : List Token) (entries : List (Cache.Key × Token)) : Session Scene where
  world := ⟨1000, answers⟩
  cache := { capacity := 10, entries }

def pass (kind : TokenKind) (subject recipient : String) (notAfter : Millis) (signature : Option String) :
    Token where
  kind
  principal := {
    subject
    validity := { issuer := "01", issuedTo := "7", issuedTime := 0, notAfter := 9000 } }
  validity := {
    issuer := "01", issuedTo := "7", issuedFor := some recipient, issuedTime := 0, notAfter, signature }

end Gateway

end TokenTrust
