/-
  TokenTrust.Proofs.Client.Ready — which clients can be set up, and what these never complain of.

  `Setup.Ready` says what a setup has to hold: a name, no text of a key that cannot be read unless the key
  is given, and a source, or all that a source of the settings' mode takes (`Source.CanBeMade`).
  - `build_of_ready`, `ready_of_gives_build`: then there is a client, and only then.
  - `build_onlyUnset`: otherwise the setup is at fault, and nothing else is said.
  - `setup_decides`: a client in production that could be set up never lacks the keys to check tokens and
    principals, to ask for tokens and to sign; for the assertions of users it may lack the front end's.
-/

import TokenTrust.Proofs.Client.Signed

namespace TokenTrust

variable {σ : Type} {s s' : Session σ} {es : List Entry}

/-! ## Sources -/

namespace Source

variable {settings : Settings} {pool : Option (Pool σ)} {appKey issuerKey : Option KeyPair}

def CanBeMade (settings : Settings) (pool : Option (Pool σ)) (appKey issuerKey : Option KeyPair) : Prop :=
  match settings.mode with
  | .mock => True
  | .unauthenticated => pool.isSome = true
  | .production =>
    pool.isSome = true ∧ appKey.any (·.hasPrivate) = true ∧ issuerKey.any (·.hasPublic) = true

theorem ofSettings_neverFails (h : CanBeMade settings pool appKey issuerKey) :
    (ofSettings settings pool appKey issuerKey).Follows neverFails := by
  unfold CanBeMade at h
  have hchannel : pool.isSome = true → (do
      let pool ← Attempt.require pool s!"{settings.mode.name} mode needs a client pool"
      return { ownId := settings.ownId, serviceName := settings.serviceName, pool }
      : Attempt σ (Channel σ)).Follows neverFails := fun hpool =>
    .bind (.require (Policy.excuses_of_isSome hpool) _) fun _ => .pure _
  unfold ofSettings
  cases hmode : settings.mode with
  | mock => exact .bind (.lift (Run.keeps_failsOnly _ _)) fun _ => .pure _
  | unauthenticated =>
    rw [hmode] at h hchannel
    exact .bind (hchannel h) fun _ => .bind (.lift (Run.keeps_failsOnly _ _)) fun _ => .pure _
  | production =>
    rw [hmode] at h hchannel
    obtain ⟨hpool, happ, hissuer⟩ := h
    rw [← Option.isSome_filter] at happ hissuer
    refine .bind (.require (Policy.excuses_of_isSome happ) _) fun _ => ?_
    refine .bind (.require (Policy.excuses_of_isSome hissuer) _) fun _ => ?_
    exact .bind (hchannel hpool) fun _ => .pure _

theorem canBeMade_of_gives {source : Source σ}
    (h : (ofSettings settings pool appKey issuerKey).Gives s source es s') :
    CanBeMade settings pool appKey issuerKey := by
  unfold CanBeMade
  unfold ofSettings at h
  cases hmode : settings.mode with
  | mock => trivial
  | unauthenticated =>
    simp only [hmode, Attempt.gives_bind, Attempt.gives_require] at h
    obtain ⟨_, _, _, _, ⟨pool, _, _, _, ⟨rfl, -⟩, -⟩, -⟩ := h
    rfl
  | production =>
    simp only [hmode, Attempt.gives_bind, Attempt.gives_require] at h
    obtain ⟨app, _, _, _, ⟨happ, -⟩, h, -⟩ := h
    obtain ⟨issuer, _, _, _, ⟨hissuer, -⟩, h, -⟩ := h
    obtain ⟨_, _, _, _, ⟨pool, _, _, _, ⟨rfl, -⟩, -⟩, -⟩ := h
    refine ⟨rfl, ?_, ?_⟩
    · rw [← Option.isSome_filter, happ]
      rfl
    · rw [← Option.isSome_filter, hissuer]
      rfl

theorem ofSettings_onlyUnset (settings : Settings) (pool : Option (Pool σ))
    (appKey issuerKey : Option KeyPair) :
    (ofSettings settings pool appKey issuerKey).Follows onlyUnset := by
  have hrequire : ∀ {α : Type} (given : Option α) (missing : String),
      (Attempt.require given missing : Attempt σ α).Follows onlyUnset :=
    fun _ _ => .require (fun _ _ => rfl) _
  unfold ofSettings
  cases settings.mode with
  | mock => exact .bind (.lift (Run.keeps_failsOnly _ _)) fun _ => .pure _
  | unauthenticated =>
    refine .bind (.bind (hrequire _ _) fun _ => .pure _) fun _ => ?_
    exact .bind (.lift (Run.keeps_failsOnly _ _)) fun _ => .pure _
  | production =>
    refine .bind (hrequire _ _) fun _ => .bind (hrequire _ _) fun _ => ?_
    exact .bind (.bind (hrequire _ _) fun _ => .pure _) fun _ => .pure _

end Source

namespace Client.Setup

/-! ## Keys -/

section Keys

variable {given : Option KeyPair} {text : Option String} {what : String}
  {read : String → Except KeyError KeyPair}

/-- A key is given, or there is no text for it, or one that can be read. -/
def Provided (given : Option KeyPair) (text : Option String) (read : String → Except KeyError KeyPair) :
    Prop :=
  given.isSome = true ∨ ∀ t, text = some t → ∃ key, read t = .ok key

/-- The key that counts: the one that is given, and without it the one of the text. -/
def keyInForce (given : Option KeyPair) (text : Option String)
    (read : String → Except KeyError KeyPair) : Option KeyPair :=
  given.or (text.bind fun t => (read t).toOption)

theorem keyInForce_of_given {key : KeyPair} (h : given = some key) : keyInForce given text read = some key := by
  rw [h]
  rfl

theorem keyFrom_eq_ok_iff {key : Option KeyPair} : keyFrom given text what read = .ok key ↔
    Provided given text read ∧ key = keyInForce given text read := by
  unfold keyFrom Provided keyInForce
  split
  · rename_i given
    simp [eq_comm]
  · rename_i text
    cases hread : read text with
    | ok k => simp [Except.mapError, Except.map, Except.toOption, hread, eq_comm]
    | error e => simp [Except.mapError, Except.map, hread]
  · simp [eq_comm]

theorem keyFrom_onlyUnset (given : Option KeyPair) (text : Option String) (what : String)
    (read : String → Except KeyError KeyPair) :
    (Attempt.ofExcept (keyFrom given text what read) : Attempt σ (Option KeyPair)).Follows onlyUnset := by
  refine .ofExcept fun e h => ?_
  unfold keyFrom at h
  split at h
  · cases h
  · rename_i text
    cases hread : read text with
    | ok k => rw [hread] at h; cases h
    | error fault => rw [hread] at h; cases h; rfl
  · cases h

end Keys

/-! ## Clients -/

variable {setup : Setup σ} {c : Client σ}

def appKeyInForce (setup : Setup σ) : Option KeyPair :=
  keyInForce setup.appKey setup.settings.appPrivateKey KeyPair.ofPrivateText

def issuerKeyInForce (setup : Setup σ) : Option KeyPair :=
  keyInForce setup.issuerKey setup.settings.issuerPublicKey KeyPair.ofPublicText

def frontEndKeyInForce (setup : Setup σ) : Option KeyPair :=
  keyInForce setup.frontEndKey setup.settings.frontEndPublicKey KeyPair.ofPublicText

/-- Nothing is missing or wrong. -/
structure Ready (setup : Setup σ) : Prop where
  named : setup.settings.ownId ≠ ""
  appKey : Provided setup.appKey setup.settings.appPrivateKey KeyPair.ofPrivateText
  issuerKey : Provided setup.issuerKey setup.settings.issuerPublicKey KeyPair.ofPublicText
  frontEndKey : Provided setup.frontEndKey setup.settings.frontEndPublicKey KeyPair.ofPublicText
  source : setup.source.isSome = true ∨
    Source.CanBeMade setup.settings setup.pool setup.appKeyInForce setup.issuerKeyInForce

theorem announce_follows {P : Policy} (hP : ∀ e, P.permits none [.event e]) (setup : Setup σ)
    (issuerKey frontEndKey : Option KeyPair) (source : Source σ) :
    (setup.announce issuerKey frontEndKey source).Follows P := by
  have hlog : ∀ e, (Attempt.log e : Attempt σ Unit).Follows P := fun e => .lift fun _ => hP e
  have hlast : (do
      Attempt.log (.clientReady setup.settings.ownId source.mode)
      return { settings := setup.settings, source, directory := setup.directory, issuerKey,
               frontEndKey } : Attempt σ (Client σ)).Follows P := .bind (hlog _) fun _ => .pure _
  unfold announce
  split
  · exact .bind (hlog _) fun _ => hlast
  · exact hlast

/-- With a name and keys, what is left is the source. -/
theorem build_eq_of_provided (hid : setup.settings.ownId ≠ "")
    (happ : Provided setup.appKey setup.settings.appPrivateKey KeyPair.ofPrivateText)
    (hissuer : Provided setup.issuerKey setup.settings.issuerPublicKey KeyPair.ofPublicText)
    (hfrontEnd : Provided setup.frontEndKey setup.settings.frontEndPublicKey KeyPair.ofPublicText) :
    setup.build = setup.sourceWith setup.appKeyInForce setup.issuerKeyInForce >>=
      setup.announce setup.issuerKeyInForce setup.frontEndKeyInForce := by
  have hpure : ∀ {α : Type} (a : α), (Attempt.ofExcept (.ok a) : Attempt σ α) = pure a := fun _ => rfl
  rw [build_eq setup hid, keyFrom_eq_ok_iff.mpr ⟨happ, rfl⟩, keyFrom_eq_ok_iff.mpr ⟨hissuer, rfl⟩,
    keyFrom_eq_ok_iff.mpr ⟨hfrontEnd, rfl⟩]
  simp only [hpure, pure_bind]
  rfl

theorem build_of_ready (h : setup.Ready) : setup.build.Follows neverFails := by
  rw [build_eq_of_provided h.named h.appKey h.issuerKey h.frontEndKey]
  have hsource : (setup.sourceWith setup.appKeyInForce setup.issuerKeyInForce).Follows neverFails := by
    unfold sourceWith
    cases hown : setup.source with
    | some source => exact .pure source
    | none =>
      rcases h.source with hgiven | hmade
      · rw [hown] at hgiven
        cases hgiven
      · exact Source.ofSettings_neverFails hmade
  exact .bind hsource fun source => announce_follows (fun _ => rfl) setup _ _ source

/-- A client has the keys in force, and the source that is given. -/
theorem ready_of_gives_build (h : setup.build.Gives s c es s') : setup.Ready ∧
    c.issuerKey = setup.issuerKeyInForce ∧ c.frontEndKey = setup.frontEndKeyInForce ∧
    ∀ source, setup.source = some source → c.source = source := by
  by_cases hid : setup.settings.ownId = ""
  · rw [build_nameless hid] at h
    exact absurd h Attempt.gives_throw
  rw [build_eq setup hid, Attempt.gives_bind] at h
  obtain ⟨app, _, _, _, hkey, h, -⟩ := h
  obtain ⟨happ, rfl⟩ := keyFrom_eq_ok_iff.mp (Attempt.gives_ofExcept.mp hkey).1
  rw [Attempt.gives_bind] at h
  obtain ⟨issuer, _, _, _, hkey, h, -⟩ := h
  obtain ⟨hissuer, rfl⟩ := keyFrom_eq_ok_iff.mp (Attempt.gives_ofExcept.mp hkey).1
  rw [Attempt.gives_bind] at h
  obtain ⟨frontEnd, _, _, _, hkey, h, -⟩ := h
  obtain ⟨hfrontEnd, rfl⟩ := keyFrom_eq_ok_iff.mp (Attempt.gives_ofExcept.mp hkey).1
  rw [Attempt.gives_bind] at h
  obtain ⟨source, _, _, _, hsource, h, -⟩ := h
  rw [gives_announce h]
  refine ⟨⟨hid, happ, hissuer, hfrontEnd, ?_⟩, rfl, rfl, ?_⟩
  · cases hown : setup.source with
    | some source => exact .inl rfl
    | none =>
      rw [sourceWith, hown] at hsource
      exact .inr (Source.canBeMade_of_gives hsource)
  · intro source hown
    rw [sourceWith, hown] at hsource
    exact (Attempt.gives_pure.mp hsource).1

theorem build_onlyUnset (setup : Setup σ) : setup.build.Follows onlyUnset := by
  by_cases hid : setup.settings.ownId = ""
  · rw [build_nameless hid]
    exact .throw rfl
  rw [build_eq setup hid]
  refine .bind (keyFrom_onlyUnset _ _ _ _) fun app => .bind (keyFrom_onlyUnset _ _ _ _) fun issuer => ?_
  refine .bind (keyFrom_onlyUnset _ _ _ _) fun frontEnd => ?_
  have hsource : (setup.sourceWith app issuer).Follows onlyUnset := by
    unfold sourceWith
    split
    · exact .pure _
    · exact Source.ofSettings_onlyUnset _ _ _ _
  exact .bind hsource fun source => announce_follows (fun _ => rfl) setup _ _ source

/-! ## Runs -/

variable [Clock σ]

/-- In a run of a client in production, signing never fails, and nothing that has to be set up is missing
but, for an assertion, the front end's key. -/
theorem record_lacks_nothing {channel : Channel σ} {app issuer : KeyPair}
    (hsource : c.source = .production channel app issuer) (hprivate : app.hasPrivate = true)
    (hissuer : c.issuerKey = some issuer) {tasks : List (Task σ)} {start : Session σ} {x : Report σ}
    (hx : x ∈ c.record tasks start) :
    (∀ message cause, x.done.value ≠ .error (.signingFailed message cause)) ∧
    (x.task.operation.isAsserted = false ∨ c.frontEndKey.isSome = true →
      ∀ missing, x.done.value ≠ .error (.configuration missing)) := by
  have hends := ends_of_mem_record hx
  have hsigns : ∀ P, (c.consulting x.task.directory).source.SignsUnder P := by
    intro P
    rw [consulting, hsource]
    exact Source.signsUnder_of_hasPrivate hprivate
  refine ⟨fun message cause hvalue => ?_, fun hkey missing hvalue => ?_⟩
  · have hnever := (operate_follows neverUnsigned_serves (hsigns _) x.task.operation).ends hends
    rw [hvalue] at hnever
    cases hnever
  · have hset : neverUnset.Excuses (c.consulting x.task.directory).issuerKey :=
      Policy.excuses_of_isSome (by rw [consulting, hissuer]; rfl)
    have hfrontEnd : x.task.operation.isAsserted = true →
        neverUnset.Excuses (c.consulting x.task.directory).frontEndKey := by
      intro hasserted
      rcases hkey with hother | hsome
      · rw [hasserted] at hother
        cases hother
      · exact Policy.excuses_of_isSome hsome
    have hnever := (operate_follows_of_keys neverUnset_works (hsigns _) hset hfrontEnd).ends hends
    rw [hvalue] at hnever
    cases hnever

/-- A setup comes to a client exactly if it is ready; if not, it fails, and says that something is missing
or wrong. A key that is given counts, whatever the text of it says. A client that was set up for
production, in mock mode or not, never fails to sign, and of its keys it never misses more than the front
end's, which takes an assertion. -/
theorem setup_decides (setup : Setup σ) (s : Session σ) :
    ((∃ c es s', setup.build.Gives s c es s') ↔ setup.Ready) ∧
    (¬setup.Ready → ∃ missing es s', setup.build.Fails s (.configuration missing) es s') ∧
    ∀ c es s', setup.build.Gives s c es s' →
      c.issuerKey = setup.issuerKeyInForce ∧ (∀ key, setup.issuerKey = some key → c.issuerKey = some key) ∧
      c.frontEndKey = setup.frontEndKeyInForce ∧
      (∀ key, setup.frontEndKey = some key → c.frontEndKey = some key) ∧
      (∀ source, setup.source = some source → c.source = source) ∧
      (setup.source = none → setup.settings.mode = .production →
        (∃ channel app issuer, setup.appKeyInForce = some app ∧
          (∀ key, setup.appKey = some key → app = key) ∧ c.issuerKey = some issuer ∧
          c.source = .production channel app issuer) ∧
        ∀ tasks start, ∀ x ∈ c.record tasks start,
          (∀ message cause, x.done.value ≠ .error (.signingFailed message cause)) ∧
          (x.task.operation.isAsserted = false ∨ c.frontEndKey.isSome = true →
            ∀ missing, x.done.value ≠ .error (.configuration missing))) := by
  refine ⟨⟨?ready, fun h => (build_of_ready h).exists_gives s⟩, ?missing, ?built⟩
  case ready =>
    rintro ⟨c, es, s', h⟩
    exact (ready_of_gives_build h).1
  case missing =>
    intro h
    have hends := Run.ends_run (ExceptT.run setup.build) s
    have hsettled := (build_onlyUnset setup).ends hends
    cases hvalue : ((ExceptT.run setup.build).run s).value with
    | ok c =>
      rw [hvalue] at hends
      exact absurd (ready_of_gives_build hends).1 h
    | error e =>
      rw [hvalue] at hends hsettled
      cases e with
      | configuration missing => exact ⟨missing, _, _, hends⟩
      | _ => cases hsettled
  case built =>
    intro c es s' h
    obtain ⟨-, hissuer, hfrontEnd, hgiven⟩ := ready_of_gives_build h
    refine ⟨hissuer, fun key hkey => hissuer.trans (keyInForce_of_given hkey), hfrontEnd,
      fun key hkey => hfrontEnd.trans (keyInForce_of_given hkey), hgiven, fun hown hmode => ?_⟩
    obtain ⟨-, pool, app, issuer, -, hkey, hprivate, hset, hsource⟩ := gives_build_keys hown hmode h
    have happ : setup.appKeyInForce = some app := (keyFrom_eq_ok_iff.mp hkey).2.symm
    refine ⟨⟨_, app, issuer, happ, fun key hgiven => ?_, hset, hsource⟩,
      fun tasks start x hx => record_lacks_nothing hsource hprivate hset hx⟩
    exact Option.some.inj (happ.symm.trans (keyInForce_of_given hgiven))

end Client.Setup

namespace Gateway

/-- The gateway in mock mode, with a text that is no key besides the key that is given. -/
def garbled : Client.Setup Scene :=
  { setup with settings := { setup.settings with useMock := true, appPrivateKey := some "no key" } }

/-- The text counts only once there is no other key. -/
theorem given_key_counts :
    (∃ c es s', garbled.build.Gives (session [] []) c es s' ∧ c.issuerKey = some issuerKey ∧
      (∃ channel issuer, c.source = .production channel (.ofSeed (List.replicate 32 0xa1)) issuer) ∧
      ∀ t start, ∀ x ∈ c.record [⟨.admitToken t, fun _ => none, id⟩] start,
        ∀ missing, x.done.value ≠ .error (.configuration missing)) ∧
    ∃ missing es s', { garbled with appKey := none }.build.Fails (session [] []) (.configuration missing)
      es s' := by
  obtain ⟨⟨-, hgives⟩, -, hbuilt⟩ := Client.Setup.setup_decides garbled (session [] [])
  obtain ⟨-, hfails, -⟩ := Client.Setup.setup_decides { garbled with appKey := none } (session [] [])
  refine ⟨?given, hfails fun ready => ?text⟩
  case given =>
    have hready : garbled.Ready :=
      ⟨by decide, .inl rfl, .inl rfl, .inr nofun, .inr ⟨rfl, rfl, rfl⟩⟩
    obtain ⟨c, es, s', h⟩ := hgives hready
    obtain ⟨-, hissuer, -, -, -, hruns⟩ := hbuilt c es s' h
    obtain ⟨⟨channel, app, issuer, -, hgiven, -, hsource⟩, hlacks⟩ := hruns rfl rfl
    rw [hgiven _ rfl] at hsource
    refine ⟨c, es, s', h, hissuer _ rfl, ⟨channel, issuer, hsource⟩, fun t start x hx => ?_⟩
    obtain ⟨s₁, hx'⟩ : ∃ s₁, x = c.report ⟨.admitToken t, fun _ => none, id⟩ s₁ :=
      ⟨start, by simpa [Client.record] using hx⟩
    exact (hlacks _ start x hx).2 (.inl (by rw [hx']; rfl))
  case text =>
    rcases ready.appKey with hgiven | hreads
    · cases hgiven
    · obtain ⟨key, hkey⟩ := hreads "no key" rfl
      have hunread : (KeyPair.ofPrivateText "no key").toOption = none := by decide +kernel
      rw [hkey] at hunread
      cases hunread

end Gateway

end TokenTrust
