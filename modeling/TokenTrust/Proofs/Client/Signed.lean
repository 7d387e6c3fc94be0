/-
  TokenTrust.Proofs.Client.Signed — what leaves a client in production is signed.

  Setting up a client for production takes a key with a private half, so signing never fails
  (`signsUnder_neverUnsigned`). Which calls an operation makes was settled with their balance
  (`operate_settles`); here it is read off them that the signature with a request is one of that very
  request, which is in the client's own name (`Request.SentBy`), and that a renewal is asked for the
  very token that was presented and found expired (`Request.Renews`).
  - `requests_signed`: the pool that the client was set up with receives just the calls on record in a
    run of it, and this holds of every request among them.
-/

import TokenTrust.Proofs.Client.Balance
import TokenTrust.Proofs.Signing.Checking

namespace TokenTrust

variable {σ : Type}

/-! ## Keys -/

namespace KeyPair

variable {app k : KeyPair}

/-- Checking takes no more than the public half. -/
theorem check_congr (h : k.publicKey? = app.publicKey?) : k.check = app.check := by
  funext bytes signature
  rw [check, check, h]

theorem publicKey?_withoutPrivate (k : KeyPair) : k.withoutPrivate.publicKey? = k.publicKey? := by
  cases k <;> rfl

end KeyPair

/-- A key with a private half never fails to sign, so its signing follows every policy. -/
theorem Source.signsUnder_of_hasPrivate {P : Policy} {channel : Channel σ} {app issuer : KeyPair}
    (hprivate : app.hasPrivate = true) : (production channel app issuer).SignsUnder P := by
  intro r
  obtain ⟨signature, hsign, -⟩ := KeyPair.exists_sign hprivate r.signedBytes
  apply Attempt.Follows.ofExcept
  intro e h
  rw [Request.sign, hsign] at h
  cases h

theorem Source.signsUnder_neverUnsigned {channel : Channel σ} {app issuer : KeyPair}
    (hprivate : app.hasPrivate = true) : (production channel app issuer).SignsUnder neverUnsigned :=
  signsUnder_of_hasPrivate hprivate

/-! ## Requests -/

namespace Request

/-- In the name of `ownId`, and with a signature of just this request under the application's key:
whoever has the public half of the key, and finds good with it what the private half makes of the
request's bytes, finds the signature good. -/
structure SentBy (r : Request) (ownId : String) (app : KeyPair) (signature : String) : Prop where
  own : r.requester = ownId
  signed : r.sign app = .ok signature
  checks : app.Answers r.signedBytes → ∀ k : KeyPair, k.publicKey? = app.publicKey? →
    ∀ σ : Type, (r.verify signature k.verifier : Run σ Bool) = pure true

structure Renews (r : Request) (t : Token) : Prop where
  subject : r.subject = .token t
  kind : r.kind = t.kind
  target : t.recipient = some r.target

theorem SentBy.of_sign {r : Request} {app : KeyPair} {signature : String}
    (hprivate : app.hasPrivate = true) (hsigned : r.sign app = .ok signature) :
    r.SentBy r.requester app signature := by
  refine ⟨rfl, hsigned, fun answers k hk σ => KeyPair.verifier_of_check ?_⟩
  obtain ⟨made, hmade, hcheck⟩ := KeyPair.exists_sign hprivate r.signedBytes
  cases hmade.symm.trans hsigned
  rw [KeyPair.check_congr (hk.trans app.publicKey?_withoutPrivate.symm)]
  exact hcheck answers

end Request

/-! ## Calls -/

/-- Of a balanced list of calls, those between the borrowing and the return are allowed. -/
theorem Balanced.made_of_mem {p : Connection → Call → Prop} {cs : List Call} {call : Call}
    (h : Balanced p cs) (hcall : call ∈ cs) : (∃ on, p on call) ∨
      (∃ service answer, call = .borrow service answer) ∨ ∃ on broken, call = .giveBack on broken := by
  cases h with
  | idle => cases hcall
  | unavailable service e => exact .inr (.inl ⟨_, _, List.mem_singleton.mp hcall⟩)
  | @served service on made hmade =>
    rcases List.mem_cons.mp hcall with rfl | hcall
    · exact .inr (.inl ⟨_, _, rfl⟩)
    rcases List.mem_cons.mp hcall with rfl | hcall
    · exact .inl ⟨on, hmade⟩
    · exact .inr (.inr ⟨_, _, List.mem_singleton.mp hcall⟩)

namespace Operation

variable {source : Source σ} {channel : Channel σ} {app issuer : KeyPair} {ownId : String}
  {op : Operation} {cs : List Call} {on : Connection} {r : Request} {signature : String}
  {answer : Except ServiceError Token}

theorem sentBy_of_requested (hsource : source = .production channel app issuer)
    (hprivate : app.hasPrivate = true) (h : Balanced (op.Asks source ownId) cs)
    (hcall : .request on r signature answer ∈ cs) : r.SentBy ownId app signature := by
  subst hsource
  rcases h.made_of_mem hcall with ⟨_, hasks⟩ | ⟨_, _, hborrow⟩ | ⟨_, _, hback⟩
  · cases hasks with
    | token _ own made =>
      cases made with
      | request signed =>
        cases signed with
        | underKey signed => exact own ▸ .of_sign hprivate signed
    | renewal _ made => cases made
    | ping made => cases made
  · cases hborrow
  · cases hback

theorem sentBy_of_refreshed (hsource : source = .production channel app issuer)
    (hchannel : channel.ownId = ownId) (hprivate : app.hasPrivate = true)
    (h : Balanced (op.Asks source ownId) cs) (hcall : .refresh on r signature answer ∈ cs) :
    r.SentBy ownId app signature ∧ ∃ t, op = .admitToken t ∧ r.Renews t := by
  subst hsource hchannel
  rcases h.made_of_mem hcall with ⟨_, hasks⟩ | ⟨_, _, hborrow⟩ | ⟨_, _, hback⟩
  · cases hasks with
    | token _ _ made => cases made
    | @renewal t _ _ ours made =>
      cases made with
      | refresh reached signed =>
        cases reached
        cases signed with
        | underKey signed =>
          exact ⟨.of_sign hprivate signed, t, rfl, rfl, rfl, by simp [Channel.renewalAt, ours]⟩
    | ping made => cases made
  · cases hborrow
  · cases hback

end Operation

namespace Client

variable [Clock σ] {c : Client σ}

/-- Nothing is asked of the service about a presented token unless it was found expired. -/
theorem late_of_calls_admitToken {t : Token} {r : Except TrustError Unit} {s s' : Session σ}
    {es : List Entry} (h : (ExceptT.run (c.operate (.admitToken t))).Ends s r es s')
    (hcalls : callsOf es ≠ []) : ∃ now ∈ readingsOf es, t.isValidAt now = false := by
  obtain ⟨⟨_, left⟩, h, rfl⟩ := Run.ends_map.mp h
  have hcheck := checkPresented_keeps Conduct.callsNothing_watches c t
  have hfound : ∀ {e : TrustError} {s₁ : Session σ} {es₁ : List Entry},
      (c.checkPresented t).Fails s e es₁ s₁ → e.isRefreshable = true →
      ∃ now ∈ readingsOf es₁, t.isValidAt now = false := by
    intro e s₁ es₁ checked late
    obtain ⟨_, -, -, hinstants⟩ := (checked_late_iff checked).mp ⟨e, rfl, late⟩
    rcases hinstants with ⟨now, hread, hlate⟩ | ⟨_, later, hread, -, -, hlate⟩
    · exact ⟨now, by simp [hread], hlate⟩
    · exact ⟨later, by simp [hread], hlate⟩
  rcases ends_admitToken_cases h with ⟨-, -, rfl⟩ | ⟨-, notes, hadmits⟩
  · exact absurd rfl hcalls
  · cases hadmits with
    | sound checked => exact absurd (hcheck.gives checked) hcalls
    | refused checked => exact absurd (hcheck.fails checked) hcalls
    | renewed checked late | stuck checked late =>
      obtain ⟨now, hnow, hlate⟩ := hfound checked late
      exact ⟨now, by simp [hnow], hlate⟩

/-- A client set up for production, without a source of its own, has a pool, and a key with a private
half. In every run of it the pool receives just the calls on record. Each request among them is in the
client's name, and comes with a signature of itself under that key. A refresh is asked for a token that
was presented in the same operation and had ended by then. And no operation ends because signing
failed. -/
theorem requests_signed {setup : Setup σ} {s s' : Session σ} {es : List Entry}
    (hbuilt : setup.build.Gives s c es s') (hown : setup.source = none)
    (hmode : setup.settings.mode = .production) :
    ∃ pool app, setup.pool = some pool ∧
      Setup.keyFrom setup.appKey setup.settings.appPrivateKey "application private"
        KeyPair.ofPrivateText = .ok (some app) ∧ app.hasPrivate = true ∧
      ∀ (tasks : List (Task σ)) (start : Session σ), ∀ x ∈ c.record tasks start,
        Explains pool.Receives x.start.world x.done.entries x.done.session.world ∧
        (∀ on r signature answer, .request on r signature answer ∈ callsOf x.done.entries →
          r.SentBy setup.settings.ownId app signature) ∧
        (∀ on r signature answer, .refresh on r signature answer ∈ callsOf x.done.entries →
          r.SentBy setup.settings.ownId app signature ∧
          ∃ t, x.task.operation = .admitToken t ∧ r.Renews t ∧
            ∃ now ∈ readingsOf x.done.entries, t.isValidAt now = false) ∧
        ∀ message cause, x.done.value ≠ .error (.signingFailed message cause) := by
  obtain ⟨hsettings, pool, app, issuer, hpool, hkey, hprivate, -, hsource⟩ :=
    Setup.gives_build_keys hown hmode hbuilt
  refine ⟨pool, app, hpool, hkey, hprivate, ?_⟩
  intro tasks start x hx
  have hends := ends_of_mem_record hx
  have hexplained := explains_of_ends_operate hends
  rw [consulting, hsource] at hexplained
  have hbalanced := ((c.consulting x.task.directory).operate_settles _ _ _ _ _ hends).balanced
  rw [← hsettings]
  refine ⟨hexplained, ?requested, ?refreshed, ?signed⟩
  case requested =>
    intro on r signature answer hcall
    exact Operation.sentBy_of_requested hsource hprivate hbalanced hcall
  case refreshed =>
    intro on r signature answer hcall
    obtain ⟨hsent, t, hop, hrenews⟩ :=
      Operation.sentBy_of_refreshed hsource rfl hprivate hbalanced hcall
    rw [hop] at hends
    exact ⟨hsent, t, hop, hrenews, late_of_calls_admitToken hends (List.ne_nil_of_mem hcall)⟩
  case signed =>
    intro message cause hvalue
    have hsigns : (c.consulting x.task.directory).source.SignsUnder neverUnsigned := by
      rw [consulting, hsource]
      exact Source.signsUnder_neverUnsigned hprivate
    have hnever := (operate_follows neverUnsigned_serves hsigns x.task.operation).ends hends
    rw [hvalue] at hnever
    cases hnever

end Client

namespace Gateway

def overdue : Task Scene where
  operation := .admitToken ended
  directory := errand.directory

def appKey : KeyPair := .ofSeed (List.replicate 32 0xa1)

def asking : Request where
  requester := "1234"
  timestamp := 1000
  kind := .app
  subject := .application
  target := "456"

def renewing : Request where
  requester := "1234"
  timestamp := 1000
  kind := .user
  subject := .token ended
  target := "1234"

/-- The gateway asks for a token, and then for a fresh one in the place of one that has ended; with the
public half of its key both requests are found signed. -/
theorem asks_and_renews_signed :
    (∃ x ∈ client.record [alone, overdue] (session [] []), ∃ on signature answer,
      Explains Scene.pool.Receives x.start.world x.done.entries x.done.session.world ∧
      .request on asking signature answer ∈ callsOf x.done.entries ∧
      asking.verify signature appKey.withoutPrivate.verifier = (pure true : Run Unit Bool)) ∧
    ∃ x ∈ client.record [alone, overdue] (session [] []), ∃ on signature answer,
      Explains Scene.pool.Receives x.start.world x.done.entries x.done.session.world ∧
      .refresh on renewing signature answer ∈ callsOf x.done.entries ∧
      (∃ t, x.task.operation = .admitToken t ∧ renewing.Renews t) ∧
      renewing.verify signature appKey.withoutPrivate.verifier = (pure true : Run Unit Bool) := by
  obtain ⟨pool, app, hpool, hkey, -, hsigned⟩ := Client.requests_signed (built (session [] [])) rfl rfl
  obtain rfl : Scene.pool = pool := Option.some.inj hpool
  obtain rfl : appKey = app := Option.some.inj (Except.ok.inj hkey)
  have hrecord := hsigned [alone, overdue] (session [] [])
  have hfirst : client.report alone (session [] []) ∈ client.record [alone, overdue] (session [] []) :=
    List.mem_cons_self
  have hsecond : client.report overdue (client.report alone (session [] [])).done.session ∈
      client.record [alone, overdue] (session [] []) := List.mem_cons_of_mem _ List.mem_cons_self
  constructor
  · obtain ⟨hexplained, hrequested, -⟩ := hrecord _ hfirst
    refine ⟨_, hfirst, _, _, _, hexplained, List.mem_cons_of_mem _ List.mem_cons_self, ?_⟩
    have hsent := hrequested _ asking _ _ (List.mem_cons_of_mem _ List.mem_cons_self)
    exact hsent.checks (by decide +kernel) _ rfl _
  · obtain ⟨hexplained, -, hrefreshed, -⟩ := hrecord _ hsecond
    refine ⟨_, hsecond, _, _, _, hexplained, List.mem_cons_of_mem _ List.mem_cons_self, ?_⟩
    obtain ⟨hsent, t, hop, hrenews, -⟩ :=
      hrefreshed _ renewing _ _ (List.mem_cons_of_mem _ List.mem_cons_self)
    exact ⟨⟨t, hop, hrenews⟩, hsent.checks (by decide +kernel) _ rfl _⟩

end Gateway

end TokenTrust
