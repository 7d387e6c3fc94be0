/-
  TokenTrust.Proofs.Client.Admission — which token a client is left with when it admits one.

  A token that is presented is checked for its recipient, its end and the issuer's signature. One
  that has ended is sent to the service once, and the answer takes its place. The answer has to be
  signed and unexpired (`admitToken_vouched`), but whom it is for and about is up to the service:
  - `admitToken_replaces_iff`: the client is left with a token for itself, about whom the presented
    one was about, exactly if every answer to a refresh was such a token; there is at most one.
-/

import Mathlib.Control.Monad.Basic
import TokenTrust.Proofs.Client.Built
import TokenTrust.Proofs.Source.Issued

namespace TokenTrust

def Token.Replaces (fresh t : Token) (ownId : String) : Prop :=
  fresh.recipient = some ownId ∧ fresh.subject = t.subject ∧ fresh.kind = t.kind

instance (fresh t : Token) (ownId : String) : Decidable (fresh.Replaces t ownId) :=
  inferInstanceAs (Decidable (_ ∧ _))

/-- The requests to refresh a token that were answered, each with the answer. -/
def renewalsOf (es : List Entry) : List (Request × Token) :=
  (callsOf es).filterMap fun
    | .refresh _ request _ (.ok fresh) => some (request, fresh)
    | _ => none

namespace Client

variable {σ : Type} [Clock σ] {c : Client σ} {issuer : KeyPair} {t u : Token}
  {s s' : Session σ} {es : List Entry}

theorem checkPresented_eq (hissuer : c.issuerKey = some issuer) (t : Token) :
    c.checkPresented t = t.accept c.ownId issuer.verifier := by
  unfold checkPresented
  rw [hissuer]
  rfl

/-- The presented token as it is, or what the source gives for it once it has ended. -/
theorem admitToken_cases (hmock : c.settings.useMock = false) (hissuer : c.issuerKey = some issuer)
    (h : (c.admitToken t).Ends s (.ok (), u) es s') :
    t.recipient = some c.ownId ∧
      ((u = t ∧ t.Vouched issuer es ∧ callsOf es = []) ∨
        ∃ s₁ es₁ s₂, (c.source.refresh t).Gives s₁ u es₁ s₂ ∧ es₁ ⊆ es ∧ callsOf es = callsOf es₁) := by
  have hsilent : (t.accept c.ownId issuer.verifier).Keeps (Conduct.callsNothing : Conduct σ) :=
    Token.accept_keeps Conduct.callsNothing_watches t c.ownId issuer
  unfold admitToken at h
  rw [hmock, if_neg Bool.false_ne_true, checkPresented_eq hissuer, Run.ends_bind] at h
  obtain ⟨verdict, es₁, s₁, es₂, hverdict, h, rfl⟩ := h
  cases verdict with
  | ok _ =>
    obtain ⟨hpair, rfl, -⟩ := Run.ends_pure.mp h
    obtain ⟨hrecipient, hvouched⟩ := Token.gives_accept hverdict
    have hcalls : callsOf es₁ = [] := hsilent.gives hverdict
    refine ⟨hrecipient, .inl ⟨(Prod.mk.inj hpair).2, ?_, ?_⟩⟩
    · exact hvouched.mono (List.subset_append_left _ _)
    · rw [List.append_nil, hcalls]
  | error e =>
    simp only at h
    by_cases hexpired : e.isRefreshable = true
    · rw [if_pos hexpired, Run.ends_bind] at h
      obtain ⟨_, ea, sa, eb, hlog, h, rfl⟩ := h
      rw [Run.ends_bind] at h
      obtain ⟨result, ec, sc, ed, hrefresh, h, rfl⟩ := h
      obtain ⟨rfl, -⟩ := Run.ends_log.mp hlog
      have hcalls : callsOf es₁ = [] := hsilent.fails hverdict
      refine ⟨Token.recipient_of_fails_accept hverdict hexpired, .inr ?_⟩
      cases result with
      | ok fresh =>
        obtain ⟨hpair, rfl, -⟩ := Run.ends_pure.mp h
        obtain ⟨-, rfl⟩ := Prod.mk.inj hpair
        exact ⟨_, ec, _, hrefresh, fun _ he => by simp [he], by simp [hcalls]⟩
      | error e' =>
        obtain ⟨hpair, -, -⟩ := Run.ends_pure.mp h
        exact absurd (Prod.mk.inj hpair).1 (by simp)
    · rw [if_neg hexpired] at h
      obtain ⟨hpair, -, -⟩ := Run.ends_pure.mp h
      exact absurd (Prod.mk.inj hpair).1 (by simp)

/-- In production, what the client is left with is vouched for, and what takes the place of the
presented token is the answer to one request that asks for the like of it. -/
theorem admitToken_production {channel : Channel σ} {app : KeyPair}
    (hmock : c.settings.useMock = false) (hissuer : c.issuerKey = some issuer)
    (hsource : c.source = .production channel app issuer)
    (h : (c.admitToken t).Ends s (.ok (), u) es s') :
    t.recipient = some c.ownId ∧ u.Vouched issuer es ∧
      ((u = t ∧ callsOf es = []) ∨
        ∃ on now signature broken, callsOf es = [.borrow channel.serviceName (.ok on),
          .refresh on (channel.renewalAt t now) signature (.ok u), .giveBack on broken]) := by
  obtain ⟨hrecipient, ⟨rfl, hvouched, hcalls⟩ | ⟨s₁, es₁, s₂, hrefresh, hes, hcalls⟩⟩ :=
    admitToken_cases hmock hissuer h
  · exact ⟨hrecipient, hvouched, .inl ⟨rfl, hcalls⟩⟩
  · rw [hsource] at hrefresh
    obtain ⟨hvouched, on, now, signature, broken, hmade⟩ := Source.gives_refresh hrefresh
    exact ⟨hrecipient, hvouched.mono hes, .inr ⟨on, now, signature, broken, by rw [hcalls, hmade]⟩⟩

/-- Whether a client in production is left with a token for itself and about the same subject is
decided by the answer of the service, when there is one. -/
theorem admitToken_replaces_iff {setup : Client.Setup σ} {s₀ s₁ : Session σ} {es₀ : List Entry}
    (hbuilt : setup.build.Gives s₀ c es₀ s₁) (hown : setup.source = none)
    (hmode : c.source.mode = .production) (hmock : setup.settings.useMock = false)
    (h : (c.admitToken t).Ends s (.ok (), u) es s') :
    ((u = t ∧ renewalsOf es = []) ∨ ∃ request, renewalsOf es = [(request, u)] ∧
      request.subject = .token t ∧ request.kind = t.kind ∧ request.target = c.ownId) ∧
    (u.Replaces t c.ownId ↔ ∀ x ∈ renewalsOf es, x.2.Replaces t c.ownId) := by
  obtain ⟨hsettings, channel, app, issuer, hissuer, hsource⟩ :=
    Setup.gives_build_production hown hbuilt hmode
  rw [← hsettings] at hmock
  obtain ⟨hrecipient, -, ⟨rfl, hcalls⟩ | ⟨on, now, signature, broken, hcalls⟩⟩ :=
    admitToken_production hmock hissuer hsource h
  · have hnone : renewalsOf es = [] := by rw [renewalsOf, hcalls]; rfl
    refine ⟨.inl ⟨rfl, hnone⟩, ?_⟩
    rw [hnone]
    exact ⟨fun _ x hx => absurd hx List.not_mem_nil, fun _ => ⟨hrecipient, rfl, rfl⟩⟩
  · have hone : renewalsOf es = [(channel.renewalAt t now, u)] := by rw [renewalsOf, hcalls]; rfl
    refine ⟨.inr ⟨_, hone, rfl, rfl, by simp [Channel.renewalAt, hrecipient]⟩, ?_⟩
    rw [hone]
    simp

end Client

namespace Gateway

def ended : Token := pass .user "alice" "1234" 500
  "scTuZAJYGM292JQ+cpEWonmzwQJXypJnc66Fn3j9dRR9ImAfWQAl6Nb5hNmSa9TI37exg1NSEPHry60FGXWpBQ=="

def renewed : Token := pass .user "alice" "1234" 9000
  "lL5ZBXMQM8UyHY94eLhnm4ylpvZq7BiHnzVG8eEzcfOC5XPi4OOY/lSbU3IOoeg4YLrUrPIWfpmafoxgmrCOCA=="

/-- A token of another kind, for another application, about someone else. -/
def stranger : Token := pass .app "mallory" "456" 9000
  "SvVWtj8sIXGKo+sgREouZZ35iOQndjd06VV3RF6+eTEiUlKx1G+nKXzClCSrRky6Bp4jplSaNelH1YR3bqoiDQ=="

theorem admits_renewed :
    ((client.admitToken ended).run (session [renewed] [])).value = (.ok (), renewed) ∧
      renewed.Replaces ended "1234" := by
  have hvalue : ((client.admitToken ended).run (session [renewed] [])).value = (.ok (), renewed) := by
    decide +kernel
  have hends := Run.ends_run (client.admitToken ended) (session [renewed] [])
  rw [hvalue] at hends
  have hiff := (Client.admitToken_replaces_iff (built (session [] [])) rfl rfl rfl hends).2
  exact ⟨hvalue, hiff.mpr (by decide +kernel)⟩

/-- The service answers with a token for another application, about someone else, and the client is
left with it. -/
theorem admits_stranger :
    setup.build.Gives (session [] []) client [.event (.clientReady "1234" .production)] (session [] []) ∧
      setup.source = none ∧ client.source.mode = .production ∧ setup.settings.useMock = false ∧
      ((client.admitToken ended).run (session [stranger] [])).value = (.ok (), stranger) ∧
      ¬stranger.Replaces ended client.ownId :=
  ⟨built _, rfl, rfl, rfl, by decide +kernel, by decide +kernel⟩

end Gateway

end TokenTrust
