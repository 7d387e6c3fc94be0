/-
  TokenTrust.Proofs.Source.Issued — what stands behind the tokens that a source gives out.

  In production everything passes `checkIssued`: what is acquired (`gives_acquire`), what is
  refreshed (`gives_refresh`), and what was kept and is still good (`ends_isValid`). Nothing else
  about a token is looked at, so a refreshed one is whatever the service has answered. The other
  sources give no guarantee. Apart from the calls on its pool (`PoolReceives`) a source does no more
  than look at the clock and say what it does (`acquire_keeps`, `refresh_keeps`, `ping_keeps`,
  `isValid_keeps`).
-/

import TokenTrust.Proofs.Acceptance.Vouched
import TokenTrust.Proofs.Source.Exchange
import TokenTrust.Source.Basic

namespace TokenTrust

variable {σ : Type} [Clock σ] {P : Conduct σ} {s s' : Session σ} {es : List Entry}

/-! ## Tokens made up -/

namespace MockSource

theorem principalOf_keeps (hP : P.Notes) (r : Request) :
    (principalOf r : Attempt σ Principal).Keeps P := by
  unfold principalOf
  split
  · refine .bind (.ofExcept _) fun user => ?_
    exact .bind (.lift (Validity.make_keeps hP _ _ _)) fun _ => .pure _
  · exact .pure _
  · exact .pure _
  · refine .bind (.lift (Millis.fromNow_keeps hP _)) fun notAfter => ?_
    exact .bind (.lift (Validity.make_keeps hP _ _ _)) fun _ => .pure _
  · exact .throw _

theorem acquire_keeps (hP : P.Notes) (m : MockSource) (r : Request) :
    (m.acquire r : Attempt σ Token).Keeps P := by
  refine .bind (principalOf_keeps hP r) fun principal => ?_
  refine .bind (.lift (Millis.fromNow_keeps hP _)) fun notAfter => ?_
  refine .bind (.lift (Validity.make_keeps hP _ _ _)) fun validity => ?_
  exact .bind (.note hP (by simp [Event.level])) fun _ => .pure _

/-- A token that is made up says what the request says, and lasts for a while after an instant that the
clock has shown. -/
theorem gives_acquire {m : MockSource} {r : Request} {t : Token}
    (h : (m.acquire r : Attempt σ Token).Gives s t es s') :
    ∃ principal es₁ s₁ issuedTime now, (principalOf r : Attempt σ Principal).Gives s principal es₁ s₁ ∧
      .reading now ∈ es ∧ t = {
        kind := r.kind, principal
        validity := {
          issuer := Identity.issuer.name, issuedTo := m.ownId, issuedFor := some r.target, issuedTime
          notAfter := Millis.after now tokenLifetime }
        authorizations := (Authorizations.ofFormal m.labels).without (r.exclude.getD .empty) } := by
  rw [acquire, Attempt.gives_bind] at h
  obtain ⟨principal, es₁, s₁, _, hprincipal, h, rfl⟩ := h
  rw [Attempt.gives_bind] at h
  obtain ⟨notAfter, es₂, _, _, hlifetime, h, rfl⟩ := h
  obtain ⟨now, rfl, rfl⟩ := Millis.ends_fromNow (Attempt.gives_lift.mp hlifetime)
  rw [Attempt.gives_bind] at h
  obtain ⟨validity, es₃, _, _, hvalidity, h, rfl⟩ := h
  obtain ⟨issuedTime, rfl, rfl⟩ := Validity.ends_make (Attempt.gives_lift.mp hvalidity)
  obtain ⟨_, _, _, h⟩ := h.last
  obtain ⟨rfl, -, -⟩ := Attempt.gives_pure.mp h
  exact ⟨principal, es₁, s₁, issuedTime, now, hprincipal, by simp, rfl⟩

theorem refresh_keeps (hP : P.Notes) (t : Token) : (MockSource.refresh t : Run σ Token).Keeps P :=
  .bind (.now hP) fun _ => .pure _

end MockSource

/-! ## Checks -/

namespace Source

variable {issuer appKey : KeyPair} {channel : Channel σ} {t : Token}

theorem gives_checkIssued {u : Unit} (h : (checkIssued issuer t).Gives s u es s') :
    t.Vouched issuer es := by
  rw [checkIssued, Attempt.gives_bind] at h
  obtain ⟨b, es₁, s₁, _, hverify, h, rfl⟩ := h
  have hsigned := Token.ends_verify (Attempt.gives_lift.mp hverify)
  cases b with
  | false => simp at h
  | true =>
    rw [if_pos rfl, Attempt.gives_bind] at h
    obtain ⟨now, es₂, s₂, es₃, hnow, h, rfl⟩ := h
    obtain ⟨-, rfl, -⟩ := Run.ends_now.mp (Attempt.gives_now.mp hnow)
    refine ⟨hsigned.symm, now, by simp, ?_⟩
    by_cases hvalid : t.isValidAt now = true
    · exact hvalid
    · rw [if_neg hvalid] at h
      exact absurd h Attempt.gives_throw

theorem gives_checkResponse {u : Unit} (h : (checkResponse issuer t).Gives s u es s') :
    t.Vouched issuer es := by
  rw [checkResponse, Attempt.gives_bind] at h
  obtain ⟨result, es₁, s₁, es₂, hcheck, h, rfl⟩ := h
  split at h
  · have hvouched := gives_checkIssued (Attempt.gives_outcome.mp hcheck)
    exact hvouched.mono (List.subset_append_left _ _)
  · exact absurd h Attempt.gives_refuse
  · exact absurd h Attempt.gives_throw

theorem checkIssued_keeps (hP : P.Notes) (issuer : KeyPair) (t : Token) :
    (checkIssued issuer t : Attempt σ Unit).Keeps P := by
  have hexpiry : (do
      unless t.isValidAt (← Attempt.now) do
        throw (.expired t.subject t.validity.notAfter) : Attempt σ Unit).Keeps P := by
    refine .bind (.now hP) fun now => ?_
    split
    · exact .pure _
    · exact .throw _
  refine .bind (.lift (Token.verify_keeps hP t issuer)) fun b => ?_
  split
  · exact hexpiry
  · exact .bind (.throw _) fun _ => hexpiry

theorem checkResponse_keeps (hP : P.Watches) (issuer : KeyPair) (t : Token) :
    (checkResponse issuer t : Attempt σ Unit).Keeps P := by
  refine .bind (.outcome (checkIssued_keeps hP.notes issuer t)) fun result => ?_
  split
  · exact .pure _
  · exact .refuse hP _ _
  · exact .throw _

/-! ## What production gives out -/

theorem gives_acquire {r : Request} (h : ((production channel appKey issuer).acquire r).Gives s t es s') :
    t.Vouched issuer es := by
  simp only [acquire] at h
  rw [Attempt.gives_bind] at h
  obtain ⟨signature, es₁, s₁, _, -, h, rfl⟩ := h
  rw [Attempt.gives_bind] at h
  obtain ⟨answered, es₂, s₂, _, -, h, rfl⟩ := h
  rw [Attempt.gives_bind] at h
  obtain ⟨_, es₃, s₃, _, hcheck, h, rfl⟩ := h
  rw [Attempt.gives_bind] at h
  obtain ⟨_, es₄, s₄, es₅, -, h, rfl⟩ := h
  obtain ⟨rfl, -, -⟩ := Attempt.gives_pure.mp h
  exact (gives_checkResponse hcheck).mono fun _ he => by simp [he]

/-- A refresh is one call, and its value the answer to it. -/
theorem gives_refresh {fresh : Token}
    (h : ((production channel appKey issuer).refresh t).Gives s fresh es s') :
    fresh.Vouched issuer es ∧ ∃ on now signature broken, callsOf es =
      [.borrow channel.serviceName (.ok on), .refresh on (channel.renewalAt t now) signature (.ok fresh),
        .giveBack on broken] := by
  simp only [refresh] at h
  rw [Attempt.gives_bind] at h
  obtain ⟨request, es₁, s₁, _, hrequest, h, rfl⟩ := h
  rw [Attempt.gives_bind] at h
  obtain ⟨signature, es₂, s₂, _, hsignature, h, rfl⟩ := h
  rw [Attempt.gives_bind] at h
  obtain ⟨answered, es₃, s₃, _, hexchange, h, rfl⟩ := h
  rw [Attempt.gives_bind] at h
  obtain ⟨_, es₄, s₄, _, hcheck, h, rfl⟩ := h
  rw [Attempt.gives_bind] at h
  obtain ⟨_, es₅, s₅, es₆, hlog, h, rfl⟩ := h
  obtain ⟨rfl, rfl, -⟩ := Attempt.gives_pure.mp h
  refine ⟨(gives_checkResponse hcheck).mono fun _ he => by simp [he], ?_⟩
  obtain ⟨now, rfl, rfl⟩ := Channel.ends_renewal (Attempt.gives_lift.mp hrequest)
  obtain ⟨-, rfl, -⟩ := Attempt.gives_ofExcept.mp hsignature
  obtain ⟨l, _, ea, l', _, huse, hcalls⟩ := Channel.gives_exchange hexchange
  obtain ⟨hrefresh, hused⟩ := Lease.ends_refresh huse
  have hback : l'.connection = l.connection := by rw [hused, Lease.noting_connection]
  have hchecked : callsOf es₄ = [] := (checkResponse_keeps Conduct.callsNothing_watches _ _).gives hcheck
  obtain ⟨rfl, -⟩ := Attempt.gives_log.mp hlog
  exact ⟨l.connection, now, signature, l'.broken, by simp [hcalls, hrefresh, hchecked, hback]⟩

theorem ends_isValid (h : ((production channel appKey issuer).isValid t).Ends s true es s') :
    t.Vouched issuer es := by
  simp only [isValid] at h
  rw [Run.ends_bind] at h
  obtain ⟨result, es₁, s₁, es₂, hcheck, h, rfl⟩ := h
  cases result with
  | ok _ => exact (gives_checkIssued hcheck).mono (List.subset_append_left _ _)
  | error e =>
    obtain ⟨_, _, _, h⟩ := h.last
    exact absurd (Run.ends_pure.mp h).1 (by simp)

/-! ## What every source does -/

/-- What the pool of the source makes of the world. Tokens that are made up take no calls. -/
def PoolReceives : Source σ → Call → σ → σ → Prop
  | mock _ => fun _ _ _ => False
  | unauthenticated channel | production channel _ _ => channel.pool.Receives

theorem isValid_keeps (hP : P.Notes) (source : Source σ) (t : Token) :
    (source.isValid t).Keeps P := by
  unfold isValid
  split
  · refine .bind (checkIssued_keeps hP _ t) fun result => ?_
    split
    · exact .pure _
    · exact .bind (.note hP (by simp [Event.level])) fun _ => .pure _
  · exact .pure _

theorem acquire_keeps {source : Source σ} (hP : P.Calls source.PoolReceives) (r : Request) :
    (source.acquire r).Keeps P := by
  have hw := hP.toWatches
  cases source with
  | mock made => exact made.acquire_keeps hw.notes r
  | unauthenticated channel =>
    exact .bind (.log hw _) fun _ => Channel.exchange_keeps hP (Lease.request_keeps hP.leases _ _)
  | production channel appKey issuer =>
    refine .bind (.ofExcept _) fun signature => ?_
    refine .bind (Channel.exchange_keeps hP (Lease.request_keeps hP.leases _ _)) fun token => ?_
    refine .bind (checkResponse_keeps hw _ _) fun _ => ?_
    exact .bind (.log hw _) fun _ => .pure _

theorem refresh_keeps {source : Source σ} (hP : P.Calls source.PoolReceives) (t : Token) :
    (source.refresh t).Keeps P := by
  have hw := hP.toWatches
  cases source with
  | mock made => exact .lift (MockSource.refresh_keeps hw.notes t)
  | unauthenticated channel =>
    refine .bind (.lift (Channel.renewal_keeps hw.notes _ _)) fun request => ?_
    exact Channel.exchange_keeps hP (Lease.refresh_keeps hP.leases _ _)
  | production channel appKey issuer =>
    refine .bind (.lift (Channel.renewal_keeps hw.notes _ _)) fun request => ?_
    refine .bind (.ofExcept _) fun signature => ?_
    refine .bind (Channel.exchange_keeps hP (Lease.refresh_keeps hP.leases _ _)) fun fresh => ?_
    refine .bind (checkResponse_keeps hw _ _) fun _ => ?_
    exact .bind (.log hw _) fun _ => .pure _

theorem ping_keeps {source : Source σ} (hP : P.Calls source.PoolReceives) : source.ping.Keeps P := by
  cases source with
  | mock made => exact .pure _
  | unauthenticated channel => exact Channel.exchange_keeps hP (Lease.ping_keeps hP.leases)
  | production channel appKey issuer => exact Channel.exchange_keeps hP (Lease.ping_keeps hP.leases)

end Source

end TokenTrust
