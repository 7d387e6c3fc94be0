/-
  TokenTrust.Proofs.Source.Balance — whoever borrows a connection gives it back, once.

  What passes between a source and the pool in one go is `Balanced`: nothing at all, a connection that
  was not to be had, or one that was lent, called on once, and given back, as broken exactly if the call
  failed in transport. `Attempt.Settles` says this of an attempt, however it ends, and that nothing was
  borrowed if it was the signing that failed. An attempt that makes no calls may come before one that
  settles, or after it.
  - `Channel.exchange_settles`, `Source.acquire_settles`, `Source.refresh_settles`, `Source.ping_settles`.
  - `Lease.ends_visit`: a lease on which any number of calls are made, each depending on how the ones
    before ended, is given back as broken exactly if one of them failed in transport.
-/

import Mathlib.Control.Monad.Basic
import TokenTrust.Proofs.Source.Reporting

namespace TokenTrust

variable {σ α β : Type} {s s' : Session σ} {es : List Entry}

/-! ## Leases -/

def ServiceError.inTransport : ServiceError → Bool
  | transport _ => true
  | notRegistered _ => false

theorem ServiceError.any_inTransport_iff {faults : List (Option ServiceError)} :
    (faults.any fun fault => fault.any (·.inTransport)) = true ↔
      ∃ message, some (.transport message) ∈ faults := by
  rw [List.any_eq_true]
  constructor
  · rintro ⟨fault, hmem, hfault⟩
    match fault with
    | some (.transport message) => exact ⟨message, hmem⟩
    | some (.notRegistered _) => cases hfault
    | none => cases hfault
  · rintro ⟨message, hmem⟩
    exact ⟨_, hmem, rfl⟩

def faultOf : Except ServiceError α → Option ServiceError
  | .ok _ => none
  | .error e => some e

def Call.fault? : Call → Option ServiceError
  | request _ _ _ answer | refresh _ _ _ answer => faultOf answer
  | ping _ answer => faultOf answer
  | borrow .. | giveBack .. => none

namespace Lease

variable {pool : Pool σ} {service : String} {l l' : Lease}

theorem noting_broken (l : Lease) (answer : Except ServiceError α) :
    (l.noting answer).broken = (l.broken || (faultOf answer).any (·.inTransport)) := by
  unfold noting
  split
  · simp [faultOf, ServiceError.inTransport]
  · rename_i hother
    cases answer with
    | ok a => simp [faultOf]
    | error e =>
      cases e with
      | notRegistered message => simp [faultOf, ServiceError.inTransport]
      | transport message => exact absurd rfl (hother message)

/-- What is done on a lease: calls one after the other, each of which may depend on how the ones before
ended. -/
inductive Usage (σ : Type) : Type 1 where
  | done
  | call {α : Type} (make : Connection → Run σ (Except ServiceError α))
      (next : Except ServiceError α → Usage σ)

/-- The errors that the calls were answered with, in order, and the lease after them. -/
def Usage.on : Usage σ → Lease → Run σ (List (Option ServiceError) × Lease)
  | done, l => return ([], l)
  | call make next, l => do
    let (answer, l) ← l.call make
    let (faults, l) ← (next answer).on l
    return (faultOf answer :: faults, l)

/-- Borrows a connection, uses it, and gives it back. -/
def visit (pool : Pool σ) (service : String) (u : Usage σ) :
    Run σ (Except ServiceError (List (Option ServiceError))) := do
  match ← borrow pool service with
  | .error e => return .error e
  | .ok l =>
    let (faults, l) ← u.on l
    l.giveBack pool
    return .ok faults

theorem ends_on {u : Usage σ} {faults : List (Option ServiceError)}
    (h : (u.on l).Ends s (faults, l') es s') : l'.connection = l.connection ∧
      l'.broken = (l.broken || faults.any fun fault => fault.any (·.inTransport)) := by
  induction u generalizing l l' s s' es faults with
  | done =>
    obtain ⟨hpair, -, -⟩ := Run.ends_pure.mp h
    obtain ⟨rfl, rfl⟩ := Prod.mk.inj hpair
    simp
  | call make next ih =>
    rw [Usage.on, Run.ends_bind] at h
    obtain ⟨⟨answer, noted⟩, es₁, s₁, _, hcall, h, rfl⟩ := h
    obtain ⟨-, rfl⟩ := ends_call hcall
    rw [Run.ends_bind] at h
    obtain ⟨⟨rest, last⟩, es₂, s₂, es₃, hrest, hpure, rfl⟩ := h
    obtain ⟨hpair, -, -⟩ := Run.ends_pure.mp hpure
    obtain ⟨rfl, rfl⟩ := Prod.mk.inj hpair
    obtain ⟨hconnection, hbroken⟩ := ih _ hrest
    rw [hconnection, hbroken, noting_connection, noting_broken]
    exact ⟨rfl, by simp [Bool.or_assoc]⟩

theorem ends_visit {u : Usage σ} {r : Except ServiceError (List (Option ServiceError))}
    (h : (visit pool service u).Ends s r es s') :
    (∃ e, r = .error e ∧ callsOf es = [.borrow service (.error e)] ∧
        pool.Receives (.borrow service (.error e)) s.world s'.world) ∨
      ∃ on faults l' s₁ es₁ s₂ broken, r = .ok faults ∧
        broken = (faults.any fun fault => fault.any (·.inTransport)) ∧
        pool.Receives (.borrow service (.ok on)) s.world s₁.world ∧
        (u.on { connection := on }).Ends s₁ (faults, l') es₁ s₂ ∧
        pool.Receives (.giveBack on broken) s₂.world s'.world ∧
        callsOf es = .borrow service (.ok on) :: (callsOf es₁ ++ [.giveBack on broken]) := by
  rw [visit, Run.ends_bind] at h
  obtain ⟨lent, ea, sa, _, hborrow, h, rfl⟩ := h
  rcases ends_borrow hborrow with ⟨on, rfl, hcalls, hlent⟩ | ⟨e, rfl, hcalls, hrefused⟩
  · simp only at h
    rw [Run.ends_bind] at h
    obtain ⟨⟨faults, l'⟩, eb, sb, _, hused, h, rfl⟩ := h
    rw [Run.ends_bind] at h
    obtain ⟨_, ec, sc, _, hback, hpure, rfl⟩ := h
    obtain ⟨rfl, rfl, rfl⟩ := Run.ends_pure.mp hpure
    obtain ⟨hconnection, hbroken⟩ := ends_on hused
    obtain ⟨hreturned, hreceived⟩ := ends_giveBack hback
    rw [hconnection] at hreturned hreceived
    exact .inr ⟨on, faults, l', sa, eb, sb, l'.broken, rfl, hbroken, hlent, hused, hreceived,
      by simp [hcalls, hreturned]⟩
  · obtain ⟨rfl, rfl, rfl⟩ := Run.ends_pure.mp h
    exact .inl ⟨e, rfl, by simp [hcalls], hrefused⟩

end Lease

/-! ## Balance -/

/-- What passes between a source and the pool in one go, if a call on a connection is one that `p`
allows. -/
inductive Balanced (p : Connection → Call → Prop) : List Call → Prop where
  | idle : Balanced p []
  | unavailable (service : String) (e : ServiceError) : Balanced p [.borrow service (.error e)]
  | served (service : String) {on : Connection} {call : Call} (made : p on call) :
      Balanced p [.borrow service (.ok on), call, .giveBack on (call.fault?.any (·.inTransport))]

variable {p q : Connection → Call → Prop}

theorem Balanced.mono {cs : List Call} (h : Balanced p cs) (hpq : ∀ on call, p on call → q on call) :
    Balanced q cs := by
  cases h with
  | idle => exact .idle
  | unavailable service e => exact .unavailable service e
  | served service made => exact .served service (hpq _ _ made)

/-- An attempt that ended this way has balanced its calls, and made none if it could not sign. -/
structure Settled (p : Connection → Call → Prop) (r : Except TrustError α) (es : List Entry) : Prop where
  balanced : Balanced p (callsOf es)
  unsigned : (failure? r).any (·.isUnsigned) = true → callsOf es = []

def Attempt.Settles (p : Connection → Call → Prop) (x : Attempt σ α) : Prop :=
  ∀ s r es s', (ExceptT.run x).Ends s r es s' → Settled p r es

namespace Attempt.Settles

theorem mono {x : Attempt σ α} (hx : x.Settles p) (hpq : ∀ on call, p on call → q on call) :
    x.Settles q := fun s r es s' h => ⟨(hx s r es s' h).balanced.mono hpq, (hx s r es s' h).unsigned⟩

theorem of_silent {x : Attempt σ α} (hx : x.Keeps Conduct.callsNothing) : x.Settles p := by
  intro s r es s' h
  have hsilent : callsOf es = [] := hx.ends h
  exact ⟨hsilent ▸ .idle, fun _ => hsilent⟩

/-- Silence may come first. -/
theorem after_silent {x : Attempt σ α} {f : α → Attempt σ β} (hx : x.Keeps Conduct.callsNothing)
    (hf : ∀ s a es s', x.Gives s a es s' → (f a).Settles p) : (x >>= f).Settles p := by
  intro s r es s' h
  rw [Attempt.ends_bind] at h
  rcases h with ⟨a, es₁, s₁, es₂, hgives, hrest, rfl⟩ | ⟨e, rfl, hfails⟩
  · have hsilent : callsOf es₁ = [] := hx.gives hgives
    obtain ⟨hbalanced, hunsigned⟩ := hf _ _ _ _ hgives _ _ _ _ hrest
    constructor
    · rw [callsOf_append, hsilent]
      exact hbalanced
    · rw [callsOf_append, hsilent]
      exact hunsigned
  · have hsilent : callsOf es = [] := hx.fails hfails
    exact ⟨hsilent ▸ .idle, fun _ => hsilent⟩

/-- Silence may follow, if it has nothing to sign. -/
theorem then_silent {x : Attempt σ α} {f : α → Attempt σ β} (hx : x.Settles p)
    (hf : ∀ a, (f a).Keeps Conduct.callsNothing) (hsigned : ∀ a, (f a).Follows neverUnsigned) :
    (x >>= f).Settles p := by
  intro s r es s' h
  rw [Attempt.ends_bind] at h
  rcases h with ⟨a, es₁, s₁, es₂, hgives, hrest, rfl⟩ | ⟨e, rfl, hfails⟩
  · have hsilent : callsOf es₂ = [] := (hf a).ends hrest
    have hsign : (failure? r).any (·.isUnsigned) = false := (hsigned a).ends hrest
    constructor
    · rw [callsOf_append, hsilent, List.append_nil]
      exact (hx _ _ _ _ hgives).balanced
    · intro hfailed
      rw [hsign] at hfailed
      cases hfailed
  · exact ⟨(hx _ _ _ _ hfails).balanced, (hx _ _ _ _ hfails).unsigned⟩

theorem map {x : Attempt σ α} (hx : x.Settles p) (f : α → β) : (f <$> x).Settles p := by
  rw [← bind_pure_comp]
  exact hx.then_silent (fun _ => .pure _) fun _ => .pure _

end Attempt.Settles

/-! ## One call on the service -/

def Lease.Use.IsCall (use : Lease.Use σ α) (p : Connection → Call → Prop) : Prop :=
  ∀ pool l s answer l' es s', (use pool l).Ends s (answer, l') es s' → ∃ call, callsOf es = [call] ∧
    p l.connection call ∧ call.fault? = faultOf answer ∧ l' = l.noting answer

theorem Lease.isCall {f : Pool σ → Connection → σ → Except ServiceError α × σ}
    {made : Connection → Except ServiceError α → Call}
    (hfault : ∀ on answer, (made on answer).fault? = faultOf answer)
    (hmade : ∀ on answer, p on (made on answer)) :
    Lease.Use.IsCall (fun pool => Lease.call fun on => Run.call (f pool on) (made on)) p := by
  intro pool l s answer l' es s' h
  obtain ⟨hcall, hnoted⟩ := ends_call h
  obtain ⟨-, rfl, -⟩ := Run.ends_call.mp hcall
  exact ⟨_, rfl, hmade _ _, hfault _ _, hnoted⟩

theorem Channel.exchange_settles [Clock σ] {use : Lease.Use σ α} (c : Channel σ) (huse : use.IsCall p)
    (hkeeps : ∀ l, (use c.pool l).Keeps neverUnsigned.conduct) : (c.exchange use).Settles p := by
  intro s r es s' h
  have hsign : (failure? r).any (·.isUnsigned) = false :=
    (c.exchange_follows neverUnsigned_serves.toWorks hkeeps).ends h
  constructor
  · rcases ends_exchange h with ⟨e, hcalls, -⟩ | ⟨on, answer, l', s₁, es₁, s₂, hused, hcalls, -⟩
    · rw [hcalls]
      exact .unavailable _ e
    · obtain ⟨call, hcall, hmade, hfault, rfl⟩ := huse _ _ _ _ _ _ _ hused
      rw [hcalls, hcall, Lease.noting_connection, Lease.noting_broken, Bool.false_or, ← hfault]
      exact .served _ hmade
  · intro hfailed
    rw [hsign] at hfailed
    cases hfailed

/-! ## Sources -/

namespace Source

def channel? : Source σ → Option (Channel σ)
  | mock _ => none
  | unauthenticated channel | production channel _ _ => some channel

/-- The signature that goes with a request: none at all, or one under the application's key. -/
inductive Signs : Source σ → Request → String → Prop where
  | unsigned {channel : Channel σ} {r : Request} : Signs (unauthenticated channel) r ""
  | underKey {channel : Channel σ} {appKey issuerKey : KeyPair} {r : Request} {signature : String}
      (signed : r.sign appKey = .ok signature) : Signs (production channel appKey issuerKey) r signature

inductive Requests (source : Source σ) (r : Request) : Connection → Call → Prop where
  | request {on : Connection} {signature : String} {answer : Except ServiceError Token}
      (signed : source.Signs r signature) : Requests source r on (.request on r signature answer)

inductive Renews (source : Source σ) (t : Token) : Connection → Call → Prop where
  | refresh {on : Connection} {channel : Channel σ} {now : Millis} {signature : String}
      {answer : Except ServiceError Token} (reached : source.channel? = some channel)
      (signed : source.Signs (channel.renewalAt t now) signature) :
      Renews source t on (.refresh on (channel.renewalAt t now) signature answer)

inductive Pings : Connection → Call → Prop where
  | ping {on : Connection} {answer : Except ServiceError Bool} : Pings on (.ping on answer)

theorem gives_requestSignature {appKey : KeyPair} {r : Request} {signature : String}
    (h : (requestSignature appKey r : Attempt σ String).Gives s signature es s') :
    r.sign appKey = .ok signature := by
  obtain ⟨hsign, -, -⟩ := Attempt.gives_ofExcept.mp h
  cases hresult : r.sign appKey with
  | ok made => rw [hresult] at hsign; exact congrArg Except.ok (Except.ok.inj hsign)
  | error e => rw [hresult] at hsign; cases hsign

variable [Clock σ]

/-- In production every token from the service is checked, and then announced. -/
theorem settles_checked {x : Attempt σ Token} (hx : x.Settles p) (issuerKey : KeyPair)
    {event : Token → Event} (hevent : ∀ t, (event t).level ≠ .error) : (do
      let t ← x
      checkResponse issuerKey t
      Attempt.log (event t)
      return t).Settles p := by
  have hwatches := Conduct.callsNothing_watches (σ := σ)
  refine hx.then_silent (fun t => ?_) fun t => ?_
  · refine .bind (checkResponse_keeps hwatches issuerKey t) fun _ => ?_
    exact .bind (.log hwatches _) fun _ => .pure _
  · refine .bind (checkResponse_follows neverUnsigned_serves.toWorks issuerKey t) fun _ => ?_
    exact .bind (.lift (.note neverUnsigned_serves.notes (hevent t))) fun _ => .pure _

theorem acquire_settles (source : Source σ) (r : Request) :
    (source.acquire r).Settles (source.Requests r) := by
  have hwatches := Conduct.callsNothing_watches (σ := σ)
  cases source with
  | mock made => exact .of_silent (made.acquire_keeps hwatches.notes r)
  | unauthenticated channel =>
    refine .after_silent (.log hwatches _) ?_
    intro _ _ _ _ _
    refine channel.exchange_settles (Lease.isCall (fun _ _ => rfl) fun _ _ => .request .unsigned) ?_
    exact Lease.request_keeps neverUnsigned_serves.leases _ _
  | production channel appKey issuerKey =>
    refine .after_silent (.ofExcept _) ?_
    intro _ signature _ _ hsigned
    have hcall : Lease.Use.IsCall (Lease.request (σ := σ) r signature)
        ((production channel appKey issuerKey).Requests r) :=
      Lease.isCall (fun _ _ => rfl) fun _ _ => .request (.underKey (gives_requestSignature hsigned))
    exact settles_checked (channel.exchange_settles hcall
      (Lease.request_keeps neverUnsigned_serves.leases _ _)) issuerKey fun _ => by simp [Event.level]

theorem refresh_settles (source : Source σ) (t : Token) :
    (source.refresh t).Settles (source.Renews t) := by
  have hwatches := Conduct.callsNothing_watches (σ := σ)
  cases source with
  | mock made => exact .of_silent (.lift (MockSource.refresh_keeps hwatches.notes t))
  | unauthenticated channel =>
    refine .after_silent (.lift (channel.renewal_keeps hwatches.notes t)) ?_
    intro _ r _ _ hrequest
    obtain ⟨now, rfl, -⟩ := Channel.ends_renewal (Attempt.gives_lift.mp hrequest)
    refine channel.exchange_settles (Lease.isCall (fun _ _ => rfl) fun _ _ => .refresh rfl .unsigned) ?_
    exact Lease.refresh_keeps neverUnsigned_serves.leases _ _
  | production channel appKey issuerKey =>
    refine .after_silent (.lift (channel.renewal_keeps hwatches.notes t)) ?_
    intro _ r _ _ hrequest
    obtain ⟨now, rfl, -⟩ := Channel.ends_renewal (Attempt.gives_lift.mp hrequest)
    refine .after_silent (.ofExcept _) ?_
    intro _ signature _ _ hsigned
    have hcall : Lease.Use.IsCall (Lease.refresh (σ := σ) (channel.renewalAt t now) signature)
        ((production channel appKey issuerKey).Renews t) :=
      Lease.isCall (fun _ _ => rfl)
        fun _ _ => .refresh rfl (.underKey (gives_requestSignature hsigned))
    exact settles_checked (channel.exchange_settles hcall
      (Lease.refresh_keeps neverUnsigned_serves.leases _ _)) issuerKey fun _ => by simp [Event.level]

theorem ping_settles (source : Source σ) : source.ping.Settles Pings := by
  have hchannel : ∀ channel : Channel σ, channel.ping.Settles Pings := fun channel =>
    channel.exchange_settles (Lease.isCall (fun _ _ => rfl) fun _ _ => .ping)
      (Lease.ping_keeps neverUnsigned_serves.leases)
  cases source with
  | mock made => exact .of_silent (.pure _)
  | unauthenticated channel => exact hchannel channel
  | production channel appKey issuerKey => exact hchannel channel

end Source

end TokenTrust
