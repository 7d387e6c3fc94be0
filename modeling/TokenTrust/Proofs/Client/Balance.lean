/-
  TokenTrust.Proofs.Client.Balance — no operation of a client keeps a connection.

  Whatever the pool lends and the service answers, and whatever the client makes of the answer, an
  operation borrows at most one connection, calls on it once, and gives it back (`Balanced`). What it
  asks for is its own business only (`Operation.Asks`): a fetch for a token, an admission for a renewal
  of the very token, and a ping for an answer.
  - `operate_settles`: this of every operation, and that it borrows nothing if it cannot sign.
  - `leases_balanced`: this of every run of a client, with nothing asked of its pool but what is on
    record; and which leases are given back as broken.
-/

import TokenTrust.Proofs.Client.Operations
import TokenTrust.Proofs.Client.Trust
import TokenTrust.Proofs.Source.Balance

namespace TokenTrust

variable {σ : Type}

namespace Operation

def fetches : Operation → Bool
  | fetch _ | fetchForRequest .. => true
  | _ => false

/-- The calls that an operation may make on a connection, for a client with this source and id. -/
inductive Asks (source : Source σ) (ownId : String) : Operation → Connection → Call → Prop where
  | token {op : Operation} {r : Request} {on : Connection} {call : Call} (wanted : op.fetches = true)
      (own : r.requester = ownId) (made : source.Requests r on call) : Asks source ownId op on call
  | renewal {t : Token} {on : Connection} {call : Call} (ours : t.recipient = some ownId)
      (made : source.Renews t on call) : Asks source ownId (.admitToken t) on call
  | ping {on : Connection} {call : Call} (made : Source.Pings on call) : Asks source ownId .ping on call

end Operation

namespace Client

variable [Clock σ] {c : Client σ} {s s' : Session σ} {es : List Entry}

/-- Only a token that is ours is found expired. -/
theorem recipient_of_fails_checkPresented {t : Token} {e : TrustError}
    (h : (c.checkPresented t).Fails s e es s') (late : e.isRefreshable = true) :
    t.recipient = some c.ownId := by
  rw [checkPresented, Attempt.fails_bind] at h
  rcases h with ⟨issuer, _, _, _, -, h, -⟩ | h
  · exact Token.recipient_of_fails_accept h late
  · obtain ⟨-, rfl, -, -⟩ := Attempt.fails_require.mp h
    cases late

theorem fetchNoting_settles (c : Client σ) (r : Request) (key : Cache.Key) (policy : CachePolicy) :
    (c.fetchNoting r key policy).Settles (c.source.Requests r) := by
  have hwatches := Conduct.callsNothing_watches (σ := σ)
  have hcache := Conduct.callsNothing_recaches (σ := σ)
  refine .after_silent (lookUp_keeps hwatches.notes hcache.drops c key policy) ?_
  intro _ found _ _ _
  cases found with
  | some t => exact .of_silent (.bind (.log hwatches _) fun _ => .pure _)
  | none =>
    refine (c.source.acquire_settles r).then_silent (fun t => ?_) fun t => ?_
    · exact .bind (.lift (Cache.store_keeps hwatches.notes hcache key t)) fun _ => .pure _
    · exact .bind (.lift (Cache.store_keeps neverUnsigned_serves.notes neverUnsigned.conduct_recaches
        key t)) fun _ => .pure _

theorem perform_settles (c : Client σ) (f : Fetch) {op : Operation} (wanted : op.fetches = true) :
    (c.perform f).Settles (op.Asks c.source c.ownId) := by
  rw [perform_eq]
  refine .map (.after_silent (prepare_keeps Conduct.callsNothing_watches c f) ?_) _
  rintro _ ⟨r, p⟩ _ _ hprepare
  exact (c.fetchNoting_settles r p.key f.policy).mono
    fun _ _ made => .token wanted (requester_of_gives_prepare hprepare) made

theorem admitToken_settles (c : Client σ) (t : Token) :
    (c.operate (.admitToken t)).Settles ((Operation.admitToken t).Asks c.source c.ownId) := by
  intro s r es s' h
  obtain ⟨⟨_, left⟩, h, rfl⟩ := Run.ends_map.mp h
  have hcheck := checkPresented_keeps Conduct.callsNothing_watches c t
  have hsilent : ∀ {es : List Entry}, callsOf es = [] →
      Settled ((Operation.admitToken t).Asks c.source c.ownId) r es :=
    fun h => ⟨h ▸ .idle, fun _ => h⟩
  -- after a check that found the token expired, the calls are those of the refresh
  have hrenewed : ∀ {e : TrustError} {s₁ s₂ : Session σ} {es₁ es₂ : List Entry}
      {result : Except TrustError Token}, (c.checkPresented t).Fails s e es₁ s₁ →
      e.isRefreshable = true → (ExceptT.run (c.source.refresh t)).Ends s₁ result es₂ s₂ →
      failure? result = failure? r →
      Settled ((Operation.admitToken t).Asks c.source c.ownId) r
        (es₁ ++ .event (.receivedRefreshing t.subject) :: es₂) := by
    intro e s₁ s₂ es₁ es₂ result checked late refreshed hresult
    have hquiet : callsOf es₁ = [] := hcheck.fails checked
    have ours := recipient_of_fails_checkPresented checked late
    obtain ⟨hbalanced, hunsigned⟩ := c.source.refresh_settles t _ _ _ _ refreshed
    rw [hresult] at hunsigned
    have hcalls : callsOf (es₁ ++ .event (.receivedRefreshing t.subject) :: es₂) = callsOf es₂ := by
      simp [hquiet]
    exact ⟨hcalls ▸ hbalanced.mono fun _ _ made => .renewal ours made, hcalls ▸ hunsigned⟩
  rcases ends_admitToken_cases h with ⟨-, -, rfl⟩ | ⟨-, notes, hadmits⟩
  · exact hsilent rfl
  · cases hadmits with
    | sound checked => exact hsilent (hcheck.gives checked)
    | refused checked => exact hsilent (hcheck.fails checked)
    | renewed checked late refreshed => exact hrenewed checked late refreshed rfl
    | stuck checked late refreshed => exact hrenewed checked late refreshed rfl

theorem operate_settles (c : Client σ) (op : Operation) :
    (c.operate op).Settles (op.Asks c.source c.ownId) := by
  have hwatches := Conduct.callsNothing_watches (σ := σ)
  have hassertion := c.assertionOf_keeps hwatches.notes
  cases op with
  | fetch f => exact .map (c.perform_settles f rfl) _
  | fetchForRequest h target exclude =>
    refine .map (.after_silent (hassertion h) ?_) _
    intro _ a _ _ _
    exact c.perform_settles { wanted := .user a, target, exclude } rfl
  | admitToken t => exact c.admitToken_settles t
  | admitAssertion a => exact .map (.of_silent (admitAssertion_keeps hwatches c a)) _
  | admitRequest h =>
    refine .map (.of_silent (.bind (hassertion h) fun a => ?_)) _
    exact .bind (admitAssertion_keeps hwatches c a) fun _ => .pure _
  | admitPrincipal p => exact .of_silent (c.admitPrincipal_keeps hwatches p)
  | ping => exact .map (c.source.ping_settles.mono fun _ _ made => .ping made) _

/-- In a whole run of a client, what its pool receives is what is on record, and each operation leaves
the pool in balance; one that could not sign leaves it alone. And a lease on which any number of calls
are made is given back to the pool as broken exactly if one of them failed in transport, whatever came
of those after it. -/
theorem leases_balanced (c : Client σ) (tasks : List (Task σ)) (start : Session σ) :
    (∀ x ∈ c.record tasks start,
      Explains c.source.PoolReceives x.start.world x.done.entries x.done.session.world ∧
      Balanced (x.task.operation.Asks c.source c.ownId) (callsOf x.done.entries) ∧
      ∀ message cause, x.done.value = .error (.signingFailed message cause) →
        callsOf x.done.entries = []) ∧
    ∀ (pool : Pool σ) (service : String) (u : Lease.Usage σ) (s : Session σ),
      let done := (Lease.visit pool service u).run s
      (∀ e, done.value = .error e →
        pool.Receives (.borrow service (.error e)) s.world done.session.world ∧
        callsOf done.entries = [.borrow service (.error e)]) ∧
      ∀ faults, done.value = .ok faults → ∃ on l' s₁ es₁ s₂ broken,
        pool.Receives (.borrow service (.ok on)) s.world s₁.world ∧
        (u.on { connection := on }).Ends s₁ (faults, l') es₁ s₂ ∧
        pool.Receives (.giveBack on broken) s₂.world done.session.world ∧
        callsOf done.entries =
          .borrow service (.ok on) :: (callsOf es₁ ++ [.giveBack on broken]) ∧
        (broken = true ↔ ∃ message, some (.transport message) ∈ faults) := by
  refine ⟨?operations, ?visits⟩
  case operations =>
    intro x hx
    have hends := ends_of_mem_record hx
    have hexplained := explains_of_ends_operate hends
    obtain ⟨hbalanced, hunsigned⟩ := (c.consulting x.task.directory).operate_settles _ _ _ _ _ hends
    refine ⟨hexplained, hbalanced, ?_⟩
    intro message cause hvalue
    apply hunsigned
    rw [hvalue]
    rfl
  case visits =>
    intro pool service u s done
    have hends := Lease.ends_visit (Run.ends_run (Lease.visit pool service u) s)
    constructor
    · intro e he
      rcases hends with ⟨e', he', hcalls, hrefused⟩ | ⟨_, _, _, _, _, _, _, hok, -⟩
      · cases he'.symm.trans he
        exact ⟨hrefused, hcalls⟩
      · cases hok.symm.trans he
    · intro faults hfaults
      rcases hends with ⟨e, he, -⟩ |
        ⟨on, _, l', s₁, es₁, s₂, broken, hok, hbroken, hlent, hused, hback, hcalls⟩
      · cases he.symm.trans hfaults
      · cases hok.symm.trans hfaults
        exact ⟨on, l', s₁, es₁, s₂, broken, hlent, hused, hback, hcalls,
          hbroken ▸ ServiceError.any_inTransport_iff⟩

end Client

namespace Gateway

def alone : Task Scene where
  operation := .fetch errand.fetch
  directory := errand.directory

def retried : Lease.Usage Scene :=
  .call (fun on => Run.call (fun w => (.error (.transport "reset"), w)) (.ping on)) fun _ =>
    .call (fun on => Run.call (Scene.pool.ping on) (.ping on)) fun _ => .done

/-- No answer comes to the gateway's request, and the connection goes back as broken; so does one on
which a later call gets through. -/
theorem gives_back_broken :
    (∃ x ∈ client.record [alone] (session [] []),
      x.done.value = .error (.transportFailed "token-issuer" "no answer") ∧
      (callsOf x.done.entries).length = 3 ∧
      Explains Scene.pool.Receives x.start.world x.done.entries x.done.session.world ∧
      Balanced (alone.operation.Asks client.source "1234") (callsOf x.done.entries)) ∧
    ∃ on made, callsOf ((Lease.visit Scene.pool "token-issuer" retried).run (session [] [])).entries =
      .borrow "token-issuer" (.ok on) :: (made ++ [.giveBack on true]) := by
  obtain ⟨hrecord, hvisit⟩ := Client.leases_balanced client [alone] (session [] [])
  have hmem : client.report alone (session [] []) ∈ client.record [alone] (session [] []) :=
    List.mem_cons_self
  obtain ⟨hexplained, hbalanced, -⟩ := hrecord _ hmem
  refine ⟨⟨_, hmem, by decide +kernel, by decide +kernel, hexplained, hbalanced⟩, ?_⟩
  obtain ⟨on, _, _, es, _, broken, -, -, -, hcalls, hbroken⟩ :=
    (hvisit Scene.pool "token-issuer" retried (session [] [])).2 [some (.transport "reset"), none] rfl
  have hreset : broken = true := hbroken.mpr ⟨"reset", List.mem_cons_self⟩
  exact ⟨on, _, hreset ▸ hcalls⟩

end Gateway

end TokenTrust
