/-
  TokenTrust.Proofs.Source.Exchange — one call on the issuing service over a borrowed connection.

  - `Pool.Receives`: what the pool makes of the world when it receives a call.
  - `ends_exchange`: an exchange borrows one connection, makes its call on it, and gives it back,
    however it ends; the value of one that succeeds is the service's answer.
  - `exchange_keeps`: apart from the call itself, an exchange does what calling the service takes.
-/

import TokenTrust.Proofs.Session.Ending
import TokenTrust.Source.Channel

namespace TokenTrust

variable {σ α : Type} {P : Conduct σ} {s s' : Session σ} {es : List Entry}

/-- Called on in the world `w`, the pool gives the answer that the call holds, and leaves `w'`. -/
def Pool.Receives (pool : Pool σ) : Call → σ → σ → Prop
  | .borrow service answer, w, w' => pool.borrow service w = (answer, w')
  | .request on r signature answer, w, w' => pool.request on r signature w = (answer, w')
  | .refresh on r signature answer, w, w' => pool.refresh on r signature w = (answer, w')
  | .ping on answer, w, w' => pool.ping on w = (answer, w')
  | .giveBack on broken, w, w' => pool.giveBack on broken w = w'

/-! ## Leases -/

namespace Lease

variable {pool : Pool σ} {service : String} {l : Lease}

/-- A connection is lent in good order, or not at all. -/
theorem ends_borrow {answer : Except ServiceError Lease}
    (h : (borrow pool service).Ends s answer es s') :
    (∃ on, answer = .ok { connection := on } ∧ callsOf es = [.borrow service (.ok on)] ∧
        pool.Receives (.borrow service (.ok on)) s.world s'.world) ∨
      ∃ e, answer = .error e ∧ callsOf es = [.borrow service (.error e)] ∧
        pool.Receives (.borrow service (.error e)) s.world s'.world := by
  rw [borrow, Run.ends_bind] at h
  obtain ⟨lent, es₁, s₁, es₂, hcall, hpure, rfl⟩ := h
  obtain ⟨hlent, rfl, rfl⟩ := Run.ends_call.mp hcall
  obtain ⟨rfl, rfl, rfl⟩ := Run.ends_pure.mp hpure
  have hreceived : pool.Receives (.borrow service lent) s.world (pool.borrow service s.world).2 := by
    rw [hlent]
    rfl
  cases lent with
  | ok on => exact .inl ⟨on, rfl, rfl, hreceived⟩
  | error e => exact .inr ⟨e, rfl, rfl, hreceived⟩

theorem ends_call {make : Connection → Run σ (Except ServiceError α)}
    {answer : Except ServiceError α} {l' : Lease} (h : (call make l).Ends s (answer, l') es s') :
    (make l.connection).Ends s answer es s' ∧ l' = l.noting answer := by
  rw [call, Run.ends_bind] at h
  obtain ⟨_, es₁, s₁, es₂, hmade, hpure, rfl⟩ := h
  obtain ⟨hanswer, rfl, rfl⟩ := Run.ends_pure.mp hpure
  obtain ⟨rfl, rfl⟩ := Prod.mk.inj hanswer
  exact ⟨by simpa using hmade, rfl⟩

theorem ends_refresh {r : Request} {signature : String} {answer : Except ServiceError Token}
    {l' : Lease} (h : (refresh r signature pool l).Ends s (answer, l') es s') :
    callsOf es = [.refresh l.connection r signature answer] ∧ l' = l.noting answer := by
  obtain ⟨hcall, hnoted⟩ := ends_call h
  obtain ⟨-, rfl, -⟩ := Run.ends_call.mp hcall
  exact ⟨rfl, hnoted⟩

theorem ends_giveBack {u : Unit} (h : (l.giveBack pool).Ends s u es s') :
    callsOf es = [.giveBack l.connection l.broken] ∧
      pool.Receives (.giveBack l.connection l.broken) s.world s'.world := by
  unfold giveBack at h
  split at h
  · rw [Run.ends_bind] at h
    obtain ⟨_, es₁, s₁, es₂, hlog, hcall, rfl⟩ := h
    obtain ⟨rfl, rfl⟩ := Run.ends_log.mp hlog
    obtain ⟨-, rfl, rfl⟩ := Run.ends_call.mp hcall
    exact ⟨rfl, rfl⟩
  · obtain ⟨-, rfl, rfl⟩ := Run.ends_call.mp h
    exact ⟨rfl, rfl⟩

theorem noting_connection (l : Lease) (answer : Except ServiceError α) :
    (l.noting answer).connection = l.connection := by
  unfold noting
  split <;> rfl

section Keeps

variable [Clock σ]

theorem borrow_keeps (hP : P.Leases pool.Receives) (service : String) :
    (borrow pool service).Keeps P := .bind (.call hP fun _ => rfl) fun _ => .pure _

theorem request_keeps (hP : P.Leases pool.Receives) (r : Request) (signature : String) (l : Lease) :
    (request r signature pool l).Keeps P := .bind (.call hP fun _ => rfl) fun _ => .pure _

theorem refresh_keeps (hP : P.Leases pool.Receives) (r : Request) (signature : String) (l : Lease) :
    (refresh r signature pool l).Keeps P := .bind (.call hP fun _ => rfl) fun _ => .pure _

theorem ping_keeps (hP : P.Leases pool.Receives) (l : Lease) : (ping pool l).Keeps P :=
  .bind (.call hP fun _ => rfl) fun _ => .pure _

theorem giveBack_keeps (hP : P.Leases pool.Receives) (l : Lease) : (l.giveBack pool).Keeps P := by
  unfold giveBack
  split
  · exact .bind (.note hP.toNotes (by simp [Event.level])) fun _ => .call hP fun _ => rfl
  · exact .call hP fun _ => rfl

end Keeps

end Lease

/-! ## Channels -/

namespace Channel

variable {c : Channel σ}

theorem gives_translate {answer : Except ServiceError α} {a : α}
    (h : (c.translate answer).Gives s a es s') : answer = .ok a ∧ es = [] ∧ s' = s := by
  unfold translate at h
  split at h
  · obtain ⟨rfl, hes, hs⟩ := Attempt.gives_pure.mp h
    exact ⟨rfl, hes, hs⟩
  · exact absurd h Attempt.gives_refuse
  · exact absurd h Attempt.gives_refuse

theorem translate_keeps [Clock σ] (hP : P.Watches) (c : Channel σ) (answer : Except ServiceError α) :
    (c.translate answer).Keeps P := by
  unfold translate
  split
  · exact .pure _
  · exact .refuse hP _ _
  · exact .refuse hP _ _

def onLease (c : Channel σ) (use : Lease.Use σ α) (l : Lease) : Attempt σ α := do
  let (answer, l) ← Attempt.lift (use c.pool l)
  let result ← (c.translate answer).outcome
  Attempt.lift (l.giveBack c.pool)
  Attempt.ofExcept result

theorem exchange_eq (c : Channel σ) (use : Lease.Use σ α) : c.exchange use = (do
    let lent ← Attempt.lift (Lease.borrow c.pool c.serviceName)
    let l ← c.translate lent
    c.onLease use l) := rfl

/-- The connection goes back whatever the answer was, and a success is the service's answer. -/
theorem ends_onLease [Clock σ] {use : Lease.Use σ α} {l : Lease} {r : Except TrustError α}
    (h : (ExceptT.run (c.onLease use l)).Ends s r es s') :
    ∃ answer l' es₁ s₁, (use c.pool l).Ends s (answer, l') es₁ s₁ ∧
      callsOf es = callsOf es₁ ++ [.giveBack l'.connection l'.broken] ∧
      ∀ a, r = .ok a → answer = .ok a := by
  rw [onLease, Attempt.ends_bind] at h
  rcases h with ⟨⟨answer, l'⟩, ea, sa, _, huse, h, rfl⟩ | ⟨e, -, h⟩
  case inr => exact absurd h Attempt.fails_lift
  rw [Attempt.ends_bind] at h
  rcases h with ⟨result, eb, sb, _, houtcome, h, rfl⟩ | ⟨e, -, h⟩
  case inr => exact absurd h Attempt.fails_outcome
  rw [Attempt.ends_bind] at h
  rcases h with ⟨_, ec, sc, _, hback, h, rfl⟩ | ⟨e, -, h⟩
  case inr => exact absurd h Attempt.fails_lift
  obtain ⟨rfl, rfl, -⟩ := Run.ends_pure.mp h
  have htranslated := Attempt.gives_outcome.mp houtcome
  have hsilent : callsOf eb = [] :=
    (translate_keeps Conduct.callsNothing_watches c answer).ends htranslated
  obtain ⟨hreturned, -⟩ := Lease.ends_giveBack (Attempt.gives_lift.mp hback)
  refine ⟨answer, l', ea, sa, Attempt.gives_lift.mp huse, by simp [hsilent, hreturned], ?_⟩
  rintro a rfl
  exact (gives_translate htranslated).1

theorem ends_exchange [Clock σ] {use : Lease.Use σ α} {r : Except TrustError α}
    (h : (ExceptT.run (c.exchange use)).Ends s r es s') :
    (∃ e, callsOf es = [.borrow c.serviceName (.error e)] ∧ ∀ a, r ≠ .ok a) ∨
      ∃ on answer l' s₁ es₁ s₂, (use c.pool { connection := on }).Ends s₁ (answer, l') es₁ s₂ ∧
        callsOf es = .borrow c.serviceName (.ok on) ::
          (callsOf es₁ ++ [.giveBack l'.connection l'.broken]) ∧
        ∀ a, r = .ok a → answer = .ok a := by
  rw [exchange_eq, Attempt.ends_bind] at h
  rcases h with ⟨lent, ea, sa, _, hborrow, h, rfl⟩ | ⟨e, -, h⟩
  case inr => exact absurd h Attempt.fails_lift
  rw [Attempt.ends_bind] at h
  rcases Lease.ends_borrow (Attempt.gives_lift.mp hborrow) with
    ⟨on, rfl, hcalls, -⟩ | ⟨e, rfl, hcalls, -⟩
  · rcases h with ⟨l, eb, sb, _, hlent, h, rfl⟩ | ⟨e, -, h⟩
    · obtain ⟨hl, rfl, rfl⟩ := gives_translate hlent
      cases hl
      obtain ⟨answer, l', es₁, s₁, huse, hback, hvalue⟩ := ends_onLease h
      exact .inr ⟨on, answer, l', _, es₁, s₁, huse, by simp [hcalls, hback], hvalue⟩
    · exact absurd h Attempt.fails_pure
  · rcases h with ⟨l, _, _, _, hlent, -, -⟩ | ⟨e', rfl, h⟩
    · cases (gives_translate hlent).1
    · have hsilent : callsOf _ = [] := (translate_keeps Conduct.callsNothing_watches c _).fails h
      exact .inl ⟨e, by simp [hcalls, hsilent], nofun⟩

theorem gives_exchange [Clock σ] {use : Lease.Use σ α} {a : α} (h : (c.exchange use).Gives s a es s') :
    ∃ l s₁ es₁ l' s₂, (use c.pool l).Ends s₁ (.ok a, l') es₁ s₂ ∧
      callsOf es = .borrow c.serviceName (.ok l.connection) ::
        (callsOf es₁ ++ [.giveBack l'.connection l'.broken]) := by
  rcases ends_exchange h with ⟨_, -, hfails⟩ | ⟨on, answer, l', s₁, es₁, s₂, huse, hcalls, hvalue⟩
  · exact absurd rfl (hfails a)
  · rw [hvalue a rfl] at huse
    exact ⟨_, s₁, es₁, l', s₂, huse, hcalls⟩

theorem exchange_keeps [Clock σ] (hP : P.Calls c.pool.Receives) {use : Lease.Use σ α}
    (huse : ∀ l, (use c.pool l).Keeps P) : (c.exchange use).Keeps P := by
  refine .bind (.lift (Lease.borrow_keeps hP.leases _)) fun borrowed => ?_
  refine .bind (translate_keeps hP.toWatches c _) fun l => ?_
  refine .bind (.lift (huse l)) fun (answer, l') => ?_
  refine .bind (.outcome (translate_keeps hP.toWatches c _)) fun result => ?_
  exact .bind (.lift (Lease.giveBack_keeps hP.leases l')) fun _ => .ofExcept _

/-! ## Renewals -/

variable [Clock σ] {t : Token}

def renewalAt (c : Channel σ) (t : Token) (now : Millis) : Request where
  requester := c.ownId
  timestamp := now
  kind := t.kind
  subject := .token t
  target := t.recipient.getD ""

theorem ends_renewal {r : Request} (h : (c.renewal t).Ends s r es s') :
    ∃ now, r = c.renewalAt t now ∧ es = [.reading now] := by
  rw [renewal, Request.make, Run.ends_bind] at h
  obtain ⟨now, es₁, s₁, es₂, hnow, hpure, rfl⟩ := h
  obtain ⟨-, rfl, -⟩ := Run.ends_now.mp hnow
  obtain ⟨rfl, rfl, -⟩ := Run.ends_pure.mp hpure
  exact ⟨now, rfl, rfl⟩

end Channel

/-! ## What is made now -/

section Made

variable [Clock σ] {s s' : Session σ} {es : List Entry}

theorem Millis.ends_fromNow {span t : Millis} (h : (Millis.fromNow span : Run σ Millis).Ends s t es s') :
    ∃ now, t = Millis.after now span ∧ es = [.reading now] := by
  rw [Millis.fromNow, Run.ends_bind] at h
  obtain ⟨now, es₁, s₁, es₂, hnow, hpure, rfl⟩ := h
  obtain ⟨-, rfl, -⟩ := Run.ends_now.mp hnow
  obtain ⟨rfl, rfl, -⟩ := Run.ends_pure.mp hpure
  exact ⟨now, rfl, rfl⟩

theorem Validity.ends_make {issuer issuedTo : String} {notAfter : Millis} {v : Validity}
    (h : (Validity.make issuer issuedTo notAfter : Run σ Validity).Ends s v es s') :
    ∃ now, v = { issuer, issuedTo, issuedTime := now, notAfter } ∧ es = [.reading now] := by
  rw [Validity.make, Run.ends_bind] at h
  obtain ⟨now, es₁, s₁, es₂, hnow, hpure, rfl⟩ := h
  obtain ⟨-, rfl, -⟩ := Run.ends_now.mp hnow
  obtain ⟨rfl, rfl, -⟩ := Run.ends_pure.mp hpure
  exact ⟨now, rfl, rfl⟩

theorem Request.ends_make {requester : String} {kind : TokenKind} {subject : Subject} {target : String}
    {exclude : Option (OrderedSet String)} {r : Request}
    (h : (Request.make requester kind subject target exclude : Run σ Request).Ends s r es s') :
    ∃ now, r = Request.excluding { requester, timestamp := now, kind, subject, target } exclude ∧
      es = [.reading now] := by
  rw [Request.make, Run.ends_bind] at h
  obtain ⟨now, es₁, s₁, es₂, hnow, hpure, rfl⟩ := h
  obtain ⟨-, rfl, -⟩ := Run.ends_now.mp hnow
  obtain ⟨rfl, rfl, -⟩ := Run.ends_pure.mp hpure
  exact ⟨now, rfl, rfl⟩

end Made

theorem Millis.fromNow_keeps [Clock σ] (hP : P.Notes) (span : Millis) :
    (Millis.fromNow span : Run σ Millis).Keeps P := .bind (.now hP) fun _ => .pure _

theorem Validity.make_keeps [Clock σ] (hP : P.Notes) (issuer issuedTo : String) (notAfter : Millis) :
    (Validity.make issuer issuedTo notAfter : Run σ Validity).Keeps P :=
  .bind (.now hP) fun _ => .pure _

theorem Request.make_keeps [Clock σ] (hP : P.Notes) (requester : String) (kind : TokenKind)
    (subject : Subject) (target : String) (exclude : Option (OrderedSet String)) :
    (Request.make requester kind subject target exclude : Run σ Request).Keeps P :=
  .bind (.now hP) fun _ => .pure _

theorem Channel.renewal_keeps [Clock σ] (hP : P.Notes) (c : Channel σ) (t : Token) :
    (c.renewal t).Keeps P := Request.make_keeps hP _ _ _ _ _

end TokenTrust
