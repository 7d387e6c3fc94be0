/-
  TokenTrust.Proofs.Client.Operations — a client at work.

  `Client.operate` carries out any one of the things that a client can be asked for; of its value only
  the error, if there is one, is kept. `Client.record` is what a list of tasks leaves behind: each
  operation starts after others have done to the world and to the cache whatever they like, at a time
  when the directory says what it says then.
  - `ends_admitToken_cases`: all that admitting a token can come to, mock mode included.
  - `operate_follows_of_keys`: an operation follows a policy if the policy excuses the lack of the keys
    that the operation takes; so it follows one that serves any client (`operate_follows`).
-/

import Mathlib.Control.Monad.Basic
import TokenTrust.Proofs.Client.Renewal
import TokenTrust.Proofs.Client.Visits
import TokenTrust.Proofs.Session.Explained
import TokenTrust.Proofs.Source.Reporting

namespace TokenTrust

/-! ## Operations -/

inductive Operation where
  | fetch (f : Fetch)
  | fetchForRequest (h : Headers) (target : String) (exclude : Option (OrderedSet String))
  | admitToken (t : Token)
  | admitAssertion (a : Assertion)
  | admitRequest (h : Headers)
  | admitPrincipal (p : Principal)
  | ping

def Wanted.isAsserted : Wanted → Bool
  | user _ => true
  | own | like _ => false

/-- Whether the operation looks at an assertion, which takes the front end's key. -/
def Operation.isAsserted : Operation → Bool
  | fetch f => f.wanted.isAsserted
  | fetchForRequest .. | admitAssertion _ | admitRequest _ => true
  | admitToken _ | admitPrincipal _ | ping => false

/-- One operation, what the directory says at the time, and what others have done before. -/
structure Task (σ : Type) where
  operation : Operation
  directory : String → Option String
  meanwhile : Session σ → Session σ := id

structure Report (σ : Type) where
  task : Task σ
  start : Session σ
  done : Outcome σ (Except TrustError Unit)

variable {σ : Type}

namespace Client

section Record

variable [Clock σ]

def operate (c : Client σ) : Operation → Attempt σ Unit
  | .fetch f => discard (c.perform f)
  | .fetchForRequest h target exclude => discard (c.fetchForRequest h target exclude)
  | .admitToken t => ExceptT.mk (Prod.fst <$> c.admitToken t)
  | .admitAssertion a => discard (c.admitAssertion a)
  | .admitRequest h => discard (c.admitRequest h)
  | .admitPrincipal p => c.admitPrincipal p
  | .ping => discard c.ping

def consulting (c : Client σ) (directory : String → Option String) : Client σ := { c with directory }

def report (c : Client σ) (task : Task σ) (s : Session σ) : Report σ where
  task
  start := task.meanwhile s
  done := (ExceptT.run ((c.consulting task.directory).operate task.operation)).run (task.meanwhile s)

def record (c : Client σ) : List (Task σ) → Session σ → List (Report σ)
  | [], _ => []
  | task :: rest, s => c.report task s :: c.record rest (c.report task s).done.session

theorem ends_of_mem_record {c : Client σ} {x : Report σ} {tasks : List (Task σ)} {s : Session σ}
    (h : x ∈ c.record tasks s) :
    (ExceptT.run ((c.consulting x.task.directory).operate x.task.operation)).Ends x.start
      x.done.value x.done.entries x.done.session := by
  induction tasks generalizing s with
  | nil => simp [record] at h
  | cons task rest ih =>
    rw [record] at h
    rcases List.mem_cons.mp h with rfl | h
    · exact Run.ends_run _ _
    · exact ih h

end Record

end Client

/-! ## Principals and the users of requests -/

theorem Headers.assertion_keeps [Clock σ] {P : Conduct σ} (hP : P.Notes) (h : Headers) :
    h.assertion.Keeps P := by
  have hlookup : ∀ name, (h.lookup name).Keeps P :=
    fun _ => .bind (.note hP (by simp [Event.level])) fun _ => .pure _
  refine .bind (hlookup _) fun text => ?_
  split
  · exact .pure _
  · exact .bind (hlookup _) fun _ => .pure _

namespace Client

variable [Clock σ] {c : Client σ}

theorem mockAssertion_keeps {P : Conduct σ} (hP : P.Notes) (c : Client σ) : c.mockAssertion.Keeps P := by
  refine .bind (Millis.fromNow_keeps hP _) fun notAfter => ?_
  exact .bind (.note hP (by simp [Event.level])) fun _ => .pure _

theorem assertionOf_keeps {P : Conduct σ} (hP : P.Notes) (c : Client σ) (h : Headers) :
    (c.assertionOf h).Keeps P := by
  refine .bind (.lift (h.assertion_keeps hP)) fun found => ?_
  split
  · exact .pure _
  · split
    · exact .lift (c.mockAssertion_keeps hP)
    · exact .throw _

theorem admitPrincipal_keeps {P : Conduct σ} (hP : P.Watches) (c : Client σ) (p : Principal) :
    (c.admitPrincipal p).Keeps P := by
  unfold admitPrincipal
  split
  · exact .log hP _
  · exact .bind (.require _ _) fun issuer => Principal.accept_keeps hP p issuer

/-! ## Admitting a token -/

/-- In mock mode a token is admitted as it is; otherwise it is checked, and refreshed at most once. -/
theorem ends_admitToken_cases {t : Token} {answer : Except TrustError Unit × Token}
    {s s' : Session σ} {es : List Entry} (h : (c.admitToken t).Ends s answer es s') :
    (c.settings.useMock = true ∧ answer = (.ok (), t) ∧ es = [.event (.receivedUnchecked t.subject)]) ∨
      c.settings.useMock = false ∧ ∃ notes, c.Admits t s answer notes es s' := by
  cases hmock : c.settings.useMock with
  | true =>
    unfold admitToken at h
    rw [hmock, if_pos rfl, Run.ends_bind] at h
    obtain ⟨_, es₁, s₁, es₂, hlog, h, rfl⟩ := h
    obtain ⟨rfl, -⟩ := Run.ends_log.mp hlog
    obtain ⟨rfl, rfl, -⟩ := Run.ends_pure.mp h
    exact .inl ⟨rfl, rfl, rfl⟩
  | false =>
    rw [admitToken_eq, Run.ends_map] at h
    obtain ⟨⟨_, notes⟩, h, rfl⟩ := h
    exact .inr ⟨rfl, notes, admitNoting_cases hmock h⟩

/-! ## Conduct -/

section Conduct

variable {P : Conduct σ}

theorem admitToken_keeps (hP : P.Calls c.source.PoolReceives) (t : Token) :
    (c.admitToken t).Keeps P := by
  have hw := hP.toWatches
  unfold admitToken
  split
  · exact .bind (.log hw _) fun _ => .pure _
  refine .bind (checkPresented_keeps hw c t) fun verdict => ?_
  split
  · exact .pure _
  split
  · refine .bind (.log hw _) fun _ => .bind (Source.refresh_keeps hP t) fun result => ?_
    split
    · exact .pure _
    · exact .pure _
  · exact .pure _

/-- Whatever a client does to the world it does by looking at the clock and by calling its pool. -/
theorem operate_keeps (hP : P.Calls c.source.PoolReceives) (hcache : P.Recaches) (op : Operation) :
    (c.operate op).Keeps P := by
  have hw := hP.toWatches
  cases op with
  | fetch f => exact .map (perform_keeps hP hcache f) _
  | fetchForRequest h target exclude =>
    refine .map (.bind (assertionOf_keeps hw.notes c h) fun a => ?_) _
    exact perform_keeps hP hcache { wanted := .user a, target, exclude }
  | admitToken t => exact Run.Keeps.bind (admitToken_keeps hP t) fun _ => .pure _
  | admitAssertion a => exact .map (admitAssertion_keeps hw c a) _
  | admitRequest h =>
    refine .map (.bind (assertionOf_keeps hw.notes c h) fun a => ?_) _
    exact .bind (admitAssertion_keeps hw c a) fun _ => .pure _
  | admitPrincipal p => exact admitPrincipal_keeps hw c p
  | ping => exact .map (Source.ping_keeps hP) _

/-- What happens to the world in the course of an operation is on record, call by call. -/
theorem explains_of_ends_operate {op : Operation} {r : Except TrustError Unit} {s s' : Session σ}
    {es : List Entry} (h : (ExceptT.run (c.operate op)).Ends s r es s') :
    Explains c.source.PoolReceives s.world es s'.world := by
  have hkeeps : (c.operate op).Keeps (.explained c.source.PoolReceives) :=
    operate_keeps Conduct.explained_calls Conduct.explained_recaches op
  exact Run.Keeps.ends hkeeps h

end Conduct

/-! ## Policies -/

section Policies

variable {P : Policy}

theorem checkPresented_follows (hP : P.Works) (hkey : P.Excuses c.issuerKey) (t : Token) :
    (c.checkPresented t).Follows P :=
  .bind (.require hkey _) fun issuer => Token.accept_follows hP t c.ownId issuer

theorem admitAssertion_follows (hP : P.Works) (hkey : P.Excuses c.frontEndKey) (a : Assertion) :
    (c.admitAssertion a).Follows P := by
  unfold admitAssertion
  split
  · exact .bind (.lift (.note hP.notes (by simp [Event.level]))) fun _ => Assertion.user_follows hP a
  · exact .bind (.require hkey _) fun frontEnd => Assertion.accept_follows hP a frontEnd

theorem admitPrincipal_follows (hP : P.Works) (hkey : P.Excuses c.issuerKey) (p : Principal) :
    (c.admitPrincipal p).Follows P := by
  unfold admitPrincipal
  split
  · exact .lift (.note hP.notes (by simp [Event.level]))
  · exact .bind (.require hkey _) fun issuer => Principal.accept_follows hP p issuer

theorem assertionOf_follows (hP : P.Works) (c : Client σ) (h : Headers) :
    (c.assertionOf h).Follows P := by
  refine .bind (.lift (h.assertion_keeps hP.notes)) fun found => ?_
  split
  · exact .pure _
  · split
    · exact .lift (c.mockAssertion_keeps hP.notes)
    · exact .throw (hP.quiet _ rfl rfl rfl)

theorem prepareFor_follows (hP : (P.conduct : Conduct σ).Notes) (c : Client σ) (f : Fetch)
    (kind : TokenKind) (subject : Subject) (name : String) (chain : Option (List String)) :
    (c.prepareFor f kind subject name chain).Follows P := by
  refine .bind (.lift (targetId_keeps hP c _)) fun target => ?_
  exact .bind (.lift (Request.make_keeps hP _ _ _ _ _)) fun _ => .pure _

theorem prepare_follows (hP : P.Works) {f : Fetch}
    (hkey : f.wanted.isAsserted = true → P.Excuses c.frontEndKey) : (c.prepare f).Follows P := by
  unfold prepare
  split
  · exact prepareFor_follows hP.notes c f _ _ _ _
  · rename_i a hwanted
    have hfrontEnd : P.Excuses c.frontEndKey := hkey (by rw [hwanted]; rfl)
    exact .bind (admitAssertion_follows hP hfrontEnd a) fun user =>
      prepareFor_follows hP.notes c f _ _ _ _
  · exact prepareFor_follows hP.notes c f _ _ _ _

theorem lookUp_follows (hP : (P.conduct : Conduct σ).Notes) (c : Client σ) (key : Cache.Key)
    (policy : CachePolicy) : (c.lookUp key policy).Follows P := by
  cases policy with
  | use =>
    exact .lift (Cache.findValid_keeps hP P.conduct_recaches.drops (Source.isValid_keeps hP c.source) key)
  | bypass => exact .pure _

theorem fetchNoting_follows (hP : (P.conduct : Conduct σ).Notes) {r : Request}
    (hacquire : (c.source.acquire r).Follows P) (key : Cache.Key) (policy : CachePolicy) :
    (c.fetchNoting r key policy).Follows P := by
  refine .bind (lookUp_follows hP c key policy) fun found => ?_
  cases found with
  | some t => exact .bind (.lift (.note hP (by simp [Event.level]))) fun _ => .pure _
  | none =>
    refine .bind hacquire fun t => ?_
    exact .bind (.lift (Cache.store_keeps hP P.conduct_recaches key t)) fun _ => .pure _

theorem perform_follows (hP : P.Works) (hsigns : c.source.SignsUnder P) {f : Fetch}
    (hkey : f.wanted.isAsserted = true → P.Excuses c.frontEndKey) : (c.perform f).Follows P := by
  rw [perform_eq]
  refine .map (.bind (prepare_follows hP hkey) fun (r, p) => ?_) _
  exact fetchNoting_follows hP.notes (Source.acquire_follows hP hsigns r) p.key f.policy

theorem admitToken_follows (hP : P.Works) (hsigns : c.source.SignsUnder P)
    (hkey : P.Excuses c.issuerKey) (t : Token) : (c.operate (.admitToken t)).Follows P := by
  have hcheck := checkPresented_follows hP hkey t
  have hrefresh := Source.refresh_follows hP hsigns t
  apply Attempt.Follows.of_ends
  intro s r es s' h
  obtain ⟨⟨_, left⟩, h, rfl⟩ := Run.ends_map.mp h
  rcases ends_admitToken_cases h with ⟨-, hanswer, rfl⟩ | ⟨-, notes, hadmits⟩
  · obtain ⟨rfl, -⟩ := Prod.mk.inj hanswer
    exact hP.note _ (by simp [Event.level])
  · have hrefreshing : P.permits none [.event (.receivedRefreshing t.subject)] :=
      hP.note _ (by simp [Event.level])
    -- a check that found the token expired is mended, or superseded by the refresh's own failure
    cases hadmits with
    | sound checked => exact hcheck.ends checked
    | refused checked => exact hcheck.ends checked
    | renewed checked late refreshed =>
      exact P.both (hP.mended late (hcheck.ends checked)) (P.both hrefreshing (hrefresh.ends refreshed))
    | stuck checked late refreshed =>
      exact P.both (hP.mended late (hcheck.ends checked)) (P.both hrefreshing (hrefresh.ends refreshed))

/-- Where a key is missing, what follows the policy depends on what the operation takes. -/
theorem operate_follows_of_keys (hP : P.Works) (hsigns : c.source.SignsUnder P) {op : Operation}
    (hissuer : P.Excuses c.issuerKey) (hfrontEnd : op.isAsserted = true → P.Excuses c.frontEndKey) :
    (c.operate op).Follows P := by
  cases op with
  | fetch f => exact .map (perform_follows hP hsigns hfrontEnd) _
  | fetchForRequest h target exclude =>
    refine .map (.bind (assertionOf_follows hP c h) fun a => ?_) _
    exact perform_follows hP hsigns (f := { wanted := .user a, target, exclude }) hfrontEnd
  | admitToken t => exact admitToken_follows hP hsigns hissuer t
  | admitAssertion a => exact .map (admitAssertion_follows hP (hfrontEnd rfl) a) _
  | admitRequest h =>
    refine .map (.bind (assertionOf_follows hP c h) fun a => ?_) _
    exact .bind (admitAssertion_follows hP (hfrontEnd rfl) a) fun _ => .pure _
  | admitPrincipal p => exact admitPrincipal_follows hP hissuer p
  | ping => exact .map (Source.ping_follows hP c.source) _

theorem operate_follows (hP : P.Serves) (hsigns : c.source.SignsUnder P) (op : Operation) :
    (c.operate op).Follows P :=
  operate_follows_of_keys hP.toWorks hsigns (hP.excuses _) fun _ => hP.excuses _

end Policies

end Client

end TokenTrust
