/-
  TokenTrust.Proofs.Client.Visits — a client that fetches one token after the other.

  A `Fetch` is a request for a token, of any kind; `Client.perform` carries it out. A visit is one
  fetch of a client, at a time when the directory has some state, and after whatever others have
  done to the cache meanwhile. `Client.history` is what a list of visits leaves behind.

  - `perform_eq`: `performNoting`, which also says whether the token was kept or is newly acquired,
    is the same run.
  - `performNoting_cases`: all that a fetch can come to, and what it does to the cache.
-/

import TokenTrust.Client.Basic
import TokenTrust.Proofs.Cache.Holdings
import TokenTrust.Proofs.Cache.KeyParts
import TokenTrust.Proofs.Source.Issued

namespace TokenTrust

/-! ## Fetches -/

inductive Wanted where
  /-- The application itself. -/
  | own
  /-- The user of an assertion. -/
  | user (a : Assertion)
  /-- Whoever a token speaks for already. -/
  | like (existing : Token)

structure Fetch where
  wanted : Wanted
  target : String
  exclude : Option (OrderedSet String) := none
  policy : CachePolicy := .use

inductive Origin where
  | kept
  | acquired
  deriving DecidableEq

namespace Client

variable {σ : Type}

def resolve (c : Client σ) (target : String) : String :=
  if target = "" then
    if c.settings.useMock then c.settings.mockTarget.getD c.ownId else c.ownId
  else if Identity.isId target then target
  else (c.directory target).getD target

/-- What a fetch asks for. An assertion that cannot be read asks for nothing. -/
def parts (c : Client σ) (f : Fetch) : Option Cache.Parts :=
  match f.wanted with
  | .own => some ⟨.app, c.ownId, f.exclude, none, c.resolve f.target⟩
  | .user a => a.user.toOption.map fun user =>
      ⟨.user, user.subject, f.exclude, none, c.resolve f.target⟩
  | .like t => some ⟨t.kind, t.subject, f.exclude, some t.principal.requestChain, c.resolve f.target⟩

variable [Clock σ]

def perform (c : Client σ) (f : Fetch) : Attempt σ Token :=
  match f.wanted with
  | .own => c.fetchOwn f.target f.exclude f.policy
  | .user a => c.fetchAsserted a f.target f.exclude f.policy
  | .like t => c.fetchDerived t f.target f.exclude f.policy

def prepareFor (c : Client σ) (f : Fetch) (kind : TokenKind) (subject : Subject) (name : String)
    (chain : Option (List String)) : Attempt σ (Request × Cache.Parts) := do
  let target ← Attempt.lift (c.targetId f.target)
  let request ← Attempt.lift (Request.make c.ownId kind subject target f.exclude)
  return (request, ⟨kind, name, f.exclude, chain, target⟩)

def prepare (c : Client σ) (f : Fetch) : Attempt σ (Request × Cache.Parts) :=
  match f.wanted with
  | .own => c.prepareFor f .app .application c.ownId none
  | .user a => do
    let user ← c.admitAssertion a
    c.prepareFor f .user (.assertion a) user.subject none
  | .like t => c.prepareFor f t.kind (.token t) t.subject (some t.principal.requestChain)

def lookUp (c : Client σ) (key : Cache.Key) : CachePolicy → Attempt σ (Option Token)
  | .use => Attempt.lift (Cache.findValid key c.source.isValid)
  | .bypass => pure none

/-- `Client.fetch`, with a note on where the token comes from. -/
def fetchNoting (c : Client σ) (r : Request) (key : Cache.Key) (policy : CachePolicy) :
    Attempt σ (Token × Origin) := do
  match ← c.lookUp key policy with
  | some token =>
    Attempt.log (.cachedUsed key)
    return (token, .kept)
  | none =>
    let token ← c.source.acquire r
    Attempt.lift (Cache.store key token)
    return (token, .acquired)

def performNoting (c : Client σ) (f : Fetch) : Attempt σ (Token × Origin) := do
  let (request, parts) ← c.prepare f
  c.fetchNoting request parts.key f.policy

theorem fetch_eq (c : Client σ) (r : Request) (key : Cache.Key) (policy : CachePolicy) :
    c.fetch r key policy = Prod.fst <$> c.fetchNoting r key policy := by
  have hlookUp : c.fetch r key policy = (do
      match ← c.lookUp key policy with
      | some token =>
        Attempt.log (.cachedUsed key)
        return token
      | none =>
        let token ← c.source.acquire r
        Attempt.lift (Cache.store key token)
        return token) := by
    cases policy <;> rfl
  rw [hlookUp, fetchNoting, map_bind]
  congr
  funext found
  cases found <;> simp

theorem perform_eq (c : Client σ) (f : Fetch) : c.perform f = Prod.fst <$> c.performNoting f := by
  rw [performNoting, map_bind]
  unfold perform prepare
  split <;> simp [prepareFor, fetchOwn, fetchAsserted, fetchDerived, fetch_eq, Cache.Parts.key]

theorem run_perform (c : Client σ) (f : Fetch) (s : Session σ) :
    (ExceptT.run (c.perform f)).run s =
      let noted := (ExceptT.run (c.performNoting f)).run s
      ⟨noted.value.map Prod.fst, noted.entries, noted.session⟩ := by
  have h : (ExceptT.run (Prod.fst <$> c.performNoting f)).Ends s
      (((ExceptT.run (c.performNoting f)).run s).value.map Prod.fst)
      ((ExceptT.run (c.performNoting f)).run s).entries
      ((ExceptT.run (c.performNoting f)).run s).session := by
    rw [ExceptT.run_map, Run.ends_map]
    exact ⟨_, Run.ends_run _ _, rfl⟩
  rw [perform_eq]
  exact h

/-! ## What a fetch can come to -/

section Preparing

variable {c : Client σ} {P : Conduct σ} {s s' : Session σ} {es : List Entry}

omit [Clock σ] in
theorem ends_targetId {target id : String} (h : (c.targetId target).Ends s id es s') :
    id = c.resolve target := by
  unfold targetId at h
  unfold resolve
  by_cases hown : target = ""
  · rw [if_pos hown] at h ⊢
    exact (Run.ends_pure.mp h).1
  rw [if_neg hown] at h ⊢
  by_cases hid : Identity.isId target = true
  · rw [if_pos hid] at h ⊢
    exact (Run.ends_pure.mp h).1
  rw [if_neg hid] at h ⊢
  cases hfound : c.directory target with
  | some found =>
    rw [hfound] at h
    obtain ⟨_, _, _, h⟩ := h.last
    exact (Run.ends_pure.mp h).1
  | none =>
    rw [hfound] at h
    obtain ⟨_, _, _, h⟩ := h.last
    exact (Run.ends_pure.mp h).1

theorem targetId_keeps (hP : P.Notes) (c : Client σ) (target : String) :
    (c.targetId target).Keeps P := by
  unfold targetId
  split
  · exact .pure _
  split
  · exact .pure _
  split
  · exact .bind (.note hP (by simp [Event.level])) fun _ => .pure _
  · exact .bind (.note hP (by simp [Event.level])) fun _ => .pure _

/-- An assertion is only admitted if it can be read. -/
theorem gives_admitAssertion {a : Assertion} {user : AssertedUser}
    (h : (c.admitAssertion a).Gives s user es s') : a.user = .ok user := by
  unfold admitAssertion at h
  split at h
  · obtain ⟨_, _, _, h⟩ := h.last
    exact (Attempt.gives_ofExcept.mp h).1
  · obtain ⟨_, _, _, h⟩ := h.last
    exact Assertion.gives_accept h

theorem admitAssertion_keeps (hP : P.Watches) (c : Client σ) (a : Assertion) :
    (c.admitAssertion a).Keeps P := by
  unfold admitAssertion
  split
  · exact .bind (.log hP _) fun _ => .ofExcept _
  · exact .bind (.require _ _) fun k => Assertion.accept_keeps hP a k

/-- What is asked of the source is what its answer is to be kept under. -/
theorem gives_prepareFor_request {f : Fetch} {kind : TokenKind} {subject : Subject} {name : String}
    {chain : Option (List String)} {r : Request} {p : Cache.Parts}
    (h : (c.prepareFor f kind subject name chain).Gives s (r, p) es s') :
    p = ⟨kind, name, f.exclude, chain, c.resolve f.target⟩ ∧ ∃ timestamp,
      r = Request.excluding { requester := c.ownId, timestamp, kind, subject, target := p.target } f.exclude := by
  rw [prepareFor, Attempt.gives_bind] at h
  obtain ⟨target, _, _, _, htarget, h, -⟩ := h
  rw [Attempt.gives_bind] at h
  obtain ⟨request, _, _, _, hrequest, h, -⟩ := h
  obtain ⟨timestamp, rfl, -⟩ := Request.ends_make (Attempt.gives_lift.mp hrequest)
  obtain ⟨hpair, -, -⟩ := Attempt.gives_pure.mp h
  obtain ⟨rfl, rfl⟩ := Prod.mk.inj hpair
  rw [ends_targetId (Attempt.gives_lift.mp htarget)]
  exact ⟨rfl, timestamp, rfl⟩

theorem gives_prepareFor {f : Fetch} {kind : TokenKind} {subject : Subject} {name : String}
    {chain : Option (List String)} {r : Request} {p : Cache.Parts}
    (h : (c.prepareFor f kind subject name chain).Gives s (r, p) es s') :
    p = ⟨kind, name, f.exclude, chain, c.resolve f.target⟩ := (gives_prepareFor_request h).1

theorem prepareFor_keeps (hP : P.Notes) (c : Client σ) (f : Fetch) (kind : TokenKind)
    (subject : Subject) (name : String) (chain : Option (List String)) :
    (c.prepareFor f kind subject name chain).Keeps P := by
  refine .bind (.lift (targetId_keeps hP c _)) fun target => ?_
  exact .bind (.lift (Request.make_keeps hP _ _ _ _ _)) fun _ => .pure _

theorem gives_prepare {f : Fetch} {r : Request} {p : Cache.Parts}
    (h : (c.prepare f).Gives s (r, p) es s') : c.parts f = some p := by
  unfold prepare at h
  unfold parts
  cases hw : f.wanted with
  | own =>
    rw [hw] at h
    rw [gives_prepareFor h]
  | user a =>
    rw [hw, Attempt.gives_bind] at h
    obtain ⟨user, _, _, _, huser, h, -⟩ := h
    rw [gives_prepareFor h]
    simp only [gives_admitAssertion huser]
    rfl
  | like t =>
    rw [hw] at h
    rw [gives_prepareFor h]

theorem requester_of_gives_prepareFor {f : Fetch} {kind : TokenKind} {subject : Subject} {name : String}
    {chain : Option (List String)} {r : Request} {p : Cache.Parts}
    (h : (c.prepareFor f kind subject name chain).Gives s (r, p) es s') : r.requester = c.ownId := by
  obtain ⟨-, timestamp, rfl⟩ := gives_prepareFor_request h
  rfl

theorem requester_of_gives_prepare {f : Fetch} {r : Request} {p : Cache.Parts}
    (h : (c.prepare f).Gives s (r, p) es s') : r.requester = c.ownId := by
  unfold prepare at h
  split at h
  · exact requester_of_gives_prepareFor h
  · obtain ⟨user, _, _, h⟩ := h.last
    exact requester_of_gives_prepareFor h
  · exact requester_of_gives_prepareFor h

theorem prepare_keeps (hP : P.Watches) (c : Client σ) (f : Fetch) : (c.prepare f).Keeps P := by
  unfold prepare
  split
  · exact prepareFor_keeps hP.notes c f _ _ _ _
  · exact .bind (admitAssertion_keeps hP c _) fun user => prepareFor_keeps hP.notes c f _ _ _ _
  · exact prepareFor_keeps hP.notes c f _ _ _ _

end Preparing

/-- What a fetch under a key comes to, and what it makes of the cache. -/
inductive Fetches (c : Client σ) (key : Cache.Key) (before after : Cache) (es : List Entry) :
    Except TrustError Token → Option Origin → Prop where
  /-- A kept token was under the key, and the source says that it may be used. -/
  | kept {t : Token} {s₁ s₂ : Session σ} {es₁ : List Entry}
      (held : (key, t) ∈ before.entries)
      (valid : (c.source.isValid t).Ends s₁ true es₁ s₂) (onRecord : es₁ ⊆ es)
      (rest : after.entries ⊆ before.entries) :
      Fetches c key before after es (.ok t) (some .kept)
  /-- An acquired token takes the place of what was under the key. -/
  | acquired {t : Token} {r : Request} {s₁ s₂ : Session σ} {es₁ : List Entry}
      (answer : (c.source.acquire r).Gives s₁ t es₁ s₂) (onRecord : es₁ ⊆ es)
      (rest : ∀ e ∈ after.entries, e = (key, t) ∨ e ∈ before.entries ∧ e.1 ≠ key) :
      Fetches c key before after es (.ok t) (some .acquired)
  | failed {e : TrustError} (rest : after.entries ⊆ before.entries) :
      Fetches c key before after es (.error e) none

section Cases

variable {c : Client σ} {s s' : Session σ} {es : List Entry}

theorem lookUp_keeps {P : Conduct σ} (hP : P.Notes) (hdrops : P.Drops) (c : Client σ)
    (key : Cache.Key) (policy : CachePolicy) : (c.lookUp key policy).Keeps P := by
  cases policy with
  | use => exact .lift (Cache.findValid_keeps hP hdrops (Source.isValid_keeps hP c.source) key)
  | bypass => exact .pure none

theorem fetchNoting_keeps {P : Conduct σ} (hP : P.Calls c.source.PoolReceives) (hcache : P.Recaches)
    (r : Request) (key : Cache.Key) (policy : CachePolicy) : (c.fetchNoting r key policy).Keeps P := by
  refine .bind (lookUp_keeps hP.toWatches.notes hcache.drops c key policy) fun found => ?_
  cases found with
  | some t => exact .bind (.log hP.toWatches _) fun _ => .pure _
  | none =>
    refine .bind (Source.acquire_keeps hP r) fun t => ?_
    exact .bind (.lift (Cache.store_keeps hP.toWatches.notes hcache key t)) fun _ => .pure _

theorem perform_keeps {P : Conduct σ} (hP : P.Calls c.source.PoolReceives) (hcache : P.Recaches)
    (f : Fetch) : (c.perform f).Keeps P := by
  rw [perform_eq]
  refine .map (.bind (prepare_keeps hP.toWatches c f) fun (r, p) => ?_) _
  exact fetchNoting_keeps hP hcache r p.key f.policy

theorem gives_lookUp {key : Cache.Key} {policy : CachePolicy} {t : Token}
    (h : (c.lookUp key policy).Gives s (some t) es s') :
    (key, t) ∈ s.cache.entries ∧
      ∃ s₁ es₁ s₂, (c.source.isValid t).Ends s₁ true es₁ s₂ ∧ es₁ ⊆ es := by
  cases policy with
  | use =>
    obtain ⟨hheld, _, s₁, es₁, s₂, -, -, hvalid, hes⟩ := Cache.ends_findValid (Attempt.gives_lift.mp h)
    exact ⟨hheld, s₁, es₁, s₂, hvalid, hes⟩
  | bypass => exact absurd (Attempt.gives_pure.mp h).1 (by simp)

/-- Where the token of a fetch comes from, and when. -/
theorem gives_fetchNoting {r : Request} {key : Cache.Key} {policy : CachePolicy} {t : Token}
    {origin : Origin}
    (h : (c.fetchNoting r key policy).Gives s (t, origin) es s') :
    (origin = .kept ∧ (key, t) ∈ s.cache.entries ∧ ∃ now, .reading now ∈ es ∧ t.isValidAt now = true) ∨
      origin = .acquired ∧ ∃ s₁ es₁ s₂, (c.source.acquire r).Gives s₁ t es₁ s₂ ∧ es₁ ⊆ es := by
  rw [fetchNoting, Attempt.gives_bind] at h
  obtain ⟨found, es₁, s₁, es₂, hfound, h, rfl⟩ := h
  cases found with
  | some kept =>
    obtain ⟨_, _, _, h⟩ := h.last
    obtain ⟨hpair, -, -⟩ := Attempt.gives_pure.mp h
    obtain ⟨rfl, rfl⟩ := Prod.mk.inj hpair
    cases policy with
    | bypass => cases (Attempt.gives_pure.mp hfound).1
    | use =>
      obtain ⟨hheld, now, _, _, _, hread, hvalid, -, -⟩ :=
        Cache.ends_findValid (Attempt.gives_lift.mp hfound)
      exact .inl ⟨rfl, hheld, now, List.mem_append_left _ hread, hvalid⟩
  | none =>
    simp only [Attempt.gives_bind] at h
    obtain ⟨token, es₃, s₂, _, hacquire, ⟨_, _, _, _, -, h, -⟩, rfl⟩ := h
    obtain ⟨hpair, -, -⟩ := Attempt.gives_pure.mp h
    obtain ⟨rfl, rfl⟩ := Prod.mk.inj hpair
    refine .inr ⟨rfl, _, es₃, s₂, hacquire, ?_⟩
    intro e he
    simp [he]

theorem fetchNoting_cases {r : Request} {key : Cache.Key} {policy : CachePolicy}
    {noted : Except TrustError (Token × Origin)}
    (h : (ExceptT.run (c.fetchNoting r key policy)).Ends s noted es s') :
    c.Fetches key s.cache s'.cache es (noted.map Prod.fst) (noted.toOption.map Prod.snd) := by
  have hnotes := (Conduct.onlyDrops_watches (σ := σ)).notes
  rw [fetchNoting, Attempt.ends_bind] at h
  rcases h with ⟨found, es₁, s₁, es₂, hfound, h, rfl⟩ | ⟨e, rfl, hfails⟩
  -- up to the put, the cache can only have lost entries: the source does not touch it
  · have hdrops : s₁.cache.entries ⊆ s.cache.entries :=
      (lookUp_keeps hnotes Conduct.onlyDrops_drops c key policy).gives hfound
    cases found with
    | some t =>
      simp only [Attempt.ends_bind] at h
      rcases h with ⟨_, es₃, s₂, es₄, hlog, h, rfl⟩ | ⟨e, -, hlog⟩
      · obtain ⟨rfl, rfl⟩ := Attempt.gives_log.mp hlog
        obtain ⟨rfl, rfl, rfl⟩ := Run.ends_pure.mp h
        obtain ⟨hheld, _, ea, _, hvalid, hea⟩ := gives_lookUp hfound
        exact .kept hheld hvalid (fun _ he => List.mem_append_left _ (hea he)) hdrops
      · exact absurd hlog Attempt.fails_log
    | none =>
      simp only [Attempt.ends_bind] at h
      rcases h with ⟨t, es₃, s₂, es₄, hacquire, h, rfl⟩ | ⟨e, rfl, hfails⟩
      · have hcache : s₂.cache = s₁.cache :=
          (Source.acquire_keeps Conduct.keepsCache_calls r).gives hacquire
        rcases h with ⟨_, es₅, s₃, es₆, hstore, h, rfl⟩ | ⟨e, -, hstore⟩
        · obtain ⟨rfl, rfl, rfl⟩ := Run.ends_pure.mp h
          have hput := Cache.ends_store (Attempt.gives_lift.mp hstore)
          refine .acquired hacquire (fun _ he => by simp [he]) fun e he => ?_
          rw [hput, hcache] at he
          rcases Cache.mem_put he with rfl | ⟨he, hkey⟩
          · exact .inl rfl
          · exact .inr ⟨hdrops he, hkey⟩
        · exact absurd hstore Attempt.fails_lift
      · have hcache : s'.cache = s₁.cache :=
          (Source.acquire_keeps Conduct.keepsCache_calls r).fails hfails
        exact .failed (by rw [hcache]; exact hdrops)
  · exact .failed ((lookUp_keeps hnotes Conduct.onlyDrops_drops c key policy).fails hfails)

theorem Fetches.mono {key : Cache.Key} {before after : Cache} {es es' : List Entry}
    {answer : Except TrustError Token} {origin : Option Origin}
    (h : c.Fetches key before after es answer origin) (hes : es ⊆ es') :
    c.Fetches key before after es' answer origin := by
  cases h with
  | kept held valid onRecord rest => exact .kept held valid (List.Subset.trans onRecord hes) rest
  | acquired answer onRecord rest => exact .acquired answer (List.Subset.trans onRecord hes) rest
  | failed rest => exact .failed rest

theorem performNoting_cases {f : Fetch} {noted : Except TrustError (Token × Origin)}
    (h : (ExceptT.run (c.performNoting f)).Ends s noted es s') :
    (∃ p, c.parts f = some p ∧
      c.Fetches p.key s.cache s'.cache es (noted.map Prod.fst) (noted.toOption.map Prod.snd)) ∨
    ∃ e, noted = .error e ∧ s'.cache = s.cache := by
  have hkeeps := prepare_keeps Conduct.keepsCache_watches c f
  rw [performNoting, Attempt.ends_bind] at h
  rcases h with ⟨⟨r, p⟩, es₁, s₁, es₂, hprepare, h, rfl⟩ | ⟨e, rfl, hfails⟩
  · have hcache : s₁.cache = s.cache := hkeeps.gives hprepare
    refine .inl ⟨p, gives_prepare hprepare, ?_⟩
    rw [← hcache]
    exact (fetchNoting_cases h).mono (List.subset_append_right _ _)
  · exact .inr ⟨e, rfl, hkeeps.fails hfails⟩

end Cases

/-! ## Visits -/

/-- One fetch, what the directory says at the time, and what others have done to the cache before. -/
structure Visit where
  fetch : Fetch
  directory : String → Option String
  meanwhile : Cache → Cache := id

/-- A visit, the session that it starts in, how it ended, and where its token comes from if it got
one. -/
structure Step (σ : Type) where
  visit : Visit
  start : Session σ
  done : Outcome σ (Except TrustError Token)
  origin : Option Origin

def during (c : Client σ) (v : Visit) : Client σ := { c with directory := v.directory }

def asked (c : Client σ) (v : Visit) : Option Cache.Parts := (c.during v).parts v.fetch

def step (c : Client σ) (v : Visit) (s : Session σ) : Step σ :=
  let start := { s with cache := v.meanwhile s.cache }
  { visit := v
    start
    done := (ExceptT.run ((c.during v).perform v.fetch)).run start
    origin := ((ExceptT.run ((c.during v).performNoting v.fetch)).run start).value.toOption.map Prod.snd }

def history (c : Client σ) : List Visit → Session σ → List (Step σ)
  | [], _ => []
  | v :: rest, s => c.step v s :: c.history rest (c.step v s).done.session

theorem mem_history {c : Client σ} {step : Step σ} {visits : List Visit} {s : Session σ}
    (h : step ∈ c.history visits s) : ∃ v ∈ visits, ∃ s', step = c.step v s' := by
  induction visits generalizing s with
  | nil => simp [history] at h
  | cons v rest ih =>
    rw [history] at h
    rcases List.mem_cons.mp h with rfl | h
    · exact ⟨v, List.mem_cons_self, s, rfl⟩
    · obtain ⟨v', hv', s', rfl⟩ := ih h
      exact ⟨v', List.mem_cons_of_mem _ hv', s', rfl⟩

theorem step_cases (c : Client σ) (v : Visit) (s : Session σ) :
    let x := c.step v s
    (∃ p, c.asked v = some p ∧ (c.during v).Fetches p.key x.start.cache x.done.session.cache
      x.done.entries x.done.value x.origin) ∨
    ∃ e, x.done.value = .error e ∧ x.origin = none ∧ x.done.session.cache = x.start.cache := by
  have hdone := run_perform (c.during v) v.fetch { s with cache := v.meanwhile s.cache }
  have hnoting := performNoting_cases (c := c.during v) (f := v.fetch)
    (Run.ends_run _ { s with cache := v.meanwhile s.cache })
  simp only [step, hdone]
  rcases hnoting with ⟨p, hp, hfetches⟩ | ⟨e, he, hcache⟩
  · exact .inl ⟨p, hp, hfetches⟩
  · rw [he]
    exact .inr ⟨e, rfl, rfl, hcache⟩

end Client

end TokenTrust
