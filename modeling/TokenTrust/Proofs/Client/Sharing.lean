/-
  TokenTrust.Proofs.Client.Sharing — whose tokens the clients of a shared cache get.

  Clients with ids of their own take turns at one cache, and the service issues each token to
  whoever asks for it (`Source.Stamps`). What a client acquires is its own, but a kept token belongs
  to the client that acquired it, and the key that it is kept under says nothing of that client
  unless the token is one for the application itself:
  - `relay_coherent`: every entry is what some client acquired last under its key.
  - `shared_token_is_its_acquirers`: so a token is issued to the one who acquired it last under the
    key, which is the client itself if no two clients ask for anything under one key.
  - `own_turns_apart`: that is so if all that they fetch are tokens of their own.
  - `shared_cache_hands_over`: it is not, if two of them fetch a token derived from the same one.
-/

import Mathlib.Control.Monad.Basic
import TokenTrust.Proofs.Client.Coherence

namespace TokenTrust

open Cache (Parts)

variable {σ : Type}

/-! ## Who a token is issued to -/

/-- The service issues each token to whoever asks for it. -/
def Pool.Stamps (pool : Pool σ) : Prop :=
  ∀ on r signature w t, (pool.request on r signature w).1 = .ok t → t.holder = r.requester

def Source.Stamps (id : String) : Source σ → Prop
  | .mock made => made.ownId = id
  | .unauthenticated channel | .production channel _ _ => channel.pool.Stamps

section Issuing

variable {s s' : Session σ} {es : List Entry} {t : Token} {r : Request}

variable [Clock σ]

theorem Channel.holder_of_gives_request {channel : Channel σ} {signature : String}
    (hstamps : channel.pool.Stamps)
    (h : (channel.exchange (Lease.request r signature)).Gives s t es s') : t.holder = r.requester := by
  obtain ⟨l, s₁, es₁, l', s₂, huse, -⟩ := gives_exchange h
  obtain ⟨hanswer, -, -⟩ := Run.ends_call.mp (Lease.ends_call huse).1
  exact hstamps _ _ _ _ _ hanswer.symm

theorem MockSource.holder_of_gives_acquire {made : MockSource}
    (h : (made.acquire r : Attempt σ Token).Gives s t es s') : t.holder = made.ownId := by
  obtain ⟨_, _, _, _, _, -, -, rfl⟩ := MockSource.gives_acquire h
  rfl

theorem Source.holder_of_gives_acquire {source : Source σ} (hstamps : source.Stamps r.requester)
    (h : (source.acquire r).Gives s t es s') : t.holder = r.requester := by
  cases source with
  | mock made => exact (MockSource.holder_of_gives_acquire h).trans hstamps
  | unauthenticated channel =>
    obtain ⟨_, _, _, h⟩ := h.last
    exact Channel.holder_of_gives_request hstamps h
  | production channel app issuer =>
    obtain ⟨signature, _, _, h⟩ := h.last
    rw [Attempt.gives_bind] at h
    obtain ⟨answered, _, _, _, hexchange, h, -⟩ := h
    obtain ⟨_, _, _, h⟩ := h.last
    obtain ⟨_, _, _, h⟩ := h.last
    obtain ⟨rfl, -, -⟩ := Attempt.gives_pure.mp h
    exact Channel.holder_of_gives_request hstamps hexchange

end Issuing

/-- A source that is set up over a service that stamps does so. -/
theorem Source.stamps_of_gives_ofSettings {settings : Settings} {pool : Option (Pool σ)}
    {app issuer : Option KeyPair} {source : Source σ} {s s' : Session σ} {es : List Entry}
    (hpool : ∀ p, pool = some p → p.Stamps)
    (h : (Source.ofSettings settings pool app issuer).Gives s source es s') :
    source.Stamps settings.ownId := by
  cases hmode : settings.mode with
  | mock =>
    unfold Source.ofSettings at h
    simp only [hmode] at h
    obtain ⟨_, _, _, h⟩ := h.last
    obtain ⟨rfl, -, -⟩ := Attempt.gives_pure.mp h
    rfl
  | unauthenticated =>
    unfold Source.ofSettings at h
    simp only [hmode, Attempt.gives_bind, Attempt.gives_require, Attempt.gives_pure] at h
    obtain ⟨_, _, _, _, ⟨p, _, _, _, ⟨hp, -, -⟩, ⟨rfl, -, -⟩, -⟩, ⟨_, _, _, _, -, ⟨rfl, -, -⟩, -⟩, -⟩ := h
    exact hpool p hp
  | production =>
    obtain ⟨p, _, _, hp, -, -, -, rfl⟩ := gives_ofSettings_production hmode h
    exact hpool p hp

namespace Client

/-- A client that was given no source of its own stamps if the service does. -/
theorem Setup.stamps_of_gives_build {setup : Setup σ} {c : Client σ} {s s' : Session σ}
    {es : List Entry} (hown : setup.source = none) (hpool : ∀ p, setup.pool = some p → p.Stamps)
    (h : setup.build.Gives s c es s') : c.source.Stamps c.ownId := by
  obtain ⟨hsettings, -, app, _, _, _, -, hsource⟩ := gives_build hown h
  rw [ownId, hsettings]
  exact Source.stamps_of_gives_ofSettings hpool hsource

variable [Clock σ]

section Acquiring

variable {c : Client σ} {f : Fetch} {s s' : Session σ} {es : List Entry}

theorem gives_fetchNoting_acquired {r : Request} {key : Cache.Key} {policy : CachePolicy} {t : Token}
    (h : (c.fetchNoting r key policy).Gives s (t, .acquired) es s') :
    ∃ s₁ es₁ s₂, (c.source.acquire r).Gives s₁ t es₁ s₂ := by
  rcases gives_fetchNoting h with ⟨hkept, -⟩ | ⟨-, s₁, es₁, s₂, hacquire, -⟩
  · cases hkept
  · exact ⟨s₁, es₁, s₂, hacquire⟩

theorem holder_of_gives_performNoting (hstamps : c.source.Stamps c.ownId) {t : Token}
    (h : (c.performNoting f).Gives s (t, .acquired) es s') : t.holder = c.ownId := by
  rw [performNoting, Attempt.gives_bind] at h
  obtain ⟨⟨r, p⟩, _, _, _, hprepare, hfetch, -⟩ := h
  obtain ⟨_, _, _, hacquire⟩ := gives_fetchNoting_acquired hfetch
  have hrequester : r.requester = c.ownId := requester_of_gives_prepare hprepare
  rw [← hrequester]
  exact Source.holder_of_gives_acquire (hrequester ▸ hstamps) hacquire

/-- What a client has just acquired is issued to it. -/
theorem holder_of_acquired (hstamps : c.source.Stamps c.ownId) {v : Visit} {t : Token}
    (ht : (c.step v s).done.value = .ok t) (horigin : (c.step v s).origin = some .acquired) :
    t.holder = c.ownId := by
  have hdone := run_perform (c.during v) v.fetch { s with cache := v.meanwhile s.cache }
  simp only [step, hdone] at ht horigin
  generalize hnoted : (ExceptT.run ((c.during v).performNoting v.fetch)).run
    { s with cache := v.meanwhile s.cache } = noted at ht horigin
  obtain ⟨value, es, s'⟩ := noted
  cases value with
  | error e => cases ht
  | ok value =>
    obtain ⟨u, origin⟩ := value
    cases ht
    cases horigin
    exact holder_of_gives_performNoting (c := c.during v) hstamps hnoted

end Acquiring

/-! ## Turns -/

structure Turn (σ : Type) where
  client : Client σ
  visit : Visit

def Turn.asks (turn : Turn σ) (p : Parts) : Prop := turn.client.asked turn.visit = some p

def relay : List (Turn σ) → Session σ → List (Client σ × Step σ)
  | [], _ => []
  | turn :: rest, s =>
    (turn.client, turn.client.step turn.visit s) ::
      relay rest (turn.client.step turn.visit s).done.session

/-- The tokens that any client has acquired, the oldest first, each with what it was asked for. -/
def acquiredIn (steps : List (Client σ × Step σ)) : List (Parts × Token) :=
  steps.flatMap fun turn => turn.1.acquisitions [turn.2]

theorem mem_relay {turns : List (Turn σ)} {s : Session σ} {c : Client σ} {x : Step σ}
    (h : (c, x) ∈ relay turns s) : ∃ turn ∈ turns, ∃ s', turn.client = c ∧ x = c.step turn.visit s' := by
  induction turns generalizing s with
  | nil => simp [relay] at h
  | cons turn rest ih =>
    rw [relay] at h
    rcases List.mem_cons.mp h with h | h
    · obtain ⟨rfl, rfl⟩ := Prod.mk.inj h
      exact ⟨turn, List.mem_cons_self, s, rfl, rfl⟩
    · obtain ⟨turn', hturn', s', hc, hx⟩ := ih h
      exact ⟨turn', List.mem_cons_of_mem _ hturn', s', hc, hx⟩

omit [Clock σ] in
/-- Behind an acquisition there is the client that made it. -/
theorem mem_acquiredIn {steps : List (Client σ × Step σ)} {p : Parts} {t : Token}
    (h : (p, t) ∈ acquiredIn steps) : ∃ c x, (c, x) ∈ steps ∧ c.asked x.visit = some p ∧
      x.done.value = .ok t ∧ x.origin = some .acquired := by
  obtain ⟨⟨c, x⟩, hx, h⟩ := List.mem_flatMap.mp h
  obtain ⟨y, hy, hmade⟩ := mem_acquisitions h
  obtain rfl := List.mem_singleton.mp hy
  exact ⟨c, y, hx, hmade⟩

/-- As long as only these turns touch the cache, every entry is what was acquired last under its
key, by whichever client. -/
theorem relay_coherent {turns : List (Turn σ)} (hcalm : ∀ turn ∈ turns, turn.visit.meanwhile = id)
    {past : List (Parts × Token)} {s : Session σ} (h : Coherent past s.cache)
    {earlier later : List (Client σ × Step σ)} {c : Client σ} {x : Step σ}
    (hx : relay turns s = earlier ++ (c, x) :: later) :
    Coherent (past ++ acquiredIn earlier) x.start.cache := by
  -- on the turns, with what has been acquired so far going into the past
  induction turns generalizing past s earlier with
  | nil => simp [relay] at hx
  | cons turn rest ih =>
    have hstart : (turn.client.step turn.visit s).start.cache = s.cache := by
      simp only [step, hcalm turn List.mem_cons_self, id]
    rw [relay] at hx
    cases earlier with
    | nil =>
      obtain ⟨hfirst, -⟩ := List.cons.inj hx
      obtain ⟨rfl, rfl⟩ := Prod.mk.inj hfirst
      rw [hstart]
      simpa [acquiredIn] using h
    | cons y earlier =>
      obtain ⟨rfl, hrest⟩ := List.cons.inj hx
      have hlater := ih (fun later hlater => hcalm later (List.mem_cons_of_mem _ hlater))
        (step_coherent (hstart ▸ h)) hrest
      rw [acquiredIn, List.flatMap_cons, ← List.append_assoc]
      exact hlater

omit [Clock σ] in
theorem LastFor.mem {P : Parts → Prop} {past : List (Parts × Token)} {t : Token}
    (h : LastFor P past t) : ∃ q, P q ∧ (q, t) ∈ past := by
  obtain ⟨older, q, newer, rfl, hq, -⟩ := h
  exact ⟨q, hq, by simp⟩

/-- Where a token that a client got in its turn comes from: it has acquired it itself, or it is the
one that was acquired last under the key, by the client `d`. -/
inductive GotFrom (earlier : List (Client σ × Step σ)) (c : Client σ) (x : Step σ) (t : Token) :
    Client σ → Prop where
  | acquired (fresh : x.origin = some .acquired) : GotFrom earlier c x t c
  | kept {d : Client σ} {y : Step σ} {p q : Parts} (old : x.origin = some .kept)
      (asked : c.asked x.visit = some p) (last : LastFor (·.key = p.key) (acquiredIn earlier) t)
      (former : (d, y) ∈ earlier) (askedThen : d.asked y.visit = some q) (alike : q.key = p.key)
      (fresh : y.origin = some .acquired) (gave : y.done.value = .ok t) : GotFrom earlier c x t d

section Runs

variable {turns : List (Turn σ)} {s : Session σ}

theorem exists_gotFrom (hempty : s.cache.entries = [])
    (hcalm : ∀ turn ∈ turns, turn.visit.meanwhile = id)
    {earlier later : List (Client σ × Step σ)} {c : Client σ} {x : Step σ} {t : Token}
    (hx : relay turns s = earlier ++ (c, x) :: later) (ht : x.done.value = .ok t) :
    ∃ d, GotFrom earlier c x t d := by
  have hcoherent : Coherent (acquiredIn earlier) x.start.cache := by
    have hnothing : Coherent [] s.cache := fun e he => by simp [hempty] at he
    exact relay_coherent hcalm hnothing hx
  obtain ⟨turn, -, s', rfl, rfl⟩ : ∃ turn ∈ turns, ∃ s', turn.client = c ∧ x = c.step turn.visit s' :=
    mem_relay (hx ▸ List.mem_append_right _ List.mem_cons_self)
  rcases turn.client.step_cases turn.visit s' with ⟨p, hp, hfetches⟩ | ⟨e, he, -, -⟩
  · cases horigin : (turn.client.step turn.visit s').origin with
    | none =>
      rw [ht, horigin] at hfetches
      cases hfetches
    | some origin =>
      cases origin with
      | acquired => exact ⟨_, .acquired horigin⟩
      | kept =>
        rw [horigin] at hfetches
        obtain ⟨u, hu, hheld⟩ := hfetches.held
        rw [ht] at hu
        cases hu
        have hlast := hcoherent _ hheld
        obtain ⟨q, hq, hmem⟩ := hlast.mem
        obtain ⟨d, y, hy, hasked, hgave, hfresh⟩ := mem_acquiredIn hmem
        exact ⟨d, .kept horigin hp hlast hy hasked hq hfresh hgave⟩
  · rw [ht] at he
    cases he

/-- Clients that never ask for anything under one key unless they have one id. -/
def Apart (turns : List (Turn σ)) : Prop :=
  ∀ a ∈ turns, ∀ b ∈ turns, ∀ p q, a.asks p → b.asks q → p.key = q.key →
    a.client.ownId = b.client.ownId

/-- A token that a client of a shared cache gets is issued to the client that acquired it, itself or
another one that asked under the same key. -/
theorem shared_token_is_its_acquirers (hempty : s.cache.entries = [])
    (hcalm : ∀ turn ∈ turns, turn.visit.meanwhile = id)
    (hstamps : ∀ turn ∈ turns, turn.client.source.Stamps turn.client.ownId) :
    (∀ earlier c x later t, relay turns s = earlier ++ (c, x) :: later → x.done.value = .ok t →
      ∃ d, GotFrom earlier c x t d ∧ t.holder = d.ownId) ∧
    (Apart turns → ∀ c x t, (c, x) ∈ relay turns s → x.done.value = .ok t → t.holder = c.ownId) := by
  have hissued : ∀ c x t, (c, x) ∈ relay turns s → x.done.value = .ok t →
      x.origin = some .acquired → t.holder = c.ownId := by
    intro c x t hx ht hfresh
    obtain ⟨turn, hturn, s', rfl, rfl⟩ := mem_relay hx
    exact holder_of_acquired (hstamps turn hturn) ht hfresh
  have hall : ∀ earlier c x later t, relay turns s = earlier ++ (c, x) :: later →
      x.done.value = .ok t → ∃ d, GotFrom earlier c x t d ∧ t.holder = d.ownId := by
    intro earlier c x later t hx ht
    obtain ⟨d, hfrom⟩ := exists_gotFrom hempty hcalm hx ht
    refine ⟨d, hfrom, ?_⟩
    cases hfrom with
    | acquired fresh => exact hissued _ x t (by simp [hx]) ht fresh
    | kept _ _ _ former _ _ fresh gave => exact hissued _ _ t (by simp [hx, former]) gave fresh
  refine ⟨hall, fun hapart c x t hmem ht => ?_⟩
  obtain ⟨earlier, later, hx⟩ := List.append_of_mem hmem
  obtain ⟨d, hfrom, hholder⟩ := hall earlier c x later t hx ht
  cases hfrom with
  | acquired => exact hholder
  | @kept d y p q _ asked _ former askedThen alike _ _ =>
    obtain ⟨a, ha, _, rfl, rfl⟩ := mem_relay (hx ▸ List.mem_append_left _ former)
    obtain ⟨b, hb, _, rfl, rfl⟩ := mem_relay hmem
    exact hholder.trans (hapart a ha b hb q p askedThen asked alike)

omit [Clock σ] in
/-- The key of a token for the application itself tells the application. -/
theorem own_turns_apart (hown : ∀ turn ∈ turns, turn.visit.fetch.wanted = .own)
    (hplain : ∀ turn ∈ turns, Cache.Key.partMark ∉ turn.client.ownId.toList) : Apart turns := by
  have hasks : ∀ turn ∈ turns, ∀ p, turn.asks p → p.kind = .app ∧ p.subject = turn.client.ownId := by
    intro turn hturn p hp
    unfold Turn.asks asked parts at hp
    rw [hown turn hturn] at hp
    cases hp
    exact ⟨rfl, rfl⟩
  intro a ha b hb p q hp hq hkey
  obtain ⟨hkind, hsubject⟩ := hasks a ha p hp
  obtain ⟨hkind', hsubject'⟩ := hasks b hb q hq
  have hpa : Cache.Key.partMark ∉ p.subject.toList := by rw [hsubject]; exact hplain a ha
  have hqb : Cache.Key.partMark ∉ q.subject.toList := by rw [hsubject']; exact hplain b hb
  rw [← Parts.key_inj, Parts.toList_key, Parts.toList_key, hkind, hkind',
    List.append_cancel_left_eq, List.cons.injEq, Cache.append_mark_inj hpa hqb] at hkey
  rw [← hsubject, ← hsubject', String.toList_inj.mp hkey.2.1]

end Runs

end Client

namespace Gateway

def issuedFor (r : Request) (now : Millis) : Token :=
  let validity : Validity := {
    issuer := "01", issuedTo := r.requester, issuedFor := some r.target, issuedTime := now, notAfter := 9000 }
  let principal := match r.subject with
    | .token t => t.principal
    | _ => { subject := r.requester, validity }
  { kind := r.kind, principal, validity }

/-- A service that issues each token to its requester, and signs it. -/
def bureau : Pool Scene := { Scene.pool with
  request := fun _ r _ w =>
    (((issuedFor r w.time).sign (.ofSeed (List.replicate 32 0x1e))).mapError fun e =>
      .transport e.message, w) }

theorem bureau_stamps : bureau.Stamps := by
  intro on r signature w t h
  have hsigned : ∃ signature, t = (issuedFor r w.time).withSignature signature := by
    cases h
    exact ⟨_, rfl⟩
  obtain ⟨_, rfl⟩ := hsigned
  rfl

def member (id : String) : Client.Setup Scene where
  settings := { ownId := id }
  pool := some bureau
  appKey := some (.ofSeed (List.replicate 32 0xa1))
  issuerKey := some issuerKey

def memberClient (id : String) : Client Scene where
  settings := (member id).settings
  source := .production ⟨id, "token-issuer", bureau⟩ (.ofSeed (List.replicate 32 0xa1)) issuerKey
  directory := (member id).directory
  issuerKey := some issuerKey
  frontEndKey := none

theorem built_member {id : String} (hid : id ≠ "") (s : Session Scene) :
    (member id).build.Gives s (memberClient id) [.event (.clientReady id .production)] s := by
  rw [Client.Setup.build_eq _ hid]
  rfl

def turnOf (id : String) (wanted : Wanted) : Client.Turn Scene where
  client := memberClient id
  visit := { fetch := { wanted, target := "457" }, directory := fun _ => none }

def theirs : Token := pass .user "alice" "456" 9000 none

theorem stamps_member {id : String} (hid : id ≠ "") :
    (memberClient id).source.Stamps (memberClient id).ownId := by
  have hpool : ∀ p, (member id).pool = some p → p.Stamps := by
    rintro p ⟨⟩
    exact bureau_stamps
  exact Client.Setup.stamps_of_gives_build rfl hpool (built_member hid (session [] []))

/-- Whom the token of a turn was issued to, and whether the service was asked for it. -/
def gotten (step : Client Scene × Client.Step Scene) : Option String × Bool :=
  (step.2.done.value.toOption.map Token.holder, !(callsOf step.2.done.entries).isEmpty)

/-- Both get a token of their own, and the first one gets it again without a call. -/
theorem members_get_their_own :
    let turns := [turnOf "1234" .own, turnOf "456" .own, turnOf "1234" .own]
    (Client.relay turns (session [] [])).map gotten =
      [(some "1234", true), (some "456", true), (some "1234", false)] ∧
    ∀ c x t, (c, x) ∈ Client.relay turns (session [] []) → x.done.value = .ok t →
      t.holder = c.ownId := by
  intro turns
  have hturns : ∀ turn ∈ turns, turn = turnOf "1234" .own ∨ turn = turnOf "456" .own := by
    intro turn hturn
    simp only [turns, List.mem_cons, List.not_mem_nil, or_false] at hturn
    rcases hturn with h | h | h
    · exact .inl h
    · exact .inr h
    · exact .inl h
  have hstamps : ∀ turn ∈ turns, turn.client.source.Stamps turn.client.ownId := by
    intro turn hturn
    rcases hturns turn hturn with rfl | rfl
    · exact stamps_member (by decide)
    · exact stamps_member (by decide)
  have hcalm : ∀ turn ∈ turns, turn.visit.meanwhile = id := by
    intro turn hturn
    rcases hturns turn hturn with rfl | rfl <;> rfl
  have hapart : Client.Apart turns := by
    refine Client.own_turns_apart (fun turn hturn => ?_) fun turn hturn => ?_
    · rcases hturns turn hturn with rfl | rfl <;> rfl
    · rcases hturns turn hturn with rfl | rfl <;> decide
  exact ⟨by decide +kernel, (Client.shared_token_is_its_acquirers rfl hcalm hstamps).2 hapart⟩

/-- The second application gets, without a call, the token that was issued to the first one. -/
theorem shared_cache_hands_over :
    let turns := [turnOf "1234" (.like theirs), turnOf "456" (.like theirs)]
    bureau.Stamps ∧
    (∀ turn ∈ turns, ∃ id, (member id).pool = some bureau ∧ (member id).source = none ∧
      (member id).build.Gives (session [] []) turn.client [.event (.clientReady id .production)]
        (session [] [])) ∧
    ((Client.relay turns (session [] [])).map fun step => (step.1.ownId, gotten step)) =
      [("1234", some "1234", true), ("456", some "1234", false)] := by
  refine ⟨bureau_stamps, fun turn hturn => ?_, by decide +kernel⟩
  simp only [List.mem_cons, List.not_mem_nil, or_false] at hturn
  rcases hturn with rfl | rfl
  · exact ⟨"1234", rfl, rfl, built_member (by decide) _⟩
  · exact ⟨"456", rfl, rfl, built_member (by decide) _⟩

end Gateway

end TokenTrust
