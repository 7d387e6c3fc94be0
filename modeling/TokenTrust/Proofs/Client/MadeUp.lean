/-
  TokenTrust.Proofs.Client.MadeUp — what the tokens of a client that makes them up itself say.

  A token in the cache was made for an earlier fetch, perhaps of another kind, that shares its key. So
  what a token says must follow from the key:
  - `gives_prepare_request`: what the source is asked for, by what the token is to be kept under.
  - `MockSource.madeFor_of_gives_acquire`: what it makes of that.
  - `MadeFor.congr`: fetches that ask for the same may have each other's tokens.
  - `gives_step`, `madeFor_of_mem_acquisitions`: all that the client ever acquires is such a token.
  - `made_up_tokens_fit`: so a token answers its fetch, wherever it comes from.
  - `application_token_fits_both`: a token made for one kind of fetch that answers another kind.
-/

import Mathlib.Control.Monad.Basic
import TokenTrust.Proofs.Client.CacheUse
import TokenTrust.Proofs.Client.Sharing

namespace TokenTrust

open Cache (Parts)

/-! ## Lifetimes -/

/-- Something that is made at `t` to last for a while still lasts at `t`, unless `t` is the last instant
there is. -/
theorem Millis.lt_after {t span : Millis} (h : t < Int64.maxValue) (hspan : 0 < span) :
    t < Millis.after t span := by
  have hleast := t.le_toInt
  rw [Int64.lt_iff_toInt_lt] at h hspan ⊢
  rw [toInt_maxValue] at h
  rw [show (0 : Int64).toInt = 0 from rfl] at hspan
  rw [toInt_after]
  unfold maxInt64 at h ⊢
  omega

variable {σ : Type}

/-! ## What the source is asked for -/

/-- Whom a request is about, as told by what its token is to be kept under. -/
inductive SpeaksFor (ownId : String) : Subject → Parts → Prop where
  | application (exclude : Option (OrderedSet String)) (target : String) :
      SpeaksFor ownId .application ⟨.app, ownId, exclude, none, target⟩
  | assertion {a : Assertion} {user : AssertedUser} (read : a.user = .ok user)
      (exclude : Option (OrderedSet String)) (target : String) :
      SpeaksFor ownId (.assertion a) ⟨.user, user.subject, exclude, none, target⟩
  | token (t : Token) (exclude : Option (OrderedSet String)) (target : String) :
      SpeaksFor ownId (.token t) ⟨t.kind, t.subject, exclude, some t.principal.requestChain, target⟩

namespace Client

variable [Clock σ] {c : Client σ} {f : Fetch} {s s' : Session σ} {es : List Entry}

/-- A fetch asks the source for what it will keep the token under. -/
theorem gives_prepare_request {r : Request} {p : Parts} (h : (c.prepare f).Gives s (r, p) es s') :
    SpeaksFor c.ownId r.subject p ∧ ∃ timestamp, r = Request.excluding
      { requester := c.ownId, timestamp, kind := p.kind, subject := r.subject, target := p.target }
      p.exclude := by
  unfold prepare at h
  split at h
  · obtain ⟨rfl, timestamp, rfl⟩ := gives_prepareFor_request h
    exact ⟨.application _ _, timestamp, rfl⟩
  · rw [Attempt.gives_bind] at h
    obtain ⟨user, _, _, _, huser, h, -⟩ := h
    obtain ⟨rfl, timestamp, rfl⟩ := gives_prepareFor_request h
    exact ⟨.assertion (gives_admitAssertion huser) _ _, timestamp, rfl⟩
  · obtain ⟨rfl, timestamp, rfl⟩ := gives_prepareFor_request h
    exact ⟨.token _ _ _, timestamp, rfl⟩

end Client

/-! ## What it makes of that -/

structure MadeFor (made : MockSource) (p : Parts) (t : Token) : Prop where
  kind : t.kind = p.kind
  subject : t.subject = p.subject
  chain : t.principal.requestChain = p.hops
  holder : t.holder = made.ownId
  issuedFor : t.validity.issuedFor = some p.target
  authorizations : t.authorizations =
    (Authorizations.ofFormal made.labels).without (p.exclude.getD .empty)

theorem MadeFor.congr {made : MockSource} {p q : Parts} {t : Token} (h : MadeFor made p t)
    (hsame : p.Same q) : MadeFor made q t := by
  obtain ⟨hkind, hsubject, hexclude, hchain, htarget⟩ := hsame
  exact {
    kind := h.kind.trans hkind
    subject := h.subject.trans hsubject
    chain := h.chain.trans hchain
    holder := h.holder
    issuedFor := by rw [h.issuedFor, htarget]
    authorizations := by rw [h.authorizations, hexclude] }

/-- No exclusions are as good as an empty set of them. -/
theorem Request.getD_exclude_excluding (r : Request) (exclude : Option (OrderedSet String)) :
    (r.excluding exclude).exclude.getD .empty = exclude.getD .empty := by
  cases exclude with
  | none => rfl
  | some labels =>
    by_cases hempty : labels.isEmpty = true
    · have hnone : labels = .empty := by
        cases labels with
        | mk list sorted =>
          obtain rfl : list = [] := List.isEmpty_iff.mp hempty
          rfl
      rw [Request.excluding, Option.filter_some, hempty, hnone]
      rfl
    · rw [Request.excluding, Option.filter_some, if_pos (by simpa using hempty)]

namespace MockSource

variable [Clock σ] {made : MockSource} {r : Request} {p : Parts} {s s' : Session σ} {es : List Entry}

theorem gives_principalOf {principal : Principal} (hspeaks : SpeaksFor r.requester r.subject p)
    (hkind : r.kind = p.kind)
    (h : (principalOf r : Attempt σ Principal).Gives s principal es s') :
    principal.subject = p.subject ∧ principal.requestChain = p.hops := by
  unfold principalOf at h
  generalize hsubject : r.subject = subject at h hspeaks
  cases hspeaks with
  | application exclude target =>
    rw [hkind] at h
    obtain ⟨_, _, _, h⟩ := h.last
    obtain ⟨_, _, _, h⟩ := h.last
    obtain ⟨rfl, -, -⟩ := Attempt.gives_pure.mp h
    exact ⟨rfl, rfl⟩
  | assertion read exclude target =>
    rw [Attempt.gives_bind] at h
    obtain ⟨user', _, _, _, huser, h, -⟩ := h
    obtain ⟨hread, -, -⟩ := Attempt.gives_ofExcept.mp huser
    cases read.symm.trans hread
    obtain ⟨_, _, _, h⟩ := h.last
    obtain ⟨rfl, -, -⟩ := Attempt.gives_pure.mp h
    exact ⟨rfl, rfl⟩
  | token t exclude target =>
    obtain ⟨rfl, -, -⟩ := Attempt.gives_pure.mp h
    exact ⟨rfl, rfl⟩

/-- Where a request says what its token is to be kept under, the token fits that, and lasts beyond an
instant that the clock has shown. -/
theorem madeFor_of_gives_acquire {t : Token} (hspeaks : SpeaksFor r.requester r.subject p)
    {timestamp : Millis} (hr : r = Request.excluding
      { requester := r.requester, timestamp, kind := p.kind, subject := r.subject, target := p.target }
      p.exclude)
    (h : (made.acquire r : Attempt σ Token).Gives s t es s') :
    MadeFor made p t ∧
      ∃ now, .reading now ∈ es ∧ t.validity.notAfter = Millis.after now tokenLifetime := by
  have hkind : r.kind = p.kind := by rw [hr]; rfl
  have htarget : r.target = p.target := by rw [hr]; rfl
  have hexclude : r.exclude.getD .empty = p.exclude.getD .empty := by
    rw [hr]
    exact Request.getD_exclude_excluding _ _
  obtain ⟨principal, _, _, issuedTime, now, hprincipal, hread, rfl⟩ := gives_acquire h
  obtain ⟨hsubject, hchain⟩ := gives_principalOf hspeaks hkind hprincipal
  refine ⟨⟨hkind, hsubject, hchain, rfl, congrArg some htarget, ?_⟩, now, hread, rfl⟩
  rw [hexclude]

end MockSource

/-! ## Fetches -/

/-- A token that a fetch for `p` gets, and the clock on the way: it was in the cache and had time left,
or it was made for `p` just now. -/
inductive GetsMade (made : MockSource) (p : Parts) (before : Cache) (es : List Entry) (t : Token) :
    Origin → Prop where
  | kept {now : Millis} (held : (p.key, t) ∈ before.entries) (shown : now ∈ readingsOf es)
      (intime : t.isValidAt now = true) : GetsMade made p before es t .kept
  | acquired {now : Millis} (fits : MadeFor made p t) (shown : now ∈ readingsOf es)
      (lasting : t.validity.notAfter = Millis.after now MockSource.tokenLifetime) :
      GetsMade made p before es t .acquired

theorem GetsMade.lasts {made : MockSource} {p : Parts} {before : Cache} {es : List Entry} {t : Token}
    {origin : Origin} (h : GetsMade made p before es t origin)
    (hclock : ∀ now ∈ readingsOf es, now < Int64.maxValue) :
    ∃ now ∈ readingsOf es, now < t.validity.notAfter := by
  cases h with
  | @kept now _ shown intime => exact ⟨now, shown, of_decide_eq_true intime⟩
  | @acquired now _ shown lasting =>
    refine ⟨now, shown, ?_⟩
    rw [lasting]
    exact Millis.lt_after (hclock now shown) (by decide)

namespace Client

variable [Clock σ] {c : Client σ} {f : Fetch} {s s' : Session σ} {es : List Entry} {t : Token}

theorem gives_performNoting {made : MockSource} (hsource : c.source = .mock made) {origin : Origin}
    (h : (c.performNoting f).Gives s (t, origin) es s') :
    ∃ p, c.parts f = some p ∧ GetsMade made p s.cache es t origin := by
  rw [performNoting, Attempt.gives_bind] at h
  obtain ⟨⟨r, p⟩, es₁, s₁, es₂, hprepare, hfetch, rfl⟩ := h
  refine ⟨p, gives_prepare hprepare, ?_⟩
  have hcache : s₁.cache = s.cache := (prepare_keeps Conduct.keepsCache_watches c f).gives hprepare
  rcases gives_fetchNoting hfetch with ⟨rfl, hheld, now, hread, hvalid⟩ | ⟨rfl, _, _, _, hacquire, hes⟩
  · rw [hcache] at hheld
    exact .kept hheld (mem_readingsOf.mpr (List.mem_append_right _ hread)) hvalid
  · have hrequester := requester_of_gives_prepare hprepare
    obtain ⟨hspeaks, timestamp, hr⟩ := gives_prepare_request hprepare
    rw [← hrequester] at hspeaks hr
    rw [hsource] at hacquire
    obtain ⟨hmade, now, hread, hnotAfter⟩ :=
      MockSource.madeFor_of_gives_acquire hspeaks hr hacquire
    exact .acquired hmade (mem_readingsOf.mpr (List.mem_append_right _ (hes hread))) hnotAfter

theorem gives_step {made : MockSource} (hsource : c.source = .mock made) {v : Visit}
    (ht : (c.step v s).done.value = .ok t) :
    ∃ p origin, c.asked v = some p ∧ (c.step v s).origin = some origin ∧
      GetsMade made p (c.step v s).start.cache (c.step v s).done.entries t origin := by
  obtain ⟨noted, hends, hvalue, horigin⟩ := step_ends c v s
  cases noted with
  | error e => cases hvalue.symm.trans ht
  | ok noted =>
    obtain ⟨u, origin⟩ := noted
    cases hvalue.symm.trans ht
    obtain ⟨p, hp, hgets⟩ := gives_performNoting (c := c.during v) hsource hends
    exact ⟨p, origin, hp, horigin, hgets⟩

/-! ## Runs -/

/-- All that a client that makes its tokens up has acquired fits what it was asked for. -/
theorem madeFor_of_mem_acquisitions {made : MockSource} (hsource : c.source = .mock made)
    {steps : List (Step σ)} (hsteps : ∀ x ∈ steps, ∃ v s, x = c.step v s) {p : Parts}
    (h : (p, t) ∈ c.acquisitions steps) : MadeFor made p t := by
  obtain ⟨x, hx, hasked, hvalue, horigin⟩ := mem_acquisitions h
  obtain ⟨v, s, rfl⟩ := hsteps x hx
  obtain ⟨q, origin, hq, hsome, hgets⟩ := gives_step hsource hvalue
  have hsame : c.asked v = some p := hasked
  cases hsame.symm.trans hq
  cases hsome.symm.trans horigin
  cases hgets with
  | acquired fits => exact fits

/-- So does all that it comes back with, as long as only its fetches touch the cache and no text in
them has marks. -/
theorem madeFor_of_mem_history {made : MockSource} (hsource : c.source = .mock made)
    {visits : List Visit} (hempty : s.cache.entries = []) (hcalm : ∀ v ∈ visits, v.meanwhile = id)
    (hplain : ∀ v ∈ visits, ∀ p, c.asked v = some p → p.Plain) {x : Step σ}
    (hx : x ∈ c.history visits s) (ht : x.done.value = .ok t) :
    ∃ p, c.asked x.visit = some p ∧ MadeFor made p t := by
  obtain ⟨earlier, later, hsplit⟩ := List.append_of_mem hx
  have hnothing : Coherent [] s.cache := fun e he => by simp [hempty] at he
  have hcoherent : Coherent (c.acquisitions earlier) x.start.cache :=
    history_coherent hcalm hnothing hsplit
  obtain ⟨v, hv, s', rfl⟩ := mem_history hx
  obtain ⟨p, origin, hp, -, hgets⟩ := gives_step hsource ht
  refine ⟨p, hp, ?_⟩
  cases hgets with
  | acquired fits => exact fits
  | kept held =>
    -- it was made for a fetch with this key, and so for one that asks for the same
    obtain ⟨q, hkey, hmem⟩ := (hcoherent _ held).mem
    have hearlier : ∀ y ∈ earlier, y ∈ c.history visits s := by
      intro y hy
      rw [hsplit]
      exact List.mem_append_left _ hy
    have hsteps : ∀ y ∈ earlier, ∃ w s'', y = c.step w s'' := by
      intro y hy
      obtain ⟨w, -, s'', rfl⟩ := mem_history (hearlier y hy)
      exact ⟨w, s'', rfl⟩
    obtain ⟨y, hy, hasked⟩ := asked_of_mem_acquisitions hmem
    have hplain_q : q.Plain := hplain _ (visit_of_mem_history (hearlier y hy)) _ hasked
    have hsame : q.Same p := Parts.same_of_key_eq hplain_q (hplain v hv p hp) hkey
    exact (madeFor_of_mem_acquisitions hsource hsteps hmem).congr hsame

theorem lasts_of_mem_history {made : MockSource} (hsource : c.source = .mock made)
    {visits : List Visit} {x : Step σ} (hx : x ∈ c.history visits s)
    (hclock : ∀ now ∈ readingsOf x.done.entries, now < Int64.maxValue) (ht : x.done.value = .ok t) :
    ∃ now ∈ readingsOf x.done.entries, now < t.validity.notAfter := by
  obtain ⟨v, -, s', rfl⟩ := mem_history hx
  obtain ⟨p, origin, -, -, hgets⟩ := gives_step hsource ht
  exact hgets.lasts hclock

end Client

/-! ## What a token says -/

namespace Wanted

def kind : Wanted → TokenKind
  | own => .app
  | user _ => .user
  | like existing => existing.kind

/-- The name that a token is to be for, unless it cannot be read. -/
def subject? (ownId : String) : Wanted → Option String
  | own => some ownId
  | user a => a.user.toOption.map (·.subject)
  | like existing => some existing.subject

def chain : Wanted → List String
  | own | user _ => []
  | like existing => existing.principal.requestChain

end Wanted

namespace Client

structure Answers (c : Client σ) (v : Visit) (t : Token) : Prop where
  kind : t.kind = v.fetch.wanted.kind
  subject : v.fetch.wanted.subject? c.ownId = some t.subject
  chain : t.principal.requestChain = v.fetch.wanted.chain
  holder : t.holder = c.ownId
  issuedFor : t.validity.issuedFor = some ((c.during v).resolve v.fetch.target)
  formal : ∀ label, label ∈ t.authorizations.formal ↔
    label ∈ c.settings.mockLabels ∧ label ∉ v.fetch.exclude.getD .empty
  community : t.authorizations.community = .empty
  platformObjects : t.authorizations.platformObjects = .empty

theorem parts_says {c : Client σ} {f : Fetch} {p : Parts} (h : c.parts f = some p) :
    p.kind = f.wanted.kind ∧ f.wanted.subject? c.ownId = some p.subject ∧ p.hops = f.wanted.chain ∧
      p.exclude = f.exclude ∧ p.target = c.resolve f.target := by
  unfold parts at h
  cases hwanted : f.wanted with
  | own =>
    rw [hwanted] at h
    cases h
    exact ⟨rfl, rfl, rfl, rfl, rfl⟩
  | user a =>
    rw [hwanted] at h
    obtain ⟨user, huser, rfl⟩ := Option.map_eq_some_iff.mp h
    exact ⟨rfl, congrArg (Option.map _) huser, rfl, rfl, rfl⟩
  | like existing =>
    rw [hwanted] at h
    cases h
    exact ⟨rfl, rfl, rfl, rfl, rfl⟩

theorem answers_of_madeFor {c : Client σ} {v : Visit} {p : Parts} {t : Token}
    (hp : c.asked v = some p) (h : MadeFor ⟨c.ownId, c.settings.mockLabels⟩ p t) : c.Answers v t := by
  obtain ⟨hkind, hsubject, hchain, hexclude, htarget⟩ := parts_says hp
  refine ⟨h.kind.trans hkind, ?_, h.chain.trans hchain, h.holder, ?_, ?_, ?_, ?_⟩
  · rw [h.subject]
    exact hsubject
  · rw [h.issuedFor, htarget]
  · intro label
    rw [h.authorizations, hexclude, Authorizations.without, Authorizations.ofFormal,
      OrderedSet.mem_filter, decide_eq_true_iff]
  · rw [h.authorizations]
    rfl
  · rw [h.authorizations]
    rfl

/-! ## Clients as they are set up -/

theorem Setup.gives_build_mock {setup : Setup σ} {c : Client σ} {s s' : Session σ} {es : List Entry}
    (hown : setup.source = none) (hmode : setup.settings.mode = .mock)
    (h : setup.build.Gives s c es s') : c.source = .mock ⟨c.ownId, c.settings.mockLabels⟩ := by
  obtain ⟨hsettings, -, app, _, _, _, -, hsource⟩ := gives_build hown h
  unfold Source.ofSettings at hsource
  simp only [hmode] at hsource
  obtain ⟨_, _, _, hsource⟩ := hsource.last
  rw [(Attempt.gives_pure.mp hsource).1, ownId, hsettings]

/-- A client set up to make its tokens up, and any fetches with a cache that nobody else touches: each
token that one of them comes back with says what was asked for, and it was good at an instant that the
clock has shown on the way. -/
theorem made_up_tokens_fit [Clock σ] {setup : Setup σ} {c : Client σ} {s₀ s₁ : Session σ}
    {es₀ : List Entry} (hown : setup.source = none) (hmode : setup.settings.mode = .mock)
    (hbuilt : setup.build.Gives s₀ c es₀ s₁) {visits : List Visit} {s : Session σ}
    (hempty : s.cache.entries = []) (hcalm : ∀ v ∈ visits, v.meanwhile = id)
    (hplain : ∀ v ∈ visits, ∀ p, c.asked v = some p → p.Plain)
    {x : Step σ} (hx : x ∈ c.history visits s)
    (hclock : ∀ now ∈ readingsOf x.done.entries, now < Int64.maxValue)
    {t : Token} (ht : x.done.value = .ok t) :
    c.Answers x.visit t ∧ ∃ now ∈ readingsOf x.done.entries, now < t.validity.notAfter := by
  have hsource := Setup.gives_build_mock hown hmode hbuilt
  obtain ⟨p, hp, hmade⟩ := madeFor_of_mem_history hsource hempty hcalm hplain hx ht
  exact ⟨answers_of_madeFor hp hmade, lasts_of_mem_history hsource hx hclock ht⟩

end Client

namespace Gateway

def mimic : Client.Setup Scene where
  settings := { ownId := "1234", mode := .mock, mockLabels := Text.labels "S,U" }

def mimicClient : Client Scene where
  settings := mimic.settings
  source := .mock ⟨"1234", Text.labels "S,U"⟩
  directory := mimic.directory
  issuerKey := none
  frontEndKey := none

def mimicVisit (wanted : Wanted) : Client.Visit where
  fetch := { wanted, target := "456", exclude := some (Text.labels "S") }
  directory := fun _ => none

/-- First a token for the gateway itself, then one like another token of it. -/
def mimicRound : List Client.Visit := [mimicVisit .own, mimicVisit (.like (pass .app "1234" "7" 9000 none))]

def mimicSteps : List (Client.Step Scene) := mimicClient.history mimicRound (session [] [])

theorem mimic_plain {v : Client.Visit} (hv : v ∈ mimicRound) {p : Parts}
    (hp : mimicClient.asked v = some p) : p.Plain := by
  obtain ⟨chain, hchain, rfl⟩ : ∃ chain : Option (List String), chain.getD [] = [] ∧
      p = ⟨.app, "1234", some (Text.labels "S"), chain, "456"⟩ := by
    simp only [mimicRound, List.mem_cons, List.not_mem_nil, or_false] at hv
    rcases hv with rfl | rfl
    · cases hp
      exact ⟨none, rfl, rfl⟩
    · cases hp
      exact ⟨some [], rfl, rfl⟩
  have hsubject : Cache.Key.partMark ∉ "1234".toList := by decide
  have hlabels : ∀ l ∈ (Text.labels "S").toList,
      Cache.Key.partMark ∉ l.toList ∧ Cache.Key.itemMark ∉ l.toList ∧ l ≠ "" := by decide +kernel
  refine ⟨hsubject, hlabels, ?_⟩
  intro hop hmem
  rw [Cache.Parts.hops, hchain] at hmem
  exact absurd hmem List.not_mem_nil

/-- The second fetch gets the token that was made for the first one, and it answers both. -/
theorem application_token_fits_both :
    mimicSteps.map (·.origin) = [some .acquired, some .kept] ∧
      ∀ x ∈ mimicSteps, ∃ t, x.done.value = .ok t ∧ mimicClient.Answers x.visit t ∧
        ∃ now ∈ readingsOf x.done.entries, now < t.validity.notAfter := by
  refine ⟨by decide +kernel, ?_⟩
  intro x hx
  have hruns : mimicSteps.all (fun x => x.done.value.toOption.isSome) = true := by decide +kernel
  have hreadings : mimicSteps.all (fun x =>
      (readingsOf x.done.entries).all fun now => decide (now < Int64.maxValue)) = true := by decide +kernel
  obtain ⟨t, ht⟩ : ∃ t, x.done.value = .ok t := by
    have hsome := List.all_eq_true.mp hruns x hx
    generalize x.done.value = value at hsome
    cases value with
    | error e => cases hsome
    | ok t => exact ⟨t, rfl⟩
  have hclock : ∀ now ∈ readingsOf x.done.entries, now < Int64.maxValue := by
    intro now hnow
    exact of_decide_eq_true (List.all_eq_true.mp (List.all_eq_true.mp hreadings x hx) now hnow)
  have hbuilt : mimic.build.Gives (session [] []) mimicClient
      [.event (.untrustedSource .mock), .event (.clientReady "1234" .mock)] (session [] []) := rfl
  have hcalm : ∀ v ∈ mimicRound, v.meanwhile = id := by simp [mimicRound, mimicVisit]
  exact ⟨t, ht, Client.made_up_tokens_fit rfl rfl hbuilt rfl hcalm (fun v hv p hp => mimic_plain hv hp)
    hx hclock ht⟩

end Gateway

end TokenTrust
