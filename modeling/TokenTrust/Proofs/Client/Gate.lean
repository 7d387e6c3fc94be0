/-
  TokenTrust.Proofs.Client.Gate — nobody gets a user's token without that user's assertion.

  `Client.LetsIn` says what an assertion has to show, and `Client.TurnsAway` why it is turned away,
  the first reason counting. Each of the ways to a user's token asks the gate before it turns to the
  cache or to the service, so one that is turned away leaves no trace in either:
  - `gated_admitAssertion`, `Gated.bind`: whatever follows an admission stands behind the gate.
  - `assertion_gates_user_tokens`: so do fetches for an assertion or for a request, and the
    admission of a request, which is malformed if its headers hold no assertion.
-/

import Mathlib.Control.Monad.Basic
import TokenTrust.Proofs.Acceptance.Verdict
import TokenTrust.Proofs.Client.Built
import TokenTrust.Proofs.Client.Visits

namespace TokenTrust

variable {σ α β : Type}

/-- The attempt comes to nothing: it fails, no call is made, and the cache stays as it is. -/
def Attempt.Refuses (x : Attempt σ α) (s : Session σ) (e : TrustError) : Prop :=
  ∃ es s', x.Fails s e es s' ∧ callsOf es = [] ∧ s'.cache = s.cache

theorem Attempt.Refuses.bind {x : Attempt σ α} {s : Session σ} {e : TrustError} (h : x.Refuses s e)
    (f : α → Attempt σ β) : (x >>= f).Refuses s e := by
  obtain ⟨es, s', hfails, hcalls, hcache⟩ := h
  exact ⟨es, s', Attempt.fails_bind.mpr (.inr hfails), hcalls, hcache⟩

namespace Client

/-! ## The gate -/

/-- An assertion that is let in: the front end has signed exactly its bytes, they speak of the user,
and the user's time has not run out. -/
structure LetsIn (c : Client σ) (a : Assertion) (now : Millis) (user : AssertedUser) : Prop where
  signed : ∃ k, c.frontEndKey = some k ∧ k.accepts (Text.bytes a.text) a.signature = true
  read : AssertedUser.codec.parse a.text = .ok user
  intime : now < user.notAfter

inductive TurnsAway (c : Client σ) (a : Assertion) (now : Millis) : TrustError → Prop where
  | keyless (unset : c.frontEndKey = none) : TurnsAway c a now
      (.configuration "verifying proxy principals needs the front-end public key")
  | forged {k : KeyPair} (key : c.frontEndKey = some k)
      (unsigned : k.accepts (Text.bytes a.text) a.signature = false) :
      TurnsAway c a now (.signatureInvalid "proxy principal" "front end")
  | unreadable {k : KeyPair} {fault : String} (key : c.frontEndKey = some k)
      (signed : k.accepts (Text.bytes a.text) a.signature = true)
      (read : AssertedUser.codec.parse a.text = .error fault) :
      TurnsAway c a now (.malformed "proxy user token" fault)
  | ended {k : KeyPair} {user : AssertedUser} (key : c.frontEndKey = some k)
      (signed : k.accepts (Text.bytes a.text) a.signature = true)
      (read : AssertedUser.codec.parse a.text = .ok user) (late : user.notAfter ≤ now) :
      TurnsAway c a now (.expired user.subject user.notAfter)

section Gate

variable {c : Client σ} {a : Assertion} {now : Millis}

theorem letsIn_or_turnsAway (c : Client σ) (a : Assertion) (now : Millis) :
    (∃ user, c.LetsIn a now user) ∨ ∃ e, c.TurnsAway a now e := by
  cases key : c.frontEndKey with
  | none => exact .inr ⟨_, .keyless key⟩
  | some k =>
    cases signed : k.accepts (Text.bytes a.text) a.signature with
    | false => exact .inr ⟨_, .forged key signed⟩
    | true =>
      cases read : AssertedUser.codec.parse a.text with
      | error fault => exact .inr ⟨_, .unreadable key signed read⟩
      | ok user =>
        by_cases late : user.notAfter ≤ now
        · exact .inr ⟨_, .ended key signed read late⟩
        · exact .inl ⟨user, ⟨k, key, signed⟩, read, Int64.not_le.mp late⟩

theorem LetsIn.not_turnsAway {user : AssertedUser} {e : TrustError} (h : c.LetsIn a now user) :
    ¬c.TurnsAway a now e := by
  obtain ⟨k, key, signed⟩ := h.signed
  intro hturned
  cases hturned with
  | keyless unset => simp [unset] at key
  | forged key' unsigned =>
    cases key.symm.trans key'
    simp [signed] at unsigned
  | unreadable _ _ read => simp [h.read] at read
  | ended _ _ read late =>
    cases h.read.symm.trans read
    exact absurd h.intime (Int64.not_lt.mpr late)

/-- Only one reason counts. -/
theorem TurnsAway.unique {e e' : TrustError} (h : c.TurnsAway a now e) (h' : c.TurnsAway a now e') :
    e = e' := by
  cases h <;> cases h' <;> simp_all

end Gate

/-! ## Behind the gate -/

/-- The attempt succeeds only if the assertion is let in at an instant that was looked at, and comes
to nothing if it is turned away then. -/
structure Gated (c : Client σ) (x : Attempt σ α) (s : Session σ) (a : Assertion) (now : Millis) :
    Prop where
  passed : ∀ v es s', x.Gives s v es s' → .reading now ∈ es ∧ ∃ user, c.LetsIn a now user
  refused : ∀ e, c.TurnsAway a now e → x.Refuses s e

section Gated

variable {c : Client σ} {s s' : Session σ} {es : List Entry} {a : Assertion} {now : Millis}

/-- What follows the gate stands behind it. -/
theorem Gated.bind {x : Attempt σ α} (h : c.Gated x s a now) (f : α → Attempt σ β) :
    c.Gated (x >>= f) s a now where
  passed := by
    intro v es s' hgives
    obtain ⟨u, es₁, s₁, es₂, hx, -, rfl⟩ := Attempt.gives_bind.mp hgives
    obtain ⟨hreading, hlet⟩ := h.passed u es₁ s₁ hx
    exact ⟨List.mem_append_left _ hreading, hlet⟩
  refused e he := (h.refused e he).bind f

/-- Finding the assertion first does not move the gate. -/
theorem Gated.after {x : Attempt σ α} {f : α → Attempt σ β} {v : α} (hx : x.Gives s v es s)
    (hcalls : callsOf es = []) (h : c.Gated (f v) s a now) : c.Gated (x >>= f) s a now where
  passed := by
    intro w es' s' hgives
    obtain ⟨u, es₁, s₁, es₂, hx', hf, rfl⟩ := Attempt.gives_bind.mp hgives
    obtain ⟨hu, rfl, rfl⟩ := Run.Ends.unique hx hx'
    cases hu
    obtain ⟨hreading, hlet⟩ := h.passed w es₂ s' hf
    exact ⟨List.mem_append_right _ hreading, hlet⟩
  refused := by
    intro e he
    obtain ⟨es', s', hfails, hcalls', hcache⟩ := h.refused e he
    refine ⟨es ++ es', s', Attempt.fails_bind.mpr (.inl ⟨v, es, s, es', hx, hfails, rfl⟩), ?_, hcache⟩
    rw [callsOf_append, hcalls, hcalls']
    rfl

variable [Clock σ]

theorem admitAssertion_eq (hmock : c.settings.useMock = false) (a : Assertion) :
    c.admitAssertion a = (do
      let frontEnd ← Attempt.require c.frontEndKey
        "verifying proxy principals needs the front-end public key"
      a.accept frontEnd.verifier) := by
  unfold admitAssertion
  rw [hmock, if_neg Bool.false_ne_true]

theorem admitAssertion_mock_eq (hmock : c.settings.useMock = true) {user : AssertedUser}
    (hread : a.user = .ok user) : c.admitAssertion a = (do
      Attempt.log .assertionUnchecked
      return user) := by
  unfold admitAssertion
  rw [hmock, if_pos rfl, hread]
  rfl

/-- The gate itself: an assertion is let in or turned away at the first instant that is read. -/
theorem ends_admitAssertion {r : Except TrustError AssertedUser}
    (hmock : c.settings.useMock = false)
    (h : (ExceptT.run (c.admitAssertion a)).Ends s r es s') :
    (∃ user, r = .ok user ∧ .reading s.instant ∈ es ∧ c.LetsIn a s.instant user) ∨
      ∃ e, r = .error e ∧ c.TurnsAway a s.instant e := by
  rw [admitAssertion_eq hmock, Attempt.ends_bind] at h
  rcases h with ⟨k, _, _, es₂, hkey, h, rfl⟩ | ⟨e, rfl, hkey⟩
  · obtain ⟨key, rfl, rfl⟩ := Attempt.gives_require.mp hkey
    cases Assertion.ends_accept h with
    | forged checked => exact .inr ⟨_, rfl, .forged key (KeyPair.ends_verifier checked).symm⟩
    | unreadable checked read =>
      obtain ⟨fault, hfault, rfl⟩ := Assertion.user_eq_error_iff.mp read
      exact .inr ⟨_, rfl, .unreadable key (KeyPair.ends_verifier checked).symm hfault⟩
    | ended checked read looked late =>
      obtain ⟨-, rfl⟩ := KeyPair.verifier_still checked
      obtain ⟨rfl, -, -⟩ := Run.ends_now.mp looked
      have signed := (KeyPair.ends_verifier checked).symm
      exact .inr ⟨_, rfl, .ended key signed (Assertion.user_eq_ok_iff.mp read) late⟩
    | sound checked read looked intime =>
      obtain ⟨-, rfl⟩ := KeyPair.verifier_still checked
      obtain ⟨rfl, rfl, -⟩ := Run.ends_now.mp looked
      have signed := (KeyPair.ends_verifier checked).symm
      refine .inl ⟨_, rfl, by simp [Session.instant], ⟨k, key, signed⟩, ?_, intime⟩
      exact Assertion.user_eq_ok_iff.mp read
  · obtain ⟨unset, rfl, -, -⟩ := Attempt.fails_require.mp hkey
    exact .inr ⟨_, rfl, .keyless unset⟩

theorem gated_admitAssertion (hmock : c.settings.useMock = false) (a : Assertion) (s : Session σ) :
    c.Gated (c.admitAssertion a) s a s.instant where
  passed := by
    intro user es s' hgives
    rcases ends_admitAssertion hmock hgives with ⟨user, -, hreading, hlet⟩ | ⟨e, herror, -⟩
    · exact ⟨hreading, user, hlet⟩
    · cases herror
  refused := by
    intro e he
    have hends := Run.ends_run (ExceptT.run (c.admitAssertion a)) s
    obtain ⟨hcalls, hcache⟩ := (admitAssertion_keeps Conduct.looksOn_watches c a).ends hends
    rcases ends_admitAssertion hmock hends with ⟨user, -, -, hlet⟩ | ⟨e', herror, he'⟩
    · exact absurd he hlet.not_turnsAway
    · rw [herror, ← he.unique he'] at hends
      exact ⟨_, _, hends, hcalls, hcache⟩

end Gated

end Client

/-! ## The assertion of a request -/

def Headers.usable (h : Headers) : Option Assertion :=
  match (h.value? assertionName).filter (· ≠ "") with
  | none => none
  | some text => (h.value? signatureName).map fun signature => ⟨text, signature⟩

section Requests

variable {s s' : Session σ} {es : List Entry}

theorem Headers.ends_lookup {h : Headers} {name : String} {found : Option String}
    (hlook : (h.lookup name).Ends s found es s') :
    found = h.value? name ∧ callsOf es = [] ∧ s' = s := by
  rw [lookup, Run.ends_bind] at hlook
  obtain ⟨_, _, _, _, hlog, hpure, rfl⟩ := hlook
  obtain ⟨rfl, rfl⟩ := Run.ends_log.mp hlog
  obtain ⟨rfl, rfl, rfl⟩ := Run.ends_pure.mp hpure
  exact ⟨rfl, rfl, rfl⟩

theorem Headers.ends_assertion {h : Headers} {found : Option Assertion}
    (hfound : h.assertion.Ends s found es s') : found = h.usable ∧ callsOf es = [] ∧ s' = s := by
  rw [assertion, Run.ends_bind] at hfound
  obtain ⟨text, es₁, s₁, es₂, htext, hfound, rfl⟩ := hfound
  obtain ⟨rfl, hcalls, rfl⟩ := ends_lookup htext
  unfold usable
  cases hvalue : (h.value? assertionName).filter (· ≠ "") with
  | none =>
    rw [hvalue] at hfound
    obtain ⟨rfl, rfl, rfl⟩ := Run.ends_pure.mp hfound
    exact ⟨rfl, by simpa using hcalls, rfl⟩
  | some text =>
    rw [hvalue] at hfound
    obtain ⟨signature, es₃, s₃, es₄, hsignature, hpure, rfl⟩ := Run.ends_bind.mp hfound
    obtain ⟨rfl, hcalls', rfl⟩ := ends_lookup hsignature
    obtain ⟨rfl, rfl, rfl⟩ := Run.ends_pure.mp hpure
    exact ⟨rfl, by simp [hcalls, hcalls'], rfl⟩

namespace Client

variable [Clock σ] {c : Client σ} {h : Headers}

theorem gives_assertionOf {a : Assertion} (hfound : h.usable = some a) (s : Session σ) :
    ∃ es, (c.assertionOf h).Gives s a es s ∧ callsOf es = [] := by
  have hends := Run.ends_run h.assertion s
  obtain ⟨hvalue, hcalls, hsession⟩ := Headers.ends_assertion hends
  rw [hvalue, hfound, hsession] at hends
  refine ⟨_, ?_, hcalls⟩
  rw [assertionOf, Attempt.gives_bind]
  exact ⟨some a, _, s, [], Attempt.gives_lift.mpr hends, by simp, (List.append_nil _).symm⟩

theorem refuses_assertionOf (hmock : c.settings.useMock = false) (hnone : h.usable = none)
    (s : Session σ) : (c.assertionOf h).Refuses s
      (.malformed "request headers" "no proxied user assertion present") := by
  have hends := Run.ends_run h.assertion s
  obtain ⟨hvalue, hcalls, hsession⟩ := Headers.ends_assertion hends
  rw [hvalue, hnone, hsession] at hends
  refine ⟨_, s, ?_, hcalls, rfl⟩
  rw [assertionOf, Attempt.fails_bind]
  exact .inl ⟨none, _, s, [], Attempt.gives_lift.mpr hends, by simp [hmock], (List.append_nil _).symm⟩

/-- Without mock mode, no token for a user is fetched and no request admitted unless the front end's
assertion is let in, whatever the cache holds; and what is turned away reaches neither the service
nor the cache. -/
theorem assertion_gates_user_tokens (hmock : c.settings.useMock = false) (s : Session σ) :
    (∀ a target exclude policy,
      c.Gated (c.fetchAsserted a target exclude policy) s a s.instant) ∧
    (∀ h a, Headers.usable h = some a →
      (∀ target exclude, c.Gated (c.fetchForRequest h target exclude) s a s.instant) ∧
      c.Gated (c.admitRequest h) s a s.instant) ∧
    (∀ h, Headers.usable h = none →
      let malformed := TrustError.malformed "request headers" "no proxied user assertion present"
      (∀ target exclude, (c.fetchForRequest h target exclude).Refuses s malformed) ∧
      (c.admitRequest h).Refuses s malformed) ∧
    ∀ a, (∃ user, c.LetsIn a s.instant user) ∨ ∃ e, c.TurnsAway a s.instant e := by
  have hasserted : ∀ a target exclude policy,
      c.Gated (c.fetchAsserted a target exclude policy) s a s.instant :=
    fun a _ _ _ => (gated_admitAssertion hmock a s).bind _
  refine ⟨hasserted, fun h a hfound => ?_, fun h hnone => ?_, fun a => letsIn_or_turnsAway c a _⟩
  · obtain ⟨es, hgives, hcalls⟩ := gives_assertionOf (c := c) hfound s
    refine ⟨fun target exclude => ?_, ?_⟩
    · exact Gated.after hgives hcalls (hasserted a target exclude .use)
    · exact Gated.after hgives hcalls ((gated_admitAssertion hmock a s).bind _)
  · have hrefuses := refuses_assertionOf hmock hnone s
    exact ⟨fun _ _ => hrefuses.bind _, hrefuses.bind _⟩

end Client

end Requests

namespace Gateway

def frontEndKey : KeyPair := .verifying <|
  ((Text.Base64.decode "1AS8RFZa7buJkVDlsLOzK5RBvwy3iEwzEw2o28J90s8=").toOption.bind
    Crypto.Ed25519.PublicKey.ofBytes?).getD ⟨[], .zero⟩

def desk : Client Scene := { client with frontEndKey := some frontEndKey }

def alice : AssertedUser where
  certificate := { subject := "alice" }
  issuedBy := "02"
  issuedTo := "1234"
  notAfter := 5000

def asserted : Assertion := ⟨AssertedUser.codec.render alice,
  "bSfmU2heb0qgr+whx/DL+7hvUb+E9g8NdpWEs2qkkZbUNW4xcHIK8SmlXebuY3WUQyVQAbd0497eQJZGuz77DA=="⟩

def posed : Assertion := { asserted with
  signature := "rw7TTk4+6HYHiVbeOVJ4VrdqUTlIROHNXT+VxMYnz7/Gjl/DmRNxdQOAX9bz3EVuf6GDOq63GtuzAgIkPQOHAw==" }

def alicesPass : Token := pass .user "alice" "456" 9000
  "bx2pdUXces9U+VY5cs+FcL5geyEzBAH3B/Pfd5ZdUGKwPTusgeRgBJ/5UvdzA3xEbfFV/3PVBtJUu9/iaZKgBw=="

/-- Alice's token is in the cache already. -/
def served : Session Scene := session [] [(.of .user "alice" none none "456", alicesPass)]

theorem desk_refuses_posed :
    ((ExceptT.run (desk.fetchAsserted asserted "456" none .use)).run served).value = .ok alicesPass ∧
      (∃ user, desk.LetsIn asserted 1000 user) ∧
      (desk.fetchAsserted posed "456" none .use).Refuses served
        (.signatureInvalid "proxy principal" "front end") := by
  obtain ⟨hgate, -⟩ := Client.assertion_gates_user_tokens (c := desk) rfl served
  have hvalue : ((ExceptT.run (desk.fetchAsserted asserted "456" none .use)).run served).value =
      .ok alicesPass := by decide +kernel
  have hends := Run.ends_run (ExceptT.run (desk.fetchAsserted asserted "456" none .use)) served
  rw [hvalue] at hends
  have hunsigned : frontEndKey.accepts (Text.bytes posed.text) posed.signature = false := by
    decide +kernel
  refine ⟨hvalue, ((hgate asserted "456" none .use).passed _ _ _ hends).2, ?_⟩
  exact (hgate posed "456" none .use).refused _ (.forged rfl hunsigned)

end Gateway

end TokenTrust
