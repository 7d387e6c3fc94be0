/-
  TokenTrust.Proofs.Client.Delivery — what a client in production obtains, its recipient accepts.

  The sender's source checks the signature of a token and then its end; the recipient checks whom it
  is for, its end, the signature, and the first two again. Both check the same canonical text, and
  under the same key as long as they trust the same one, so before its end a token that was once
  obtained passes, whoever it was obtained by and however it travelled.
  - `Obtains.signed`: there is the issuer's signature on whatever is obtained.
  - `ends_admitToken`, `ends_admitRepeatedly`: a token with that signature is admitted before its
    end, once and again, and nobody is asked.
  - `obtained_is_admitted`: so it is by its recipient, also after it has travelled as text.
-/

import TokenTrust.Proofs.Client.Renewal
import TokenTrust.Proofs.Client.Trust
import TokenTrust.Proofs.Token.Written

namespace TokenTrust

/-! ## Keys -/

/-- Signatures are checked under the public key alone. -/
theorem KeyPair.accepts_congr {k l : KeyPair} (h : k.publicKey? = l.publicKey?) (bytes : List UInt8)
    (signature : String) : k.accepts bytes signature = l.accepts bytes signature := by
  unfold accepts check
  rw [h]

theorem Token.isSignedBy_congr {k l : KeyPair} (h : k.publicKey? = l.publicKey?) (t : Token) :
    t.isSignedBy k = t.isSignedBy l := by
  unfold isSignedBy
  cases t.validity.signature with
  | some signature => exact KeyPair.accepts_congr h _ signature
  | none => rfl

/-- There is no signature under a pair without a public key. -/
theorem Token.publicKey_of_isSignedBy {k : KeyPair} {t : Token} (h : t.isSignedBy k = true) :
    ∃ key, k.publicKey? = some key := by
  cases hkey : k.publicKey? with
  | some key => exact ⟨key, rfl⟩
  | none =>
    unfold isSignedBy at h
    split at h
    · simp [KeyPair.accepts, KeyPair.check, hkey, Except.toOption] at h
    · cases h

namespace Client

variable {σ : Type}

def trusts (c : Client σ) : Option Crypto.Ed25519.PublicKey := c.issuerKey.bind (·.publicKey?)

variable [Clock σ] {c : Client σ} {t : Token} {s s' : Session σ} {es : List Entry}

/-! ## Obtaining -/

inductive Obtains (c : Client σ) (t : Token) : Prop where
  | fetched {v : Visit} {s : Session σ} (gave : (c.step v s).done.value = .ok t)
  | fetchedFor {h : Headers} {target : String} {exclude : Option (OrderedSet String)}
      {s s' : Session σ} {es : List Entry}
      (gave : (c.fetchForRequest h target exclude).Gives s t es s')
  /-- It takes the place of a presented one. -/
  | renewed {old : Token} {s s' : Session σ} {es : List Entry}
      (left : (c.admitToken old).Ends s (.ok (), t) es s') (asked : renewalsOf es ≠ [])

theorem Obtains.signed {channel : Channel σ} {app issuer : KeyPair} (hissuer : c.issuerKey = some issuer)
    (hsource : c.source = .production channel app issuer) (h : c.Obtains t) :
    t.isSignedBy issuer = true := by
  cases h with
  | @fetched v s gave => exact ((step_vouched hsource v s).1 t gave).signed
  | @fetchedFor h target exclude s s' es gave =>
    obtain ⟨a, s₁, es₂, gave⟩ := gave.last
    let v : Visit := { fetch := { wanted := .user a, target, exclude }, directory := c.directory }
    have hgave : (c.step v s₁).done.value = .ok t := congrArg Outcome.value gave
    exact ((step_vouched hsource v s₁).1 t hgave).signed
  | @renewed old s s' es left asked =>
    cases hmock : c.settings.useMock with
    | true =>
      unfold admitToken at left
      rw [hmock, if_pos rfl, Run.ends_bind] at left
      obtain ⟨_, _, _, _, hlog, hpure, rfl⟩ := left
      obtain ⟨rfl, rfl⟩ := Run.ends_log.mp hlog
      obtain ⟨-, rfl, -⟩ := Run.ends_pure.mp hpure
      exact absurd rfl asked
    | false => exact (admitToken_production hmock hissuer hsource left).2.1.signed

/-! ## Admitting -/

section Admitting

variable {issuer : KeyPair}

/-- A signed token that is meant for the client passes its check before its end. -/
theorem gives_checkPresented (hissuer : c.issuerKey = some issuer) (ours : t.recipient = some c.ownId)
    (signed : t.isSignedBy issuer = true) {r : Except TrustError Unit}
    (h : (ExceptT.run (c.checkPresented t)).Ends s r es s')
    (intime : ∀ now ∈ readingsOf es, t.isValidAt now = true) : r = .ok () := by
  rw [checkPresented_eq hissuer] at h
  exact Token.judged_sound (Token.ends_accept h) ours signed intime

theorem ends_admitToken (hmock : c.settings.useMock = false) (hissuer : c.issuerKey = some issuer)
    (ours : t.recipient = some c.ownId) (signed : t.isSignedBy issuer = true)
    {answer : Except TrustError Unit × Token} (h : (c.admitToken t).Ends s answer es s')
    (intime : ∀ now ∈ readingsOf es, t.isValidAt now = true) :
    answer = (.ok (), t) ∧ callsOf es = [] := by
  rw [admitToken_eq, Run.ends_map] at h
  obtain ⟨⟨answer, notes⟩, h, rfl⟩ := h
  cases admitNoting_cases hmock h with
  | sound checked =>
    exact ⟨rfl, (checkPresented_keeps Conduct.callsNothing_watches c t).gives checked⟩
  | refused checked =>
    cases gives_checkPresented hissuer ours signed checked intime
  | renewed checked =>
    cases gives_checkPresented hissuer ours signed checked fun now hnow => intime now (by simp [hnow])
  | stuck checked =>
    cases gives_checkPresented hissuer ours signed checked fun now hnow => intime now (by simp [hnow])

/-- Admits a token, and what it is left with, over and over. -/
def admitRepeatedly (c : Client σ) (t : Token) : Nat → Run σ (Except TrustError Unit × Token)
  | 0 => return (.ok (), t)
  | n + 1 => do
    let (_, u) ← c.admitRepeatedly t n
    c.admitToken u

theorem ends_admitRepeatedly (hmock : c.settings.useMock = false) (hissuer : c.issuerKey = some issuer)
    (ours : t.recipient = some c.ownId) (signed : t.isSignedBy issuer = true) (times : Nat)
    {answer : Except TrustError Unit × Token} (h : (c.admitRepeatedly t times).Ends s answer es s')
    (intime : ∀ now ∈ readingsOf es, t.isValidAt now = true) :
    answer = (.ok (), t) ∧ callsOf es = [] := by
  -- each time it is the same token that is left to be admitted
  induction times generalizing answer es s' with
  | zero =>
    obtain ⟨rfl, rfl, -⟩ := Run.ends_pure.mp h
    exact ⟨rfl, rfl⟩
  | succ times ih =>
    rw [admitRepeatedly, Run.ends_bind] at h
    obtain ⟨earlier, es₁, s₁, es₂, hearlier, h, rfl⟩ := h
    obtain ⟨rfl, hcalls⟩ := ih hearlier fun now hnow => intime now (by simp [hnow])
    obtain ⟨rfl, hcalls'⟩ := ends_admitToken hmock hissuer ours signed h
      fun now hnow => intime now (by simp [hnow])
    exact ⟨rfl, by rw [callsOf_append, hcalls, hcalls']; rfl⟩

end Admitting

/-- A token that a client in production has obtained is admitted by its recipient, if that one trusts
the same key and looks at the clock before the token's end: as it is, after it has travelled as text
so many times, and over and over. Nobody is asked for another one. -/
theorem obtained_is_admitted {setup : Setup σ} (hbuilt : setup.build.Gives s c es s')
    (hown : setup.source = none) (hmode : c.source.mode = .production) (hobtained : c.Obtains t)
    {τ : Type} [Clock τ] {b : Client τ} (hmock : b.settings.useMock = false)
    (hkey : b.trusts = c.trusts) (ours : t.recipient = some b.ownId) (hops : Nat) :
    ∃ arrived, Token.codec.relayed t hops = .ok arrived ∧ arrived = t ∧
      (∀ start, let x := (b.admitToken arrived).run start
        (∀ now ∈ readingsOf x.entries, now < t.validity.notAfter) →
          x.value = (.ok (), t) ∧ callsOf x.entries = []) ∧
      ∀ times start, let x := (b.admitRepeatedly arrived times).run start
        (∀ now ∈ readingsOf x.entries, now < t.validity.notAfter) →
          x.value = (.ok (), t) ∧ callsOf x.entries = [] := by
  obtain ⟨-, channel, app, issuer, hissuer, hsource⟩ := Setup.gives_build_production hown hbuilt hmode
  have hsigned := hobtained.signed hissuer hsource
  obtain ⟨key, hpublic⟩ := Token.publicKey_of_isSignedBy hsigned
  obtain ⟨trusted, htrusted, hsame⟩ :
      ∃ trusted, b.issuerKey = some trusted ∧ trusted.publicKey? = some key := by
    rw [trusts, trusts, hissuer, Option.bind_some, hpublic] at hkey
    exact Option.bind_eq_some_iff.mp hkey
  have hsigned' : t.isSignedBy trusted = true := by
    rw [Token.isSignedBy_congr (hsame.trans hpublic.symm), hsigned]
  refine ⟨t, Json.Codec.relayed_eq Token.codec_lawful t hops, rfl, ?_, ?_⟩
  · intro start x hintime
    exact ends_admitToken hmock htrusted ours hsigned' (Run.ends_run _ start)
      fun now hnow => decide_eq_true (hintime now hnow)
  · intro times start x hintime
    exact ends_admitRepeatedly hmock htrusted ours hsigned' times (Run.ends_run _ start)
      fun now hnow => decide_eq_true (hintime now hnow)

end Client

namespace Gateway

def addressee : Client Scene := { client with settings := { ownId := "456" } }

/-- It is given the token twice. -/
theorem addressee_admits_good :
    (client.step errand (session [good] [])).done.value = .ok good ∧
    ((addressee.admitRepeatedly good 2).run (session [] [])).value = (.ok (), good) ∧
    Json.Codec.relayed Token.codec good 3 = .ok good := by
  have hfetched : (client.step errand (session [good] [])).done.value = .ok good := by decide +kernel
  have hours : good.recipient = some addressee.ownId := by decide +kernel
  obtain ⟨arrived, harrived, rfl, -, hagain⟩ :=
    Client.obtained_is_admitted (built (session [] [])) rfl rfl (.fetched hfetched)
      (b := addressee) rfl rfl hours 3
  have hreadings : readingsOf ((addressee.admitRepeatedly good 2).run (session [] [])).entries =
      List.replicate 4 1000 := by decide +kernel
  have hintime : ∀ now ∈ readingsOf ((addressee.admitRepeatedly good 2).run (session [] [])).entries,
      now < good.validity.notAfter := by
    intro now hnow
    rw [hreadings] at hnow
    rw [List.eq_of_mem_replicate hnow]
    decide
  exact ⟨hfetched, (hagain 2 (session [] []) hintime).1, harrived⟩

end Gateway

end TokenTrust
