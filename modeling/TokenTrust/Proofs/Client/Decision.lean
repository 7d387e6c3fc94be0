/-
  TokenTrust.Proofs.Client.Decision — accepting a token, decided by its recipient, by what a verifier
  says of its signature, and by the instants before and after.

  The verifier is any run: it may move the clock, and the cache, while it works.
  - `Token.value_accept`: how accepting ends, as a table of five rows.
  - `Token.asked_of_judged`: a verifier that notes what it is asked is asked at most once, and only
    about a token for the client that had time left at the first instant.
  - `Token.judged_still`, `Source.ends_isValid_still`: at one instant, a token is accepted exactly if
    it is for the client and may be used from the cache.
  - `Token.accept_decides`: all of this of any token, client and verifier.
-/

import TokenTrust.Proofs.Client.Lasting

namespace TokenTrust

variable {σ α β : Type}

/-! ## The table -/

namespace Token

/-- How accepting a token ends, by the instants before and after its signature is checked. The first
row that applies counts. -/
def decision (t : Token) (ownId : String) (before : Millis) (signed : Bool) (after : Millis) :
    Except TrustError Unit :=
  if t.recipient ≠ some ownId then .error (.recipientMismatch ownId t.recipient)
  else if t.validity.notAfter ≤ before then .error (.expired t.subject t.validity.notAfter)
  else if signed = false then .error (.signatureInvalid t.subject "issuer")
  else if t.validity.notAfter ≤ after then .error (.expired t.subject t.validity.notAfter)
  else .ok ()

/-- What a verifier says of the signature, and the session it leaves. It does not get to see a token
without a signature. -/
def examined (t : Token) (check : Verifier σ) (s : Session σ) : Bool × Session σ :=
  match t.validity.signature with
  | some signature =>
    let done := (check t.signedBytes signature).run s
    (done.value, done.session)
  | none => (false, s)

variable {t : Token} {ownId : String} {check : Verifier σ} {s s' : Session σ} {es : List Entry}

theorem examined_of_ends_verify {b : Bool} (h : (t.verify check).Ends s b es s') :
    t.examined check s = (b, s') := by
  unfold verify at h
  unfold examined
  cases hsignature : t.validity.signature with
  | some signature =>
    rw [hsignature] at h
    show (((check t.signedBytes signature).run s).value, _) = _
    rw [show (check t.signedBytes signature).run s = _ from h]
  | none =>
    rw [hsignature] at h
    simp only [Run.ends_bind, Run.ends_log, Run.ends_pure] at h
    obtain ⟨_, _, _, _, ⟨-, rfl⟩, ⟨rfl, -, rfl⟩, -⟩ := h
    rfl

theorem isValidAt_eq_false_iff {now : Millis} : t.isValidAt now = false ↔ t.validity.notAfter ≤ now := by
  rw [isValidAt, Validity.isValidAt, decide_eq_false_iff_not, Int64.not_lt]

theorem not_le_of_isValidAt {now : Millis} (h : t.isValidAt now = true) : ¬ t.validity.notAfter ≤ now := by
  rw [← isValidAt_eq_false_iff, h]
  exact Bool.noConfusion

variable [Clock σ]

/-- Each way in which accepting can end is the row that its conditions lead to. -/
theorem decision_of_judged {r : Except TrustError Unit} (h : t.Judged ownId check s r es s') :
    let checked := t.examined check { s with world := (Clock.read s.world).2 }
    r = t.decision ownId (Clock.read s.world).1 checked.1 (Clock.read checked.2.world).1 := by
  intro checked
  unfold decision
  cases h with
  | misdirected elsewhere => rw [if_pos elsewhere]
  | ended ours looked late =>
    obtain ⟨rfl, -, -⟩ := Run.ends_now.mp looked
    rw [if_neg (not_not_intro ours), if_pos (isValidAt_eq_false_iff.mp late)]
  | forged ours looked intime verified =>
    obtain ⟨rfl, -, rfl⟩ := Run.ends_now.mp looked
    have hchecked : checked = (false, s') := examined_of_ends_verify verified
    rw [if_neg (not_not_intro ours), if_neg (not_le_of_isValidAt intime), hchecked, if_pos rfl]
  | endedMeanwhile ours looked intime verified relooked late =>
    obtain ⟨rfl, -, rfl⟩ := Run.ends_now.mp looked
    obtain ⟨rfl, -, -⟩ := Run.ends_now.mp relooked
    rw [if_neg (not_not_intro ours), if_neg (not_le_of_isValidAt intime),
      show checked = _ from examined_of_ends_verify verified, if_neg Bool.noConfusion,
      if_pos (isValidAt_eq_false_iff.mp late)]
  | sound ours looked intime verified relooked still =>
    obtain ⟨rfl, -, rfl⟩ := Run.ends_now.mp looked
    obtain ⟨rfl, -, -⟩ := Run.ends_now.mp relooked
    rw [if_neg (not_not_intro ours), if_neg (not_le_of_isValidAt intime),
      show checked = _ from examined_of_ends_verify verified, if_neg Bool.noConfusion,
      if_neg (not_le_of_isValidAt still)]

theorem value_accept (t : Token) (ownId : String) (check : Verifier σ) (s : Session σ) :
    let checked := t.examined check { s with world := (Clock.read s.world).2 }
    ((ExceptT.run (t.accept ownId check)).run s).value =
      t.decision ownId (Clock.read s.world).1 checked.1 (Clock.read checked.2.world).1 :=
  decision_of_judged (ends_accept (Run.ends_run _ s))

theorem value_accept_of_misdirected (h : t.recipient ≠ some ownId) :
    ((ExceptT.run (t.accept ownId check)).run s).value =
      .error (.recipientMismatch ownId t.recipient) := by
  rw [value_accept, decision, if_pos h]

omit [Clock σ] in
/-- Nobody is called by the empty name. -/
theorem recipient_ne_empty (t : Token) : t.recipient ≠ some "" := by
  intro hempty
  have hname := (Option.filter_eq_some_iff.mp hempty).2
  simp at hname

omit [Clock σ] in
theorem recipient_eq_none (h : t.validity.issuedFor = none ∨ t.validity.issuedFor = some "") :
    t.recipient = none := by
  unfold recipient Validity.recipient
  rcases h with h | h <;> rw [h] <;> rfl

end Token

/-! ## What a verifier is asked -/

structure Noted (σ : Type) where
  world : σ
  asked : List (List UInt8 × String)

instance [Clock σ] : Clock (Noted σ) :=
  ⟨fun w => ((Clock.read w.world).1, { w with world := (Clock.read w.world).2 })⟩

def Session.unnoted (s : Session (Noted σ)) : Session σ := ⟨s.world.world, s.cache⟩

/-- The same verifier, who notes what it is asked. -/
def Verifier.noting (check : Verifier σ) : Verifier (Noted σ) := fun bytes signature => ⟨fun s =>
  let done := (check bytes signature).run s.unnoted
  ⟨done.value, done.entries,
    ⟨⟨done.session.world, s.world.asked ++ [(bytes, signature)]⟩, done.session.cache⟩⟩⟩

def Run.Mirrors (x : Run (Noted σ) α) (y : Run σ α) : Prop := ∀ s,
  y.run s.unnoted = ⟨(x.run s).value, (x.run s).entries, (x.run s).session.unnoted⟩

def Attempt.Mirrors (x : Attempt (Noted σ) α) (y : Attempt σ α) : Prop :=
  Run.Mirrors (ExceptT.run x) (ExceptT.run y)

section Mirrors

theorem Run.Mirrors.pure (a : α) : Run.Mirrors (Pure.pure a : Run (Noted σ) α) (Pure.pure a) :=
  fun _ => rfl

theorem Run.Mirrors.bind {x : Run (Noted σ) α} {y : Run σ α} {f : α → Run (Noted σ) β}
    {g : α → Run σ β} (hx : x.Mirrors y) (hf : ∀ a, (f a).Mirrors (g a)) :
    (x >>= f).Mirrors (y >>= g) := by
  intro s
  simp only [Run.run_bind, hx s, hf _ _]

theorem Run.Mirrors.log (e : Event) : Run.Mirrors (Run.log e : Run (Noted σ) Unit) (Run.log e) :=
  fun _ => rfl

theorem Run.Mirrors.now [Clock σ] : Run.Mirrors (Run.now : Run (Noted σ) Millis) Run.now :=
  fun _ => rfl

theorem Verifier.noting_mirrors (check : Verifier σ) (bytes : List UInt8) (signature : String) :
    (check.noting bytes signature).Mirrors (check bytes signature) := fun _ => rfl

namespace Attempt.Mirrors

theorem pure (a : α) : Attempt.Mirrors (Pure.pure a : Attempt (Noted σ) α) (Pure.pure a) :=
  fun _ => rfl

theorem bind {x : Attempt (Noted σ) α} {y : Attempt σ α} {f : α → Attempt (Noted σ) β}
    {g : α → Attempt σ β} (hx : x.Mirrors y) (hf : ∀ a, (f a).Mirrors (g a)) :
    (x >>= f).Mirrors (y >>= g) := by
  rw [Attempt.Mirrors, ExceptT.run_bind, ExceptT.run_bind]
  refine Run.Mirrors.bind hx fun r => ?_
  cases r with
  | ok a => exact hf a
  | error e => exact .pure _

theorem lift {x : Run (Noted σ) α} {y : Run σ α} (h : x.Mirrors y) :
    (Attempt.lift x).Mirrors (Attempt.lift y) := Run.Mirrors.bind h fun _ => .pure _

theorem refuse (e : Event) (error : TrustError) :
    (Attempt.refuse e error : Attempt (Noted σ) α).Mirrors (Attempt.refuse e error) := fun _ => rfl

end Attempt.Mirrors

end Mirrors

namespace Token

variable {t : Token} {ownId : String} {check : Verifier σ}

theorem verify_mirrors (t : Token) (check : Verifier σ) :
    (t.verify check.noting).Mirrors (t.verify check) := by
  unfold verify
  split
  · exact check.noting_mirrors _ _
  · exact .bind (.log _) fun _ => .pure _

theorem requireRecipient_mirrors (t : Token) (ownId : String) :
    (t.requireRecipient ownId : Attempt (Noted σ) Unit).Mirrors (t.requireRecipient ownId) := by
  unfold requireRecipient
  split
  · exact .pure _
  · exact .refuse _ _

/-- All that the verifier can be asked about a token: its own text, with its own signature. -/
def shown (t : Token) : List (List UInt8 × String) :=
  t.validity.signature.toList.map fun signature => (t.signedBytes, signature)

theorem asked_of_ends_verify {b : Bool} {s s' : Session (Noted σ)} {es : List Entry}
    (h : (t.verify check.noting).Ends s b es s') : s'.world.asked = s.world.asked ++ t.shown := by
  have hexamined := examined_of_ends_verify h
  unfold examined at hexamined
  unfold shown
  cases hsignature : t.validity.signature with
  | some signature =>
    rw [hsignature] at hexamined
    cases hexamined
    rfl
  | none =>
    rw [hsignature] at hexamined
    cases hexamined
    exact (List.append_nil _).symm

variable [Clock σ]

theorem requireUnexpired_mirrors (t : Token) :
    (t.requireUnexpired : Attempt (Noted σ) Unit).Mirrors t.requireUnexpired := by
  refine .bind (.lift .now) fun now => ?_
  split
  · exact .pure _
  · exact .refuse _ _

theorem accept_mirrors (t : Token) (ownId : String) (check : Verifier σ) :
    (t.accept ownId check.noting).Mirrors (t.accept ownId check) := by
  refine .bind (requireRecipient_mirrors t ownId) fun _ => ?_
  refine .bind (requireUnexpired_mirrors t) fun _ => ?_
  refine .bind (.lift (verify_mirrors t check)) fun b => ?_
  have hlast : (do t.requireRecipient ownId; t.requireUnexpired : Attempt (Noted σ) Unit).Mirrors
      (do t.requireRecipient ownId; t.requireUnexpired) :=
    .bind (requireRecipient_mirrors t ownId) fun _ => requireUnexpired_mirrors t
  split
  · exact hlast
  · exact .bind (.refuse _ _) fun _ => hlast

/-- The verifier is asked once, by the token that is for the client and had time left at first. -/
theorem asked_of_judged {r : Except TrustError Unit} {s s' : Session (Noted σ)} {es : List Entry}
    (h : t.Judged ownId check.noting s r es s') :
    s'.world.asked = s.world.asked ++
      if t.recipient = some ownId ∧ (Clock.read s.world).1 < t.validity.notAfter then t.shown else [] := by
  cases h with
  | misdirected elsewhere => rw [if_neg fun h => elsewhere h.1, List.append_nil]
  | ended ours looked late =>
    obtain ⟨rfl, -, rfl⟩ := Run.ends_now.mp looked
    rw [if_neg fun h => Int64.not_lt.mpr (isValidAt_eq_false_iff.mp late) h.2, List.append_nil]
    rfl
  | forged ours looked intime verified =>
    obtain ⟨rfl, -, rfl⟩ := Run.ends_now.mp looked
    rw [if_pos ⟨ours, of_decide_eq_true intime⟩, asked_of_ends_verify verified]
    rfl
  | endedMeanwhile ours looked intime verified relooked late =>
    obtain ⟨rfl, -, rfl⟩ := Run.ends_now.mp looked
    obtain ⟨rfl, -, rfl⟩ := Run.ends_now.mp relooked
    rw [if_pos ⟨ours, of_decide_eq_true intime⟩]
    exact (asked_of_ends_verify verified :)
  | sound ours looked intime verified relooked still =>
    obtain ⟨rfl, -, rfl⟩ := Run.ends_now.mp looked
    obtain ⟨rfl, -, rfl⟩ := Run.ends_now.mp relooked
    rw [if_pos ⟨ours, of_decide_eq_true intime⟩]
    exact (asked_of_ends_verify verified :)

end Token

/-! ## At one instant -/

section Still

variable [Clock σ] {t : Token} {ownId : String} {k issuer : KeyPair} {s s' : Session σ}
  {es : List Entry} {instant : Millis}

theorem Token.judged_still {r : Except TrustError Unit} (h : t.Judged ownId k.verifier s r es s')
    (hstill : ∀ now ∈ readingsOf es, now = instant) :
    r = .ok () ↔ t.recipient = some ownId ∧ t.isSignedBy k = true ∧ t.isValidAt instant = true := by
  cases h with
  | misdirected elsewhere => simp [elsewhere]
  | @ended now _ _ _ looked late =>
    obtain rfl : now = instant := hstill now (by simp [Run.readingsOf_now looked])
    simp [late]
  | forged _ _ _ verified =>
    have hforged := ends_verify verified
    simp [← hforged]
  | @endedMeanwhile _ later _ _ _ _ _ _ _ _ _ _ relooked late =>
    obtain rfl : later = instant := hstill later (by simp [Run.readingsOf_now relooked])
    simp [late]
  | @sound _ later _ _ _ _ _ _ ours _ _ verified relooked still =>
    obtain rfl : later = instant := hstill later (by simp [Run.readingsOf_now relooked])
    have hsigned := ends_verify verified
    simp [ours, still, ← hsigned]

/-- A token in the cache of a client in production may be used exactly if its issuer has signed it and
it has time left. -/
theorem Source.ends_isValid_still {channel : Channel σ} {appKey : KeyPair} {b : Bool}
    (h : ((Source.production channel appKey issuer).isValid t).Ends s b es s')
    (hstill : ∀ now ∈ readingsOf es, now = instant) :
    b = true ↔ t.isSignedBy issuer = true ∧ t.isValidAt instant = true := by
  constructor
  · rintro rfl
    obtain ⟨hsigned, now, hread, hvalid⟩ := ends_isValid h
    obtain rfl : now = instant := hstill now (mem_readingsOf.mpr hread)
    exact ⟨hsigned, hvalid⟩
  · rintro ⟨hsigned, hvalid⟩
    have htrusts : (Source.production channel appKey issuer).Trusts t := by
      rintro _ _ _ ⟨⟩
      exact hsigned
    apply htrusts.isValid h
    intro now hnow
    rw [hstill now hnow, hvalid]

end Still

/-! ## Any token, client and verifier -/

section Decided

variable [Clock σ]

/-- How accepting a token at `ownId` is decided, whoever checks its signature. -/
structure Token.Decided (t : Token) (ownId : String) (check : Verifier σ) : Prop where
  /-- The result, from what the clock shows first, what the verifier says in the session after that, and
  what the clock shows once it is done. -/
  verdict : ∀ s : Session σ,
    let checked := t.examined check { s with world := (Clock.read s.world).2 }
    ((ExceptT.run (t.accept ownId check)).run s).value =
      t.decision ownId (Clock.read s.world).1 checked.1 (Clock.read checked.2.world).1
  nameless : ownId = "" → ∀ s : Session σ,
    ((ExceptT.run (t.accept ownId check)).run s).value = .error (.recipientMismatch ownId t.recipient)
  addressless : t.validity.issuedFor = none ∨ t.validity.issuedFor = some "" → ∀ s : Session σ,
    ((ExceptT.run (t.accept ownId check)).run s).value = .error (.recipientMismatch ownId none)
  /-- A verifier that notes what it is asked works like the one that does not, and what it notes is at
  most one thing. -/
  asked : ∀ s : Session (Noted σ),
    let noted := (ExceptT.run (t.accept ownId check.noting)).run s
    (ExceptT.run (t.accept ownId check)).run s.unnoted =
        ⟨noted.value, noted.entries, noted.session.unnoted⟩ ∧
      noted.session.world.asked = s.world.asked ++
        if t.recipient = some ownId ∧ (Clock.read s.world).1 < t.validity.notAfter then t.shown else []
  /-- With the issuer's key, and at one instant, what is accepted is what may be used from the cache. -/
  agrees : ∀ (channel : Channel σ) (appKey issuer : KeyPair) (s s' : Session σ) (instant : Millis),
    check = issuer.verifier →
    let accepted := (ExceptT.run (t.accept ownId check)).run s
    let valid := ((Source.production channel appKey issuer).isValid t).run s'
    (∀ now ∈ readingsOf accepted.entries ++ readingsOf valid.entries, now = instant) →
    (accepted.value = .ok () ↔ t.recipient = some ownId ∧ valid.value = true)

theorem Token.accept_decides (t : Token) (ownId : String) (check : Verifier σ) :
    t.Decided ownId check where
  verdict := value_accept t ownId check
  nameless := by
    rintro rfl s
    exact value_accept_of_misdirected t.recipient_ne_empty
  addressless := by
    intro hnone s
    have hrecipient := recipient_eq_none hnone
    rw [← hrecipient]
    exact value_accept_of_misdirected (by rw [hrecipient]; exact nofun)
  asked := fun s => ⟨accept_mirrors t ownId check s, asked_of_judged (ends_accept (Run.ends_run _ s))⟩
  agrees := by
    rintro channel appKey issuer s s' instant rfl accepted valid hstill
    have haccepted := judged_still (ends_accept (Run.ends_run _ s)) fun now hnow =>
      hstill now (List.mem_append_left _ hnow)
    have hvalid := Source.ends_isValid_still (Run.ends_run _ s') fun now hnow =>
      hstill now (List.mem_append_right _ hnow)
    rw [haccepted, hvalid]

end Decided

/-! A verifier that has nothing against any signature, and takes an hour to say so. -/

namespace Gateway

def slowVerifier : Verifier Scene := fun _ _ => ⟨fun s =>
  ⟨true, [], { s with world := { s.world with time := s.world.time + 3600000 } }⟩⟩

/-- By then the token has expired. -/
theorem slow_check_comes_late :
    let t := pass .user "alice" "1234" 9000 (some "sealed")
    let start : Session (Noted Scene) := ⟨⟨⟨1000, []⟩, []⟩, (session [] []).cache⟩
    t.Decided "1234" slowVerifier ∧
      ((ExceptT.run (t.accept "1234" slowVerifier)).run start.unnoted).value =
        .error (.expired "alice" 9000) ∧
      ((ExceptT.run (t.accept "1234" slowVerifier.noting)).run start).session.world.asked =
        [(t.signedBytes, "sealed")] := by
  intro t start
  have hdecided := t.accept_decides "1234" slowVerifier
  refine ⟨hdecided, ?_, ?_⟩
  · rw [hdecided.verdict]
    decide +kernel
  · rw [(hdecided.asked start).2, if_pos (by decide +kernel)]
    rfl

end Gateway

end TokenTrust
