/-
  TokenTrust.Proofs.Client.Renewal — how often a presented token is refreshed, and what the caller
  is left with.

  `Client.admitNoting` is `Client.admitToken` with a note of how each refresh ended.
  - `admitToken_eq`: without the note, it is the same run.
  - `admitNoting_cases`: a token is checked, and then at most refreshed, once (`Admits`).
  - `admission_refreshes_once`: so it is refreshed exactly if the check finds it expired; an error
    leaves the caller with the presented token, and no admission touches the cache.
-/

import Mathlib.Control.Monad.Basic
import TokenTrust.Proofs.Acceptance.Verdict
import TokenTrust.Proofs.Client.Admission

namespace TokenTrust

namespace Client

variable {σ : Type} [Clock σ] {c : Client σ} {t : Token}

/-! ## Notes -/

/-- `Client.admitToken`, with a note of how each refresh ended. -/
def admitNoting (c : Client σ) (t : Token) :
    Run σ ((Except TrustError Unit × Token) × List (Except TrustError Token)) := do
  if c.settings.useMock then
    Run.log (.receivedUnchecked t.subject)
    return ((.ok (), t), [])
  else
    match ← (c.checkPresented t).run with
    | .ok () => return ((.ok (), t), [])
    | .error e =>
      if e.isRefreshable then
        Run.log (.receivedRefreshing t.subject)
        let result ← (c.source.refresh t).run
        match result with
        | .ok fresh => return ((.ok (), fresh), [result])
        | .error e => return ((.error e, t), [result])
      else return ((.error e, t), [])

theorem admitToken_eq (c : Client σ) (t : Token) :
    c.admitToken t = Prod.fst <$> c.admitNoting t := by
  unfold admitToken admitNoting
  split
  · simp
  · rw [map_bind]
    congr
    funext verdict
    cases verdict with
    | ok u => simp
    | error e =>
      by_cases late : e.isRefreshable = true
      · simp only [late, if_true, map_bind]
        congr
        funext _
        congr
        funext result
        cases result <;> simp
      · simp [late]

inductive Admits (c : Client σ) (t : Token) (s : Session σ) :
    Except TrustError Unit × Token → List (Except TrustError Token) → List Entry → Session σ → Prop
    where
  | sound {es : List Entry} {s' : Session σ} (checked : (c.checkPresented t).Gives s () es s') :
      Admits c t s (.ok (), t) [] es s'
  | refused {e : TrustError} {es : List Entry} {s' : Session σ}
      (checked : (c.checkPresented t).Fails s e es s') (final : e.isRefreshable = false) :
      Admits c t s (.error e, t) [] es s'
  | renewed {e : TrustError} {fresh : Token} {es es' : List Entry} {s₁ s' : Session σ}
      (checked : (c.checkPresented t).Fails s e es s₁) (late : e.isRefreshable = true)
      (refreshed : (c.source.refresh t).Gives s₁ fresh es' s') :
      Admits c t s (.ok (), fresh) [.ok fresh] (es ++ .event (.receivedRefreshing t.subject) :: es') s'
  | stuck {e e' : TrustError} {es es' : List Entry} {s₁ s' : Session σ}
      (checked : (c.checkPresented t).Fails s e es s₁) (late : e.isRefreshable = true)
      (refreshed : (c.source.refresh t).Fails s₁ e' es' s') :
      Admits c t s (.error e', t) [.error e'] (es ++ .event (.receivedRefreshing t.subject) :: es') s'

section Cases

variable {s s' : Session σ} {es : List Entry} {answer : Except TrustError Unit × Token}
  {notes : List (Except TrustError Token)}

theorem admitNoting_cases (hmock : c.settings.useMock = false)
    (h : (c.admitNoting t).Ends s (answer, notes) es s') : c.Admits t s answer notes es s' := by
  unfold admitNoting at h
  rw [hmock, if_neg Bool.false_ne_true, Run.ends_bind] at h
  obtain ⟨verdict, ea, sa, eb, hverdict, h, rfl⟩ := h
  cases verdict with
  | ok u =>
    obtain ⟨hpair, rfl, rfl⟩ := Run.ends_pure.mp h
    cases hpair
    simpa using Admits.sound hverdict
  | error e =>
    simp only at h
    by_cases late : e.isRefreshable = true
    · rw [if_pos late, Run.ends_bind] at h
      obtain ⟨_, ec, sc, ed, hlog, h, rfl⟩ := h
      obtain ⟨rfl, rfl⟩ := Run.ends_log.mp hlog
      rw [Run.ends_bind] at h
      obtain ⟨result, ef, sf, eg, hrefresh, h, rfl⟩ := h
      cases result with
      | ok fresh =>
        obtain ⟨hpair, rfl, rfl⟩ := Run.ends_pure.mp h
        cases hpair
        simpa using Admits.renewed hverdict late hrefresh
      | error e' =>
        obtain ⟨hpair, rfl, rfl⟩ := Run.ends_pure.mp h
        cases hpair
        simpa using Admits.stuck hverdict late hrefresh
    · rw [if_neg late] at h
      obtain ⟨hpair, rfl, rfl⟩ := Run.ends_pure.mp h
      cases hpair
      simpa using Admits.refused hverdict (by simpa using late)

theorem checkPresented_keeps {P : Conduct σ} (hP : P.Watches) (c : Client σ) (t : Token) :
    (c.checkPresented t).Keeps P :=
  .bind (.require _ _) fun issuer => Token.accept_keeps hP t c.ownId issuer

/-- Of the errors, only an expired token can be mended. -/
theorem isRefreshable_iff {e : TrustError} :
    e.isRefreshable = true ↔ ∃ subject notAfter, e = .expired subject notAfter := by
  cases e <;> simp [TrustError.isRefreshable]

/-- The check finds a token expired if it is ours and was looked at too late. -/
theorem checked_late_iff {r : Except TrustError Unit}
    (h : (ExceptT.run (c.checkPresented t)).Ends s r es s') :
    (∃ e, r = .error e ∧ e.isRefreshable = true) ↔
      ∃ issuer, c.issuerKey = some issuer ∧ t.FoundEnded c.ownId issuer (readingsOf es) := by
  rw [checkPresented, Attempt.ends_bind] at h
  rcases h with ⟨issuer, _, _, es₂, hkey, h, rfl⟩ | ⟨e, rfl, hkey⟩
  · obtain ⟨key, rfl, rfl⟩ := Attempt.gives_require.mp hkey
    rw [Token.judged_late_iff (Token.ends_accept h), List.nil_append]
    simp [key]
  · obtain ⟨unset, rfl, -, -⟩ := Attempt.fails_require.mp hkey
    simp [unset, TrustError.isRefreshable]

theorem Admits.cache (h : c.Admits t s answer notes es s') : s'.cache = s.cache := by
  have hcheck := checkPresented_keeps (Conduct.keepsCache_watches (σ := σ)) c t
  have hrefresh : (c.source.refresh t).Keeps .keepsCache := Source.refresh_keeps Conduct.keepsCache_calls t
  cases h with
  | sound checked => exact hcheck.gives checked
  | refused checked final => exact hcheck.fails checked
  | renewed checked late refreshed =>
    exact (hrefresh.gives refreshed).trans (hcheck.fails checked)
  | stuck checked late refreshed =>
    exact (hrefresh.fails refreshed).trans (hcheck.fails checked)

section Admits

variable {r : Except TrustError Unit} {ec : List Entry} {sc : Session σ}

theorem Admits.refreshes_iff (h : c.Admits t s answer notes es s')
    (hchecked : (ExceptT.run (c.checkPresented t)).Ends s r ec sc) :
    notes ≠ [] ↔ ∃ e, r = .error e ∧ e.isRefreshable = true := by
  cases h with
  | sound checked =>
    obtain ⟨rfl, -, -⟩ := Run.Ends.unique checked hchecked
    simp
  | refused checked final =>
    obtain ⟨rfl, -, -⟩ := Run.Ends.unique checked hchecked
    simp [final]
  | renewed checked late _ =>
    obtain ⟨rfl, -, -⟩ := Run.Ends.unique checked hchecked
    simp [late]
  | stuck checked late _ =>
    obtain ⟨rfl, -, -⟩ := Run.Ends.unique checked hchecked
    simp [late]

theorem Admits.at_most_once (h : c.Admits t s answer notes es s') : notes.length ≤ 1 ∧
    ∀ result ∈ notes, ∃ s₁ es₁ s₂, (ExceptT.run (c.source.refresh t)).Ends s₁ result es₁ s₂ ∧
      es₁ ⊆ es := by
  cases h with
  | sound => simp
  | refused => simp
  | renewed _ _ refreshed =>
    refine ⟨Nat.le_refl 1, fun result hresult => ?_⟩
    cases List.mem_singleton.mp hresult
    exact ⟨_, _, _, refreshed, fun _ he => by simp [he]⟩
  | stuck _ _ refreshed =>
    refine ⟨Nat.le_refl 1, fun result hresult => ?_⟩
    cases List.mem_singleton.mp hresult
    exact ⟨_, _, _, refreshed, fun _ he => by simp [he]⟩

/-- An error leaves the token as it was. -/
theorem Admits.failed {e : TrustError} (h : c.Admits t s answer notes es s')
    (hchecked : (ExceptT.run (c.checkPresented t)).Ends s r ec sc) (he : answer.1 = .error e) :
    answer.2 = t ∧
      (notes = [] ∧ r = .error e ∧ e.isRefreshable = false ∨ notes = [.error e]) := by
  cases h with
  | sound => cases he
  | refused checked final =>
    cases he
    obtain ⟨rfl, -, -⟩ := Run.Ends.unique checked hchecked
    exact ⟨rfl, .inl ⟨rfl, rfl, final⟩⟩
  | renewed => cases he
  | stuck =>
    cases he
    exact ⟨rfl, .inr rfl⟩

theorem Admits.succeeded (h : c.Admits t s answer notes es s') (hok : answer.1 = .ok ()) :
    notes = [] ∧ answer.2 = t ∨ notes = [.ok answer.2] := by
  cases h with
  | sound => exact .inl ⟨rfl, rfl⟩
  | refused => cases hok
  | renewed => exact .inr rfl
  | stuck => cases hok

end Admits

/-- Without mock mode, a token is refreshed at most once, and exactly if the check finds it expired.
An error is the check's own, or that of the refresh, and leaves the token as it was; otherwise the
token is as it was, or what the refresh gave. The cache is not touched. -/
theorem admission_refreshes_once (hmock : c.settings.useMock = false) (t : Token) (s : Session σ) :
    let checked := (ExceptT.run (c.checkPresented t)).run s
    let noted := (c.admitNoting t).run s
    let notes := noted.value.2
    (c.admitToken t).run s = ⟨noted.value.1, noted.entries, noted.session⟩ ∧
    notes.length ≤ 1 ∧
    (∀ result ∈ notes, ∃ s₁ es₁ s₂, (ExceptT.run (c.source.refresh t)).Ends s₁ result es₁ s₂ ∧
      es₁ ⊆ noted.entries) ∧
    (notes ≠ [] ↔ ∃ subject notAfter, checked.value = .error (.expired subject notAfter)) ∧
    (notes ≠ [] ↔ ∃ issuer, c.issuerKey = some issuer ∧
      t.FoundEnded c.ownId issuer (readingsOf checked.entries)) ∧
    (∀ e, noted.value.1.1 = .error e → noted.value.1.2 = t ∧
      (notes = [] ∧ checked.value = .error e ∧ e.isRefreshable = false ∨ notes = [.error e])) ∧
    (noted.value.1.1 = .ok () → notes = [] ∧ noted.value.1.2 = t ∨ notes = [.ok noted.value.1.2]) ∧
    noted.session.cache = s.cache := by
  have hchecked := Run.ends_run (ExceptT.run (c.checkPresented t)) s
  have hadmits := admitNoting_cases hmock (Run.ends_run (c.admitNoting t) s)
  have hlate := hadmits.refreshes_iff hchecked
  obtain ⟨honce, hruns⟩ := hadmits.at_most_once
  refine ⟨?_, honce, hruns, ?_, hlate.trans (checked_late_iff hchecked),
    fun e he => hadmits.failed hchecked he, hadmits.succeeded, hadmits.cache⟩
  · rw [admitToken_eq]
    exact Run.ends_map.mpr ⟨_, Run.ends_run _ _, rfl⟩
  · rw [hlate]
    constructor
    · rintro ⟨e, he, hrefreshable⟩
      obtain ⟨subject, notAfter, rfl⟩ := isRefreshable_iff.mp hrefreshable
      exact ⟨subject, notAfter, he⟩
    · rintro ⟨subject, notAfter, he⟩
      exact ⟨_, he, rfl⟩

end Cases

end Client

namespace Gateway

/-- The service answers the refresh with a token that has ended as well, and is not asked again. -/
theorem ended_refreshed_once :
    let late := TrustError.expired "alice" 500
    ((client.admitToken ended).run (session [ended, renewed] [])).value = (.error late, ended) ∧
    ((client.admitNoting ended).run (session [ended, renewed] [])).value.2 = [.error late] ∧
    ∃ subject notAfter, ((ExceptT.run (client.checkPresented ended)).run
      (session [ended, renewed] [])).value = .error (.expired subject notAfter) := by
  obtain ⟨hsame, -, -, hexactly, -, -, -, -⟩ :=
    Client.admission_refreshes_once (c := client) rfl ended (session [ended, renewed] [])
  have hnoted : ((client.admitNoting ended).run (session [ended, renewed] [])).value =
      ((.error (.expired "alice" 500), ended), [.error (.expired "alice" 500)]) := by
    decide +kernel
  refine ⟨?_, by rw [hnoted], hexactly.mp ?_⟩
  · rw [hsame, hnoted]
  · rw [hnoted]
    exact List.cons_ne_nil _ _

end Gateway

end TokenTrust
