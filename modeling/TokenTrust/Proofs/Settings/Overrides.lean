/-
  TokenTrust.Proofs.Settings.Overrides — what overriding settings by variables leaves, also when it fails.

  Of the four variables only the second one can be bad, and by then the first one, the mode, has
  already been replaced.
  - `readBoolean_eq_error_iff`: when a value is bad.
  - `ends_override`: what is left in either case.
  - `overrides_half_done`: a failed override leaves all settings as they were but the mode. So it may
    take a client out of production, and then without a word.
  - `failed_override_leaves_mock`: such an override.
-/

import TokenTrust.Proofs.Session.Ending
import TokenTrust.Settings.Loading

namespace TokenTrust

variable {σ : Type} {w w' : Session σ} {es : List Entry}

/-! ## Modes -/

namespace TrustMode

theorem ends_choose {text : String} {m : TrustMode} (h : (choose text).Ends w m es w') :
    m = ofText text ∧ (recognise? text ≠ none → es = []) := by
  unfold choose at h
  generalize ofText text = mode at h ⊢
  split at h
  · rename_i hunknown
    obtain ⟨_, _, _, hlast⟩ := Run.Ends.last h
    refine ⟨(Run.ends_pure.mp hlast).1, ?_⟩
    intro hknown
    exact absurd (Option.isNone_iff_eq_none.mp hunknown) hknown
  · obtain ⟨rfl, rfl, -⟩ := Run.ends_pure.mp h
    exact ⟨rfl, fun _ => rfl⟩

/-- Only the names of the other two modes lead out of production. -/
theorem checksTokens_ofText (text : String) : (ofText text).checksTokens = false ↔
    recognise? text = some .mock ∨ recognise? text = some .unauthenticated := by
  unfold ofText
  cases recognise? text with
  | none => simp [checksTokens]
  | some m => cases m <;> simp [checksTokens]

end TrustMode

namespace Settings

/-! ## Booleans -/

/-- The text is one of the names of true or false, in any case, blanks around it apart. -/
def NamesBoolean (value : String) : Prop :=
  Text.Casing.lowerWord (Text.trim value) ∈ ["true", "1", "yes", "on", "false", "0", "no", "off"]

theorem readBoolean_eq_error_iff {key value : String} {e : SettingsError} :
    readBoolean key value = .error e ↔
      ¬ NamesBoolean value ∧ e = .invalidValue key value "expected a boolean" := by
  unfold readBoolean NamesBoolean
  split <;> simp_all [eq_comm]

/-! ## Overrides -/

section Override

variable {s : Settings} {vars : Variables}

def modeFrom (s : Settings) (vars : Variables) : TrustMode :=
  ((vars Variable.mode).map TrustMode.ofText).getD s.mode

/-- What the variable that can be bad says, or else the settings. -/
def useMockFrom (s : Settings) (vars : Variables) : Except SettingsError Bool :=
  match vars Variable.useMock with
  | some value => readBoolean Variable.useMock value
  | none => .ok s.useMock

def replaced (s : Settings) (vars : Variables) (useMock : Bool) : Settings :=
  { s with
    mode := s.modeFrom vars
    useMock
    mockUser := (vars Variable.mockUser).getD s.mockUser
    ownId := (vars Variable.ownId).getD s.ownId }

def chooseMode (s : Settings) (vars : Variables) : Run σ TrustMode :=
  match vars Variable.mode with
  | some text => TrustMode.choose text
  | none => pure s.mode

def replaceRest (s : Settings) (vars : Variables) : Except SettingsError Unit × Settings :=
  match s.useMockFrom vars with
  | .ok useMock => (.ok (), { s with
      useMock
      mockUser := (vars Variable.mockUser).getD s.mockUser
      ownId := (vars Variable.ownId).getD s.ownId })
  | .error e => (.error e, s)

theorem override_eq (s : Settings) (vars : Variables) :
    (s.override vars : Run σ _) = s.chooseMode vars >>= fun mode =>
      pure ({ s with mode }.replaceRest vars) := by
  unfold override chooseMode replaceRest useMockFrom
  generalize TrustMode.choose = choose
  generalize readBoolean Variable.useMock = read
  cases vars Variable.mode <;> cases vars Variable.useMock with
  | none => rfl
  | some value => cases hread : read value <;> simp only [hread]

theorem ends_chooseMode {mode : TrustMode} (h : (s.chooseMode vars).Ends w mode es w') :
    mode = s.modeFrom vars ∧
      ((∀ text, vars Variable.mode = some text → TrustMode.recognise? text ≠ none) → es = []) := by
  unfold chooseMode at h
  unfold modeFrom
  cases hgiven : vars Variable.mode with
  | none =>
    rw [hgiven] at h
    obtain ⟨rfl, rfl, -⟩ := Run.ends_pure.mp h
    exact ⟨rfl, fun _ => rfl⟩
  | some text =>
    rw [hgiven] at h
    obtain ⟨hmode, hquiet⟩ := TrustMode.ends_choose h
    rw [Option.map_some, Option.getD_some]
    refine ⟨hmode, ?_⟩
    intro hknown
    exact hquiet (hknown text rfl)

theorem ends_override {r : Except SettingsError Unit} {after : Settings}
    (h : (s.override vars).Ends w (r, after) es w') :
    ((∃ useMock, s.useMockFrom vars = .ok useMock ∧ r = .ok () ∧ after = s.replaced vars useMock) ∨
      ∃ e, s.useMockFrom vars = .error e ∧ r = .error e ∧ after = { s with mode := s.modeFrom vars }) ∧
    ((∀ text, vars Variable.mode = some text → TrustMode.recognise? text ≠ none) → es = []) := by
  rw [override_eq, Run.ends_bind] at h
  obtain ⟨mode, es₁, w₁, es₂, hmode, hrest, rfl⟩ := h
  obtain ⟨hmode, hquiet⟩ := ends_chooseMode hmode
  subst hmode
  obtain ⟨hafter, rfl, -⟩ := Run.ends_pure.mp hrest
  refine ⟨?_, fun hknown => by rw [hquiet hknown, List.append_nil]⟩
  -- the mode plays no part in reading the variable
  have hread : { s with mode := s.modeFrom vars }.useMockFrom vars = s.useMockFrom vars := rfl
  rw [replaceRest, hread] at hafter
  cases hvalue : s.useMockFrom vars with
  | ok useMock =>
    rw [hvalue] at hafter
    cases hafter
    exact .inl ⟨useMock, rfl, rfl, rfl⟩
  | error e =>
    rw [hvalue] at hafter
    cases hafter
    exact .inr ⟨e, rfl, rfl, rfl⟩

structure Overrides (s : Settings) (vars : Variables) (r : Except SettingsError Unit) (after : Settings)
    (es : List Entry) : Prop where
  succeeds : r = .ok () → ∃ useMock, s.useMockFrom vars = .ok useMock ∧ after = s.replaced vars useMock
  fails_iff : ∀ e, r = .error e ↔ ∃ value, vars Variable.useMock = some value ∧ ¬ NamesBoolean value ∧
    e = .invalidValue Variable.useMock value "expected a boolean"
  halfDone : ∀ e, r = .error e → after = { s with mode := s.modeFrom vars }
  spared_iff : ∀ e, r = .error e →
    (after = s ↔ ∀ text, vars Variable.mode = some text → TrustMode.ofText text = s.mode)
  /-- A failed override takes settings out of production if it is given the name of another mode. -/
  downgrades_iff : ∀ e, r = .error e → s.mode.checksTokens = true →
    (after.mode.checksTokens = false ↔ ∃ text, vars Variable.mode = some text ∧
      (TrustMode.recognise? text = some .mock ∨ TrustMode.recognise? text = some .unauthenticated))
  silent : s.mode.checksTokens = true → after.mode.checksTokens = false → es = []

theorem useMockFrom_eq_error_iff {e : SettingsError} : s.useMockFrom vars = .error e ↔
    ∃ value, vars Variable.useMock = some value ∧ ¬ NamesBoolean value ∧
      e = .invalidValue Variable.useMock value "expected a boolean" := by
  unfold useMockFrom
  cases vars Variable.useMock with
  | none => simp
  | some value => simp [readBoolean_eq_error_iff]

theorem modeFrom_eq_iff : s.modeFrom vars = s.mode ↔
    ∀ text, vars Variable.mode = some text → TrustMode.ofText text = s.mode := by
  unfold modeFrom
  cases vars Variable.mode with
  | none => simp
  | some text => simp

/-- Settings leave production only by the name of another mode. -/
theorem checksTokens_modeFrom (hproduction : s.mode.checksTokens = true) :
    (s.modeFrom vars).checksTokens = false ↔ ∃ text, vars Variable.mode = some text ∧
      (TrustMode.recognise? text = some .mock ∨ TrustMode.recognise? text = some .unauthenticated) := by
  unfold modeFrom
  cases vars Variable.mode with
  | none => simp [hproduction]
  | some text => simp [TrustMode.checksTokens_ofText]

end Override

/-- Any override, in any session. -/
theorem overrides_half_done (s : Settings) (vars : Variables) (w : Session σ) :
    let done := (s.override vars).run w
    s.Overrides vars done.value.1 done.value.2 done.entries := by
  intro done
  obtain ⟨hcases, hquiet⟩ := ends_override (Run.ends_run (s.override vars) w)
  have hsilent : done.value.2.mode = s.modeFrom vars → s.mode.checksTokens = true →
      done.value.2.mode.checksTokens = false → done.entries = [] := by
    intro hmode hproduction hleft
    rw [hmode, checksTokens_modeFrom hproduction] at hleft
    obtain ⟨text, hgiven, hname⟩ := hleft
    apply hquiet
    intro text' hgiven'
    cases hgiven.symm.trans hgiven'
    rcases hname with hname | hname <;> simp [hname]
  rcases hcases with ⟨useMock, hread, hr, hafter⟩ | ⟨e, hread, hr, hafter⟩
  · have hnot : ∀ e, done.value.1 ≠ .error e := by
      intro e he
      cases hr.symm.trans he
    refine ⟨fun _ => ⟨useMock, hread, hafter⟩, fun e => ?_, fun e he => absurd he (hnot e),
      fun e he => absurd he (hnot e), fun e he => absurd he (hnot e), hsilent (by rw [hafter]; rfl)⟩
    rw [← useMockFrom_eq_error_iff, hread]
    exact ⟨fun he => absurd he (hnot e), nofun⟩
  · have hmode : done.value.2.mode = s.modeFrom vars := by rw [hafter]
    refine ⟨fun hok => ?_, fun e' => ?_, fun _ _ => hafter, fun _ _ => ?_, fun _ _ hproduction => ?_,
      hsilent hmode⟩
    · cases hr.symm.trans hok
    · rw [← useMockFrom_eq_error_iff, hread, hr, Except.error.injEq, Except.error.injEq]
    · rw [← modeFrom_eq_iff, hafter]
      constructor
      · intro hsame
        exact congrArg Settings.mode hsame
      · intro hsame
        rw [hsame]
    · rw [hmode, checksTokens_modeFrom hproduction]

/-- A gateway in production is told to be a mock, by a mode and by a flag that nobody can read. -/
def muddled : Variables := fun name =>
  if name = Variable.mode then some "mock" else if name = Variable.useMock then some "maybe" else none

/-- It is told of the flag, and is a mock from then on. -/
theorem failed_override_leaves_mock :
    let s : Settings := { ownId := "123" }
    let done := (s.override muddled).run (⟨(), .ofCapacity 1⟩ : Session Unit)
    done.value.1 = .error (.invalidValue "TESSERA_USE_MOCK" "maybe" "expected a boolean") ∧
      s.mode = .production ∧ done.value.2 = { s with mode := .mock } ∧ done.value.2 ≠ s ∧
      done.entries = [] := by
  intro s done
  have hleft : done.value.2 = { s with mode := .mock } := rfl
  refine ⟨rfl, rfl, hleft, ?_, rfl⟩
  rw [hleft]
  decide

end Settings

end TokenTrust
