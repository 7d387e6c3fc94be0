/-
  TokenTrust.Proofs.Settings.Properties — what settings come of properties, and which error.

  Every setting has one property, and is given by it if it is not blank. What else there is, and blanks
  around a text, make no difference. Three settings cannot be read from every text.
  - `load_normalized`: loading sees the properties of the settings only, without blanks.
  - `ofProperties_eq_error_iff`: it fails at the first setting that cannot be read from its text, in the
    order in which they are read.
  - `readFrom_of_ofProperties`, `agree_of_ofProperties`: otherwise the settings are what their texts say,
    or as they are by default.
  - `loading_settled`: this of every run.
-/

import Mathlib.Logic.Basic
import TokenTrust.Proofs.Settings.Overrides
import TokenTrust.Proofs.Text.Base64
import TokenTrust.Proofs.Text.Spelling

namespace TokenTrust

namespace Settings

variable {σ : Type}

/-! ## Items -/

/-- The text is a numeral of an unsigned 64-bit integer. -/
def NamesNumber (text : String) : Prop := ∃ n, Text.Counts text.toList n ∧ n < 2 ^ 64

def NumberComplaint (text message : String) : Prop :=
  Text.TooLarge text ∧ message = "number too large to fit in target type" ∨
    ¬ Text.TooLarge text ∧ message = "invalid digit found in string"

inductive Item where
  | ownId
  | mode
  | useMock
  | mockUser
  | mockTarget
  | mockLabels
  | cacheSize
  | userLifetime
  | serviceName
  | appPrivateKey
  | issuerPublicKey
  | frontEndPublicKey
  deriving DecidableEq, Repr

namespace Item

def all : List Item :=
  [ownId, mode, useMock, mockUser, mockTarget, mockLabels, cacheSize, userLifetime, serviceName,
    appPrivateKey, issuerPublicKey, frontEndPublicKey]

theorem mem_all (i : Item) : i ∈ all := by cases i <;> decide

def key : Item → String
  | ownId => Property.ownId
  | mode => Property.mode
  | useMock => Property.useMock
  | mockUser => Property.mockUser
  | mockTarget => Property.mockTarget
  | mockLabels => Property.mockLabels
  | cacheSize => Property.cacheSize
  | userLifetime => Property.userLifetime
  | serviceName => Property.serviceName
  | appPrivateKey => Property.appPrivateKey
  | issuerPublicKey => Property.issuerPublicKey
  | frontEndPublicKey => Property.frontEndPublicKey

/-- The settings that cannot be read from every text, in the order in which they are read. -/
def parsed : List Item := [useMock, cacheSize, userLifetime]

def truths : List String := ["true", "1", "yes", "on"]

def falsehoods : List String := ["false", "0", "no", "off"]

def Legible : Item → String → Prop
  | useMock, text => Text.Casing.lowerWord text ∈ truths ++ falsehoods
  | cacheSize, text | userLifetime, text => NamesNumber text
  | _, _ => True

def Complaint : Item → String → String → Prop
  | useMock, _, message => message = "expected a boolean"
  | cacheSize, text, message | userLifetime, text, message => NumberComplaint text message
  | _, _, _ => False

def ReadFrom : Item → String → Settings → Prop
  | ownId, text, s => s.ownId = text
  | mode, text, s => s.mode = TrustMode.ofText text
  | useMock, text, s => s.useMock = true ↔ Text.Casing.lowerWord text ∈ truths
  | mockUser, text, s => s.mockUser = text
  | mockTarget, text, s => s.mockTarget = some text
  | mockLabels, text, s => s.mockLabels = Text.labels text
  | cacheSize, text, s => Text.Counts text.toList s.cacheSize.toNat
  | userLifetime, text, s => Text.Counts text.toList s.userLifetime.toNat
  | serviceName, text, s => s.serviceName = text
  | appPrivateKey, text, s => s.appPrivateKey = some text
  | issuerPublicKey, text, s => s.issuerPublicKey = some text
  | frontEndPublicKey, text, s => s.frontEndPublicKey = some text

def Agree : Item → Settings → Settings → Prop
  | ownId, s, t => s.ownId = t.ownId
  | mode, s, t => s.mode = t.mode
  | useMock, s, t => s.useMock = t.useMock
  | mockUser, s, t => s.mockUser = t.mockUser
  | mockTarget, s, t => s.mockTarget = t.mockTarget
  | mockLabels, s, t => s.mockLabels = t.mockLabels
  | cacheSize, s, t => s.cacheSize = t.cacheSize
  | userLifetime, s, t => s.userLifetime = t.userLifetime
  | serviceName, s, t => s.serviceName = t.serviceName
  | appPrivateKey, s, t => s.appPrivateKey = t.appPrivateKey
  | issuerPublicKey, s, t => s.issuerPublicKey = t.issuerPublicKey
  | frontEndPublicKey, s, t => s.frontEndPublicKey = t.frontEndPublicKey

end Item

variable {p q : Variables} {i : Item} {text : String} {e : SettingsError}
variable {w w' : Session σ} {es : List Entry}

/-- The setting is given by a property that is not blank; this is its text, without blanks around it. -/
def Given (p : Variables) (i : Item) (text : String) : Prop :=
  ∃ value, p i.key = some value ∧ Text.allBlank value = false ∧ text = Text.trim value

theorem property?_eq_some_iff : property? p i.key = some text ↔ Given p i text := by
  rw [property?, Option.filter_eq_some_iff]
  simp only [Option.map_eq_some_iff, decide_eq_true_eq, Given]
  constructor
  · intro hread
    obtain ⟨⟨value, hvalue, rfl⟩, hne⟩ := hread
    rw [ne_eq, Text.trim_eq_empty_iff, Bool.not_eq_true] at hne
    exact ⟨value, hvalue, hne, rfl⟩
  · intro hgiven
    obtain ⟨value, hvalue, hblank, rfl⟩ := hgiven
    rw [ne_eq, Text.trim_eq_empty_iff, Bool.not_eq_true]
    exact ⟨⟨value, hvalue, rfl⟩, hblank⟩

theorem property?_eq_none_iff : property? p i.key = none ↔ ∀ text, ¬ Given p i text := by
  rw [Option.eq_none_iff_forall_ne_some]
  simp only [ne_eq, property?_eq_some_iff]

/-! ## Normal properties -/

/-- The properties of the settings, without blanks around them, and none that is blank. -/
def normalized (p : Variables) : Variables := fun key =>
  if key ∈ Item.all.map Item.key then
    (p key).bind fun value => if Text.allBlank value then none else some (Text.trim value)
  else none

theorem normalized_key (p : Variables) (i : Item) :
    normalized p i.key = property? p i.key := by
  have hkey : i.key ∈ Item.all.map Item.key := List.mem_map_of_mem i.mem_all
  rw [normalized, if_pos hkey, property?]
  cases p i.key with
  | none => rfl
  | some value =>
    simp only [Option.bind_some, Option.map_some, Option.filter_some, decide_eq_true_eq, ne_eq,
      Text.trim_eq_empty_iff, ite_not]

/-- The text of a property that is not blank can stand for the property. -/
theorem Given.clean (h : Given p i text) : text ≠ "" ∧ Text.trim text = text := by
  obtain ⟨value, -, hblank, rfl⟩ := h
  refine ⟨?_, Text.trim_trim value⟩
  rw [ne_eq, Text.trim_eq_empty_iff, hblank]
  exact Bool.false_ne_true

theorem property?_normalized (p : Variables) (i : Item) :
    property? (normalized p) i.key = property? p i.key := by
  rw [property?, normalized_key]
  cases hgiven : property? p i.key with
  | none => rfl
  | some text =>
    obtain ⟨hne, htrim⟩ := (property?_eq_some_iff.mp hgiven).clean
    rw [Option.map_some, htrim, Option.filter_some, if_pos (decide_eq_true hne)]

/-- The settings, given those among them that have to be read. -/
def assembled (get : Item → Option String) (useMock : Bool) (cacheSize userLifetime : UInt64) :
    Settings :=
  let s : Settings := {}
  { ownId := (get .ownId).getD s.ownId
    mode := ((get .mode).map TrustMode.ofText).getD s.mode
    useMock
    mockUser := (get .mockUser).getD s.mockUser
    mockTarget := get .mockTarget
    mockLabels := ((get .mockLabels).map Text.labels).getD s.mockLabels
    cacheSize
    userLifetime
    serviceName := (get .serviceName).getD s.serviceName
    appPrivateKey := get .appPrivateKey
    issuerPublicKey := get .issuerPublicKey
    frontEndPublicKey := get .frontEndPublicKey }

theorem ofProperties_eq (p : Variables) : ofProperties p = do
    let s : Settings := {}
    let useMock ← readProperty p (Item.key .useMock) s.useMock readBoolean
    let cacheSize ← readProperty p (Item.key .cacheSize) s.cacheSize readNumber
    let userLifetime ← readProperty p (Item.key .userLifetime) s.userLifetime readNumber
    return assembled (fun i => property? p i.key) useMock cacheSize userLifetime := rfl

def warn (p : Variables) : Run σ Unit :=
  match property? p (Item.key .mode) with
  | some text => discard (TrustMode.choose text)
  | none => pure ()

def report : Except SettingsError Settings → Run σ (Except SettingsError Settings)
  | .ok s => do
    Run.log (.propertiesLoaded s.mode s.ownId)
    return .ok s
  | .error e => return .error e

theorem load_eq (p : Variables) : (load p : Run σ _) = warn p >>= fun _ => report (ofProperties p) := by
  have hmode : property? p (Item.key .mode) = property? p Property.mode := rfl
  unfold load warn
  rw [hmode]
  cases property? p Property.mode with
  | none => rfl
  | some text => rfl

/-- Loading looks at nothing but the properties of the settings. -/
theorem load_congr (h : ∀ i : Item, property? p i.key = property? q i.key) :
    (load p : Run σ _) = load q := by
  have hproperties : ofProperties p = ofProperties q := by
    simp only [ofProperties_eq, readProperty, h]
  rw [load_eq, load_eq, hproperties, warn, warn, h]

theorem load_normalized (p : Variables) : (load p : Run σ _) = load (normalized p) :=
  load_congr fun i => (property?_normalized p i).symm

theorem ends_load {r : Except SettingsError Settings} (h : (load p).Ends w r es w') :
    r = ofProperties p := by
  rw [load_eq] at h
  obtain ⟨_, _, _, hreport⟩ := h.last
  cases hread : ofProperties p with
  | error e =>
    rw [hread] at hreport
    exact (Run.ends_pure.mp hreport).1
  | ok s =>
    rw [hread] at hreport
    obtain ⟨_, _, _, hlast⟩ := hreport.last
    exact (Run.ends_pure.mp hlast).1

/-! ## Reading -/

/-- The setting is not given, or by a text that it can be read from. -/
def Sound (p : Variables) (i : Item) : Prop := ∀ text, Given p i text → i.Legible text

def Item.Refuses (i : Item) (text : String) (e : SettingsError) : Prop :=
  ¬ i.Legible text ∧ ∃ message, i.Complaint text message ∧ e = .invalidValue i.key text message

def Faults (p : Variables) (i : Item) (e : SettingsError) : Prop :=
  ∃ text, Given p i text ∧ i.Refuses text e

/-- The error for the first of these settings that cannot be read. -/
def FirstFault (p : Variables) (items : List Item) (e : SettingsError) : Prop :=
  ∃ before i after, items = before ++ i :: after ∧ (∀ j ∈ before, Sound p j) ∧ Faults p i e

theorem firstFault_nil : ¬ FirstFault p [] e := by
  intro hfirst
  obtain ⟨before, i, after, hsplit, -⟩ := hfirst
  simp at hsplit

theorem firstFault_cons {items : List Item} : FirstFault p (i :: items) e ↔
    Faults p i e ∨ Sound p i ∧ FirstFault p items e := by
  simp only [FirstFault, List.cons_eq_append_iff]
  constructor
  · intro hfirst
    obtain ⟨before, j, after, hsplit, hsound, hfault⟩ := hfirst
    rcases hsplit with ⟨rfl, hsplit⟩ | ⟨before, rfl, rfl⟩
    · cases hsplit
      exact .inl hfault
    · rw [List.forall_mem_cons] at hsound
      exact .inr ⟨hsound.1, before, j, after, rfl, hsound.2, hfault⟩
  · intro hfirst
    rcases hfirst with hfault | ⟨hsound, before, j, after, rfl, hall, hfault⟩
    · exact ⟨[], i, items, .inl ⟨rfl, rfl⟩, by simp, hfault⟩
    · exact ⟨i :: before, j, after, .inr ⟨before, rfl, rfl⟩, by simpa using ⟨hsound, hall⟩, hfault⟩

structure Reading {α : Type} (p : Variables) (i : Item) (x : Except SettingsError α) : Prop where
  fails_iff : ∀ e, x = .error e ↔ Faults p i e
  succeeds_iff : (∃ a, x = .ok a) ↔ Sound p i

theorem exists_numberComplaint (text : String) : ∃ message, NumberComplaint text message := by
  by_cases hlarge : Text.TooLarge text
  · exact ⟨_, .inl ⟨hlarge, rfl⟩⟩
  · exact ⟨_, .inr ⟨hlarge, rfl⟩⟩

theorem Item.exists_complaint (hparsed : i ∈ parsed) (text : String) :
    ∃ message, i.Complaint text message := by
  simp only [parsed, List.mem_cons, List.not_mem_nil, or_false] at hparsed
  rcases hparsed with rfl | rfl | rfl
  · exact ⟨_, rfl⟩
  · exact exists_numberComplaint text
  · exact exists_numberComplaint text

theorem given_unique (h : property? p i.key = some text) {text' : String} (h' : Given p i text') :
    text' = text := by
  rw [← property?_eq_some_iff, h, Option.some.injEq] at h'
  exact h'.symm

theorem exists_faults_iff (hparsed : i ∈ Item.parsed) : (∃ e, Faults p i e) ↔ ¬ Sound p i := by
  simp only [Sound, not_forall]
  constructor
  · intro hfault
    obtain ⟨e, text, hgiven, hnot, -⟩ := hfault
    exact ⟨text, hgiven, hnot⟩
  · intro hnot
    obtain ⟨text, hgiven, hnot⟩ := hnot
    obtain ⟨message, hcomplaint⟩ := Item.exists_complaint hparsed text
    exact ⟨_, text, hgiven, hnot, message, hcomplaint, rfl⟩

theorem exists_firstFault_iff {items : List Item} (hparsed : ∀ i ∈ items, i ∈ Item.parsed) :
    (∃ e, FirstFault p items e) ↔ ∃ i ∈ items, ¬ Sound p i := by
  induction items with
  | nil => simp [firstFault_nil]
  | cons i items ih =>
    rw [List.forall_mem_cons] at hparsed
    simp only [firstFault_cons, exists_or, exists_and_left, exists_faults_iff hparsed.1,
      ih hparsed.2, List.mem_cons, exists_eq_or_imp]
    by_cases hsound : Sound p i
    · simp [hsound]
    · simp [hsound]

/-- It is enough to know which errors there are. -/
theorem Reading.of_fails {α : Type} {x : Except SettingsError α} (hparsed : i ∈ Item.parsed)
    (h : ∀ e, x = .error e ↔ Faults p i e) : Reading p i x := by
  refine ⟨h, ?_⟩
  rw [← not_not (a := Sound p i), ← exists_faults_iff hparsed]
  simp only [← h]
  cases x with
  | ok a => simp
  | error e => simp

theorem reading_property {α : Type} {absent : α} {read : String → String → Except SettingsError α}
    (hparsed : i ∈ Item.parsed)
    (hread : ∀ text e, Given p i text → (read i.key text = .error e ↔ i.Refuses text e)) :
    Reading p i (readProperty p i.key absent read) := by
  apply Reading.of_fails hparsed
  intro e
  unfold readProperty Faults
  cases hgiven : property? p i.key with
  | none => simp [property?_eq_none_iff.mp hgiven]
  | some text =>
    have hsome := property?_eq_some_iff.mp hgiven
    constructor
    · intro hfails
      exact ⟨text, hsome, (hread text e hsome).mp hfails⟩
    · intro hfault
      obtain ⟨text', h', hrefuses⟩ := hfault
      rw [given_unique hgiven h'] at hrefuses
      exact (hread text e hsome).mpr hrefuses

theorem readBoolean_refuses (htrim : Text.trim text = text) :
    readBoolean (Item.key .useMock) text = .error e ↔ Item.Refuses .useMock text e := by
  rw [readBoolean_eq_error_iff, NamesBoolean, htrim]
  simp [Item.Refuses, Item.Legible, Item.Complaint, Item.truths, Item.falsehoods]

theorem readBoolean_eq_ok {key : String} {b : Bool} (htrim : Text.trim text = text)
    (h : readBoolean key text = .ok b) : b = true ↔ Text.Casing.lowerWord text ∈ Item.truths := by
  unfold readBoolean at h
  rw [htrim] at h
  split at h <;> simp_all [Item.truths]

theorem readNumber_of_ok {key : String} {n : UInt64} (htrim : Text.trim text = text)
    (h : Text.readUInt64 text = .ok n) : readNumber key text = .ok n := by
  rw [readNumber, htrim, h]
  rfl

theorem readNumber_of_error {key : String} {fault : Text.NumeralError} (htrim : Text.trim text = text)
    (h : Text.readUInt64 text = .error fault) :
    readNumber key text = .error (.invalidValue key text fault.message) := by
  rw [readNumber, htrim, h]
  rfl

theorem readNumber_eq_ok {key : String} {n : UInt64} (htrim : Text.trim text = text)
    (h : readNumber key text = .ok n) : Text.Counts text.toList n.toNat := by
  cases hread : Text.readUInt64 text with
  | ok m =>
    rw [readNumber_of_ok htrim hread] at h
    cases h
    exact Text.readUInt64_eq_ok_iff.mp hread
  | error fault =>
    rw [readNumber_of_error htrim hread] at h
    cases h

theorem exists_readUInt64_iff : (∃ n, Text.readUInt64 text = .ok n) ↔ NamesNumber text := by
  simp only [Text.readUInt64_eq_ok_iff]
  constructor
  · intro h
    obtain ⟨n, hcounts⟩ := h
    exact ⟨n.toNat, hcounts, n.toNat_lt_size⟩
  · intro h
    obtain ⟨n, hcounts, hlt⟩ := h
    refine ⟨UInt64.ofNat n, ?_⟩
    rwa [UInt64.toNat_ofNat_of_lt' hlt]

theorem readNumber_eq_error_iff {key : String} (hclean : text ≠ "" ∧ Text.trim text = text) :
    readNumber key text = .error e ↔ ¬ NamesNumber text ∧ ∃ message, NumberComplaint text message ∧
      e = .invalidValue key text message := by
  obtain ⟨hne, htrim⟩ := hclean
  rw [← exists_readUInt64_iff]
  unfold NumberComplaint
  rw [← Text.readUInt64_eq_tooLarge_iff]
  cases hread : Text.readUInt64 text with
  | ok n => simp [readNumber_of_ok htrim hread]
  | error fault =>
    rw [readNumber_of_error htrim hread]
    cases fault with
    | empty => exact absurd hread (Text.readUInt64_ne_empty hne)
    | badDigit => simp [Text.NumeralError.message, eq_comm]
    | tooLarge => simp [Text.NumeralError.message, eq_comm]

theorem reading_useMock (p : Variables) (absent : Bool) :
    Reading p .useMock (readProperty p (Item.key .useMock) absent readBoolean) := by
  apply reading_property (by decide)
  intro text e hgiven
  exact readBoolean_refuses hgiven.clean.2

theorem reading_number (hnumber : i = .cacheSize ∨ i = .userLifetime) (p : Variables)
    (absent : UInt64) : Reading p i (readProperty p i.key absent readNumber) := by
  have hread : ∀ text e, Given p i text → (readNumber i.key text = .error e ↔
      ¬ NamesNumber text ∧ ∃ message, NumberComplaint text message ∧
        e = .invalidValue i.key text message) :=
    fun text e hgiven => readNumber_eq_error_iff hgiven.clean
  rcases hnumber with rfl | rfl
  · exact reading_property (by decide) hread
  · exact reading_property (by decide) hread

/-! ## Loading -/

/-- One setting is read, and then the others, if it can be read. -/
theorem Reading.bind_eq_error_iff {α β : Type} {x : Except SettingsError α}
    {f : α → Except SettingsError β} {items : List Item} (hx : Reading p i x)
    (hf : ∀ a, f a = .error e ↔ FirstFault p items e) :
    (x >>= f) = .error e ↔ FirstFault p (i :: items) e := by
  rw [firstFault_cons, ← hx.fails_iff, ← hx.succeeds_iff]
  cases x with
  | error e' => simp [bind, Except.bind]
  | ok a => simpa [bind, Except.bind] using hf a

theorem ofProperties_eq_error_iff : ofProperties p = .error e ↔ FirstFault p Item.parsed e := by
  rw [ofProperties_eq]
  refine (reading_useMock p _).bind_eq_error_iff fun useMock => ?_
  refine (reading_number (.inl rfl) p _).bind_eq_error_iff fun cacheSize => ?_
  refine (reading_number (.inr rfl) p _).bind_eq_error_iff fun userLifetime => ?_
  exact iff_of_false nofun firstFault_nil

section Success

variable {s : Settings} {get : Item → Option String} {useMock : Bool} {cacheSize userLifetime : UInt64}

/-- The settings that are just taken over from their properties. -/
theorem readFrom_assembled (hother : i ∉ Item.parsed) (hget : get i = some text) :
    i.ReadFrom text (assembled get useMock cacheSize userLifetime) := by
  cases i <;> simp_all [Item.parsed, Item.ReadFrom, assembled]

theorem agree_assembled (hother : i ∉ Item.parsed) (hget : get i = none) :
    i.Agree (assembled get useMock cacheSize userLifetime) {} := by
  cases i <;> simp_all [Item.parsed, Item.Agree, assembled]

theorem readProperty_of_given {α : Type} {absent : α} {read : String → String → Except SettingsError α}
    (h : Given p i text) : readProperty p i.key absent read = read i.key text := by
  rw [readProperty, property?_eq_some_iff.mpr h]

theorem readProperty_of_absent {α : Type} {absent : α} {read : String → String → Except SettingsError α}
    (h : ∀ text, ¬ Given p i text) : readProperty p i.key absent read = .ok absent := by
  rw [readProperty, property?_eq_none_iff.mpr h]

/-- What loading that succeeds has read. -/
theorem exists_of_ofProperties (h : ofProperties p = .ok s) : ∃ useMock cacheSize userLifetime,
    readProperty p (Item.key .useMock) ({} : Settings).useMock readBoolean = .ok useMock ∧
    readProperty p (Item.key .cacheSize) ({} : Settings).cacheSize readNumber = .ok cacheSize ∧
    readProperty p (Item.key .userLifetime) ({} : Settings).userLifetime readNumber =
      .ok userLifetime ∧
    s = assembled (fun i => property? p i.key) useMock cacheSize userLifetime := by
  rw [ofProperties_eq] at h
  obtain ⟨useMock, hmock, h⟩ := Text.bind_eq_ok.mp h
  obtain ⟨cacheSize, hsize, h⟩ := Text.bind_eq_ok.mp h
  obtain ⟨userLifetime, hlifetime, h⟩ := Text.bind_eq_ok.mp h
  exact ⟨useMock, cacheSize, userLifetime, hmock, hsize, hlifetime, (Except.ok.inj h).symm⟩

theorem readFrom_of_ofProperties (h : ofProperties p = .ok s) (hgiven : Given p i text) :
    i.ReadFrom text s := by
  obtain ⟨useMock, cacheSize, userLifetime, hmock, hsize, hlifetime, rfl⟩ :=
    exists_of_ofProperties h
  by_cases hparsed : i ∈ Item.parsed
  · simp only [Item.parsed, List.mem_cons, List.not_mem_nil, or_false] at hparsed
    rcases hparsed with rfl | rfl | rfl
    · exact readBoolean_eq_ok hgiven.clean.2 ((readProperty_of_given hgiven).symm.trans hmock)
    · exact readNumber_eq_ok hgiven.clean.2 ((readProperty_of_given hgiven).symm.trans hsize)
    · exact readNumber_eq_ok hgiven.clean.2 ((readProperty_of_given hgiven).symm.trans hlifetime)
  · exact readFrom_assembled hparsed (property?_eq_some_iff.mpr hgiven)

theorem agree_of_ofProperties (h : ofProperties p = .ok s) (habsent : ∀ text, ¬ Given p i text) :
    i.Agree s {} := by
  obtain ⟨useMock, cacheSize, userLifetime, hmock, hsize, hlifetime, rfl⟩ :=
    exists_of_ofProperties h
  by_cases hparsed : i ∈ Item.parsed
  · simp only [Item.parsed, List.mem_cons, List.not_mem_nil, or_false] at hparsed
    rcases hparsed with rfl | rfl | rfl
    · exact (Except.ok.inj ((readProperty_of_absent habsent).symm.trans hmock)).symm
    · exact (Except.ok.inj ((readProperty_of_absent habsent).symm.trans hsize)).symm
    · exact (Except.ok.inj ((readProperty_of_absent habsent).symm.trans hlifetime)).symm
  · exact agree_assembled hparsed (property?_eq_none_iff.mpr habsent)

end Success

structure Loaded (p : Variables) (r : Except SettingsError Settings) : Prop where
  fails_iff : (∃ e, r = .error e) ↔ ∃ i ∈ Item.parsed, ¬ Sound p i
  error_iff : ∀ e, r = .error e ↔ FirstFault p Item.parsed e
  given : ∀ s, r = .ok s → ∀ i text, Given p i text → i.ReadFrom text s
  default : ∀ s, r = .ok s → ∀ i, (∀ text, ¬ Given p i text) → i.Agree s {}

/-- Loading any properties is loading the normal ones, warnings and messages included, and comes to what
`Loaded` says. -/
theorem loading_settled (p : Variables) (w : Session σ) :
    (load p : Run σ _) = load (normalized p) ∧ Loaded p ((load p).run w).value := by
  refine ⟨load_normalized p, ?_⟩
  rw [ends_load (Run.ends_run (load p) w)]
  refine ⟨?_, fun e => ofProperties_eq_error_iff, fun s hs i text => readFrom_of_ofProperties hs,
    fun s hs i => agree_of_ofProperties hs⟩
  simp only [ofProperties_eq_error_iff]
  exact exists_firstFault_iff fun i hi => hi

/-- A number that is one too large, another one that is none, a blank mode, and a stray property. -/
def untidy : Variables := fun key =>
  if key = Property.ownId then some "123"
  else if key = Property.mode then some " \u3000"
  else if key = Property.useMock then some "\tYes"
  else if key = Property.cacheSize then some " +18446744073709551616\n"
  else if key = Property.userLifetime then some "1 0"
  else if key = "tessera.security.colour" then some " red "
  else none

/-- The first of the two numbers is complained of. -/
theorem untidy_refused :
    let r := ((load untidy).run (⟨(), .ofCapacity 1⟩ : Session Unit)).value
    Loaded untidy r ∧
      r = .error (.invalidValue "tessera.security.cache.max.size" "+18446744073709551616"
        "number too large to fit in target type") ∧
      normalized untidy Property.mode = none ∧ normalized untidy Property.useMock = some "Yes" ∧
      normalized untidy "tessera.security.colour" = none := by
  intro r
  exact ⟨(loading_settled untidy _).2, rfl, by decide, by decide, by decide⟩

end Settings

end TokenTrust
