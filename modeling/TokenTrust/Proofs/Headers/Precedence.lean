/-
  TokenTrust.Proofs.Headers.Precedence — what a header lookup answers, whatever order the entries are
  met in.

  An entry can stand for a header in four forms: under its upper-case name, under the name in any case,
  and under these two as gateways write them. The forms come one after the other, and an entry without
  values counts for none of them.
  - `value?_eq_some_iff`, `value?_eq_none_iff`: the first form that has a value decides, with the first
    value of its first entry.
  - `value?_of_perm`: so where the entries of one form do not contradict each other, no other order of
    the entries gives another answer.
  - `headers_settled`: this of every lookup, and what it makes of the user's assertion.
-/

import TokenTrust.Headers

namespace TokenTrust.Headers

/-! ## Forms -/

/-- How the name of an entry may stand to the name of a header. -/
inductive Form where
  | exact
  | anyCase
  | marked
  | markedAnyCase
  deriving DecidableEq, Repr

namespace Form

def order : List Form := [exact, anyCase, marked, markedAnyCase]

def Fits (name : String) : Form → String → Prop
  | exact, entry => entry = Text.Casing.upperText name
  | anyCase, entry => Text.Casing.upperText entry = Text.Casing.upperText name
  | marked, entry => entry = "HTTP_" ++ Text.Casing.upperText name
  | markedAnyCase, entry => Text.Casing.upperText entry = "HTTP_" ++ Text.Casing.upperText name

instance (name : String) : (f : Form) → (entry : String) → Decidable (f.Fits name entry)
  | exact, _ | anyCase, _ | marked, _ | markedAnyCase, _ => inferInstanceAs (Decidable (_ = _))

def Before (f g : Form) : Prop := order.idxOf f < order.idxOf g

theorem mem_order (f : Form) : f ∈ order := by cases f <;> decide

theorem nodup_order : order.Nodup := by decide

theorem mem_iff_before {f g : Form} {before after : List Form} (hsplit : order = before ++ f :: after) :
    g ∈ before ↔ g.Before f := by
  have hnodup := nodup_order
  rw [hsplit, List.nodup_append] at hnodup
  have hf : f ∉ before := fun hmem => hnodup.2.2 f hmem f List.mem_cons_self rfl
  have hplace : order.idxOf f = before.length := by
    rw [hsplit, List.idxOf_append, if_neg hf, List.idxOf_cons_self, Nat.zero_add]
  rw [Before, hplace, hsplit, List.idxOf_append]
  by_cases hg : g ∈ before
  · rw [if_pos hg]
    exact iff_of_true hg (List.idxOf_lt_length_of_mem hg)
  · rw [if_neg hg]
    exact iff_of_false hg (by omega)

end Form

variable {h h' : Headers} {name v : String} {f : Form}

def Holds (h : Headers) (name : String) (f : Form) : Prop := ∃ e ∈ h, f.Fits name e.1 ∧ e.2 ≠ []

def Consulted (h : Headers) (name : String) (f : Form) : Prop :=
  ∀ g : Form, g.Before f → ¬ h.Holds name g

/-- The value is the first one of the first entry in this form that has any. -/
def FirstOf (h : Headers) (name : String) (f : Form) (v : String) : Prop :=
  ∃ before entry rest after, h = before ++ (entry, v :: rest) :: after ∧ f.Fits name entry ∧
    ∀ e ∈ before, f.Fits name e.1 → e.2 = []

def Uniform (h : Headers) (name : String) (f : Form) : Prop :=
  ∀ e ∈ h, ∀ e' ∈ h, f.Fits name e.1 → f.Fits name e'.1 → e.2 ≠ [] → e'.2 ≠ [] →
    e.2.head? = e'.2.head?

instance (h : Headers) (name : String) (f : Form) : Decidable (h.Uniform name f) :=
  inferInstanceAs (Decidable (∀ e ∈ h, ∀ e' ∈ h, _))

def Form.valueIn (f : Form) (name : String) (e : String × List String) : Option String :=
  if f.Fits name e.1 then e.2.head? else none

theorem value?_eq (h : Headers) (name : String) :
    h.value? name = Form.order.findSome? fun f => h.findSome? (f.valueIn name) := by
  have hunder : ∀ f : Form,
      (h.firstUnder fun entry => f.Fits name entry) = h.findSome? (f.valueIn name) := by
    intro f
    simp only [firstUnder, decide_eq_true_eq]
    rfl
  have hchain : ∀ a b c d : Option String, (a <|> b <|> c <|> d) = [a, b, c, d].findSome? id := by
    intro a b c d
    cases a <;> cases b <;> cases c <;> cases d <;> rfl
  show ((h.firstUnder fun entry => Form.exact.Fits name entry) <|>
    (h.firstUnder fun entry => Form.anyCase.Fits name entry) <|>
    (h.firstUnder fun entry => Form.marked.Fits name entry) <|>
    h.firstUnder fun entry => Form.markedAnyCase.Fits name entry) = _
  rw [hchain, hunder, hunder, hunder, hunder]
  rfl

theorem valueIn_eq_some_iff {e : String × List String} : f.valueIn name e = some v ↔
    f.Fits name e.1 ∧ ∃ rest, e.2 = v :: rest := by
  rw [Form.valueIn, Option.ite_none_right_eq_some, List.head?_eq_some_iff]

theorem valueIn_eq_none_iff {e : String × List String} : f.valueIn name e = none ↔
    (f.Fits name e.1 → e.2 = []) := by
  rw [Form.valueIn]
  by_cases hfits : f.Fits name e.1
  · simp [hfits]
  · simp [hfits]

/-! ## One form -/

theorem findSome?_eq_some_iff : h.findSome? (f.valueIn name) = some v ↔ h.FirstOf name f v := by
  rw [List.findSome?_eq_some_iff]
  constructor
  · intro hfound
    obtain ⟨before, ⟨entry, values⟩, after, hsplit, hvalue, hbefore⟩ := hfound
    obtain ⟨hfits, rest, hvalues⟩ := valueIn_eq_some_iff.mp hvalue
    subst hvalues
    exact ⟨before, entry, rest, after, hsplit, hfits, fun e he => valueIn_eq_none_iff.mp (hbefore e he)⟩
  · intro hfirst
    obtain ⟨before, entry, rest, after, hsplit, hfits, hbefore⟩ := hfirst
    exact ⟨before, (entry, v :: rest), after, hsplit, valueIn_eq_some_iff.mpr ⟨hfits, rest, rfl⟩,
      fun e he => valueIn_eq_none_iff.mpr (hbefore e he)⟩

theorem findSome?_eq_none_iff : h.findSome? (f.valueIn name) = none ↔ ¬ h.Holds name f := by
  rw [List.findSome?_eq_none_iff]
  constructor
  · intro hnone hholds
    obtain ⟨e, he, hfits, hvalues⟩ := hholds
    exact hvalues (valueIn_eq_none_iff.mp (hnone e he) hfits)
  · intro hnone e he
    rw [valueIn_eq_none_iff]
    intro hfits
    by_cases hvalues : e.2 = []
    · exact hvalues
    · exact absurd ⟨e, he, hfits, hvalues⟩ hnone

/-- Where a form has a value, it has a first one. -/
theorem exists_firstOf (hholds : h.Holds name f) : ∃ v, h.FirstOf name f v := by
  cases hfound : h.findSome? (f.valueIn name) with
  | none => exact absurd hholds (findSome?_eq_none_iff.mp hfound)
  | some v => exact ⟨v, findSome?_eq_some_iff.mp hfound⟩

/-! ## All forms -/

theorem value?_eq_some_iff :
    h.value? name = some v ↔ ∃ f, h.Consulted name f ∧ h.FirstOf name f v := by
  rw [value?_eq, List.findSome?_eq_some_iff]
  constructor
  · intro hfound
    obtain ⟨before, f, after, hsplit, hfirst, hbefore⟩ := hfound
    refine ⟨f, ?_, findSome?_eq_some_iff.mp hfirst⟩
    intro g hg
    exact findSome?_eq_none_iff.mp (hbefore g ((Form.mem_iff_before hsplit).mpr hg))
  · intro hdecides
    obtain ⟨f, hconsulted, hfirst⟩ := hdecides
    obtain ⟨before, after, hsplit⟩ := List.append_of_mem f.mem_order
    refine ⟨before, f, after, hsplit, findSome?_eq_some_iff.mpr hfirst, ?_⟩
    intro g hg
    exact findSome?_eq_none_iff.mpr (hconsulted g ((Form.mem_iff_before hsplit).mp hg))

theorem value?_eq_none_iff : h.value? name = none ↔ ∀ f, ¬ h.Holds name f := by
  rw [value?_eq, List.findSome?_eq_none_iff]
  constructor
  · intro hnone f
    exact findSome?_eq_none_iff.mp (hnone f f.mem_order)
  · intro hnone f hf
    exact findSome?_eq_none_iff.mpr (hnone f)

/-! ## Other orders -/

theorem holds_of_perm (hperm : h.Perm h') (hholds : h.Holds name f) : h'.Holds name f := by
  obtain ⟨e, he, hfits, hvalues⟩ := hholds
  exact ⟨e, hperm.mem_iff.mp he, hfits, hvalues⟩

theorem consulted_of_perm (hperm : h.Perm h') (hconsulted : h.Consulted name f) :
    h'.Consulted name f := by
  intro g hg hholds
  exact hconsulted g hg (holds_of_perm hperm.symm hholds)

/-- The entry that a first value is taken from. -/
theorem FirstOf.exists_entry (hfirst : h.FirstOf name f v) :
    ∃ e ∈ h, f.Fits name e.1 ∧ e.2 ≠ [] ∧ e.2.head? = some v := by
  obtain ⟨before, entry, rest, after, rfl, hfits, -⟩ := hfirst
  exact ⟨(entry, v :: rest), by simp, hfits, List.cons_ne_nil _ _, rfl⟩

theorem FirstOf.holds (hfirst : h.FirstOf name f v) : h.Holds name f := by
  obtain ⟨e, he, hfits, hvalues, -⟩ := hfirst.exists_entry
  exact ⟨e, he, hfits, hvalues⟩

/-- In two orders of the same entries the same form decides, but perhaps with different entries. -/
theorem value?_of_perm (hperm : h.Perm h') (huniform : ∀ f, h.Consulted name f → h.Uniform name f) :
    h'.value? name = h.value? name := by
  cases hvalue : h.value? name with
  | none =>
    rw [value?_eq_none_iff] at hvalue ⊢
    intro f hholds
    exact hvalue f (holds_of_perm hperm.symm hholds)
  | some v =>
    obtain ⟨f, hconsulted, hfirst⟩ := value?_eq_some_iff.mp hvalue
    obtain ⟨v', hfirst'⟩ := exists_firstOf (holds_of_perm hperm hfirst.holds)
    obtain ⟨e, he, hfits, hvalues, hv⟩ := hfirst.exists_entry
    obtain ⟨e', he', hfits', hvalues', hv'⟩ := hfirst'.exists_entry
    have hsame := huniform f hconsulted e he e' (hperm.mem_iff.mpr he') hfits hfits' hvalues hvalues'
    rw [hv, hv'] at hsame
    cases hsame
    exact value?_eq_some_iff.mpr ⟨f, consulted_of_perm hperm hconsulted, hfirst'⟩

/-! ## The user's assertion -/

variable {σ : Type}

theorem value_lookup (h : Headers) (name : String) (s : Session σ) :
    ((h.lookup name).run s).value = h.value? name := rfl

theorem value_assertion_eq_some_iff {a : Assertion} {s : Session σ} :
    (h.assertion.run s).value = some a ↔ a.text ≠ "" ∧ h.value? assertionName = some a.text ∧
      h.value? signatureName = some a.signature := by
  obtain ⟨text, signature⟩ := a
  rw [assertion, Run.run_bind, value_lookup]
  cases htext : (h.value? assertionName).filter (· ≠ "") with
  | none =>
    rw [Option.filter_eq_none_iff] at htext
    simp only [Run.run_pure, reduceCtorEq, false_iff]
    intro hboth
    exact absurd (htext _ hboth.2.1) (by simpa using hboth.1)
  | some text' =>
    obtain ⟨hvalue, hnonempty⟩ := Option.filter_eq_some_iff.mp htext
    simp only [Run.run_bind, Run.run_pure, value_lookup, hvalue, Option.map_eq_some_iff,
      Assertion.mk.injEq, Option.some.injEq]
    constructor
    · intro hboth
      obtain ⟨_, hsignature, rfl, rfl⟩ := hboth
      exact ⟨by simpa using hnonempty, rfl, hsignature⟩
    · intro hboth
      exact ⟨signature, hboth.2.2, hboth.2.1, rfl⟩

/-- A lookup answers with the first value of the first form that has one, and with none if no form has;
where the entries of a form that is consulted agree, it answers the same for every order of the entries.
The user's assertion is what the two lookups give, and there is one exactly if the first of them gives a
text and the other anything at all. -/
theorem headers_settled (h : Headers) (s : Session σ) :
    (∀ name v, ((h.lookup name).run s).value = some v ↔
      ∃ f, h.Consulted name f ∧ h.FirstOf name f v) ∧
    (∀ name, ((h.lookup name).run s).value = none ↔ ∀ f, ¬ h.Holds name f) ∧
    (∀ name, (∀ f, h.Consulted name f → h.Uniform name f) → ∀ h' : Headers, h.Perm h' →
      ((h'.lookup name).run s).value = ((h.lookup name).run s).value) ∧
    ∀ a : Assertion, (h.assertion.run s).value = some a ↔
      ((h.lookup assertionName).run s).value = some a.text ∧ a.text ≠ "" ∧
        ((h.lookup signatureName).run s).value = some a.signature := by
  refine ⟨fun name v => value?_eq_some_iff, fun name => value?_eq_none_iff, ?_, ?_⟩
  · intro name huniform h' hperm
    exact value?_of_perm hperm huniform
  · intro a
    rw [value_assertion_eq_some_iff]
    exact and_left_comm

/-- Headers with a user in two spellings of the plain name, and another one from a gateway. -/
def crowded : Headers := [("VERIFIED_USER_INFO", []), ("Verified_User_Info", ["alice", "bob"]),
  ("http_verified_signature", ["c2ln"]), ("HTTP_VERIFIED_USER_INFO", ["carol"]),
  ("verified_user_info", ["alice"])]

theorem crowded_settled :
    ((Headers.lookup crowded.reverse assertionName).run (⟨(), .ofCapacity 1⟩ : Session Unit)).value =
      some "alice" ∧
    (crowded.assertion.run (⟨(), .ofCapacity 1⟩ : Session Unit)).value = some ⟨"alice", "c2ln"⟩ := by
  obtain ⟨-, -, orders, assertion⟩ := headers_settled crowded (⟨(), .ofCapacity 1⟩ : Session Unit)
  have huniform : ∀ f : Form, crowded.Uniform assertionName f := by
    intro f
    cases f <;> decide +kernel
  constructor
  · rw [orders assertionName (fun f _ => huniform f) _ crowded.reverse_perm.symm]
    decide +kernel
  · rw [assertion]
    decide +kernel

end TokenTrust.Headers
