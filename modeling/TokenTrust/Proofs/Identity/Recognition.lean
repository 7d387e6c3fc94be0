/-
  TokenTrust.Proofs.Identity.Recognition — which texts are ids, and which of them are the platform's.

  An id is a common name of the platform or a numeral of a signed 64-bit integer, and nothing else. How
  an integer is written does not matter: a plus, a minus before zero and zeros in front are all the
  same number.
  - `isId_iff`, `isReserved_iff`: the two grammars.
  - `isReserved_of_spells`: a numeral is the platform's by its number alone.
  - `ids_recognized`: all of this of any text; and an id is nobody's name, so that a client takes it as
    its own target without looking it up.
-/

import TokenTrust.Client.Basic
import TokenTrust.Proofs.Text.Spelling

namespace TokenTrust.Identity

variable {s : String} {n : Int64}

theorem hasCommonName_iff : hasCommonName s = true ↔ ∃ rest, s = "_Ts_" ++ rest := by
  rw [hasCommonName, List.isPrefixOf_iff_prefix]
  constructor
  · intro hstarts
    obtain ⟨rest, hrest⟩ := hstarts
    refine ⟨String.ofList rest, String.toList_inj.mp ?_⟩
    rw [← hrest, String.toList_append, @String.toList_ofList rest]
    rfl
  · intro hstarts
    obtain ⟨rest, rfl⟩ := hstarts
    rw [String.toList_append]
    exact List.prefix_append _ _

theorem number?_eq_some_iff : number? s = some n ↔ Text.Spells s.toList n.toInt := by
  rw [← Text.readInt64_eq_ok_iff, number?]
  cases Text.readInt64 s <;> simp [Except.toOption]

theorem number?_isSome_iff : (number? s).isSome = true ↔
    ∃ n : Int, Text.Spells s.toList n ∧ -2 ^ 63 ≤ n ∧ n ≤ 2 ^ 63 - 1 := by
  rw [Option.isSome_iff_exists]
  constructor
  · intro hread
    obtain ⟨n, hread⟩ := hread
    have hleast := n.le_toInt
    have hmost := n.toInt_lt
    exact ⟨n.toInt, number?_eq_some_iff.mp hread, by omega, by omega⟩
  · intro hspelled
    obtain ⟨n, hspells, hleast, hmost⟩ := hspelled
    refine ⟨Int64.ofInt n, number?_eq_some_iff.mpr ?_⟩
    rwa [Int64.toInt_ofInt_of_le hleast (by omega)]

theorem inReserve_iff : (0 ≤ n && n < reservedEnd) = true ↔ 0 ≤ n.toInt ∧ n.toInt < 1000 := by
  rw [Bool.and_eq_true, decide_eq_true_eq, decide_eq_true_eq, Int64.le_iff_toInt_le,
    Int64.lt_iff_toInt_lt]
  exact Iff.rfl

theorem any_number?_iff : ((number? s).any fun n => 0 ≤ n && n < reservedEnd) = true ↔
    ∃ n : Int, Text.Spells s.toList n ∧ 0 ≤ n ∧ n < 1000 := by
  rw [Option.any_eq_true]
  constructor
  · intro hread
    obtain ⟨n, hread, hreserve⟩ := hread
    exact ⟨n.toInt, number?_eq_some_iff.mp hread, inReserve_iff.mp hreserve⟩
  · intro hspelled
    obtain ⟨n, hspells, hreserve⟩ := hspelled
    have hn : (Int64.ofInt n).toInt = n := Int64.toInt_ofInt_of_le (by omega) (by omega)
    refine ⟨Int64.ofInt n, number?_eq_some_iff.mpr ?_, inReserve_iff.mpr ?_⟩
    · rwa [hn]
    · rwa [hn]

theorem isReserved_iff : isReserved s = true ↔
    (∃ rest, s = "_Ts_" ++ rest) ∨ ∃ n : Int, Text.Spells s.toList n ∧ 0 ≤ n ∧ n < 1000 := by
  rw [isReserved, Bool.or_eq_true, hasCommonName_iff, any_number?_iff]

theorem isId_of_isReserved (h : isReserved s = true) : isId s = true := by
  rw [isId, h, Bool.true_or]

/-- The numbers of the platform are numbers, so they need not be told apart here. -/
theorem isId_iff : isId s = true ↔ (∃ rest, s = "_Ts_" ++ rest) ∨
    ∃ n : Int, Text.Spells s.toList n ∧ -2 ^ 63 ≤ n ∧ n ≤ 2 ^ 63 - 1 := by
  rw [isId, Bool.or_eq_true, isReserved_iff, number?_isSome_iff]
  constructor
  · intro h
    rcases h with (hname | ⟨n, hspells, hreserve⟩) | hnumber
    · exact .inl hname
    · exact .inr ⟨n, hspells, by omega, by omega⟩
    · exact .inr hnumber
  · intro h
    rcases h with hname | hnumber
    · exact .inl (.inl hname)
    · exact .inr hnumber

/-! ## Numerals of one integer -/

/-- A numeral starts with a sign or a digit. -/
theorem not_spells_commonName {rest : String} {n : Int} : ¬ Text.Spells ("_Ts_" ++ rest).toList n := by
  have htext : ("_Ts_" ++ rest).toList = '_' :: ("Ts_".toList ++ rest.toList) := String.toList_append
  rw [htext, Text.spells_unsigned (by simp)]
  intro hspelled
  obtain ⟨m, hcounts, -⟩ := hspelled
  rw [Text.counts_plain (by simp)] at hcounts
  have hdigit := hcounts.1.digits '_' List.mem_cons_self
  cases hdigit

theorem isId_of_spells (h : Text.Spells s.toList n.toInt) : isId s = true := by
  rw [isId, number?_eq_some_iff.mpr h]
  exact Bool.or_true _

theorem isReserved_of_spells (h : Text.Spells s.toList n.toInt) :
    isReserved s = true ↔ 0 ≤ n.toInt ∧ n.toInt < 1000 := by
  have hname : ¬ hasCommonName s = true := by
    rw [hasCommonName_iff]
    intro hstarts
    obtain ⟨rest, rfl⟩ := hstarts
    exact not_spells_commonName h
  rw [isReserved, number?_eq_some_iff.mpr h, Bool.or_eq_true, Option.any_some, inReserve_iff,
    or_iff_right hname]

/-- The texts that stand for an integer: its decimal text, the same with zeros in front of the digits,
and whatever else is a numeral of it. -/
def Writes (s : String) (n : Int64) : Prop :=
  s = Text.ofInt64 n ∨ (∃ zeros, s = Text.padded zeros n) ∨ Text.Spells s.toList n.toInt

theorem spells_of_writes (h : Writes s n) : Text.Spells s.toList n.toInt := by
  rcases h with rfl | ⟨zeros, rfl⟩ | hspells
  · rw [← Text.padded_zero]
    exact Text.spells_padded 0 n
  · exact Text.spells_padded zeros n
  · exact hspells

theorem targetId_of_isId {σ : Type} (c : Client σ) (h : isId s = true) : c.targetId s = pure s := by
  have hname : s ≠ "" := by
    intro hempty
    subst hempty
    exact absurd h (by decide)
  rw [Client.targetId, if_neg hname, if_pos h]

/-- A text is an id exactly if it starts like a common name or is a numeral of a signed 64-bit integer,
and the platform's exactly if it starts so or its number is below a thousand and not negative. Every
text of an integer is an id, the platform's by the integer alone. No client looks up an id. -/
theorem ids_recognized (s : String) :
    (isId s = true ↔ (∃ rest, s = "_Ts_" ++ rest) ∨
      ∃ n : Int, Text.Spells s.toList n ∧ -2 ^ 63 ≤ n ∧ n ≤ 2 ^ 63 - 1) ∧
    (isReserved s = true ↔ (∃ rest, s = "_Ts_" ++ rest) ∨
      ∃ n : Int, Text.Spells s.toList n ∧ 0 ≤ n ∧ n < 1000) ∧
    (isReserved s = true → isId s = true) ∧
    (∀ n : Int64, Writes s n →
      isId s = true ∧ (isReserved s = true ↔ 0 ≤ n.toInt ∧ n.toInt < 1000)) ∧
    (isId s = true → ∀ (σ : Type) (c : Client σ), c.targetId s = pure s) := by
  refine ⟨isId_iff, isReserved_iff, isId_of_isReserved, ?_, ?_⟩
  · intro n hwrites
    have hspells := spells_of_writes hwrites
    exact ⟨isId_of_spells hspells, isReserved_of_spells hspells⟩
  · intro hid σ c
    exact targetId_of_isId c hid

/-- Zero with a minus is the platform's; the least integer with a zero in front is an id that no client
looks up. -/
theorem minus_zero_recognized : isReserved "-0" = true ∧ isId "-09223372036854775808" = true ∧
    ¬ isReserved "-09223372036854775808" = true ∧
    ∀ c : Client Unit, c.targetId "-09223372036854775808" = pure "-09223372036854775808" := by
  obtain ⟨-, -, -, zero, -⟩ := ids_recognized "-0"
  obtain ⟨-, -, -, least, keeps⟩ := ids_recognized "-09223372036854775808"
  have hzero : Writes "-0" 0 := .inr (.inr (.minus ⟨by decide, List.all_eq_true.mp (by decide)⟩))
  have hleast : Writes "-09223372036854775808" Int64.minValue := .inr (.inl ⟨1, by decide +kernel⟩)
  obtain ⟨hid, hreserved⟩ := least _ hleast
  refine ⟨(zero 0 hzero).2.mpr (by decide), hid, ?_, keeps hid Unit⟩
  rw [hreserved]
  decide

end TokenTrust.Identity
