/-
  TokenTrust.Proofs.Text.Base64 — the text of some bytes is read as just these bytes, and no other text
  is (`decode_eq_ok_iff`).

  Reader and writer go by groups of three bytes.
  - `decode_encode`: a whole group is read on its own wherever it stands (`decodeFrom_group`); one or two
    bytes at the end leave padding, and are the reader's last group.
  - `decodeFrom_eq_ok`: what was read, group by group, is what the writer would have written. In the last
    group this takes the reader's care about padding and spare bits (`decodeLast_eq_ok`).
  - `exists_values_of_bytes`, `exists_bytes_of_values`: the symbols of bytes that are two more than whole
    groups.
-/

import TokenTrust.Text.Base64
import TokenTrust.Text.Bytes

namespace TokenTrust.Text

theorem bytes_inj {s t : String} : bytes s = bytes t ↔ s = t := by
  refine ⟨fun h => ?_, congrArg bytes⟩
  have hdata : s.toByteArray.data = t.toByteArray.data := Array.toList_inj.mp h
  exact String.toByteArray_inj.mp (ByteArray.ext hdata)

/-- A text of ASCII characters has one byte for each. -/
theorem bytes_ofList_of_ascii {cs : List Char} (h : ∀ c ∈ cs, c.toNat ≤ 127) :
    bytes (String.ofList cs) = cs.map fun c => c.toNat.toUInt8 := by
  rw [bytes, String.toByteArray_ofList, List.utf8Encode, List.toList_data_toByteArray]
  induction cs with
  | nil => rfl
  | cons c cs ih =>
    have hc : String.utf8EncodeChar c = [c.toNat.toUInt8] := if_pos (h c List.mem_cons_self)
    rw [List.flatMap_cons, hc, ih fun d hd => h d (List.mem_cons_of_mem c hd)]
    rfl

theorem bind_eq_ok {ε α β : Type} {x : Except ε α} {f : α → Except ε β} {b : β} :
    (x >>= f) = .ok b ↔ ∃ a, x = .ok a ∧ f a = .ok b := by
  cases x with
  | error e => exact ⟨nofun, nofun⟩
  | ok a => exact ⟨fun h => ⟨a, rfl, h⟩, fun ⟨_, ha, h⟩ => by cases ha; exact h⟩

namespace Base64

/-! ## Symbols -/

def symbolByte (v : Nat) : UInt8 := (symbol v).toNat.toUInt8

theorem symbol_ascii : ∀ v < 64, (symbol v).toNat ≤ 127 := by decide

theorem symbolByte_ne_pad : ∀ v < 64, symbolByte v ≠ pad := by decide

theorem value?_byte : ∀ n < 256, ∀ v ∈ value? (UInt8.ofNat n), v < 64 ∧ symbolByte v = UInt8.ofNat n := by
  decide +kernel

theorem symbolAt_eq_ok {offset v : Nat} {b : UInt8} (h : symbolAt offset b = .ok v) :
    v < 64 ∧ b = symbolByte v := by
  unfold symbolAt at h
  cases hvalue : value? b with
  | none => rw [hvalue] at h; cases h
  | some w =>
    rw [hvalue] at h
    cases h
    have hbyte := value?_byte b.toNat b.toNat_lt
    rw [UInt8.ofNat_toNat] at hbyte
    obtain ⟨hv, hsymbol⟩ := hbyte _ hvalue
    exact ⟨hv, hsymbol.symm⟩

theorem symbolAt_symbolByte (offset : Nat) {v : Nat} (h : v < 64) :
    symbolAt offset (symbolByte v) = .ok v := by
  have hvalue : value? (symbolByte v) = some v := value?_symbol v h
  simp only [symbolAt, hvalue]

/-! ## Groups -/

theorem wholeGroup_values (a b c : UInt8) :
    wholeGroup (a.toNat / 4) (a.toNat % 4 * 16 + b.toNat / 16) (b.toNat % 16 * 4 + c.toNat / 64)
      (c.toNat % 64) = [a, b, c] := by
  have ha := a.toNat_lt
  have hb := b.toNat_lt
  have hc := c.toNat_lt
  simp only [wholeGroup, List.cons.injEq, ← UInt8.toNat_inj, UInt8.toNat_ofNat', and_true]
  omega

/-- Of the last group, the symbols before the padding give their values. -/
theorem lastValues_written (offset pos : Nat) (vs : List Nat) (padding : Nat)
    (hvs : ∀ v ∈ vs, v < 64) (hpos : 2 ≤ pos + vs.length) :
    lastValues offset pos (vs.map symbolByte ++ List.replicate padding pad) = .ok vs := by
  induction vs generalizing pos with
  | nil =>
    cases padding with
    | zero => rfl
    | succ n =>
      have hall : (List.replicate n pad).all (· == pad) := by simp
      rw [List.map_nil, List.nil_append, List.replicate_succ, lastValues, if_pos rfl,
        if_pos ⟨hpos, hall⟩]
  | cons v vs ih =>
    have hv : v < 64 := hvs v List.mem_cons_self
    have hrest := ih (pos + 1) (fun w hw => hvs w (List.mem_cons_of_mem v hw))
      (by rw [List.length_cons] at hpos; omega)
    rw [List.map_cons, List.cons_append, lastValues, if_neg (symbolByte_ne_pad v hv),
      symbolAt_symbolByte _ hv, hrest]
    rfl

theorem decodeLast_one (offset : Nat) (a : UInt8) :
    decodeLast offset [symbolByte (a.toNat / 4), symbolByte (a.toNat % 4 * 16), pad, pad] =
      .ok [a] := by
  have ha := a.toNat_lt
  have hvalues : lastValues offset 0 [symbolByte (a.toNat / 4), symbolByte (a.toNat % 4 * 16), pad, pad] =
      .ok [a.toNat / 4, a.toNat % 4 * 16] :=
    lastValues_written offset 0 [_, _] 2 (by simp; omega) (by simp)
  have hbyte : wholeGroup (a.toNat / 4) (a.toNat % 4 * 16) 0 0 = [a, 0, 0] := wholeGroup_values a 0 0
  have hspare : a.toNat % 4 * 16 % 16 = 0 := by omega
  rw [decodeLast, hvalues]
  simp [bind, Except.bind, hbyte, hspare]

theorem decodeLast_two (offset : Nat) (a b : UInt8) :
    decodeLast offset [symbolByte (a.toNat / 4), symbolByte (a.toNat % 4 * 16 + b.toNat / 16),
      symbolByte (b.toNat % 16 * 4), pad] = .ok [a, b] := by
  have ha := a.toNat_lt
  have hb := b.toNat_lt
  have hvalues : lastValues offset 0 [symbolByte (a.toNat / 4),
      symbolByte (a.toNat % 4 * 16 + b.toNat / 16), symbolByte (b.toNat % 16 * 4), pad] =
      .ok [a.toNat / 4, a.toNat % 4 * 16 + b.toNat / 16, b.toNat % 16 * 4] :=
    lastValues_written offset 0 [_, _, _] 1 (by simp; omega) (by simp)
  have hbytes : wholeGroup (a.toNat / 4) (a.toNat % 4 * 16 + b.toNat / 16) (b.toNat % 16 * 4) 0 =
      [a, b, 0] := wholeGroup_values a b 0
  have hspare : b.toNat % 16 * 4 % 4 = 0 := by omega
  rw [decodeLast, hvalues]
  simp [bind, Except.bind, hbytes, hspare]

/-- Four symbols are three bytes, be they the last or not. -/
theorem decodeFrom_group (offset : Nat) {a b c d : Nat} (ha : a < 64) (hb : b < 64) (hc : c < 64)
    (hd : d < 64) (rest : List UInt8) :
    decodeFrom offset (symbolByte a :: symbolByte b :: symbolByte c :: symbolByte d :: rest) =
      (decodeFrom (offset + 4) rest).map (wholeGroup a b c d ++ ·) := by
  cases rest with
  | nil =>
    have hvalues : lastValues offset 0 [symbolByte a, symbolByte b, symbolByte c, symbolByte d] =
        .ok [a, b, c, d] :=
      lastValues_written offset 0 [a, b, c, d] 0 (by simp; omega) (by simp)
    show decodeLast offset _ = .ok (wholeGroup a b c d ++ [])
    rw [decodeLast, hvalues]
    simp [bind, Except.bind]
  | cons e rest =>
    simp only [decodeFrom, symbolAt_symbolByte, ha, hb, hc, hd]
    rfl

/-! ## Texts -/

theorem encodeList_ascii (bytes : List UInt8) : ∀ c ∈ encodeList bytes, c.toNat ≤ 127 := by
  induction bytes using encodeList.induct with
  | case1 => simp [encodeList]
  | case2 a =>
    have ha := a.toNat_lt
    simp only [encodeList, List.forall_mem_cons]
    exact ⟨symbol_ascii _ (by omega), symbol_ascii _ (by omega), by decide, by decide, by simp⟩
  | case3 a b =>
    have ha := a.toNat_lt
    have hb := b.toNat_lt
    simp only [encodeList, List.forall_mem_cons]
    exact ⟨symbol_ascii _ (by omega), symbol_ascii _ (by omega), symbol_ascii _ (by omega), by decide,
      by simp⟩
  | case4 a b c rest ih =>
    have ha := a.toNat_lt
    have hb := b.toNat_lt
    have hc := c.toNat_lt
    simp only [encodeList, List.forall_mem_cons]
    exact ⟨symbol_ascii _ (by omega), symbol_ascii _ (by omega), symbol_ascii _ (by omega),
      symbol_ascii _ (by omega), ih⟩

theorem length_encodeList (bytes : List UInt8) :
    (encodeList bytes).length = 4 * ((bytes.length + 2) / 3) := by
  induction bytes using encodeList.induct with
  | case4 a b c rest ih =>
    simp only [encodeList, List.length_cons, ih]
    omega
  | _ => simp [encodeList]

theorem decodeFrom_encodeList (offset : Nat) (bytes : List UInt8) :
    decodeFrom offset ((encodeList bytes).map fun c => c.toNat.toUInt8) = .ok bytes := by
  induction bytes using encodeList.induct generalizing offset with
  | case1 => rfl
  | case2 a => exact decodeLast_one offset a
  | case3 a b => exact decodeLast_two offset a b
  | case4 a b c rest ih =>
    have ha := a.toNat_lt
    have hb := b.toNat_lt
    have hc := c.toNat_lt
    have hgroup := decodeFrom_group offset (a := a.toNat / 4) (b := a.toNat % 4 * 16 + b.toNat / 16)
      (c := b.toNat % 16 * 4 + c.toNat / 64) (d := c.toNat % 64) (by omega) (by omega) (by omega)
      (by omega) ((encodeList rest).map fun c => c.toNat.toUInt8)
    rw [ih, wholeGroup_values] at hgroup
    exact hgroup

theorem decode_encode (bytes : List UInt8) : decode (encode bytes) = .ok bytes := by
  have htext : (encode bytes).toByteArray.data.toList =
      (encodeList bytes).map fun c => c.toNat.toUInt8 := bytes_ofList_of_ascii (encodeList_ascii bytes)
  have hlength : ((encodeList bytes).map fun c => c.toNat.toUInt8).length % 4 ≠ 1 := by
    rw [List.length_map, length_encodeList]
    omega
  have hstray : straySymbol ((encodeList bytes).map fun c => c.toNat.toUInt8) = none := by
    unfold straySymbol
    split
    · exact if_neg fun h => hlength h.1
    · rfl
  simp only [decode, htext, hstray, decodeFrom_encodeList]

/-! ## Nothing else is read -/

theorem lastValues_eq_ok {offset pos : Nat} {group : List UInt8} {vs : List Nat}
    (h : lastValues offset pos group = .ok vs) : (∀ v ∈ vs, v < 64) ∧
      ∃ padding, group = vs.map symbolByte ++ List.replicate padding pad := by
  induction group generalizing pos vs with
  | nil =>
    cases h
    exact ⟨nofun, 0, rfl⟩
  | cons b rest ih =>
    rw [lastValues] at h
    by_cases hpad : b = pad
    · rw [if_pos hpad] at h
      by_cases hrest : 2 ≤ pos ∧ rest.all (· == pad)
      · rw [if_pos hrest] at h
        cases h
        have hreplicate : rest = List.replicate rest.length pad :=
          List.eq_replicate_iff.mpr ⟨rfl, fun c hc => by simpa using List.all_eq_true.mp hrest.2 c hc⟩
        exact ⟨nofun, rest.length + 1, by rw [hpad, List.replicate_succ, ← hreplicate]; rfl⟩
      · rw [if_neg hrest] at h
        cases h
    · rw [if_neg hpad] at h
      obtain ⟨v, hsymbol, h⟩ := bind_eq_ok.mp h
      obtain ⟨ws, hvalues, h⟩ := bind_eq_ok.mp h
      cases h
      obtain ⟨hv, rfl⟩ := symbolAt_eq_ok hsymbol
      obtain ⟨hws, padding, rfl⟩ := ih hvalues
      exact ⟨List.forall_mem_cons.mpr ⟨hv, hws⟩, padding, rfl⟩

/-- Four values are written back as they were read. -/
theorem encodeList_wholeGroup {a b c d : Nat} (ha : a < 64) (hb : b < 64) (hc : c < 64) (hd : d < 64)
    (rest : List UInt8) : encodeList (wholeGroup a b c d ++ rest) =
      symbol a :: symbol b :: symbol c :: symbol d :: encodeList rest := by
  have hfirst : (a * 4 + b / 16) % 2 ^ 8 / 4 = a := by omega
  have hsecond : (a * 4 + b / 16) % 2 ^ 8 % 4 * 16 + (b % 16 * 16 + c / 4) % 2 ^ 8 / 16 = b := by omega
  have hthird : (b % 16 * 16 + c / 4) % 2 ^ 8 % 16 * 4 + (c % 4 * 64 + d) % 2 ^ 8 / 64 = c := by omega
  have hfourth : (c % 4 * 64 + d) % 2 ^ 8 % 64 = d := by omega
  simp only [wholeGroup, List.cons_append, List.nil_append, encodeList, UInt8.toNat_ofNat', hfirst,
    hsecond, hthird, hfourth]

theorem encodeList_one {a b : Nat} (ha : a < 64) (hb : b < 64) (hspare : b % 16 = 0) :
    encodeList ((wholeGroup a b 0 0).take 1) = [symbol a, symbol b, '=', '='] := by
  have hfirst : (a * 4 + b / 16) % 2 ^ 8 / 4 = a := by omega
  have hsecond : (a * 4 + b / 16) % 2 ^ 8 % 4 * 16 = b := by omega
  simp only [wholeGroup, List.take_succ_cons, List.take_zero, encodeList, UInt8.toNat_ofNat', hfirst, hsecond]

theorem encodeList_two {a b c : Nat} (ha : a < 64) (hb : b < 64) (hc : c < 64) (hspare : c % 4 = 0) :
    encodeList ((wholeGroup a b c 0).take 2) = [symbol a, symbol b, symbol c, '='] := by
  have hfirst : (a * 4 + b / 16) % 2 ^ 8 / 4 = a := by omega
  have hsecond : (a * 4 + b / 16) % 2 ^ 8 % 4 * 16 + (b % 16 * 16 + c / 4) % 2 ^ 8 / 16 = b := by omega
  have hthird : (b % 16 * 16 + c / 4) % 2 ^ 8 % 16 * 4 = c := by omega
  simp only [wholeGroup, List.take_succ_cons, List.take_zero, encodeList, UInt8.toNat_ofNat', hfirst, hsecond,
    hthird]

/-- The last group is written back as it was read, since its spare bits were zero. -/
theorem decodeLast_eq_ok {offset : Nat} {group bytes : List UInt8} (hlength : group.length ≤ 4)
    (h : decodeLast offset group = .ok bytes) :
    group = (encodeList bytes).map fun c => c.toNat.toUInt8 := by
  rw [decodeLast] at h
  obtain ⟨vs, hvalues, h⟩ := bind_eq_ok.mp h
  obtain ⟨hvs, padding, rfl⟩ := lastValues_eq_ok hvalues
  split at h
  · cases h
  rename_i hfew
  split at h
  · cases h
  rename_i hwhole
  simp only [List.length_append, List.length_map, List.length_replicate] at hlength hwhole
  split at h
  · rename_i a b
    split at h
    · rename_i hspare
      cases h
      obtain rfl : padding = 2 := by simp at hlength hwhole; omega
      simp only [List.forall_mem_cons] at hvs
      rw [encodeList_one hvs.1 hvs.2.1 hspare]
      rfl
    · cases h
  · rename_i a b c
    split at h
    · rename_i hspare
      cases h
      obtain rfl : padding = 1 := by simp at hlength hwhole; omega
      simp only [List.forall_mem_cons] at hvs
      rw [encodeList_two hvs.1 hvs.2.1 hvs.2.2.1 hspare]
      rfl
    · cases h
  · rename_i a b c d
    cases h
    obtain rfl : padding = 0 := by simp at hlength hwhole; omega
    simp only [List.forall_mem_cons] at hvs
    have hwritten := encodeList_wholeGroup hvs.1 hvs.2.1 hvs.2.2.1 hvs.2.2.2.1 []
    rw [List.append_nil] at hwritten
    rw [hwritten]
    rfl
  -- with fewer than two symbols there is no group at all
  · rename_i htwo hthree hfour
    cases h
    have hshort : vs.length < 2 := by
      rcases vs with _ | ⟨a, _ | ⟨b, _ | ⟨c, _ | ⟨d, _ | ⟨e, vs⟩⟩⟩⟩⟩
      · simp
      · simp
      · exact absurd rfl (htwo a b)
      · exact absurd rfl (hthree a b c)
      · exact absurd rfl (hfour a b c d)
      · simp only [List.length_cons] at hlength
        omega
    exact Classical.not_not.mp fun hgroup => hfew ⟨hgroup, hshort⟩

/-- What was read is, group by group, what the writer would have written. -/
theorem decodeFrom_eq_ok {offset : Nat} {group bytes : List UInt8} (h : decodeFrom offset group = .ok bytes) :
    group = (encodeList bytes).map fun c => c.toNat.toUInt8 := by
  induction offset, group using decodeFrom.induct generalizing bytes with
  | case1 offset a b c d e rest ih =>
    rw [decodeFrom] at h
    obtain ⟨va, ha, h⟩ := bind_eq_ok.mp h
    obtain ⟨vb, hb, h⟩ := bind_eq_ok.mp h
    obtain ⟨vc, hc, h⟩ := bind_eq_ok.mp h
    obtain ⟨vd, hd, h⟩ := bind_eq_ok.mp h
    obtain ⟨others, hothers, h⟩ := bind_eq_ok.mp h
    cases h
    obtain ⟨hva, rfl⟩ := symbolAt_eq_ok ha
    obtain ⟨hvb, rfl⟩ := symbolAt_eq_ok hb
    obtain ⟨hvc, rfl⟩ := symbolAt_eq_ok hc
    obtain ⟨hvd, rfl⟩ := symbolAt_eq_ok hd
    rw [encodeList_wholeGroup hva hvb hvc hvd, ih hothers]
    rfl
  | case2 offset group hlast =>
    have hlength : group.length ≤ 4 := by
      match group, hlast with
      | [], _ | [_], _ | [_, _], _ | [_, _, _], _ | [_, _, _, _], _ => simp
      | a :: b :: c :: d :: e :: rest, hlast => exact (hlast a b c d e rest rfl).elim
    rw [decodeFrom] at h
    · exact decodeLast_eq_ok hlength h
    · exact hlast

/-- The text of some bytes is the one text that is read as them. -/
theorem decode_eq_ok_iff {s : String} {bytes : List UInt8} :
    decode s = .ok bytes ↔ s = encode bytes := by
  refine ⟨fun h => ?_, fun h => h ▸ decode_encode bytes⟩
  rw [decode] at h
  split at h
  · cases h
  · rw [← bytes_inj]
    exact (decodeFrom_eq_ok h).trans (bytes_ofList_of_ascii (encodeList_ascii bytes)).symm

theorem encode_inj {bytes bytes' : List UInt8} : encode bytes = encode bytes' ↔ bytes = bytes' := by
  refine ⟨fun h => ?_, congrArg encode⟩
  have hread := decode_encode bytes
  rw [h, decode_encode] at hread
  cases hread
  rfl

/-! ## Two bytes beyond the groups -/

theorem exists_values_of_bytes {n : Nat} {bytes : List UInt8} (h : bytes.length = 3 * n + 2) :
    ∃ (vs : List Nat) (last : Nat), vs.length = 4 * n + 2 ∧ (∀ v ∈ vs, v < 64) ∧ last < 16 ∧
      encodeList bytes = vs.map symbol ++ [symbol (last * 4), '='] := by
  induction n generalizing bytes with
  | zero =>
    match bytes, h with
    | [a, b], _ =>
      have ha := a.toNat_lt
      have hb := b.toNat_lt
      refine ⟨[a.toNat / 4, a.toNat % 4 * 16 + b.toNat / 16], b.toNat % 16, rfl, ?_, by omega, rfl⟩
      simp only [List.forall_mem_cons]
      exact ⟨by omega, by omega, nofun⟩
  | succ n ih =>
    match bytes, h with
    | a :: b :: c :: rest, h =>
      simp only [List.length_cons] at h
      have ha := a.toNat_lt
      have hb := b.toNat_lt
      have hc := c.toNat_lt
      have hlonger : rest.length = 3 * n + 2 := by omega
      obtain ⟨vs, last, hlength, hvs, hlast, hrest⟩ := ih hlonger
      refine ⟨a.toNat / 4 :: (a.toNat % 4 * 16 + b.toNat / 16) :: (b.toNat % 16 * 4 + c.toNat / 64) ::
        c.toNat % 64 :: vs, last, ?_, ?_, hlast, ?_⟩
      · simp only [List.length_cons, hlength]
        omega
      · simp only [List.forall_mem_cons]
        exact ⟨by omega, by omega, by omega, by omega, hvs⟩
      · rw [encodeList, hrest]
        rfl

theorem exists_bytes_of_values {n last : Nat} {vs : List Nat} (hlength : vs.length = 4 * n + 2)
    (hvs : ∀ v ∈ vs, v < 64) (hlast : last < 16) : ∃ bytes : List UInt8, bytes.length = 3 * n + 2 ∧
      encodeList bytes = vs.map symbol ++ [symbol (last * 4), '='] := by
  induction n generalizing vs with
  | zero =>
    match vs, hlength with
    | [a, b], _ =>
      simp only [List.forall_mem_cons] at hvs
      exact ⟨_, rfl, encodeList_two hvs.1 hvs.2.1 (by omega) (by omega)⟩
  | succ n ih =>
    match vs, hlength with
    | a :: b :: c :: d :: vs, hlength =>
      simp only [List.length_cons] at hlength
      simp only [List.forall_mem_cons] at hvs
      obtain ⟨ha, hb, hc, hd, hvs⟩ := hvs
      obtain ⟨bytes, hbytes, hwritten⟩ := ih (by omega) hvs
      refine ⟨wholeGroup a b c d ++ bytes, ?_, ?_⟩
      · rw [List.length_append, hbytes, wholeGroup, List.length_cons, List.length_cons,
          List.length_cons, List.length_nil]
        omega
      · rw [encodeList_wholeGroup ha hb hc hd, hwritten]
        rfl

end Base64

end TokenTrust.Text
