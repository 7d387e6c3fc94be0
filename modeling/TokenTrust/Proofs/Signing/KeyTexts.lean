/-
  TokenTrust.Proofs.Signing.KeyTexts — a key has one text, and is loaded from no other.

  Blanks around a text apart, both loaders read what the writer writes for 32 bytes and refuse the rest
  (`bytesOfText_eq_ok_iff`), so nothing is lost between a text and its key.
  - `isKeyText_iff_symbols`: such a text by its symbols.
  - `key_texts_exact`: a key that was loaded writes the text it was loaded from; what is no text of 32
    bytes is an invalid key to both loaders; two texts give the same bytes only if they are the same.
  - `spare_bit_refused`: one symbol away from the text of a seed, a text that writes no bytes.
-/

import TokenTrust.Proofs.Signing.Checking

namespace TokenTrust.KeyPair

open Crypto Text

variable {s text : String} {bytes : List UInt8} {k : KeyPair}

/-- The texts of keys: what is written for 32 bytes. -/
def IsKeyText (text : String) : Prop := ∃ bytes, bytes.length = keySize ∧ text = Base64.encode bytes

theorem isKeyText_iff :
    IsKeyText text ↔ (Base64.decode text).toOption.map List.length = some keySize := by
  refine ⟨?_, fun h => ?_⟩
  · rintro ⟨bytes, hlength, rfl⟩
    rw [Base64.decode_encode]
    exact congrArg some hlength
  · cases hread : Base64.decode text with
    | error e => rw [hread] at h; cases h
    | ok bytes =>
      rw [hread] at h
      exact ⟨bytes, Option.some.inj h, Base64.decode_eq_ok_iff.mp hread⟩

/-- The 32 bytes are ten groups and two bytes more: 42 symbols, one whose two spare bits are zero, and
one `=`. -/
theorem isKeyText_iff_symbols : IsKeyText text ↔ ∃ (vs : List Nat) (last : Nat), vs.length = 42 ∧
    (∀ v ∈ vs, v < 64) ∧ last < 16 ∧
    text = String.ofList (vs.map Base64.symbol ++ [Base64.symbol (last * 4), '=']) := by
  constructor
  · rintro ⟨bytes, hlength, rfl⟩
    obtain ⟨vs, last, hvs, hsmall, hlast, hwritten⟩ := Base64.exists_values_of_bytes (n := 10) hlength
    exact ⟨vs, last, hvs, hsmall, hlast, congrArg String.ofList hwritten⟩
  · rintro ⟨vs, last, hvs, hsmall, hlast, rfl⟩
    obtain ⟨bytes, hlength, hwritten⟩ := Base64.exists_bytes_of_values (n := 10) hvs hsmall hlast
    exact ⟨bytes, hlength, (congrArg String.ofList hwritten).symm⟩

instance : Decidable (IsKeyText text) := decidable_of_iff _ isKeyText_iff.symm

/-! ## Loading -/

theorem bytesOfText_eq_ok_iff :
    bytesOfText s = .ok bytes ↔ bytes.length = keySize ∧ trim s = Base64.encode bytes := by
  rw [bytesOfText]
  cases hread : Base64.decode (trim s) with
  | error e =>
    refine ⟨nofun, fun h => ?_⟩
    rw [h.2, Base64.decode_encode] at hread
    cases hread
  | ok read =>
    rw [Base64.decode_eq_ok_iff.mp hread, Base64.encode_inj]
    by_cases hlength : read.length = keySize
    · simp only [if_pos hlength, Except.ok.injEq]
      exact ⟨fun h => ⟨h ▸ hlength, h⟩, And.right⟩
    · simp only [if_neg hlength, reduceCtorEq, false_iff]
      rintro ⟨h, rfl⟩
      exact hlength h

theorem bytesOfText_of_not (h : ¬IsKeyText (trim s)) : ∃ m, bytesOfText s = .error (.invalidKey m) := by
  rw [bytesOfText]
  cases hread : Base64.decode (trim s) with
  | error e => exact ⟨e.message, rfl⟩
  | ok bytes =>
    have hlength : bytes.length ≠ keySize := fun hlength =>
      h ⟨bytes, hlength, Base64.decode_eq_ok_iff.mp hread⟩
    exact ⟨_, if_neg hlength⟩

theorem bytesOfText_trim (s : String) : bytesOfText (trim s) = bytesOfText s := by
  simp only [bytesOfText, trim_trim]

theorem ofPrivateText_eq_ok_iff : ofPrivateText s = .ok k ↔
    ∃ seed, seed.length = keySize ∧ trim s = Base64.encode seed ∧ k = ofSeed seed := by
  simp only [ofPrivateText, ← and_assoc, ← bytesOfText_eq_ok_iff]
  cases bytesOfText s with
  | error e => exact ⟨nofun, nofun⟩
  | ok seed => exact ⟨fun h => ⟨seed, rfl, by cases h; rfl⟩, fun ⟨_, h, hk⟩ => by cases h; rw [hk]; rfl⟩

theorem bytes_of_ofBytes? {key : Ed25519.PublicKey} (h : Ed25519.PublicKey.ofBytes? bytes = some key) :
    key.bytes = bytes := by
  obtain ⟨point, -, rfl⟩ := Option.map_eq_some_iff.mp h
  rfl

/-- A public key is kept with the bytes it was read from. -/
theorem ofPublicText_eq_ok_iff : ofPublicText s = .ok k ↔
    ∃ key, key.bytes.length = keySize ∧ trim s = Base64.encode key.bytes ∧
      Ed25519.PublicKey.ofBytes? key.bytes = some key ∧ k = .verifying key := by
  rw [ofPublicText, bind_eq_ok]
  constructor
  · rintro ⟨bytes, hbytes, hkey⟩
    obtain ⟨hlength, htext⟩ := bytesOfText_eq_ok_iff.mp hbytes
    cases hread : Ed25519.PublicKey.ofBytes? bytes with
    | none => rw [hread] at hkey; cases hkey
    | some key =>
      rw [hread] at hkey
      cases hkey
      obtain rfl := bytes_of_ofBytes? hread
      exact ⟨key, hlength, htext, hread, rfl⟩
  · rintro ⟨key, hlength, htext, hread, rfl⟩
    exact ⟨key.bytes, bytesOfText_eq_ok_iff.mpr ⟨hlength, htext⟩, by rw [hread]⟩

/-! ## Text and key -/

def publicBytes? (k : KeyPair) : Option (List UInt8) := k.publicKey?.map Ed25519.PublicKey.bytes

/-- A loaded key writes the text it was loaded from, blanks apart, and a private one is loaded from it
again. What is no text of 32 bytes, by its symbols, is an invalid key, and is loaded by neither; the text
of 32 bytes is a private key, and a public one if they write a point. So two texts have the same key if
they differ in blanks around them alone. -/
theorem key_texts_exact (s s' : String) :
    (IsKeyText (trim s) ↔ ∃ (vs : List Nat) (last : Nat), vs.length = 42 ∧ (∀ v ∈ vs, v < 64) ∧ last < 16 ∧
      trim s = String.ofList (vs.map Base64.symbol ++ [Base64.symbol (last * 4), '='])) ∧
    (∀ k, ofPublicText s = .ok k → k.hasPrivate = false ∧ k.publicText? = some (trim s)) ∧
    (∀ k, ofPrivateText s = .ok k →
      k.privateText = .ok (trim s) ∧ ofPrivateText (trim s) = .ok k ∧ k.hasPublic = true) ∧
    (IsKeyText (trim s) →
      (∃ k, ofPrivateText s = .ok k) ∧
      ∃! bytes, bytes.length = keySize ∧ trim s = Base64.encode bytes ∧
        ((∃ k, ofPublicText s = .ok k) ↔ (Ed25519.PublicKey.ofBytes? bytes).isSome)) ∧
    (¬IsKeyText (trim s) →
      ∃ m, ofPublicText s = .error (.invalidKey m) ∧ ofPrivateText s = .error (.invalidKey m)) ∧
    (∀ k k', ofPublicText s = .ok k → ofPublicText s' = .ok k' →
      (k.publicBytes? = k'.publicBytes? ↔ trim s = trim s')) ∧
    ∀ k k', ofPrivateText s = .ok k → ofPrivateText s' = .ok k' →
      (k.seed? = k'.seed? ↔ trim s = trim s') := by
  refine ⟨isKeyText_iff_symbols, fun k h => ?checking, fun k h => ?signing, fun h => ?text,
    fun h => ?other, ?publics, ?privates⟩
  case checking =>
    obtain ⟨key, -, htext, -, rfl⟩ := ofPublicText_eq_ok_iff.mp h
    exact ⟨rfl, congrArg some htext.symm⟩
  case signing =>
    obtain ⟨seed, -, htext, rfl⟩ := ofPrivateText_eq_ok_iff.mp h
    exact ⟨congrArg Except.ok htext.symm, by rw [ofPrivateText, bytesOfText_trim]; exact h, rfl⟩
  case text =>
    obtain ⟨bytes, hlength, htext⟩ := h
    refine ⟨⟨ofSeed bytes, ofPrivateText_eq_ok_iff.mpr ⟨bytes, hlength, htext, rfl⟩⟩,
      bytes, ⟨hlength, htext, ?_⟩, fun other hother => ?_⟩
    · rw [Option.isSome_iff_exists]
      constructor
      · rintro ⟨k, hk⟩
        obtain ⟨key, -, hkey, hread, -⟩ := ofPublicText_eq_ok_iff.mp hk
        rw [Base64.encode_inj.mp (htext.symm.trans hkey)]
        exact ⟨key, hread⟩
      · rintro ⟨key, hread⟩
        obtain rfl := bytes_of_ofBytes? hread
        exact ⟨_, ofPublicText_eq_ok_iff.mpr ⟨key, hlength, htext, hread, rfl⟩⟩
    · exact Base64.encode_inj.mp (hother.2.1.symm.trans htext)
  case other =>
    obtain ⟨m, hm⟩ := bytesOfText_of_not h
    exact ⟨m, by rw [ofPublicText, hm]; rfl, by rw [ofPrivateText, hm]; rfl⟩
  case publics =>
    intro k k' hk hk'
    obtain ⟨key, -, htext, -, rfl⟩ := ofPublicText_eq_ok_iff.mp hk
    obtain ⟨key', -, htext', -, rfl⟩ := ofPublicText_eq_ok_iff.mp hk'
    rw [htext, htext', Base64.encode_inj]
    exact Option.some_inj
  case privates =>
    intro k k' hk hk'
    obtain ⟨seed, -, htext, rfl⟩ := ofPrivateText_eq_ok_iff.mp hk
    obtain ⟨seed', -, htext', rfl⟩ := ofPrivateText_eq_ok_iff.mp hk'
    rw [htext, htext', Base64.encode_inj]
    exact Option.some_inj

/-- The text of the desk's seed between blanks, the same with one of its spare bits set, and the text of
its public half. -/
def deskText : String := "\u2003Hh4eHh4eHh4eHh4eHh4eHh4eHh4eHh4eHh4eHh4eHh4=\r\n"
def bentText : String := "Hh4eHh4eHh4eHh4eHh4eHh4eHh4eHh4eHh4eHh4eHh5="
def deskPublicText : String := Base64.encode (Ed25519.publicKey (List.replicate 32 0x1e)).bytes

theorem spare_bit_refused :
    (∃ k, ofPrivateText deskText = .ok k ∧ k.seed? = desk.seed? ∧
      k.privateText = .ok "Hh4eHh4eHh4eHh4eHh4eHh4eHh4eHh4eHh4eHh4eHh4=") ∧
    (∃ k, ofPublicText deskPublicText = .ok k ∧ k.hasPrivate = false ∧
      k.publicText? = desk.publicText?) ∧
    ∃ m, ofPublicText bentText = .error (.invalidKey m) ∧ ofPrivateText bentText = .error (.invalidKey m) := by
  obtain ⟨-, -, written, loads, -, -, same⟩ := key_texts_exact deskText (trim deskText)
  obtain ⟨-, shown, -, reads, -⟩ := key_texts_exact deskPublicText ""
  obtain ⟨-, -, -, -, refused, -⟩ := key_texts_exact bentText ""
  have htrim : trim deskText = "Hh4eHh4eHh4eHh4eHh4eHh4eHh4eHh4eHh4eHh4eHh4=" := by decide +kernel
  have htrim' : trim deskPublicText = deskPublicText := by decide +kernel
  refine ⟨?seed, ?point, refused (by decide +kernel)⟩
  case seed =>
    obtain ⟨k, hk⟩ := (loads (by decide +kernel)).1
    obtain ⟨hwritten, -, -⟩ := written k hk
    have hdesk : ofPrivateText (trim deskText) = .ok desk :=
      ofPrivateText_eq_ok_iff.mpr ⟨List.replicate 32 0x1e, rfl, by decide +kernel, rfl⟩
    exact ⟨k, hk, (same k desk hk hdesk).mpr (trim_trim _).symm, htrim ▸ hwritten⟩
  case point =>
    obtain ⟨-, bytes, ⟨-, htext, hreads⟩, -⟩ := reads (by decide +kernel)
    have hbytes : bytes = (Ed25519.publicKey (List.replicate 32 0x1e)).bytes :=
      Base64.encode_inj.mp (htext.symm.trans htrim')
    obtain ⟨k, hk⟩ := hreads.mpr (by rw [hbytes]; decide +kernel)
    obtain ⟨hhalf, htext'⟩ := shown k hk
    exact ⟨k, hk, hhalf, by rw [htext', htrim']; rfl⟩

end TokenTrust.KeyPair
