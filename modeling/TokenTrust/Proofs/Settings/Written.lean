/-
  TokenTrust.Proofs.Settings.Written — settings are read back as they were written, the labels of the
  configured user in any order.

  Here a field that has no value is written as `null`, and the mode by its own name, one of the names
  that it is known by.
-/

import TokenTrust.Proofs.Token.Written
import TokenTrust.Settings.Basic

namespace TokenTrust

open Json

theorem TrustMode.ofText_name (m : TrustMode) : ofText m.name = m := by
  cases m <;> decide

theorem TrustMode.codec_lawful : TrustMode.codec.Lawful := fun m => by
  refine ⟨⟨'"', _, rfl, by decide⟩, fun rest hrest => ?_⟩
  have hname := (text_lawful m.name).reads rest hrest
  show (text.read (text.write m.name ++ rest)).map _ = _
  simp only [hname, Except.map, ofText_name]

namespace Settings

def forms (l : Listings) : Forms [String, TrustMode, Bool, String, Option String,
    OrderedSet String, UInt64, UInt64, String, Option String, Option String, Option String] :=
  (none, none, none, none, none, some (listedSet l.mockLabels text), none, none, none, none, none,
    none, ())

def listed (l : Listings) : Codec Settings :=
  codec.writingBy ((fields TrustMode.codec).inForms (forms l)) row

theorem listed_lawful (l : Listings) : (listed l).Lawful := by
  have heach : ((fields TrustMode.codec).inForms (forms l)).Each :=
    ⟨.withDefault text_lawful _ _, .withDefault TrustMode.codec_lawful _ _,
      .withDefault boolean_lawful _ _, .withDefault text_lawful _ _, .nullable text_lawful _ _,
      .withDefault (listedSet_lawful _ text_lawful) _ _, .withDefault (uint64_lawful _) _ _,
      .withDefault (uint64_lawful _) _ _, .withDefault text_lawful _ _, .nullable text_lawful _ _,
      .nullable text_lawful _ _, .nullable text_lawful _ _, trivial⟩
  have halike : (fields TrustMode.codec).ReadAlike (forms l) :=
    ⟨rfl, rfl, rfl, rfl, rfl, rfl, rfl, rfl, rfl, rfl, rfl, rfl, trivial⟩
  exact record_inForms_lawful (by decide) heach halike _ fun _ => rfl

theorem read_listed (l : Listings) : (listed l).read = codec.read := Codec.read_writingBy ..

theorem listed_inOrder : listed {} = codec := rfl

theorem codec_lawful : codec.Lawful := listed_inOrder ▸ listed_lawful {}

end Settings

end TokenTrust
