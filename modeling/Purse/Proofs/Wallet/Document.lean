import Purse.Proofs.Json.Record
import Purse.Proofs.Timestamp.Text
import Purse.Proofs.Uuid
import Purse.Wallet.Document

/-!
# Wallets are read as they were written

The parts of a written wallet are read back one by one: identifiers from their one spelling,
balances from all their digits, the timestamp from universal time. What may be read as the same
wallet is much more, since members may stand in any order, among others or in an array, and
identifiers and timestamps have many spellings. Whatever it was read from, a wallet is written in
one way, and that text does not change any more when it is read and written again
(`Wallet.walletDocument_roundTrip`).
-/

namespace Purse

namespace Json

/-! ### Parts of a record -/

theorem uuid?_ofString (u : Uuid) : (ofString u.text).uuid? = some u := by
  rw [uuid?, ofString, text?, Option.bind_eq_bind, Option.bind_some, Uuid.ofText?_text]

theorem timestamp?_ofString {t : Timestamp} (plain : t.IsPlain) :
    (ofString t.text).timestamp? = some t := by
  rw [timestamp?, ofString, text?, Option.bind_eq_bind, Option.bind_some,
    Timestamp.ofText?_text plain]

/-- An integer keeps all its digits. -/
theorem int?_ofInt (k : Int) : (ofInt k).int? = some k := by
  have value : (Numeral.ofInt k).wholeValue = k := by
    rw [Numeral.wholeValue, Numeral.ofInt, Text.natOfDigits_decimal, Binary64.signed]
    simp only [decide_eq_true_eq]
    omega
  have kept : (Numeral.ofInt k).isWhole && !((Numeral.ofInt k).negative && k == 0) := by
    by_cases zero : k = 0
    · subst zero
      rfl
    · simp [Numeral.ofInt, Numeral.isWhole, zero]
  rw [ofInt, int?, value, if_pos kept]

/-- **A balance keeps all its digits,** up to the least and the greatest. -/
theorem minorUnits?_ofInt (u : MinorUnits) : (ofInt u.units).minorUnits? = some u := by
  rw [minorUnits?, int?_ofInt]
  exact MinorUnits.ofInt?_eq_some_iff.2 rfl

end Json

namespace Wallet

variable {w : Wallet} {s : String}

/-- The members of a written wallet. -/
def members (w : Wallet) : List (String × Json) :=
  [("id", .ofString w.id.text), ("user_id", .ofString w.user.text), ("usd", .ofInt w.usd.units),
    ("rub", .ofInt w.rub.units), ("eur", .ofInt w.eur.units),
    ("updated_at", .ofString w.updatedAt.text)]

theorem toJson_eq (w : Wallet) : w.toJson = .ofMembers w.members := rfl

theorem nodup_members (w : Wallet) : (w.members.map Prod.fst).Nodup := by
  have names : memberNames.Nodup := by decide
  exact names

theorem proper_toJson (w : Wallet) : w.toJson.Proper := by
  simp [toJson, Json.ofMembers, Json.Proper, Json.ProperMembers, Json.ofString, Json.ofInt,
    Numeral.wellFormed_ofInt]

theorem ofJson?_toJson (plain : w.updatedAt.IsPlain) : ofJson? w.toJson = some w := by
  have found : w.toJson.record? memberNames = some (w.members.map fun m => some m.2) := by
    rw [toJson_eq]
    exact Json.record?_ofMembers [] w.nodup_members nofun
  rw [ofJson?, found]
  simp only [members, List.map_cons, List.map_nil, Option.bind_eq_bind, Option.bind_some,
    Json.required?, Json.uuid?_ofString, Json.minorUnits?_ofInt, Json.timestamp?_ofString plain]
  rfl

/-- A wallet is read from any value that says what its record says. -/
theorem ofJson?_of_spells {v : Json} (plain : w.updatedAt.IsPlain)
    (h : v.Spells memberNames w.members) : ofJson? v = some w := by
  have alike : v.record? memberNames = w.toJson.record? memberNames := by
    rw [toJson_eq]
    exact Json.record?_of_spells [] w.nodup_members nofun h
  rw [← ofJson?_toJson plain, ofJson?, ofJson?, alike]

/-- **A wallet is read as it was written, and its text is settled.** It is also read from every text
that has the same members in another order, among others or in an array. Whichever text it was read
from, that text is written again as the one of the wallet, and this one as itself. -/
theorem walletDocument_roundTrip (plain : w.updatedAt.IsPlain) :
    ofDocument? w.document = some w ∧
      (∀ s v, Json.ofText? s = some v → v.Spells memberNames w.members → ofDocument? s = some w) ∧
      ∀ s, ofDocument? s = some w →
        Json.rewritten? ofDocument? document s = some w.document ∧
          ofDocument? w.document = ofDocument? s ∧
            Json.rewritten? ofDocument? document w.document = some w.document := by
  have back : ofDocument? w.document = some w := by
    rw [ofDocument?, document, Json.ofText?_compactText w.proper_toJson, Option.bind_eq_bind,
      Option.bind_some, ofJson?_toJson plain]
  refine ⟨back, ?_, fun s read => Json.settled_of_read back read⟩
  intro s v text spells
  rw [ofDocument?, text, Option.bind_eq_bind, Option.bind_some, ofJson?_of_spells plain spells]

/-- A wallet with the least and the greatest balance, last changed in the last second of a year. -/
def hoard : Wallet where
  id := .ofNat 0x550e8400e29b41d4a716446655440000
  user := .ofNat 0x6ba7b8109dad11d180b400c04fd430c8
  usd := ⟨-9223372036854775808, by decide, by decide⟩
  rub := ⟨9223372036854775807, by decide, by decide⟩
  eur := .zero
  updatedAt := ⟨1577836799, 123456789, by decide⟩

/-- That wallet as somebody else might write it. -/
def hoardText : String :=
  " \x7b\"updated_at\": \"2020-01-01t01:29:59.1234567895+01:30\"," ++
  " \"note\": \x7b\"a\": [1.5E3, null, \"\\ud83d\\ude00\"]\x7d," ++
  "\n\"eur\":0, \"usd\":-9223372036854775808, \"rub\":9223372036854775807," ++
  "\"user_id\": \"urn:uuid:6BA7B810-9dad-11d1-80b4-00c04fd430c8\"," ++
  "\"\\u0069d\": \"\x7b550e8400-e29b-41d4-a716-446655440000\x7d\"\x7d"

/-- It is read from that text, and from the array of its values, and written as usual. -/
theorem ofDocument?_hoardText :
    hoard.updatedAt.IsPlain ∧ ofDocument? hoardText = some hoard ∧
      ofDocument? (Json.compactText (.array (hoard.members.map Prod.snd))) = some hoard ∧
        Json.rewritten? ofDocument? document hoardText = some hoard.document ∧
          Json.rewritten? ofDocument? document hoard.document = some hoard.document := by
  have plain : hoard.updatedAt.IsPlain := ⟨by decide, by decide, rfl⟩
  have read : ofDocument? hoardText = some hoard := by
    show (Json.ofChars? hoardText.toList).bind ofJson? = some hoard
    -- the characters are those of the lines, which are short
    unfold hoardText
    simp only [String.toList_append]
    decide +kernel
  have proper : (Json.array (hoard.members.map Prod.snd)).Proper := by
    simp [members, Json.Proper, Json.ProperItems, Json.ofString, Json.ofInt,
      Numeral.wellFormed_ofInt]
  obtain ⟨-, spelled, settled⟩ := walletDocument_roundTrip plain
  exact ⟨plain, read, spelled _ _ (Json.ofText?_compactText proper) .array,
    (settled _ read).1, (settled _ read).2.2⟩

end Wallet

end Purse
