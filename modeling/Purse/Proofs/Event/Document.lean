import Purse.Event.Document
import Purse.Proofs.Decimal.Layout
import Purse.Proofs.Wallet.Document

/-!
# Events are read as they were written

An event is written as a record whose last member, the details, is left out if there are none. All
its members but one are read back whatever they are: identifiers, the kind by its name, and texts
with any characters. The amount is a double, and a reader of doubles may miss the last place, so it
has to be assumed of the amount that its own numeral reads back as it (`Json.ReadsBack`). Then the
event is read as it was written, under the same key, and its text does not change any more when it
is read and written again (`WalletEvent.eventDocument_roundTrip`).
-/

namespace Purse

namespace Json

variable {x : Float}

/-! ### Amounts -/

/-- The written form of a double reads back as the double. -/
def ReadsBack (x : Float) : Prop :=
  (ofText? (ofDouble x).compactText).bind double? = some x

/-- A double is written in a form that documents allow. -/
theorem proper_ofDouble (x : Float) : (ofDouble x).Proper := by
  unfold ofDouble
  split
  · next eq => exact FloatLayout.wellFormed_numeral? FloatLayout.isProper_document eq
  · trivial

theorem readsBack_iff : ReadsBack x ↔ (ofDouble x).double? = some x := by
  rw [ReadsBack, ofText?_compactText (proper_ofDouble x), Option.bind_some]

end Json

namespace WalletEvent

variable {e : WalletEvent}

/-! ### Members of an event -/

/-- Each kind is read by its name. -/
theorem name?_ofString (k : EventKind) :
    (Json.ofString k.name).name? EventKind.ofName? = some k := by
  cases k <;> decide

/-- The members of an event that are always written. -/
def leading (e : WalletEvent) : List (String × Json) :=
  [("event_id", .ofString e.id.text), ("event", .ofString e.kind.name),
    ("user_id", .ofString e.user.text), ("wallet_id", .ofString e.wallet.text),
    ("amount", .ofDouble e.amount), ("currency", .ofString e.currency),
    ("timestamp", .ofString e.timestamp.text)]

/-- The members of a written event. -/
def members (e : WalletEvent) : List (String × Json) :=
  e.leading ++ (e.details.map fun details => ("details", Json.ofString details)).toList

/-- The members of an event with the details in any case. -/
def allMembers (e : WalletEvent) : List (String × Json) :=
  e.leading ++ [("details", e.details.elim .null .ofString)]

theorem toJson_eq (e : WalletEvent) : e.toJson = .ofMembers e.members := rfl

theorem nodup_allMembers (e : WalletEvent) : (e.allMembers.map Prod.fst).Nodup := by
  have names : memberNames.Nodup := by decide
  exact names

theorem nodup_leading (e : WalletEvent) : (e.leading.map Prod.fst).Nodup := by
  have names : (memberNames.take 7).Nodup := by decide
  exact names

theorem details_not_mem_leading (e : WalletEvent) : "details" ∉ e.leading.map Prod.fst := by
  have names : "details" ∉ memberNames.take 7 := by decide
  exact names

theorem proper_toJson (e : WalletEvent) : e.toJson.Proper := by
  have amount := Json.proper_ofDouble e.amount
  cases h : e.details <;>
    simp [toJson, h, Json.ofMembers, Json.Proper, Json.ProperMembers, Json.ofString, amount]

/-- What stands in the place of the details has to be read as the details. -/
theorem ofJson?_of_record? {v : Json} {details : Option Json} (plain : e.timestamp.IsPlain)
    (amount : Json.ReadsBack e.amount)
    (found : v.record? memberNames = some (e.leading.map (fun m => some m.2) ++ [details]))
    (last : Json.defaulted? (Json.optional? Json.text?) none details = some e.details) :
    ofJson? v = some e := by
  rw [ofJson?, found]
  simp only [leading, List.map_cons, List.map_nil, List.cons_append, List.nil_append,
    Option.bind_eq_bind, Option.bind_some, Json.required?, Json.uuid?_ofString, name?_ofString,
    Json.readsBack_iff.1 amount, Json.timestamp?_ofString plain, last]
  rfl

/-- With the details written in any case. -/
theorem ofJson?_of_spells_allMembers {v : Json} (plain : e.timestamp.IsPlain)
    (amount : Json.ReadsBack e.amount) (h : v.Spells memberNames e.allMembers) :
    ofJson? v = some e := by
  have alike : v.record? memberNames = (Json.ofMembers e.allMembers).record? memberNames :=
    Json.record?_of_spells [] e.nodup_allMembers nofun h
  have found : v.record? memberNames = some (e.allMembers.map fun m => some m.2) :=
    alike.trans (Json.record?_ofMembers [] e.nodup_allMembers nofun)
  rw [allMembers, List.map_append] at found
  refine ofJson?_of_record? plain amount found ?_
  cases e.details <;> rfl

/-- A missing member for the details is as good as one that says that there are none. -/
theorem ofJson?_of_spells {v : Json} (plain : e.timestamp.IsPlain)
    (amount : Json.ReadsBack e.amount) (h : v.Spells memberNames e.members) :
    ofJson? v = some e := by
  cases eq : e.details with
  | some details =>
    have all : e.members = e.allMembers := by
      rw [members, allMembers, eq]
      rfl
    exact ofJson?_of_spells_allMembers plain amount (all ▸ h)
  | none =>
    have absent : ∀ name ∈ ["details"], name ∉ e.leading.map Prod.fst := by
      intro name mem
      rw [List.mem_singleton.1 mem]
      exact e.details_not_mem_leading
    have written : e.members = e.leading := by
      rw [members, eq]
      exact List.append_nil _
    rw [written] at h
    have alike : v.record? memberNames = (Json.ofMembers e.leading).record? memberNames :=
      Json.record?_of_spells ["details"] e.nodup_leading absent h
    have found := alike.trans (Json.record?_ofMembers ["details"] e.nodup_leading absent)
    exact ofJson?_of_record? plain amount found (by rw [eq]; rfl)

/-! ### Events in documents -/

/-- **An event is read as it was written, under the same key, and its text is settled.** The text has
a member for the details exactly if there are some. The event is also read from every text that has
the same members in another order, among others or in an array, with details that are missing or
said to be none. Whichever text it was read from, that text is written again as the one of the
event, and this one as itself. -/
theorem eventDocument_roundTrip (plain : e.timestamp.IsPlain) (amount : Json.ReadsBack e.amount) :
    ofDocument? e.document = some e ∧ (ofDocument? e.document).map key = some e.key ∧
      (∃ members, Json.ofText? e.document = some (.ofMembers members) ∧
        ("details" ∈ members.map Prod.fst ↔ e.details.isSome)) ∧
      (∀ s v, Json.ofText? s = some v →
        v.Spells memberNames e.members ∨ v.Spells memberNames e.allMembers →
          ofDocument? s = some e) ∧
      ∀ s, ofDocument? s = some e →
        Json.rewritten? ofDocument? document s = some e.document ∧
          ofDocument? e.document = ofDocument? s ∧
            Json.rewritten? ofDocument? document e.document = some e.document := by
  have written : Json.ofText? e.document = some (.ofMembers e.members) := by
    rw [← toJson_eq, document, Json.ofText?_compactText e.proper_toJson]
  have back : ofDocument? e.document = some e := by
    rw [ofDocument?, written, Option.bind_eq_bind, Option.bind_some,
      ofJson?_of_spells plain amount (Json.spells_ofMembers _)]
  have listed : "details" ∈ e.members.map Prod.fst ↔ e.details.isSome := by
    rw [members, List.map_append, List.mem_append, or_iff_right e.details_not_mem_leading]
    cases e.details <;> simp
  refine ⟨back, ?_, ⟨e.members, written, listed⟩, ?_, fun s read => Json.settled_of_read back read⟩
  · rw [back, Option.map_some]
  · intro s v text spells
    rw [ofDocument?, text, Option.bind_eq_bind, Option.bind_some]
    exact spells.elim (ofJson?_of_spells plain amount) (ofJson?_of_spells_allMembers plain amount)

deriving instance DecidableEq for WalletEvent

/-- An event without details, of a leap day. -/
def notice : WalletEvent where
  id := .ofNat 0x550e8400e29b41d4a716446655440000
  kind := .exchange
  user := .ofNat 0x6ba7b8109dad11d180b400c04fd430c8
  wallet := .ofNat 0x6ba7b8119dad11d180b400c04fd430c8
  amount := 1234.5
  currency := "USD->EUR"
  timestamp := ⟨1582934400, 250000000, by decide⟩
  details := none

/-- That event as somebody else might write it. -/
def noticeText : String :=
  " \x7b\"details\": null, \"timestamp\": \"2020-02-28T19:30:00.25-04:30\"," ++
  "\n\"currency\": \"USD-\\u003eEUR\", \"amount\": 12345e-1," ++
  " \"wallet_id\": \"6BA7B8119DAD11D180B400C04FD430C8\", \"tags\": [\"\\ud83d\", \x7b\x7d]," ++
  "\"user_id\": \"urn:uuid:6ba7b810-9dad-11d1-80b4-00c04fd430c8\"," ++
  " \"event\": \x7b\"exchange\": null\x7d," ++
  "\"event_id\": \"\x7b550e8400-e29b-41d4-a716-446655440000\x7d\"\x7d"

/-- It is read from that text, and from the array of its values, and written as usual. -/
theorem ofDocument?_noticeText :
    notice.timestamp.IsPlain ∧ Json.ReadsBack notice.amount ∧
      ofDocument? noticeText = some notice ∧
        ofDocument? (Json.compactText (.array (notice.allMembers.map Prod.snd))) = some notice ∧
          Json.rewritten? ofDocument? document noticeText = some notice.document ∧
            Json.rewritten? ofDocument? document notice.document = some notice.document := by
  have plain : notice.timestamp.IsPlain := ⟨by decide, by decide, rfl⟩
  have amount : Json.ReadsBack notice.amount := by
    rw [Json.readsBack_iff]
    decide +kernel
  have read : ofDocument? noticeText = some notice := by
    show (Json.ofChars? noticeText.toList).bind ofJson? = some notice
    -- the characters are those of the lines, which are short
    unfold noticeText
    simp only [String.toList_append]
    decide +kernel
  have proper : (Json.array (notice.allMembers.map Prod.snd)).Proper := by
    simp [allMembers, leading, Json.Proper, Json.ProperItems, Json.ofString, Json.proper_ofDouble,
      show notice.details = none from rfl]
  obtain ⟨-, -, -, spelled, settled⟩ := eventDocument_roundTrip plain amount
  exact ⟨plain, amount, read, spelled _ _ (Json.ofText?_compactText proper) (.inr .array),
    (settled _ read).1, (settled _ read).2.2⟩

end WalletEvent

end Purse
