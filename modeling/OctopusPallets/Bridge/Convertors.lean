import OctopusPallets.Bridge.Transfers
import OctopusPallets.Infra.JsonGrammar
import OctopusPallets.Infra.JsonText
import OctopusPallets.UpwardMessages.Contents

/-!
# Metadata of items

The RMRK convertor of `bridge/src/impls.rs`. The attribute of an item is a JSON text with its RMRK
metadata; what NEP-171 has no field for is put into another JSON text, in `extra`. Nothing is lost on
the way: the RMRK metadata can be read off the NEP-171 metadata.

* `readRmrk_eq_ok` — what is read from an attribute
* `rmrkOf_convert` — it is read back from what it is converted to
* `nft_carries_rmrk_metadata` — and from the message of an item that is locked
-/

namespace OctopusPallets.Bridge

open Infra Infra.Attempt Infra.Json

variable {AccountId : Type}

/-! ## The metadata of RMRK -/

structure RmrkBaseMetadata where
  name : String
  description : String
  types : String
  locale : String
  license : String
  licenseUri : String
  mediaUri : String
  thumbnailUri : String
  externalUri : String
deriving DecidableEq

/-- The fields of a `RmrkBaseMetadata`, as far as they are read. -/
structure RmrkFields where
  name : Option String
  description : Option String
  types : Option String
  locale : Option String
  license : Option String
  licenseUri : Option String
  mediaUri : Option String
  thumbnailUri : Option String
  externalUri : Option String

def RmrkFields.empty : RmrkFields := ⟨none, none, none, none, none, none, none, none, none⟩

def textSlot (name : String) (get : RmrkFields → Option String)
    (set : String → RmrkFields → RmrkFields) : Slot RmrkFields :=
  ⟨_, name, get, set, readString⟩

def rmrkSlots : List (Slot RmrkFields) :=
  [textSlot "name" RmrkFields.name fun t s => { s with name := some t },
    textSlot "description" RmrkFields.description fun t s => { s with description := some t },
    textSlot "types" RmrkFields.types fun t s => { s with types := some t },
    textSlot "locale" RmrkFields.locale fun t s => { s with locale := some t },
    textSlot "license" RmrkFields.license fun t s => { s with license := some t },
    textSlot "licenseUri" RmrkFields.licenseUri fun t s => { s with licenseUri := some t },
    textSlot "mediaUri" RmrkFields.mediaUri fun t s => { s with mediaUri := some t },
    textSlot "thumbnailUri" RmrkFields.thumbnailUri fun t s => { s with thumbnailUri := some t },
    textSlot "externalUri" RmrkFields.externalUri fun t s => { s with externalUri := some t }]

/-- The name is required, the other fields are empty by default. -/
def readRmrk : Reader RmrkBaseMetadata :=
  readStruct (rmrkSlots.map Slot.reader) RmrkFields.empty fun s => do
    pure ⟨← s.name, s.description.getD "", s.types.getD "", s.locale.getD "", s.license.getD "",
      s.licenseUri.getD "", s.mediaUri.getD "", s.thumbnailUri.getD "", s.externalUri.getD ""⟩

/-! ## The convertor -/

/-- `(s.len() != 0).then_some(s)`. -/
def nonEmpty (s : String) : Option String := if s = "" then none else some s

/-- `json!`, whose maps are sorted. -/
def RmrkBaseMetadata.extra (r : RmrkBaseMetadata) : List (String × String) :=
  [("externalUri", r.externalUri), ("license", r.license), ("licenseUri", r.licenseUri),
    ("locale", r.locale), ("thumbnailUri", r.thumbnailUri), ("types", r.types)]

def RmrkBaseMetadata.convert (r : RmrkBaseMetadata) : Nep171TokenMetadata where
  title := nonEmpty r.name
  description := nonEmpty r.description
  media := nonEmpty r.mediaUri
  mediaHash := none
  copies := none
  issuedAt := none
  expiresAt := none
  startsAt := none
  updatedAt := none
  extra := some (writeObject r.extra)
  reference := none
  referenceHash := none

/-- What the convertor calls: `serde_json`, and the attributes of the items. -/
structure ItemReader where
  json : List UInt8 → Document
  itemAttribute : (collection item : Nat) → (key : List UInt8) → Option (List UInt8)

/-- `RmrkBaseMetadataConvertor::convert_into_nep171_metadata`. -/
def rmrkConvertor (o : ItemReader) (collection item : Nat) : Option Nep171TokenMetadata :=
  let data := (o.itemAttribute collection item []).getD []
  if data.isEmpty then none
  else
    match fromSlice readRmrk (o.json data) with
    | .ok rmrkMetadata => some rmrkMetadata.convert
    | .error _ => none

/-! ## What is read -/

/-- A field that is empty when it is not there. -/
def GivesText (v : Value) (name s : String) : Prop :=
  ∃ t, v.Gives (rmrkSlots.map Slot.name) name readString t ∧ t.getD "" = s

structure RmrkWritten (v : Value) (r : RmrkBaseMetadata) : Prop where
  shaped : v.Shaped (rmrkSlots.map Slot.name)
  name : v.Gives (rmrkSlots.map Slot.name) "name" readString (some r.name)
  description : GivesText v "description" r.description
  types : GivesText v "types" r.types
  locale : GivesText v "locale" r.locale
  license : GivesText v "license" r.license
  licenseUri : GivesText v "licenseUri" r.licenseUri
  mediaUri : GivesText v "mediaUri" r.mediaUri
  thumbnailUri : GivesText v "thumbnailUri" r.thumbnailUri
  externalUri : GivesText v "externalUri" r.externalUri

theorem rmrkSlots_places : Places RmrkFields.empty rmrkSlots := by
  constructor <;> simp [rmrkSlots, textSlot, RmrkFields.empty, Slot.apart_iff]

/-- **The RMRK metadata of a text.** -/
theorem readRmrk_eq_ok {v : Value} {r : RmrkBaseMetadata} :
    readRmrk v = .ok r ↔ RmrkWritten v r := by
  refine readStruct_eq_ok.trans ⟨?_, fun h => ?_⟩
  · rintro ⟨⟨_ | name, description, types, locale, license, licenseUri, mediaUri, thumbnailUri,
      externalUri⟩, hs, hbuild⟩ <;> cases hbuild
    have hgives : ∀ a ∈ rmrkSlots, v.Gives (rmrkSlots.map Slot.name) a.name a.read (a.get _) :=
      fun a ha => rmrkSlots_places.gives hs ha
    simp only [rmrkSlots, textSlot, List.forall_mem_cons] at hgives
    obtain ⟨hname, hdescription, htypes, hlocale, hlicense, hlicenseUri, hmediaUri, hthumbnailUri,
      hexternalUri, -⟩ := hgives
    exact ⟨rmrkSlots_places.shaped hs, hname, ⟨_, hdescription, rfl⟩, ⟨_, htypes, rfl⟩,
      ⟨_, hlocale, rfl⟩, ⟨_, hlicense, rfl⟩, ⟨_, hlicenseUri, rfl⟩, ⟨_, hmediaUri, rfl⟩,
      ⟨_, hthumbnailUri, rfl⟩, ⟨_, hexternalUri, rfl⟩⟩
  · obtain ⟨hshaped, hname, ⟨description, hdescription, hd⟩, ⟨types, htypes, ht⟩,
      ⟨locale, hlocale, hl⟩, ⟨license, hlicense, hli⟩, ⟨licenseUri, hlicenseUri, hlu⟩,
      ⟨mediaUri, hmediaUri, hm⟩, ⟨thumbnailUri, hthumbnailUri, htu⟩,
      ⟨externalUri, hexternalUri, he⟩⟩ := h
    obtain ⟨s, hs, hsame⟩ := rmrkSlots_places.exists_read
      ⟨some r.name, description, types, locale, license, licenseUri, mediaUri, thumbnailUri,
        externalUri⟩ hshaped
      (by simpa [rmrkSlots, textSlot] using ⟨hname, hdescription, htypes, hlocale, hlicense,
        hlicenseUri, hmediaUri, hthumbnailUri, hexternalUri⟩)
    refine ⟨s, hs, ?_⟩
    simp only [rmrkSlots, textSlot, List.forall_mem_cons] at hsame
    obtain ⟨hname', hd', ht', hl', hli', hlu', hm', htu', he', -⟩ := hsame
    rw [hname', hd', ht', hl', hli', hlu', hm', htu', he', hd, ht, hl, hli, hlu, hm, htu, he]
    rfl

/-- The attribute of the item is a text of its RMRK metadata. -/
def ItemWritten (o : ItemReader) (collection item : Nat) (r : RmrkBaseMetadata) : Prop :=
  ∃ data, o.itemAttribute collection item [] = some data ∧ data ≠ [] ∧
    (o.json data).ended = true ∧ RmrkWritten (o.json data).value r

/-- **An item is converted exactly when its RMRK metadata is written in its attribute.** -/
theorem rmrkConvertor_eq_some {o : ItemReader} {collection item : Nat} {m : Nep171TokenMetadata} :
    rmrkConvertor o collection item = some m ↔
      ∃ r, ItemWritten o collection item r ∧ m = r.convert := by
  unfold rmrkConvertor
  dsimp only
  constructor
  · intro h
    split at h
    · cases h
    · next hdata =>
      split at h
      · next r hread =>
        obtain ⟨hended, hr⟩ := fromSlice_eq_ok.mp hread
        cases hattribute : o.itemAttribute collection item [] with
        | none =>
          rw [hattribute] at hdata
          exact absurd rfl hdata
        | some data =>
          rw [hattribute] at hdata hended hr
          exact ⟨r, ⟨data, hattribute, fun hnil => hdata (List.isEmpty_iff.mpr hnil), hended,
            readRmrk_eq_ok.mp hr⟩, (Option.some.inj h).symm⟩
      · cases h
  · rintro ⟨r, ⟨data, hattribute, hdata, hended, hr⟩, rfl⟩
    rw [hattribute, Option.getD_some, if_neg (by simpa using hdata),
      fromSlice_eq_ok.mpr ⟨hended, readRmrk_eq_ok.mpr hr⟩]

/-! ## Nothing is lost -/

/-- An object of strings is read as it was written. -/
def ItemReader.Lawful (o : ItemReader) : Prop :=
  ∀ ps, o.json (Borsh.asBytes (writeObject ps)) = ⟨.object (.ofTexts ps), true⟩

/-- The RMRK metadata in NEP-171 metadata. -/
def rmrkOf (json : List UInt8 → Document) (m : Nep171TokenMetadata) : Option RmrkBaseMetadata := do
  let extra ← m.extra
  match fromSlice (readStruct (rmrkSlots.map Slot.reader) RmrkFields.empty some)
      (json (Borsh.asBytes extra)) with
  | .ok s => some ⟨m.title.getD "", m.description.getD "", s.types.getD "", s.locale.getD "",
      s.license.getD "", s.licenseUri.getD "", m.media.getD "", s.thumbnailUri.getD "",
      s.externalUri.getD ""⟩
  | .error _ => none

theorem getD_nonEmpty (s : String) : (nonEmpty s).getD "" = s := by
  unfold nonEmpty
  split
  · next h => exact h.symm
  · rfl

/-- **The RMRK metadata is read back from what it was converted to.** -/
theorem rmrkOf_convert {o : ItemReader} (ho : o.Lawful) (r : RmrkBaseMetadata) :
    rmrkOf o.json r.convert = some r := by
  have hextra : fromSlice (readStruct (rmrkSlots.map Slot.reader) RmrkFields.empty some)
      (o.json (Borsh.asBytes (writeObject r.extra)))
        = .ok ⟨none, none, some r.types, some r.locale, some r.license, some r.licenseUri, none,
          some r.thumbnailUri, some r.externalUri⟩ := by
    rw [ho r.extra]
    rfl
  unfold rmrkOf RmrkBaseMetadata.convert
  simp only [Option.bind_eq_bind, Option.bind_some, hextra, getD_nonEmpty, Option.getD_some]

/-! ## Across the bridge -/

/-- A bridge with this convertor, over the queue of the upward-messages pallet. -/
@[reducible] def Config.withRmrk (T : Config AccountId) (cfg : UpwardMessages.Config)
    (o : ItemReader) : Config AccountId :=
  { T with
    Messages := UpwardMessages.State cfg
    upwardMessages := UpwardMessages.upwardMessagesInterface
    convertIntoNep171Metadata := rmrkConvertor o }

/--
**An item is locked with its metadata.** A call of `lock_nonfungible` fails and changes nothing, or
the attribute of the item is a text of RMRK metadata, one message is queued, for this item, and the
metadata can be read off it as it is in the attribute.
-/
theorem nft_carries_rmrk_metadata (T : Config AccountId) (cfg : UpwardMessages.Config)
    {o : ItemReader} (ho : o.Lawful) (appchain : AppchainInterface AccountId) (sender : AccountId)
    (collection item : Nat) (receiverId : List UInt8) (s : State (T.withRmrk cfg o)) :
    (∃ e, lockNonfungible appchain (.signed sender) collection item receiverId s = (.error e, s)) ∨
      ∃ s' p r, lockNonfungible appchain (.signed sender) collection item receiverId s
          = (.ok (), s') ∧
        ItemWritten o collection item r ∧
        s'.messages.sent .lockNft LockNftPayload.codec
          = s.messages.sent .lockNft LockNftPayload.codec ++ [p] ∧
        p.collection = collection ∧ p.item = item ∧ rmrkOf o.json p.metadata = some r := by
  rcases dispatch_signed appchain sender (.lockNonfungible collection item receiverId) s with
    herror | ⟨s', hok, -, hout⟩
  · exact Or.inl herror
  · refine Or.inr ⟨s', ?_⟩
    cases hout with
    | @lockNonfungible _ _ receiver metadata _ _ fee _ _ _ _ _ hmetadata _ _ _ hmessage hsubmit =>
      obtain ⟨r, hr, rfl⟩ := rmrkConvertor_eq_some.mp hmetadata
      exact ⟨_, r, hok, hr, UpwardMessages.submit_sent (some sender) hmessage hsubmit, rfl, rfl,
        rmrkOf_convert ho r⟩

namespace Sample

/-- The item of account 0 is a picture. -/
def picture : List (String × String) :=
  [("name", "A"), ("license", "CC0"), ("mediaUri", "ipfs")]

/-- Objects of strings are all that is read here. -/
def itemReader : ItemReader where
  json data :=
    match (Borsh.fromUtf8 data).bind fun text => readObject text.toList with
    | some ps => ⟨.object (.ofTexts ps), true⟩
    | none => ⟨.broken, false⟩
  itemAttribute _ item _ := if item = 42 then some (Borsh.asBytes (writeObject picture)) else none

theorem itemReader_lawful : itemReader.Lawful := by
  intro ps
  unfold itemReader
  simp only [Borsh.fromUtf8_asBytes, Option.bind_some, readObject_write]

def withPicture : State (config.withRmrk messageConfig itemReader) :=
  ⟨[], fun _ => none, [], (), (), state.items, UpwardMessages.genesisBuild messageConfig 1⟩

end Sample

/-- Account 0 locks its picture. -/
theorem nft_carries_rmrk_metadata_of_picture :
    ∃ s' p r, lockNonfungible Sample.activated (.signed 0) 0 42 [97] Sample.withPicture
        = (.ok (), s') ∧
      ItemWritten Sample.itemReader 0 42 r ∧
      s'.messages.sent .lockNft LockNftPayload.codec
        = Sample.withPicture.messages.sent .lockNft LockNftPayload.codec ++ [p] ∧
      p.collection = 0 ∧ p.item = 42 ∧ rmrkOf Sample.itemReader.json p.metadata = some r := by
  have hlock : (lockNonfungible Sample.activated (.signed 0) 0 42 [97] Sample.withPicture).1
      = .ok () := by
    decide +kernel
  rcases nft_carries_rmrk_metadata Sample.config Sample.messageConfig Sample.itemReader_lawful
    Sample.activated 0 0 42 [97] Sample.withPicture with ⟨e, herror⟩ | hcarried
  · rw [herror] at hlock
    cases hlock
  · exact hcarried

end OctopusPallets.Bridge
