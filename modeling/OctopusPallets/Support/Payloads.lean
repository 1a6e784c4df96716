import OctopusPallets.Infra.Borsh

/-!
# Payloads

The messages to the mainchain, as in `support/src/types.rs`, with the Borsh encoding of each: its
fields one behind the other.
-/

namespace OctopusPallets

open Infra

structure LockPayload where
  sender : String
  receiverId : String
  amount : Nat
  fee : Nat
deriving DecidableEq

def LockPayload.codec : Codec LockPayload :=
  (Borsh.string.pair (Borsh.string.pair (Borsh.u128.pair Borsh.u128))).via
    (fun p => (p.sender, p.receiverId, p.amount, p.fee))
    (fun (sender, receiverId, amount, fee) => some ⟨sender, receiverId, amount, fee⟩)
    (fun _ => rfl)

structure BurnAssetPayload where
  tokenId : String
  sender : String
  receiverId : String
  amount : Nat
  fee : Nat
deriving DecidableEq

def BurnAssetPayload.codec : Codec BurnAssetPayload :=
  (Borsh.string.pair (Borsh.string.pair (Borsh.string.pair (Borsh.u128.pair Borsh.u128)))).via
    (fun p => (p.tokenId, p.sender, p.receiverId, p.amount, p.fee))
    (fun (tokenId, sender, receiverId, amount, fee) =>
      some ⟨tokenId, sender, receiverId, amount, fee⟩)
    (fun _ => rfl)

theorem BurnAssetPayload.fee_lt {p : BurnAssetPayload}
    (h : BurnAssetPayload.codec.valid p = true) : p.fee < 2 ^ 128 := by
  have hfields : Borsh.u128.valid p.fee = true := by
    simp only [BurnAssetPayload.codec, Codec.via, Codec.pair, Bool.and_eq_true] at h
    exact h.2.2.2.2
  exact lt_of_lt_of_eq (of_decide_eq_true hfields) (by decide)

structure PlanNewEraPayload where
  newEra : Nat
deriving DecidableEq

def PlanNewEraPayload.codec : Codec PlanNewEraPayload :=
  Borsh.u32.via PlanNewEraPayload.newEra (fun newEra => some ⟨newEra⟩) (fun _ => rfl)

structure Offender where
  kind : String
  who : String
  offences : Nat
deriving DecidableEq

def Offender.codec : Codec Offender :=
  (Borsh.string.pair (Borsh.string.pair Borsh.u32)).via
    (fun o => (o.kind, o.who, o.offences))
    (fun (kind, who, offences) => some ⟨kind, who, offences⟩)
    (fun _ => rfl)

structure EraPayoutPayload where
  endEra : Nat
  excludedValidators : List String
  offenders : List Offender
deriving DecidableEq

def EraPayoutPayload.codec : Codec EraPayoutPayload :=
  (Borsh.u32.pair ((Borsh.vec Borsh.string).pair (Borsh.vec Offender.codec))).via
    (fun p => (p.endEra, p.excludedValidators, p.offenders))
    (fun (endEra, excludedValidators, offenders) => some ⟨endEra, excludedValidators, offenders⟩)
    (fun _ => rfl)

structure Nep171TokenMetadata where
  title : Option String
  description : Option String
  media : Option String
  mediaHash : Option (List UInt8)
  copies : Option Nat
  issuedAt : Option String
  expiresAt : Option String
  startsAt : Option String
  updatedAt : Option String
  extra : Option String
  reference : Option String
  referenceHash : Option (List UInt8)
deriving DecidableEq

def Nep171TokenMetadata.codec : Codec Nep171TokenMetadata :=
  let text := Borsh.option Borsh.string
  let hash := Borsh.option (Borsh.vec .byte)
  (text.pair (text.pair (text.pair (hash.pair ((Borsh.option Borsh.u64).pair (text.pair (text.pair
    (text.pair (text.pair (text.pair (text.pair hash))))))))))).via
    (fun m => (m.title, m.description, m.media, m.mediaHash, m.copies, m.issuedAt, m.expiresAt,
      m.startsAt, m.updatedAt, m.extra, m.reference, m.referenceHash))
    (fun (title, description, media, mediaHash, copies, issuedAt, expiresAt, startsAt, updatedAt,
        extra, reference, referenceHash) =>
      some ⟨title, description, media, mediaHash, copies, issuedAt, expiresAt, startsAt, updatedAt,
        extra, reference, referenceHash⟩)
    (fun _ => rfl)

structure LockNftPayload where
  sender : String
  receiverId : String
  collection : Nat
  item : Nat
  metadata : Nep171TokenMetadata
  fee : Nat
deriving DecidableEq

def LockNftPayload.codec : Codec LockNftPayload :=
  (Borsh.string.pair (Borsh.string.pair (Borsh.u128.pair (Borsh.u128.pair
    (Nep171TokenMetadata.codec.pair Borsh.u128))))).via
    (fun p => (p.sender, p.receiverId, p.collection, p.item, p.metadata, p.fee))
    (fun (sender, receiverId, collection, item, metadata, fee) =>
      some ⟨sender, receiverId, collection, item, metadata, fee⟩)
    (fun _ => rfl)

/-! ## Hexadecimal text -/

def hexDigit (n : Nat) : Char :=
  Char.ofNat (if n < 10 then 48 + n else 87 + n)

/-- `hex::encode`: two digits for each byte. -/
def hexEncode (data : List UInt8) : List Char :=
  data.flatMap fun b => [hexDigit (b.toNat / 16), hexDigit (b.toNat % 16)]

/-- `hex_format`. -/
def hexFormat (data : List UInt8) : String := String.ofList ('0' :: 'x' :: hexEncode data)

end OctopusPallets
