import OctopusPallets.Infra.OneToOne
import OctopusPallets.Bridge.Wrapped
import Mathlib.Logic.Relation

/-!
# Token ids and asset ids

`set_token_id` refuses a token id and an asset id that are in use, so that the map of token ids
stays one to one, and the search for the token id of an asset is the inverse of the lookup. The map
is filled at genesis, or by the migration from the map of the appchain pallet, where it was before.

* `dispatch_tokenIds` — what one call does to the map
* `token_ids_one_to_one` — the correspondence, from the genesis or the migration on
-/

namespace OctopusPallets.Bridge

open Infra Infra.Dispatch Infra.FixedWidth

variable {AccountId : Type} {T : Config AccountId}

/-! ## Where the map comes from -/

structure GenesisConfig where
  preminedAmount : Nat
  assetIdByTokenId : List (String × Nat)

/-- `build` of the genesis: a premined amount that is no balance aborts, and one below the minimum
is left out. The last two calls are those of `T::Currency`. -/
def GenesisConfig.build (g : GenesisConfig) (minimumBalance : Nat)
    (makeFreeBalanceBe : AccountId → Nat → T.Balances → T.Balances) (s : State T) :
    Option (State T) :=
  (checkedInto T.balanceBits g.preminedAmount).map fun amount => { s with
    balances :=
      if minimumBalance ≤ amount then makeFreeBalanceBe T.accountId amount s.balances
      else s.balances
    assetIdByTokenId := g.assetIdByTokenId.foldl
      (fun m p => putEntry (Borsh.asBytes p.1) p.2 m) s.assetIdByTokenId }

/-- What the upgrade reads besides the storage of the pallet: the version on chain, and the map
`AssetIdByTokenId` of the appchain pallet. -/
structure UpgradeState (T : Config AccountId) where
  onChainStorageVersion : Nat
  oldAssetIdByTokenId : List (List UInt8 × Nat)
  pallet : State T

def currentStorageVersion : Nat := 1

/-- The loop of `migration_to_v1`. Each entry is taken out of the old map before it is inserted. -/
def drainLoop : (old : List (List UInt8 × Nat)) → (translated : Nat) → UpgradeState T →
    Nat × UpgradeState T
  | [], translated, u => (translated, u)
  | (tokenId, assetId) :: old, translated, u =>
    drainLoop old (translated + 1) { u with
      oldAssetIdByTokenId := old
      pallet := { u.pallet with
        assetIdByTokenId := putEntry tokenId assetId u.pallet.assetIdByTokenId } }

def migrationToV1 (u : UpgradeState T) : Nat × UpgradeState T :=
  drainLoop u.oldAssetIdByTokenId 0 u

/-- The reads and the writes that the weight stands for, and the storage after. -/
def onRuntimeUpgrade (u : UpgradeState T) : (Nat × Nat) × UpgradeState T :=
  if currentStorageVersion == 1 && u.onChainStorageVersion == 0 then
    let (translated, u') := migrationToV1 u
    ((translated + 1, translated + 1), { u' with onChainStorageVersion := currentStorageVersion })
  else ((1, 0), u)

theorem drainLoop_eq : ∀ (old : List (List UInt8 × Nat)) (translated : Nat) (u : UpgradeState T),
    u.oldAssetIdByTokenId = old →
      drainLoop old translated u = (translated + old.length, { u with
        oldAssetIdByTokenId := []
        pallet := { u.pallet with
          assetIdByTokenId := putEntries old u.pallet.assetIdByTokenId } })
  | [], translated, u, h => by
    cases u
    subst h
    rfl
  | (tokenId, assetId) :: old, translated, u, _ => by
    rw [drainLoop, drainLoop_eq old (translated + 1) _ rfl, List.length_cons, Nat.add_right_comm,
      Nat.add_assoc]
    rfl

/-- The migration puts the old entries into an empty map, and is not repeated. -/
theorem onRuntimeUpgrade_eq {u : UpgradeState T} (hversion : u.onChainStorageVersion = 0)
    (hempty : u.pallet.assetIdByTokenId = [])
    (hkeys : (u.oldAssetIdByTokenId.map Prod.fst).Nodup) :
    (onRuntimeUpgrade u).2
      = ⟨1, [], { u.pallet with assetIdByTokenId := u.oldAssetIdByTokenId }⟩ := by
  have hfilled : putEntries u.oldAssetIdByTokenId [] = u.oldAssetIdByTokenId :=
    putEntries_of_distinct hkeys
  unfold onRuntimeUpgrade
  rw [if_pos (by simp [hversion, currentStorageVersion]), migrationToV1, drainLoop_eq _ _ _ rfl,
    hempty, hfilled]
  rfl

theorem onRuntimeUpgrade_of_version {u : UpgradeState T} (h : u.onChainStorageVersion = 1) :
    (onRuntimeUpgrade u).2 = u := by
  unfold onRuntimeUpgrade
  rw [if_neg (by simp [h])]

/-! ## What the calls do to the map -/

/-- One entry at most is added, or removed. -/
inductive TokenIdsChange (m : List (List UInt8 × Nat)) : List (List UInt8 × Nat) → Prop where
  | same : TokenIdsChange m m
  | added {token : List UInt8} {asset : Nat} (htoken : token ∉ m.map Prod.fst)
    (hasset : asset ∉ m.map Prod.snd) : TokenIdsChange m (m ++ [(token, asset)])
  | removed (token : List UInt8) : TokenIdsChange m (m.filter fun p => p.1 != token)

theorem TokenIdsChange.of_eq {m m' : List (List UInt8 × Nat)} (h : m' = m) :
    TokenIdsChange m m' := by
  rw [h]
  exact .same

theorem TokenIdsChange.oneToOne {m m' : List (List UInt8 × Nat)} (h : TokenIdsChange m m')
    (hone : OneToOne m) : OneToOne m' := by
  cases h with
  | same => exact hone
  | added htoken hasset => exact hone.append htoken hasset
  | removed token => exact hone.filter _

/-- What root does to the map. The calls that move tokens leave it as it is. -/
theorem dispatch_root_tokenIds (appchain : AppchainInterface AccountId)
    (call : PalletCall AccountId) (s : State T) :
    TokenIdsChange s.assetIdByTokenId (call.dispatch appchain .root s).2.assetIdByTokenId := by
  cases call with
  | lock _ _ | burnNep141 _ _ _ | lockNonfungible _ _ _ => exact .same
  | setTokenId token asset =>
    show TokenIdsChange _ (setTokenId appchain .root token asset s).2.assetIdByTokenId
    rcases setTokenId_cases appchain token asset s with hsame | ⟨htoken, hasset, hadded⟩
    · rw [hsame]
      exact .same
    · rw [hadded]
      exact .added htoken hasset
  | deleteTokenId token =>
    show TokenIdsChange _ (deleteTokenId .root token s).2.assetIdByTokenId
    rcases deleteTokenId_cases token s with hsame | hremoved
    · rw [hsame]
      exact .same
    · rw [hremoved]
      exact .removed token
  | forceUnlock who amount =>
    have hkept := forceUnlock_wrapped 0 who amount s
    exact .of_eq (congrArg (fun w => w.2.2.2) hkept)
  | forceUnlockNonfungible who collection item =>
    have hkept := forceUnlockNonfungible_wrapped 0 who collection item s
    exact .of_eq (congrArg (fun w => w.2.2.2) hkept)
  | forceMintNep141 asset who amount =>
    show TokenIdsChange _ (forceMintNep141 .root asset who amount s).2.assetIdByTokenId
    rcases forceMintNep141_cases asset who amount s with ⟨_, _, _, hrun⟩ | ⟨_, _, hrun⟩
    · rw [hrun]
      exact .same
    · rw [hrun]
      exact .same

/-- **One call, of any origin.** -/
theorem dispatch_tokenIds (appchain : AppchainInterface AccountId) (origin : Origin AccountId)
    (call : PalletCall AccountId) (s : State T) :
    TokenIdsChange s.assetIdByTokenId (call.dispatch appchain origin s).2.assetIdByTokenId := by
  cases origin with
  | root => exact dispatch_root_tokenIds appchain call s
  | none =>
    obtain ⟨e, he⟩ := dispatch_none appchain call s
    rw [he]
    exact .same
  | signed sender =>
    rcases dispatch_signed appchain sender call s with ⟨e, he⟩ | ⟨s', hs', -, hout⟩
    · rw [he]
      exact .same
    · rw [hs']
      cases hout <;> exact .same

/-- A call of the pallet, failed or not, or an iteration of the map in another order from here
on. -/
inductive TokenIdStep : State T → State T → Prop where
  | call (appchain : AppchainInterface AccountId) (origin : Origin AccountId)
    (call : PalletCall AccountId) (s : State T) :
    TokenIdStep s (call.dispatch appchain origin s).2
  | reorder (s : State T) {entries : List (List UInt8 × Nat)}
    (h : entries.Perm s.assetIdByTokenId) :
    TokenIdStep s { s with assetIdByTokenId := entries }

theorem TokenIdStep.oneToOne {s s' : State T} (h : TokenIdStep s s')
    (hone : OneToOne s.assetIdByTokenId) : OneToOne s'.assetIdByTokenId := by
  cases h with
  | call appchain origin call => exact (dispatch_tokenIds appchain origin call s).oneToOne hone
  | reorder _ hperm => exact hone.perm hperm

theorem oneToOne_of_run {s s' : State T} (h : Relation.ReflTransGen TokenIdStep s s')
    (hone : OneToOne s.assetIdByTokenId) : OneToOne s'.assetIdByTokenId := by
  induction h with
  | refl => exact hone
  | tail _ hstep ih => exact hstep.oneToOne ih

/-! ## The correspondence -/

/-- `try_get_token_id` is the inverse of `try_get_asset_id`. -/
def State.Corresponds (s : State T) : Prop :=
  ∀ (token : List UInt8) (asset : Nat),
    s.tryGetAssetId token = some asset ↔ s.tryGetTokenId asset = some token

theorem State.corresponds_of_oneToOne {s : State T} (h : OneToOne s.assetIdByTokenId) :
    s.Corresponds :=
  fun _ _ => h.valueOf_iff_keyOf

/-- The map is filled by a genesis that repeats neither a token id nor an asset id, or by the
migration of a map that does not. -/
inductive TokenIdStart : State T → Prop where
  | genesis {g : GenesisConfig} {minimumBalance : Nat}
    {makeFreeBalanceBe : AccountId → Nat → T.Balances → T.Balances} {s s₀ : State T}
    (hempty : s.assetIdByTokenId = [])
    (htokens : (g.assetIdByTokenId.map Prod.fst).Nodup)
    (hassets : (g.assetIdByTokenId.map Prod.snd).Nodup)
    (hbuild : g.build minimumBalance makeFreeBalanceBe s = some s₀) : TokenIdStart s₀
  | upgrade {u : UpgradeState T} (hversion : u.onChainStorageVersion = 0)
    (hempty : u.pallet.assetIdByTokenId = []) (hold : OneToOne u.oldAssetIdByTokenId) :
    TokenIdStart (onRuntimeUpgrade u).2.pallet

theorem asBytes_injective : Function.Injective Borsh.asBytes := fun a b h => by
  have hread := congrArg Borsh.fromUtf8 h
  rw [Borsh.fromUtf8_asBytes, Borsh.fromUtf8_asBytes] at hread
  exact Option.some.inj hread

theorem GenesisConfig.build_oneToOne {g : GenesisConfig} {minimumBalance : Nat}
    {makeFreeBalanceBe : AccountId → Nat → T.Balances → T.Balances} {s s₀ : State T}
    (hempty : s.assetIdByTokenId = []) (htokens : (g.assetIdByTokenId.map Prod.fst).Nodup)
    (hassets : (g.assetIdByTokenId.map Prod.snd).Nodup)
    (hbuild : g.build minimumBalance makeFreeBalanceBe s = some s₀) :
    OneToOne s₀.assetIdByTokenId := by
  obtain ⟨amount, -, rfl⟩ := Option.map_eq_some_iff.mp hbuild
  show OneToOne (g.assetIdByTokenId.foldl (fun m p => putEntry (Borsh.asBytes p.1) p.2 m)
    s.assetIdByTokenId)
  -- the loop over the strings is the one over their bytes
  have hbytes : g.assetIdByTokenId.foldl (fun m p => putEntry (Borsh.asBytes p.1) p.2 m) []
      = putEntries (g.assetIdByTokenId.map fun p => (Borsh.asBytes p.1, p.2)) [] := by
    rw [putEntries, List.foldl_map]
  have hkeys : ((g.assetIdByTokenId.map fun p => (Borsh.asBytes p.1, p.2)).map Prod.fst).Nodup := by
    have hmapped := htokens.map asBytes_injective
    simpa only [List.map_map, Function.comp_def] using hmapped
  rw [hempty, hbytes, putEntries_of_distinct hkeys]
  refine ⟨hkeys, ?_⟩
  simpa only [List.nil_append, List.map_map, Function.comp_def] using hassets

theorem TokenIdStart.oneToOne {s : State T} (h : TokenIdStart s) :
    OneToOne s.assetIdByTokenId := by
  cases h with
  | genesis hempty htokens hassets hbuild =>
    exact GenesisConfig.build_oneToOne hempty htokens hassets hbuild
  | upgrade hversion hempty hold =>
    rw [onRuntimeUpgrade_eq hversion hempty hold.keys]
    exact hold

/-- A message that burns an asset names the token id for which the asset is minted. -/
theorem burnNep141_names {s s' between after : State T} {token senderId receiverId : List UInt8}
    {receiver sender : AccountId} {asset amount burnt sequence : Nat}
    {appchain : AppchainInterface AccountId} (hone : OneToOne s.assetIdByTokenId)
    (hmint : doMintNep141 token senderId receiver amount sequence s = (.ok (), s'))
    (hevent : s'.events = s.events ++ [.nep141Minted asset senderId receiver amount sequence])
    (hkept : between.assetIdByTokenId.Perm s'.assetIdByTokenId)
    (hburn : burnNep141 appchain (.signed sender) asset receiverId burnt between
      = (.ok (), after)) :
    ∃ (payload : BurnAssetPayload) (next : Nat),
      T.upwardMessages.submit (some sender) .burnAsset (BurnAssetPayload.codec.encode payload)
        between.messages = (.ok next, after.messages) ∧ Borsh.asBytes payload.tokenId = token := by
  obtain ⟨minted, assets, hasset, -, -, rfl⟩ := doMintNep141_eq_ok.mp hmint
  have hlast := List.append_cancel_left hevent
  obtain rfl : minted = asset := by
    injection hlast with hfirst
    injection hfirst
  have hentry : between.tryGetTokenId minted = some token :=
    (hone.perm hkept).keyOf_eq_some.mpr (hkept.mem_iff.mpr (hone.valueOf_eq_some.mp hasset))
  obtain ⟨-, hout⟩ := burnNep141_eq_ok.mp hburn
  cases hout with
  | burnNep141 _ htoken htokenId _ _ _ _ hsubmit =>
    obtain rfl := Option.some.inj (htoken.symm.trans hentry)
    exact ⟨_, _, hsubmit, Borsh.asBytes_of_fromUtf8 htokenId⟩

/--
**Token ids and asset ids are one to one.** From the genesis or the migration on, after any calls
and in any order of iteration, the two lookups are inverse to each other, and a message that burns
an asset names the token id for which it is minted. The migration moves every entry, and is not
repeated.
-/
theorem token_ids_one_to_one :
    (∀ s₀ s : State T, TokenIdStart s₀ → Relation.ReflTransGen TokenIdStep s₀ s →
      s.Corresponds ∧ ∀ (token senderId receiverId : List UInt8) (receiver sender : AccountId)
        (asset amount burnt sequence : Nat) (appchain : AppchainInterface AccountId)
        (s' between after : State T),
        doMintNep141 token senderId receiver amount sequence s = (.ok (), s') →
        s'.events = s.events ++ [.nep141Minted asset senderId receiver amount sequence] →
        between.assetIdByTokenId.Perm s'.assetIdByTokenId →
        burnNep141 appchain (.signed sender) asset receiverId burnt between = (.ok (), after) →
          ∃ (payload : BurnAssetPayload) (next : Nat),
            T.upwardMessages.submit (some sender) .burnAsset
              (BurnAssetPayload.codec.encode payload) between.messages
                = (.ok next, after.messages) ∧ Borsh.asBytes payload.tokenId = token) ∧
    ∀ u : UpgradeState T, u.onChainStorageVersion = 0 → u.pallet.assetIdByTokenId = [] →
      OneToOne u.oldAssetIdByTokenId →
        (onRuntimeUpgrade u).2.pallet.assetIdByTokenId.Perm u.oldAssetIdByTokenId ∧
          (∀ s, Relation.ReflTransGen TokenIdStep (onRuntimeUpgrade u).2.pallet s →
            s.Corresponds) ∧
          (onRuntimeUpgrade u).2.oldAssetIdByTokenId = [] ∧
          (onRuntimeUpgrade (onRuntimeUpgrade u).2).2 = (onRuntimeUpgrade u).2 := by
  constructor
  · intro s₀ s hstart hrun
    have hone := oneToOne_of_run hrun hstart.oneToOne
    refine ⟨State.corresponds_of_oneToOne hone, ?_⟩
    intro _ _ _ _ _ _ _ _ _ _ _ _ _ hmint hevent hkept hburn
    exact burnNep141_names hone hmint hevent hkept hburn
  · intro u hversion hempty hold
    have hmoved := onRuntimeUpgrade_eq hversion hempty hold.keys
    have hstart : TokenIdStart (onRuntimeUpgrade u).2.pallet := .upgrade hversion hempty hold
    refine ⟨?_, fun s hrun => ?_, ?_, onRuntimeUpgrade_of_version ?_⟩
    · rw [hmoved]
    · exact State.corresponds_of_oneToOne (oneToOne_of_run hrun hstart.oneToOne)
    · rw [hmoved]
    · rw [hmoved]

namespace Sample

/-- Asset 7 is mapped at genesis. -/
def tokens : GenesisConfig := ⟨0, [("a", 7)]⟩

def mapped : State config := { state with assetIdByTokenId := [([97], 7)] }

/-- Root maps asset 8, and removes asset 7. -/
def remapped : State config :=
  (PalletCall.dispatch activated .root (.deleteTokenId [97])
    (PalletCall.dispatch activated .root (.setTokenId [98] 8) mapped).2).2

/-- Asset 8 is minted for account 3. -/
def minted : State config := (doMintNep141 [98] [110] 3 5 0 remapped).2

def toUpgrade : UpgradeState config := ⟨0, [([97], 7), ([98], 8)], state⟩

end Sample

/-- Asset 8 is minted for one token id and burnt for the same, and two entries are migrated. -/
theorem token_ids_one_to_one_two :
    (∃ (payload : BurnAssetPayload) (next : Nat),
      Sample.config.upwardMessages.submit (some 3) .burnAsset
        (BurnAssetPayload.codec.encode payload) Sample.minted.messages = (.ok next,
          (burnNep141 Sample.activated (.signed 3) 8 [110] 5 Sample.minted).2.messages) ∧
        Borsh.asBytes payload.tokenId = [98]) ∧
      (onRuntimeUpgrade Sample.toUpgrade).2.oldAssetIdByTokenId = [] := by
  have hbuild : Sample.tokens.build 0 (fun _ _ b => b) Sample.state = some Sample.mapped := by
    have hread : Borsh.asBytes "a" = [97] := by decide
    unfold GenesisConfig.build Sample.tokens
    simp only [List.foldl, hread]
    rfl
  have hstart : TokenIdStart Sample.mapped := .genesis rfl (by decide) (by decide) hbuild
  have hrun : Relation.ReflTransGen TokenIdStep Sample.mapped Sample.remapped :=
    .tail (.tail .refl (.call Sample.activated .root (.setTokenId [98] 8) _))
      (.call Sample.activated .root (.deleteTokenId [97]) _)
  have hmint : doMintNep141 [98] [110] 3 5 0 Sample.remapped = (.ok (), Sample.minted) :=
    Prod.ext (by decide) rfl
  have hburn : burnNep141 Sample.activated (.signed 3) 8 [110] 5 Sample.minted
      = (.ok (), (burnNep141 Sample.activated (.signed 3) 8 [110] 5 Sample.minted).2) :=
    Prod.ext (by decide) rfl
  have hold : OneToOne Sample.toUpgrade.oldAssetIdByTokenId := ⟨by decide, by decide⟩
  have hone := token_ids_one_to_one (T := Sample.config)
  exact ⟨(hone.1 _ _ hstart hrun).2 _ _ _ _ _ _ _ _ _ _ _ _ _ hmint (by decide) (.refl _) hburn,
    (hone.2 _ rfl rfl hold).2.2.1⟩

end OctopusPallets.Bridge
