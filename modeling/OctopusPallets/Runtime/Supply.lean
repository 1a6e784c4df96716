import OctopusPallets.Bridge.Wrapped
import OctopusPallets.Runtime.Unlocks
import OctopusPallets.Support.Assets

/-!
# The issuance of a wrapped token

What a notification or root mints is reported by an event, and what is burned by a message to the
mainchain. So the issuance of an asset is accounted for by the two. Only a burn that leaves dust is
not: the dust is burned along, and the message does not say so.

* `Supplied` — one step, as an equation with the dust
* `supply_agrees_iff` — a run
-/

namespace OctopusPallets.Runtime

open Infra Infra.Dispatch Infra.FixedWidth

variable {AccountId : Type} {R : Config AccountId}

/-! ## The sides of the equation -/

/-- What the accepted messages report to be burned of the asset with this token id. -/
def carried {cfg : UpwardMessages.Config} (token : List UInt8)
    (messages : UpwardMessages.State cfg) : Nat :=
  ((messages.sent .burnAsset BurnAssetPayload.codec).map fun p =>
    if Borsh.asBytes p.tokenId = token then p.amount else 0).sum

variable (issuanceOf : R.Assets → Nat → Nat)

/-- What was issued of an asset and what was destroyed between two states, where no message carries
`uncarried`. -/
def Supplied (token : List UInt8) (asset : Nat) (b b' : Bridge.State R.bridge)
    (uncarried : Nat) : Prop :=
  issuanceOf b'.assets asset + carried token b'.messages + b.minted asset + uncarried
    = issuanceOf b.assets asset + carried token b.messages + b'.minted asset

section

variable {cfg : UpwardMessages.Config} {messages messages' : UpwardMessages.State cfg}

theorem carried_append (token : List UInt8) {p : BurnAssetPayload}
    (h : messages'.sent .burnAsset BurnAssetPayload.codec
      = messages.sent .burnAsset BurnAssetPayload.codec ++ [p]) :
    carried token messages'
      = carried token messages + if Borsh.asBytes p.tokenId = token then p.amount else 0 := by
  unfold carried
  rw [h]
  simp

theorem carried_of_accepted (token : List UInt8) (h : messages'.accepted = messages.accepted) :
    carried token messages' = carried token messages := by
  unfold carried
  rw [UpwardMessages.sent_of_accepted h]

/-- Other messages report no burn. -/
theorem carried_submit {payloadType : PayloadType} (hne : payloadType ≠ .burnAsset)
    (token : List UInt8) (who : Option AccountId) {payload : List UInt8}
    {r : Except DispatchError Nat}
    (h : UpwardMessages.submit who payloadType payload messages = (r, messages')) :
    carried token messages' = carried token messages := by
  have hsent := UpwardMessages.submit_sent_of_ne hne BurnAssetPayload.codec who payload messages
  rw [h] at hsent
  unfold carried
  rw [hsent]

end

/-! ## Calls and notifications -/

variable {issuanceOf} {balanceOf : R.Assets → Nat → AccountId → Nat}
  {minimumBalance : R.Assets → Nat → Nat} {token : List UInt8} {asset : Nat}

theorem Supplied.of_eq {b b' : Bridge.State R.bridge}
    (hissuance : issuanceOf b'.assets asset = issuanceOf b.assets asset)
    (hcarried : carried token b'.messages = carried token b.messages)
    (hminted : b'.minted asset = b.minted asset) : Supplied issuanceOf token asset b b' 0 := by
  unfold Supplied
  omega

theorem Supplied.refl (b : Bridge.State R.bridge) : Supplied issuanceOf token asset b b 0 :=
  .of_eq rfl rfl rfl

/-- What is kept besides by the calls that do not mint or burn. -/
theorem Supplied.of_wrapped {b b' : Bridge.State R.bridge} (h : b'.wrapped asset = b.wrapped asset) :
    Supplied issuanceOf token asset b b' 0 := by
  obtain ⟨hassets, hrest⟩ := Prod.mk.inj h
  obtain ⟨hmessages, hrest⟩ := Prod.mk.inj hrest
  obtain ⟨hminted, -⟩ := Prod.mk.inj hrest
  exact .of_eq (congrArg (issuanceOf · asset) hassets) (congrArg (carried token) hmessages) hminted

/-- A mint issues what its event reports. -/
theorem Supplied.minted (hlaws : FungiblesLaws R.fungibles issuanceOf balanceOf minimumBalance)
    {b : Bridge.State R.bridge} {assets : R.Assets} {assetId amount : Nat} {who : AccountId}
    (hminted : R.fungibles.mintInto assetId who amount b.assets = (.ok (), assets))
    {event : Bridge.Event AccountId}
    (hevent : event.minted asset = if assetId = asset then amount else 0) :
    Supplied issuanceOf token asset b { b with assets, events := b.events ++ [event] } 0 := by
  have happend := Bridge.minted_append asset b.events event
  rw [hevent] at happend
  unfold Supplied Bridge.State.minted
  simp only
  rw [happend]
  by_cases hasset : assetId = asset
  · subst hasset
    have hissued := hlaws.minted hminted
    rw [if_pos rfl]
    omega
  · have hother := hlaws.mintedOther hminted (Ne.symm hasset)
    rw [if_neg hasset, hother]
    omega

theorem Supplied.mintFailed (hlaws : FungiblesLaws R.fungibles issuanceOf balanceOf minimumBalance)
    {b : Bridge.State R.bridge} {assets : R.Assets} {assetId amount : Nat} {who : AccountId}
    {e : DispatchError}
    (hfailed : R.fungibles.mintInto assetId who amount b.assets = (.error e, assets)) :
    Supplied issuanceOf token asset b { b with assets } 0 := by
  obtain rfl := hlaws.mintFailed hfailed
  exact .refl b

/-- **A notification issues what its event reports.** -/
theorem Supplied.notified (hlaws : FungiblesLaws R.fungibles issuanceOf balanceOf minimumBalance)
    (o : Appchain.Observation AccountId) (b : Bridge.State R.bridge) :
    Supplied issuanceOf token asset b (o.bridgeCall Bridge.bridgeInterface b).2 0 := by
  cases o with
  | updateValidatorSet valSet => exact .refl b
  | burn event => exact .of_wrapped (Bridge.doUnlock_wrapped asset _ _ _ _ b)
  | burnNft event => exact .of_wrapped (Bridge.doUnlockNonfungible_wrapped asset _ _ _ _ _ b)
  | lockAsset event =>
    show Supplied issuanceOf token asset b (Bridge.doMintNep141 event.tokenId event.senderId
      event.receiver event.amount event.index b).2 0
    rcases hrun : Bridge.doMintNep141 event.tokenId event.senderId event.receiver event.amount
      event.index b with ⟨e | _, b'⟩
    · rcases Bridge.doMintNep141_error hrun with rfl | ⟨assetId, e', assets, hfailed, rfl⟩
      · exact .refl b'
      · exact .mintFailed hlaws hfailed
    · obtain ⟨assetId, assets, -, -, hminted, rfl⟩ := Bridge.doMintNep141_eq_ok.mp hrun
      exact .minted hlaws hminted rfl

/-- Root issues what its event reports. -/
theorem Supplied.root (hlaws : FungiblesLaws R.fungibles issuanceOf balanceOf minimumBalance)
    (appchain : AppchainInterface AccountId) (call : Bridge.PalletCall AccountId)
    (b : Bridge.State R.bridge) :
    Supplied issuanceOf token asset b (call.dispatch appchain .root b).2 0 := by
  cases call with
  | lock _ _ | burnNep141 _ _ _ | lockNonfungible _ _ _ => exact .refl b
  | setTokenId other otherAsset =>
    show Supplied issuanceOf token asset b (Bridge.setTokenId appchain .root other otherAsset b).2 0
    rcases Bridge.setTokenId_cases appchain other otherAsset b with hsame | ⟨-, -, hadded⟩
    · rw [hsame]
      exact .refl b
    · rw [hadded]
      exact .of_eq rfl rfl rfl
  | deleteTokenId other =>
    show Supplied issuanceOf token asset b (Bridge.deleteTokenId .root other b).2 0
    rcases Bridge.deleteTokenId_cases other b with hsame | hremoved
    · rw [hsame]
      exact .refl b
    · rw [hremoved]
      exact .of_eq rfl rfl rfl
  | forceUnlock who amount => exact .of_wrapped (Bridge.forceUnlock_wrapped asset who amount b)
  | forceUnlockNonfungible who collection item =>
    exact .of_wrapped (Bridge.forceUnlockNonfungible_wrapped asset who collection item b)
  | forceMintNep141 assetId who amount =>
    show Supplied issuanceOf token asset b (Bridge.forceMintNep141 .root assetId who amount b).2 0
    rcases Bridge.forceMintNep141_cases assetId who amount b with
      ⟨e, assets, hfailed, hrun⟩ | ⟨assets, hminted, hrun⟩
    · rw [hrun]
      exact .mintFailed hlaws hfailed
    · rw [hrun]
      exact .minted hlaws hminted rfl

/-- **A transfer of an account destroys what its message carries, and the dust.** -/
theorem Supplied.outbound (hlaws : FungiblesLaws R.fungibles issuanceOf balanceOf minimumBalance)
    {sender : AccountId} {call : Bridge.PalletCall AccountId} {b b' : Bridge.State R.bridge}
    (hmaps : b.Maps token asset) (h : Bridge.Outbound sender call b b') :
    ∃ uncarried, Supplied issuanceOf token asset b b' uncarried ∧
      (uncarried = 0 ↔ ∀ receiverId amount, call = .burnNep141 asset receiverId amount →
        balanceOf b.assets asset sender = amount ∨
          amount + minimumBalance b.assets asset ≤ balanceOf b.assets asset sender) := by
  cases h with
  | lock _ _ _ _ _ hvalid hsubmit =>
    exact ⟨0, .of_eq rfl (carried_submit (by simp) token (some sender) hsubmit)
      (Bridge.minted_append asset _ _), by simp⟩
  | lockNonfungible _ _ _ _ _ hvalid hsubmit =>
    exact ⟨0, .of_eq rfl (carried_submit (by simp) token (some sender) hsubmit)
      (Bridge.minted_append asset _ _), by simp⟩
  | @burnNep141 _ receiverId token' receiver tokenId assetId amount burned fee sequence _ _ _ _ htoken
      htokenId _ _ hburned hvalid hsubmit =>
    have hcarried := carried_append token
      (UpwardMessages.submit_sent (some sender) hvalid hsubmit)
    rw [Borsh.asBytes_of_fromUtf8 htokenId] at hcarried
    have hminted := Bridge.minted_append asset b.events
      (.nep141Burned assetId sender (Borsh.asBytes receiver) amount fee sequence)
    by_cases hasset : assetId = asset
    · subst hasset
      obtain rfl : token' = token := Option.some.inj (htoken.symm.trans hmaps.first)
      have hdestroyed := hlaws.burned hburned
      obtain ⟨hfunds, hactual⟩ := hlaws.actual hburned
      refine ⟨dust (minimumBalance b.assets assetId) (balanceOf b.assets assetId sender - amount),
        ?_, ?_⟩
      · unfold Supplied Bridge.State.minted
        simp only [if_pos] at hcarried ⊢
        rw [hminted, hcarried]
        simp only [Bridge.Event.minted]
        omega
      · rw [dust_sub_eq_zero hfunds]
        constructor
        · rintro hclean _ _ ⟨⟩
          exact hclean
        · exact fun hclean => hclean receiverId amount rfl
    · have htokens : token' ≠ token := by
        rintro rfl
        exact hasset (hmaps.eq_of_tryGetTokenId htoken)
      rw [if_neg htokens, Nat.add_zero] at hcarried
      refine ⟨0, .of_eq ?_ hcarried hminted, iff_of_true rfl ?_⟩
      · exact hlaws.burnedOther hburned (Ne.symm hasset)
      · rintro _ _ ⟨⟩
        exact absurd rfl hasset

/-- A call of an account that is refused destroys nothing. -/
theorem Supplied.signed (hlaws : FungiblesLaws R.fungibles issuanceOf balanceOf minimumBalance)
    (appchain : AppchainInterface AccountId) (sender : AccountId)
    (call : Bridge.PalletCall AccountId) {b : Bridge.State R.bridge} (hmaps : b.Maps token asset) :
    ∃ uncarried, Supplied issuanceOf token asset b
        (settle (call.dispatch appchain (.signed sender)) b) uncarried ∧
      (uncarried = 0 ↔ ∀ receiverId amount, call = .burnNep141 asset receiverId amount →
        appchain.isActivated = true → (∃ b', Bridge.Outbound sender call b b') →
          balanceOf b.assets asset sender = amount ∨
            amount + minimumBalance b.assets asset ≤ balanceOf b.assets asset sender) := by
  rcases Bridge.dispatch_signed appchain sender call b with ⟨e, he⟩ | ⟨b', hok, hactive, hout⟩
  · rw [settle_of_error he]
    refine ⟨0, .refl _, iff_of_true rfl ?_⟩
    rintro receiverId amount rfl hactive ⟨b', hout⟩
    -- such a burn is not refused
    cases (Prod.mk.inj (he.symm.trans (Bridge.burnNep141_eq_ok.mpr ⟨hactive, hout⟩))).1
  · rw [settle_of_ok hok]
    obtain ⟨uncarried, hsupplied, hclean⟩ := Supplied.outbound hlaws hmaps hout
    refine ⟨uncarried, hsupplied, hclean.trans ?_⟩
    exact ⟨fun h receiverId amount heq _ _ => h receiverId amount heq,
      fun h receiverId amount heq => h receiverId amount heq hactive ⟨b', hout⟩⟩

/-! ## Steps -/

/-- A transfer of an account leaves the map of token ids alone. -/
theorem outbound_tokens {sender : AccountId} {call : Bridge.PalletCall AccountId}
    {b b' : Bridge.State R.bridge} (h : Bridge.Outbound sender call b b') :
    b'.assetIdByTokenId = b.assetIdByTokenId := by
  cases h <;> rfl

/-- So does a notification. -/
theorem bridgeCall_tokens (o : Appchain.Observation AccountId) (b : Bridge.State R.bridge) :
    (o.bridgeCall Bridge.bridgeInterface b).2.assetIdByTokenId = b.assetIdByTokenId := by
  cases o with
  | updateValidatorSet valSet => rfl
  | burn event =>
    exact congrArg (fun w => w.2.2.2) (Bridge.doUnlock_wrapped 0 event.senderId event.receiver
      event.amount event.index b)
  | burnNft event =>
    exact congrArg (fun w => w.2.2.2) (Bridge.doUnlockNonfungible_wrapped 0 event.collection
      event.item event.senderId event.receiver event.index b)
  | lockAsset event =>
    obtain ⟨assets, events, hrun, -⟩ := Bridge.doMintNep141_cases (Prod.eta
      (Bridge.doMintNep141 event.tokenId event.senderId event.receiver event.amount event.index b)).symm
    exact (congrArg Bridge.State.assetIdByTokenId hrun).trans rfl

/-- Root removes the entry of the asset by its token id only. -/
theorem root_maps (appchain : AppchainInterface AccountId) {call : Bridge.PalletCall AccountId}
    (hcall : call ≠ .deleteTokenId token) {b : Bridge.State R.bridge} (h : b.Maps token asset) :
    (call.dispatch appchain .root b).2.Maps token asset := by
  cases call with
  | lock _ _ | burnNep141 _ _ _ | lockNonfungible _ _ _ => exact h
  | setTokenId other otherAsset => exact h.setTokenId appchain other otherAsset
  | deleteTokenId other =>
    refine h.deleteTokenId ?_
    rintro rfl
    exact hcall rfl
  | forceUnlock who amount =>
    exact h.of_eq (congrArg (fun w => w.2.2.2) (Bridge.forceUnlock_wrapped asset who amount b))
  | forceUnlockNonfungible who collection item =>
    exact h.of_eq (congrArg (fun w => w.2.2.2)
      (Bridge.forceUnlockNonfungible_wrapped asset who collection item b))
  | forceMintNep141 assetId who amount =>
    show (Bridge.forceMintNep141 .root assetId who amount b).2.Maps token asset
    rcases Bridge.forceMintNep141_cases assetId who amount b with ⟨e, assets, -, hrun⟩ | ⟨assets, -, hrun⟩
    · rw [hrun]
      exact h.of_eq rfl
    · rw [hrun]
      exact h.of_eq rfl

/-- Only the bridge changes the issuance of the asset, whose token id is not removed. -/
def Step.ThroughBridge (issuanceOf : R.Assets → Nat → Nat) (token : List UInt8) (asset : Nat)
    (s : State R) : Step R → Prop
  | .bridge .root call => call ≠ .deleteTokenId token
  | .elsewhere _ assets _ _ => issuanceOf assets asset = issuanceOf s.appchain.bridge.assets asset
  | _ => True

/-- A burn of the asset that is not refused leaves the sender nothing of it, or enough. -/
def Step.LeavesNoDust (balanceOf : R.Assets → Nat → AccountId → Nat)
    (minimumBalance : R.Assets → Nat → Nat) (asset : Nat) (s : State R) : Step R → Prop
  | .bridge (.signed sender) call => ∀ receiverId amount,
    call = .burnNep141 asset receiverId amount → s.appchain.isActivated = true →
      (∃ b', Bridge.Outbound sender call s.appchain.bridge b') →
        balanceOf s.appchain.bridge.assets asset sender = amount ∨
          amount + minimumBalance s.appchain.bridge.assets asset
            ≤ balanceOf s.appchain.bridge.assets asset sender
  | _ => True

variable [DecidableEq AccountId]

theorem State.step_maps (s : State R) {i : Step R} (hi : i.ThroughBridge issuanceOf token asset s)
    (h : s.appchain.bridge.Maps token asset) : (s.step i).1.appchain.bridge.Maps token asset := by
  have hquiet : i.Quiet → (s.step i).1.appchain.bridge.Maps token asset := by
    intro hquiet
    rw [s.step_bridge hquiet]
    exact h
  cases i with
  | timestamp _ | force _ _ | keys _ | onFinalize | noteAuthor _ | reportOffence _ _ _ _ | lpos _ _ =>
    exact hquiet trivial
  | rotate | fees _ | elsewhere _ _ _ _ => exact h.of_eq rfl
  | onInitialize now =>
    show (s.onInitialize now).appchain.bridge.Maps token asset
    obtain ⟨messages, -, hrun⟩ := s.onInitialize_eq now
    rw [hrun]
    exact h.of_eq rfl
  | vote keyData o =>
    show (s.vote keyData o).1.appchain.bridge.Maps token asset
    rcases s.vote_bridge keyData o with ⟨-, hsame⟩ | ⟨-, hcalled⟩
    · rw [hsame]
      exact h
    · rw [hcalled]
      exact h.of_eq (bridgeCall_tokens o _)
  | bridge origin call =>
    show (settle (call.dispatch s.appchain.appchainInterface origin)
      s.appchain.bridge).Maps token asset
    rcases settle_cases s.appchain.appchainInterface origin call s.appchain.bridge with
      hsame | ⟨sender, rfl, -, hout⟩ | ⟨rfl, hroot⟩
    · rw [hsame]
      exact h
    · exact h.of_eq (outbound_tokens hout)
    · rw [hroot]
      exact root_maps _ hi h

/-- **The step lemma.** -/
theorem Supplied.step (hlaws : FungiblesLaws R.fungibles issuanceOf balanceOf minimumBalance)
    (s : State R) {i : Step R} (hi : i.ThroughBridge issuanceOf token asset s)
    (hmaps : s.appchain.bridge.Maps token asset) :
    ∃ uncarried, Supplied issuanceOf token asset s.appchain.bridge (s.step i).1.appchain.bridge
        uncarried ∧
      (uncarried = 0 ↔ i.LeavesNoDust balanceOf minimumBalance asset s) := by
  have hquiet : i.Quiet → Supplied issuanceOf token asset s.appchain.bridge
      (s.step i).1.appchain.bridge 0 := by
    intro hquiet
    rw [s.step_bridge hquiet]
    exact .refl _
  cases i with
  | timestamp _ | force _ _ | keys _ | onFinalize | noteAuthor _ | reportOffence _ _ _ _ | lpos _ _ =>
    exact ⟨0, hquiet trivial, iff_of_true rfl trivial⟩
  | fees _ => exact ⟨0, .of_eq rfl rfl rfl, iff_of_true rfl trivial⟩
  | elsewhere balances assets items historical =>
    exact ⟨0, .of_eq hi rfl rfl, iff_of_true rfl trivial⟩
  | rotate =>
    refine ⟨0, .of_eq rfl ?_ rfl, iff_of_true rfl trivial⟩
    refine s.rotate_messages (f := carried token) fun payloadType hsystem payload messages => ?_
    refine carried_submit ?_ token (none : Option AccountId) (Prod.eta _).symm
    rcases hsystem with rfl | rfl <;> simp
  | onInitialize now =>
    refine ⟨0, ?_, iff_of_true rfl trivial⟩
    show Supplied issuanceOf token asset s.appchain.bridge (s.onInitialize now).appchain.bridge 0
    obtain ⟨messages, haccepted, hrun⟩ := s.onInitialize_eq now
    rw [hrun]
    exact .of_eq rfl (carried_of_accepted token haccepted) rfl
  | vote keyData o =>
    refine ⟨0, ?_, iff_of_true rfl trivial⟩
    show Supplied issuanceOf token asset s.appchain.bridge (s.vote keyData o).1.appchain.bridge 0
    rcases s.vote_bridge keyData o with ⟨-, hsame⟩ | ⟨-, hcalled⟩
    · rw [hsame]
      exact .refl _
    · rw [hcalled]
      exact .notified hlaws o _
  | bridge origin call =>
    show ∃ uncarried, Supplied issuanceOf token asset s.appchain.bridge
      (settle (call.dispatch s.appchain.appchainInterface origin) s.appchain.bridge) uncarried ∧ _
    cases origin with
    | none =>
      obtain ⟨e, he⟩ := Bridge.dispatch_none s.appchain.appchainInterface call s.appchain.bridge
      rw [settle_of_error he]
      exact ⟨0, .refl _, iff_of_true rfl trivial⟩
    | root =>
      refine ⟨0, ?_, iff_of_true rfl trivial⟩
      rcases settle_cases s.appchain.appchainInterface .root call s.appchain.bridge with
        hsame | ⟨sender, hsigned, -⟩ | ⟨-, hroot⟩
      · rw [hsame]
        exact .refl _
      · cases hsigned
      · rw [hroot]
        exact .root hlaws _ call _
    | signed sender => exact Supplied.signed hlaws s.appchain.appchainInterface sender call hmaps

/--
**The issuance of a wrapped token agrees with the messages exactly in the runs without dust.** Where
only the bridge changes the issuance of an asset that stays mapped to its token id, every state
reached has the initial issuance, with what the events since then report as minted, less what the
messages accepted since then report as burned, if and only if every burn of the asset that is not
refused leaves the sender nothing of it or at least the minimum balance.
-/
theorem supply_agrees_iff
    (hlaws : FungiblesLaws R.fungibles issuanceOf balanceOf minimumBalance) (s₀ : State R)
    (hmaps : s₀.appchain.bridge.Maps token asset) (steps : List (Step R))
    (hsteps : (machine R).Along (fun s i => i.ThroughBridge issuanceOf token asset s) steps s₀) :
    (∀ js, js <+: steps → Supplied issuanceOf token asset s₀.appchain.bridge
        ((machine R).run js s₀).appchain.bridge 0) ↔
      (machine R).Along (fun s i => i.LeavesNoDust balanceOf minimumBalance asset s) steps s₀ := by
  refine (machine R).prefixes_iff (J := fun s => s.appchain.bridge.Maps token asset)
    (I := fun _ s => Supplied issuanceOf token asset s₀.appchain.bridge s.appchain.bridge 0)
    (fun s i hs hi => s.step_maps hi hs) ?_ steps [] s₀ hmaps hsteps (.refl _)
  intro _ s i hs hi hsupplied
  obtain ⟨uncarried, hstep, hclean⟩ := Supplied.step hlaws s hi hs
  rw [← hclean]
  show Supplied _ _ _ _ (s.step i).1.appchain.bridge 0 ↔ _
  unfold Supplied at *
  omega

namespace Sample

/-- The minimum balance of an asset is 5. -/
def wrapping : Config (Fin 4) :=
  { issuing with
    Assets := Nat → Fin 4 → Nat
    fungibles := palletAssets 5 }

/-- The holder has 100 units of asset 7, all there are. -/
def wrapped : Genesis wrapping where
  now := 0
  sessionPallet := issued.sessionPallet
  anchorContract := []
  validators := [(validator, 1)]
  historyDepth := 84
  eraPayout := 5
  bridge := ⟨[([116], 7)], fun _ => none, [], issued.bridge.balances,
    fun asset who => if asset = 7 ∧ who = holder then 100 else 0, (),
    UpwardMessages.genesisBuild Bridge.Sample.messageConfig 1⟩
  historical := Nat.zero

/-- Root mints 20 units for the holder, the validator reports that 30 were locked for itself on the
mainchain, and the holder burns 100. -/
def mintAndBurn : List (Step wrapping) :=
  [.force .root (.isActivated true), .bridge .root (.forceMintNep141 7 holder 20),
    .vote [1] (.lockAsset ⟨0, [116], [], validator, 30⟩),
    .bridge (.signed holder) (.burnNep141 7 [97] 100)]

/-- The holder burns all but 3 units. -/
def burnAllButThree : List (Step wrapping) :=
  [.force .root (.isActivated true), .bridge (.signed holder) (.burnNep141 7 [97] 97)]

end Sample

/-- Of 100 units and the 50 that were minted, 100 are burned. -/
theorem supply_agrees_after_burn :
    ∃ s₀, Sample.wrapped.start = some s₀ ∧
      let s := (machine Sample.wrapping).run Sample.mintAndBurn s₀
      issuance s.appchain.bridge.assets 7 = 50 ∧ s.appchain.bridge.minted 7 = 50 ∧
        carried [116] s.appchain.bridge.messages = 100 ∧
        Supplied issuance [116] 7 s₀.appchain.bridge s.appchain.bridge 0 := by
  refine ⟨(Sample.wrapped.start).get (by decide +kernel), Option.some_get _ |>.symm, ?_⟩
  generalize hs₀ : (Sample.wrapped.start).get _ = s₀
  have hmaps : s₀.appchain.bridge.Maps [116] 7 := by
    subst hs₀
    exact ⟨by decide +kernel, by decide +kernel⟩
  have hagrees := (supply_agrees_iff (palletAssets_laws 5) s₀ hmaps Sample.mintAndBurn
    ⟨trivial, by simp [Step.ThroughBridge], trivial, trivial, trivial⟩).mpr
      ⟨trivial, trivial, trivial, ?_, trivial⟩ Sample.mintAndBurn (List.prefix_refl _)
  · refine ⟨?_, ?_, ?_, hagrees⟩
    all_goals
      subst hs₀
      decide +kernel
  · rintro _ _ ⟨⟩ - -
    subst hs₀
    decide +kernel

/-- The 3 units that would be left are burned along, but the message carries 97. -/
theorem dust_is_not_announced :
    ∃ s₀, Sample.wrapped.start = some s₀ ∧ s₀.appchain.bridge.Maps [116] 7 ∧
      (machine Sample.wrapping).Along (fun s i => i.ThroughBridge issuance [116] 7 s)
        Sample.burnAllButThree s₀ ∧
      let s := (machine Sample.wrapping).run Sample.burnAllButThree s₀
      issuance s₀.appchain.bridge.assets 7 = 100 ∧ issuance s.appchain.bridge.assets 7 = 0 ∧
        carried [116] s₀.appchain.bridge.messages = 0 ∧
        carried [116] s.appchain.bridge.messages = 97 ∧
        s₀.appchain.bridge.minted 7 = 0 ∧ s.appchain.bridge.minted 7 = 0 ∧
        ¬ Supplied issuance [116] 7 s₀.appchain.bridge s.appchain.bridge 0 := by
  refine ⟨(Sample.wrapped.start).get (by decide +kernel), Option.some_get _ |>.symm, ?_⟩
  generalize hs₀ : (Sample.wrapped.start).get _ = s₀
  refine ⟨⟨?_, ?_⟩, ⟨trivial, trivial, trivial⟩, ?_, ?_, ?_, ?_, ?_, ?_, (?_ : ¬ _ = _)⟩
  all_goals
    subst hs₀
    decide +kernel

end OctopusPallets.Runtime
