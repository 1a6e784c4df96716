import OctopusPallets.Runtime.Shared
import OctopusPallets.Support.Assets

/-!
# The balance of the pallet account

What is locked goes to the account of the bridge pallet, with the fees, and what is unlocked comes
from it. So its balance is accounted for by the messages that were accepted, the unlocks that the
events report and the payouts of eras. Only the message of a burn can be wrong: it carries the amount
that was asked for, not the one that was burned.

* `Settled` — one step, as an equation between the two sides
* `escrow_settled` — a run
-/

namespace OctopusPallets.Runtime

open Infra Infra.Dispatch Infra.FixedWidth

variable {AccountId : Type} {R : Config AccountId}

/-! ## The sides of the equation -/

/-- What a message reports to have been paid to the pallet account. -/
def credit {cfg : UpwardMessages.Config} (m : UpwardMessages.Message cfg) : Nat :=
  match m.payloadType with
  | .lock => (m.read .lock LockPayload.codec).elim 0 fun p => p.amount + p.fee
  | .burnAsset => (m.read .burnAsset BurnAssetPayload.codec).elim 0 BurnAssetPayload.fee
  | .lockNft => (m.read .lockNft LockNftPayload.codec).elim 0 LockNftPayload.fee
  | .planNewEra | .eraPayout => 0

def credited {cfg : UpwardMessages.Config} (messages : UpwardMessages.State cfg) : Nat :=
  (messages.accepted.map credit).sum

variable (balanceOf : R.Balances → AccountId → Nat)

/-- The balance of the pallet account. -/
def escrow (b : Bridge.State R.bridge) : Nat := balanceOf b.balances R.bridgeAccount

/-- What came into the pallet account and what went out of it between two states, where `paid` came
from the payouts of eras. -/
def Settled (b b' : Bridge.State R.bridge) (paid : Nat) : Prop :=
  escrow balanceOf b' + b'.released + credited b.messages
    = escrow balanceOf b + b.released + credited b'.messages + paid

/-! ## Messages -/

section

variable {cfg : UpwardMessages.Config} {messages messages' : UpwardMessages.State cfg}
  {m : UpwardMessages.Message cfg}

theorem credit_lock {p : LockPayload} (h : m.read .lock LockPayload.codec = some p) :
    credit m = p.amount + p.fee := by
  simp [credit, UpwardMessages.Message.payloadType_of_read h, h]

theorem credit_burnAsset {p : BurnAssetPayload}
    (h : m.read .burnAsset BurnAssetPayload.codec = some p) : credit m = p.fee := by
  simp [credit, UpwardMessages.Message.payloadType_of_read h, h]

theorem credit_lockNft {p : LockNftPayload} (h : m.read .lockNft LockNftPayload.codec = some p) :
    credit m = p.fee := by
  simp [credit, UpwardMessages.Message.payloadType_of_read h, h]

theorem credited_append (h : messages'.accepted = messages.accepted ++ [m]) :
    credited messages' = credited messages + credit m := by
  unfold credited
  rw [h]
  simp

/-- The messages of the runtime report no payment. -/
theorem credited_system {payloadType : PayloadType} (h : UpwardMessages.IsSystem payloadType)
    (who : Option AccountId) (payload : List UInt8) :
    credited (UpwardMessages.submit who payloadType payload messages).2 = credited messages := by
  rcases UpwardMessages.submit_accepted who payloadType payload messages with
    ⟨e, he⟩ | ⟨m, t, hok, htype, -, haccepted⟩
  · rw [he]
  · have hcredit : credit m = 0 := by
      unfold credit
      rw [htype]
      rcases h with rfl | rfl <;> rfl
    rw [hok, credited_append haccepted, hcredit, Nat.add_zero]

end

/-! ## Calls and notifications -/

variable {balanceOf} {deposits : R.Balances → AccountId → Nat → Bool}

theorem released_append (events : List (Bridge.Event AccountId)) (event : Bridge.Event AccountId) :
    ((events ++ [event]).map Bridge.Event.released).sum
      = (events.map Bridge.Event.released).sum + event.released := by
  simp

/-- **A transfer of an account pays what its message reports.** -/
theorem Settled.outbound (hlaws : CurrencyLaws R.currency balanceOf deposits) {sender : AccountId}
    (hsender : sender ≠ R.bridgeAccount) {call : Bridge.PalletCall AccountId}
    {b b' : Bridge.State R.bridge} (h : Bridge.Outbound sender call b b') :
    Settled balanceOf b b' 0 := by
  unfold Settled escrow
  cases h with
  | lock _ _ _ hfee hmoved hvalid hsubmit =>
    have hpaid := hlaws.received hsender hfee
    have hlocked := hlaws.received hsender hmoved
    obtain ⟨m, haccepted, hread⟩ := UpwardMessages.submit_read (some sender) hvalid hsubmit
    have hcredited := credited_append haccepted
    rw [credit_lock hread] at hcredited
    simp only [Bridge.State.released, released_append, Bridge.Event.released] at *
    omega
  | burnNep141 _ _ _ _ hfee _ hvalid hsubmit =>
    have hpaid := hlaws.received hsender hfee
    obtain ⟨m, haccepted, hread⟩ := UpwardMessages.submit_read (some sender) hvalid hsubmit
    have hcredited := credited_append haccepted
    rw [credit_burnAsset hread] at hcredited
    simp only [Bridge.State.released, released_append, Bridge.Event.released] at *
    omega
  | lockNonfungible _ _ _ hfee _ hvalid hsubmit =>
    have hpaid := hlaws.received hsender hfee
    obtain ⟨m, haccepted, hread⟩ := UpwardMessages.submit_read (some sender) hvalid hsubmit
    have hcredited := credited_append haccepted
    rw [credit_lockNft hread] at hcredited
    simp only [Bridge.State.released, released_append, Bridge.Event.released] at *
    omega

/-- What changes neither the balance of the pallet account nor the messages. -/
theorem Settled.of_eq {b b' : Bridge.State R.bridge}
    (hbalance : escrow balanceOf b' = escrow balanceOf b) (hreleased : b'.released = b.released)
    (hcredited : credited b'.messages = credited b.messages) : Settled balanceOf b b' 0 := by
  unfold Settled
  omega

theorem Settled.refl (b : Bridge.State R.bridge) : Settled balanceOf b b 0 := .of_eq rfl rfl rfl

theorem Settled.trans {b b' b'' : Bridge.State R.bridge} {paid paid' : Nat}
    (h : Settled balanceOf b b' paid) (h' : Settled balanceOf b' b'' paid') :
    Settled balanceOf b b'' (paid + paid') := by
  unfold Settled at *
  omega

/-- Tokens that leave the pallet account are reported by their event. -/
theorem Settled.unlocked (hlaws : CurrencyLaws R.currency balanceOf deposits) {who : AccountId}
    (hwho : who ≠ R.bridgeAccount) {amount : Nat} {b : Bridge.State R.bridge} {balances : R.Balances}
    (hmoved : R.currency.transfer R.bridgeAccount who amount .keepAlive b.balances
      = (.ok (), balances))
    {event : Bridge.Event AccountId} (hevent : event.released = amount) :
    Settled balanceOf b { b with balances, events := b.events ++ [event] } 0 := by
  have hsent := hlaws.sent hwho.symm hmoved
  have hreleased := released_append b.events event
  unfold Settled escrow Bridge.State.released
  simp only
  omega

theorem Settled.failed (hlaws : CurrencyLaws R.currency balanceOf deposits) {who : AccountId}
    {amount : Nat} {b : Bridge.State R.bridge} {balances : R.Balances} {e : DispatchError}
    (hfailed : R.currency.transfer R.bridgeAccount who amount .keepAlive b.balances
      = (.error e, balances)) :
    Settled balanceOf b { b with balances } 0 := by
  obtain rfl := hlaws.failed hfailed
  exact .refl b

/-- **A notification pays out what its event reports.** -/
theorem Settled.notified (hlaws : CurrencyLaws R.currency balanceOf deposits)
    {o : Appchain.Observation AccountId}
    (hreceiver : ∀ event, o = .burn event → event.receiver ≠ R.bridgeAccount)
    (b : Bridge.State R.bridge) :
    Settled balanceOf b (o.bridgeCall Bridge.bridgeInterface b).2 0 := by
  cases o with
  | updateValidatorSet valSet => exact .refl b
  | burn event =>
    show Settled balanceOf b
      (Bridge.doUnlock event.senderId event.receiver event.amount event.index b).2 0
    rcases hrun : Bridge.doUnlock event.senderId event.receiver event.amount event.index b with
      ⟨e | _, b'⟩
    · rcases Bridge.doUnlock_error hrun with rfl | ⟨e', balances, hfailed, rfl⟩
      · exact .refl b'
      · exact .failed hlaws hfailed
    · obtain ⟨-, balances, hmoved, rfl⟩ := Bridge.doUnlock_eq_ok.mp hrun
      exact .unlocked hlaws (hreceiver event rfl) hmoved rfl
  | lockAsset event =>
    show Settled balanceOf b (Bridge.doMintNep141 event.tokenId event.senderId event.receiver
      event.amount event.index b).2 0
    obtain ⟨assets, events, hrun, hevents⟩ := Bridge.doMintNep141_cases (Prod.eta
      (Bridge.doMintNep141 event.tokenId event.senderId event.receiver event.amount event.index b)).symm
    rw [hrun]
    refine .of_eq rfl ?_ rfl
    rcases hevents with rfl | ⟨assetId, rfl⟩ <;> simp [Bridge.State.released, Bridge.Event.released]
  | burnNft event =>
    show Settled balanceOf b (Bridge.doUnlockNonfungible event.collection event.item event.senderId
      event.receiver event.index b).2 0
    rcases hrun : Bridge.doUnlockNonfungible event.collection event.item event.senderId
      event.receiver event.index b with ⟨e | _, b'⟩
    · rcases Bridge.doUnlockNonfungible_error hrun with rfl | ⟨e', items, -, rfl⟩
      · exact .refl b'
      · exact .of_eq rfl rfl rfl
    · obtain ⟨-, -, items, -, rfl⟩ := Bridge.doUnlockNonfungible_eq_ok.mp hrun
      refine .of_eq rfl ?_ rfl
      simp [Bridge.State.released, Bridge.Event.released]

/-- Root pays out what its event reports. -/
theorem Settled.root (hlaws : CurrencyLaws R.currency balanceOf deposits)
    (appchain : AppchainInterface AccountId) {call : Bridge.PalletCall AccountId}
    (hwho : ∀ who amount, call = .forceUnlock who amount → who ≠ R.bridgeAccount)
    (b : Bridge.State R.bridge) :
    Settled balanceOf b (call.dispatch appchain .root b).2 0 := by
  by_cases hforce : ∃ who amount, call = .forceUnlock who amount
  · obtain ⟨who, amount, rfl⟩ := hforce
    show Settled balanceOf b (Bridge.forceUnlock .root who amount b).2 0
    rcases Bridge.forceUnlock_cases who amount b with
      ⟨e, balances, hfailed, hrun⟩ | ⟨balances, hmoved, hrun⟩
    · rw [hrun]
      exact .failed hlaws hfailed
    · rw [hrun]
      exact .unlocked hlaws (hwho who amount rfl) hmoved rfl
  · have hkept := Bridge.dispatch_root appchain
      (fun who amount heq => hforce ⟨who, amount, heq⟩) b
    obtain ⟨hbalances, hrest⟩ := Prod.mk.inj hkept
    obtain ⟨hmessages, hreleased⟩ := Prod.mk.inj hrest
    exact .of_eq (congrArg (balanceOf · R.bridgeAccount) hbalances) hreleased
      (congrArg credited hmessages)

/-! ## Steps -/

variable [DecidableEq AccountId]

/-- The payout of the era that ends, where it is deposited to the pallet account. -/
def State.depositOf (deposits : R.Balances → AccountId → Nat → Bool) (s : State R)
    (activeEra : Lpos.ActiveEraInfo) : Nat :=
  if s.lposState.Pays s.context activeEra ∧ s.lpos.eraPayout < 2 ^ R.balanceBits ∧
      deposits s.balances R.lposAccount s.lpos.eraPayout = true ∧ R.lposAccount = R.bridgeAccount
  then s.lpos.eraPayout
  else 0

/-- What a step deposits to the pallet account: a rotation that goes through may pay an era. -/
def State.payout (deposits : R.Balances → AccountId → Nat → Bool) (s : State R) : Step R → Nat
  | .rotate =>
    match (Lpos.rotateSession s.context s.session s.lposState).1,
      (Lpos.endingEra s.session s.lposState).1 with
    | .ok _, .ok (some activeEra) => s.depositOf deposits activeEra
    | _, _ => 0
  | _ => 0

theorem State.payout_rotate {s : State R} {os : List (Lpos.Observed AccountId)}
    {l : Lpos.State R.lpos} (hrun : Lpos.rotateSession s.context s.session s.lposState = (.ok os, l))
    {activeEra : Lpos.ActiveEraInfo}
    (hending : Lpos.endingEra s.session s.lposState = (.ok (some activeEra), s.lposState)) :
    s.payout deposits .rotate = s.depositOf deposits activeEra := by
  unfold State.payout
  rw [hrun, hending]

/-- The payout is minted to one account, and no other balance changes. -/
theorem minted_escrow (hlaws : CurrencyLaws R.currency balanceOf deposits) (x : R.Balances)
    (value : Nat) :
    balanceOf (R.currency.depositCreating R.lposAccount value x) R.bridgeAccount
      = balanceOf x R.bridgeAccount +
        if deposits x R.lposAccount value = true ∧ R.lposAccount = R.bridgeAccount then value
        else 0 := by
  by_cases hsame : R.lposAccount = R.bridgeAccount
  · have hminted := hlaws.deposited x R.lposAccount value
    rw [hsame] at hminted ⊢
    simp [hminted]
  · rw [hlaws.elsewhere x R.lposAccount value (Ne.symm hsame), if_neg fun h => hsame h.2, Nat.add_zero]

theorem State.depositOf_of_pays {s : State R} {activeEra : Lpos.ActiveEraInfo}
    (hpays : s.lposState.Pays s.context activeEra) (hamount : s.lpos.eraPayout < 2 ^ R.balanceBits) :
    s.depositOf deposits activeEra
      = if deposits s.balances R.lposAccount s.lpos.eraPayout = true ∧ R.lposAccount = R.bridgeAccount
        then s.lpos.eraPayout else 0 := by
  simp [State.depositOf, hpays, hamount]

/-- A rotation reports no payment. -/
theorem State.rotate_credited (s : State R) :
    credited (s.onChain (.rotate s.context)).messages = credited s.messages :=
  s.rotate_messages fun _ hsystem payload _ => credited_system hsystem none payload

/-- A rotation deposits the payout of the era that it ends. -/
theorem State.rotate_escrow (hlaws : CurrencyLaws R.currency balanceOf deposits) (s : State R) :
    balanceOf (s.onChain (.rotate s.context)).balances R.bridgeAccount
      = balanceOf s.balances R.bridgeAccount + s.payout deposits .rotate := by
  rcases s.rotate_cases with ⟨⟨e, l, hrun⟩, hsame⟩ | ⟨os, l, hrun, hrotate⟩
  · have hnone : s.payout deposits .rotate = 0 := by
      unfold State.payout
      rw [hrun]
    rw [hsame, hnone, Nat.add_zero]
  obtain ⟨l₁, hend, hbalances⟩ := Lpos.rotateSession_end (f := Lpos.State.balances) (fun _ _ => rfl)
    (fun _ _ _ _ => rfl) (fun _ _ _ => rfl) hrun
  rw [hrotate]
  show balanceOf l.balances R.bridgeAccount = _
  rw [hbalances]
  cases hend with
  | unpaid hunpaid =>
    have hnone : s.payout deposits .rotate = 0 := by
      unfold State.payout
      rw [hrun]
      rcases Lpos.endingEra_cases s.session s.lposState with ⟨_ | activeEra, hending⟩ | hending
      · rw [hending]
      · rw [hending]
        exact if_neg fun h => hunpaid activeEra hending h.1
      · rw [hending]
    rw [hnone, Nat.add_zero]
    rfl
  | @payout activeEra r _ hending hpays hpayout hr =>
    rw [State.payout_rotate hrun hending]
    rcases hpayout.moved hr with ⟨hamount, hkept, -⟩ | ⟨hamount, hminted, -⟩
    · have hnone : s.depositOf deposits activeEra = 0 :=
        if_neg fun h => absurd h.2.1 (Nat.not_lt.mpr hamount)
      rw [hkept, hnone, Nat.add_zero]
      rfl
    · rw [State.depositOf_of_pays hpays hamount, hminted]
      exact minted_escrow hlaws s.balances s.lpos.eraPayout

/-- **A rotation pays out one era at most.** -/
theorem Settled.rotate (hlaws : CurrencyLaws R.currency balanceOf deposits) (s : State R) :
    Settled balanceOf s.appchain.bridge (s.onChain (.rotate s.context)).appchain.bridge
      (s.payout deposits .rotate) := by
  have hescrow := s.rotate_escrow hlaws
  have hcredited := s.rotate_credited
  unfold State.balances at hescrow
  unfold State.messages at hcredited
  unfold Settled escrow
  rw [hescrow, hcredited]
  show _ + _ + s.appchain.bridge.released + _ = _
  omega

omit [DecidableEq AccountId] in
/-- The pallet account neither sends nor receives, and nobody else moves its balance. -/
def Step.FromOutside (balanceOf : R.Balances → AccountId → Nat) (s : State R) : Step R → Prop
  | .bridge (.signed sender) _ => sender ≠ R.bridgeAccount
  | .bridge .root (.forceUnlock who _) => who ≠ R.bridgeAccount
  | .vote _ (.burn event) => event.receiver ≠ R.bridgeAccount
  | .elsewhere balances _ _ _ =>
    balanceOf balances R.bridgeAccount = balanceOf s.balances R.bridgeAccount
  | _ => True

/-- The step lemma. -/
theorem Settled.step (hlaws : CurrencyLaws R.currency balanceOf deposits) (s : State R)
    {i : Step R} (hi : i.FromOutside balanceOf s) :
    Settled balanceOf s.appchain.bridge (s.step i).1.appchain.bridge (s.payout deposits i) := by
  have hquiet : i.Quiet → s.payout deposits i = 0 → Settled balanceOf s.appchain.bridge
      (s.step i).1.appchain.bridge (s.payout deposits i) := by
    intro hquiet hnone
    rw [s.step_bridge hquiet, hnone]
    exact .refl _
  cases i with
  | rotate => exact .rotate hlaws s
  | timestamp _ | force _ _ | keys _ | onFinalize | noteAuthor _ | reportOffence _ _ _ _ | lpos _ _ =>
    exact hquiet trivial rfl
  | fees _ => exact .of_eq rfl rfl rfl
  | elsewhere balances _ _ _ => exact .of_eq hi rfl rfl
  | onInitialize now =>
    show Settled balanceOf s.appchain.bridge (s.onInitialize now).appchain.bridge 0
    obtain ⟨messages, haccepted, hrun⟩ := s.onInitialize_eq now
    rw [hrun]
    exact .of_eq rfl rfl (congrArg (fun accepted => (accepted.map credit).sum) haccepted)
  | vote keyData o =>
    show Settled balanceOf s.appchain.bridge (s.vote keyData o).1.appchain.bridge 0
    rcases s.vote_bridge keyData o with ⟨-, hsame⟩ | ⟨-, hcalled⟩
    · rw [hsame]
      exact .refl _
    · rw [hcalled]
      refine .notified hlaws (fun event heq => ?_) _
      subst heq
      exact hi
  | bridge origin call =>
    show Settled balanceOf s.appchain.bridge
      (settle (call.dispatch s.appchain.appchainInterface origin) s.appchain.bridge) 0
    rcases settle_cases s.appchain.appchainInterface origin call s.appchain.bridge with
      hsame | ⟨sender, rfl, -, hout⟩ | ⟨rfl, hroot⟩
    · rw [hsame]
      exact .refl _
    · exact .outbound hlaws hi hout
    · rw [hroot]
      refine .root hlaws _ (fun who amount heq => ?_) _
      subst heq
      exact hi

/-- The run lemma. -/
theorem escrow_settled (hlaws : CurrencyLaws R.currency balanceOf deposits) (s₀ : State R)
    (steps : List (Step R))
    (h : (machine R).Along (fun s i => i.FromOutside balanceOf s) steps s₀) :
    Settled balanceOf s₀.appchain.bridge ((machine R).run steps s₀).appchain.bridge
      (((machine R).observing fun s i _ => [s.payout deposits i]).log steps s₀).sum := by
  let M := (machine R).observing fun s i _ => [s.payout deposits i]
  have hrun := M.invariant (P := fun s i => i.FromOutside balanceOf s)
    (I := fun _ s paid => Settled balanceOf s₀.appchain.bridge s.appchain.bridge paid.sum)
    (.refl _) ?_ steps (((machine R).observing_along _ steps s₀).mpr h)
  · rwa [(machine R).observing_run] at hrun
  · intro _ s paid i h hi
    show Settled balanceOf _ (s.step i).1.appchain.bridge (paid ++ [s.payout deposits i]).sum
    rw [List.sum_append, List.sum_singleton]
    exact h.trans (.step hlaws s hi)

/-! ## What the messages carry -/

omit [DecidableEq AccountId] in
variable (balanceOf) in
/-- The call added one message, which carries what the call has moved: the tokens and the fee that
the pallet account received, the assets that were burned, or the item. -/
def Carries (sender : AccountId) (call : Bridge.PalletCall AccountId) (b b' : Bridge.State R.bridge) :
    Prop :=
  ∃ m, UpwardMessages.State.accepted b'.messages = UpwardMessages.State.accepted b.messages ++ [m] ∧
    match call with
    | .lock _ amount => ∃ p, m.read .lock LockPayload.codec = some p ∧ p.amount = amount ∧
      escrow balanceOf b' = escrow balanceOf b + p.amount + p.fee
    | .burnNep141 assetId _ amount => ∃ p, m.read .burnAsset BurnAssetPayload.codec = some p ∧
      R.fungibles.burnFrom assetId sender amount b.assets = (.ok p.amount, b'.assets) ∧
      escrow balanceOf b' = escrow balanceOf b + p.fee
    | .lockNonfungible collection item _ => ∃ p, m.read .lockNft LockNftPayload.codec = some p ∧
      p.collection = collection ∧ p.item = item ∧
      R.nonfungibles.transfer collection item R.bridgeAccount b.items = (.ok (), b'.items) ∧
      escrow balanceOf b' = escrow balanceOf b + p.fee
    | _ => False

omit [DecidableEq AccountId] in
/-- **A transfer carries what it moved exactly when it did not burn another amount.** -/
theorem carries_iff (hlaws : CurrencyLaws R.currency balanceOf deposits) {sender : AccountId}
    (hsender : sender ≠ R.bridgeAccount) {call : Bridge.PalletCall AccountId}
    {b b' : Bridge.State R.bridge} (h : Bridge.Outbound sender call b b') :
    Carries balanceOf sender call b b' ↔ ∀ assetId receiverId amount,
      call = .burnNep141 assetId receiverId amount →
        (R.fungibles.burnFrom assetId sender amount b.assets).1 = .ok amount := by
  cases h with
  | lock _ _ _ hfee hmoved hvalid hsubmit =>
    refine iff_of_true ?_ (by simp)
    obtain ⟨m, haccepted, hread⟩ := UpwardMessages.submit_read (some sender) hvalid hsubmit
    refine ⟨m, haccepted, _, hread, rfl, ?_⟩
    have hpaid := hlaws.received hsender hfee
    have hlocked := hlaws.received hsender hmoved
    unfold escrow
    simp only at *
    omega
  | @burnNep141 _ receiverId _ _ _ assetId amount burned _ _ _ _ _ _ _ _ _ hfee hburned hvalid hsubmit =>
    obtain ⟨m, haccepted, hread⟩ := UpwardMessages.submit_read (some sender) hvalid hsubmit
    have hburned : R.fungibles.burnFrom assetId sender amount b.assets = (.ok burned, _) := hburned
    constructor
    · rintro ⟨m', haccepted', p, hread', hburned', -⟩ _ _ _ heq
      cases heq
      -- both are the one message that was added
      obtain rfl : m = m' := by
        simpa using List.append_cancel_left (haccepted.symm.trans haccepted')
      obtain rfl := Option.some.inj (hread.symm.trans hread')
      rw [hburned']
    · intro hexact
      have hamount := hexact assetId receiverId amount rfl
      rw [hburned] at hamount
      obtain rfl := Except.ok.inj hamount
      exact ⟨m, haccepted, _, hread, hburned, hlaws.received hsender hfee⟩
  | lockNonfungible _ _ _ hfee hmoved hvalid hsubmit =>
    refine iff_of_true ?_ (by simp)
    obtain ⟨m, haccepted, hread⟩ := UpwardMessages.submit_read (some sender) hvalid hsubmit
    exact ⟨m, haccepted, _, hread, rfl, rfl, hmoved, hlaws.received hsender hfee⟩

omit [DecidableEq AccountId] in
/-- A burn is exact when it leaves the sender nothing of the asset, or the minimum balance. -/
theorem burnsExactly_iff {assetBalanceOf : R.Assets → Nat → AccountId → Nat}
    {minimumBalance : R.Assets → Nat → Nat}
    (hlaw : BurnLaw R.fungibles assetBalanceOf minimumBalance) {sender : AccountId}
    {call : Bridge.PalletCall AccountId} {b b' : Bridge.State R.bridge}
    (h : Bridge.Outbound sender call b b') :
    (∀ assetId receiverId amount, call = .burnNep141 assetId receiverId amount →
        (R.fungibles.burnFrom assetId sender amount b.assets).1 = .ok amount) ↔
      ∀ assetId receiverId amount, call = .burnNep141 assetId receiverId amount →
        assetBalanceOf b.assets assetId sender = amount ∨
          amount + minimumBalance b.assets assetId ≤ assetBalanceOf b.assets assetId sender := by
  refine forall_congr' fun assetId => forall_congr' fun receiverId => forall_congr' fun amount =>
    forall_congr' fun heq => ?_
  subst heq
  cases h with
  | burnNep141 _ _ _ _ _ hburned _ _ =>
    have hburned : R.fungibles.burnFrom assetId sender amount b.assets = (.ok _, _) := hburned
    rw [← hlaw.exact_iff hburned, hburned, Except.ok.injEq]

/--
**What the messages and the balance of the pallet account say agree, but for inexact burns.** Over
every run the balance is the initial one, with what the messages accepted since report as paid and
the payouts of eras, less what the events report as unlocked. In every state reached, a call of an
account that fails changes nothing, and one that goes through adds one message; the message carries
what was moved if and only if the call does not burn another amount than it was asked to. Where burns
take the dust along, that is: if and only if it burns all that the sender has of an asset, or leaves
the minimum balance.
-/
theorem escrow_agrees_iff (hlaws : CurrencyLaws R.currency balanceOf deposits) (s₀ : State R)
    (steps : List (Step R))
    (hsteps : (machine R).Along (fun s i => i.FromOutside balanceOf s) steps s₀) :
    let s := (machine R).run steps s₀
    Settled balanceOf s₀.appchain.bridge s.appchain.bridge
        (((machine R).observing fun s i _ => [s.payout deposits i]).log steps s₀).sum ∧
      ∀ sender (call : Bridge.PalletCall AccountId), sender ≠ R.bridgeAccount →
        (∀ e b', call.dispatch s.appchain.appchainInterface (.signed sender) s.appchain.bridge
            = (.error e, b') → b' = s.appchain.bridge) ∧
        ∀ b', call.dispatch s.appchain.appchainInterface (.signed sender) s.appchain.bridge
            = (.ok (), b') →
          (Carries balanceOf sender call s.appchain.bridge b' ↔ ∀ assetId receiverId amount,
            call = .burnNep141 assetId receiverId amount →
              (R.fungibles.burnFrom assetId sender amount s.appchain.bridge.assets).1
                = .ok amount) ∧
          ∀ assetBalanceOf minimumBalance, BurnLaw R.fungibles assetBalanceOf minimumBalance →
            (Carries balanceOf sender call s.appchain.bridge b' ↔ ∀ assetId receiverId amount,
              call = .burnNep141 assetId receiverId amount →
                assetBalanceOf s.appchain.bridge.assets assetId sender = amount ∨
                  amount + minimumBalance s.appchain.bridge.assets assetId
                    ≤ assetBalanceOf s.appchain.bridge.assets assetId sender) := by
  intro s
  refine ⟨escrow_settled hlaws s₀ steps hsteps, fun sender call hsender => ?_⟩
  rcases Bridge.dispatch_signed s.appchain.appchainInterface sender call s.appchain.bridge with
    ⟨e, he⟩ | ⟨b', hok, -, hout⟩
  · refine ⟨fun e' b'' h => (Prod.mk.inj (h.symm.trans he)).2, fun b'' h => ?_⟩
    cases (Prod.mk.inj (h.symm.trans he)).1
  · refine ⟨fun e' b'' h => ?_, fun b'' h => ?_⟩
    · cases (Prod.mk.inj (h.symm.trans hok)).1
    · obtain rfl := (Prod.mk.inj (h.symm.trans hok)).2
      have hcarries := carries_iff hlaws hsender hout
      exact ⟨hcarries, fun _ _ hlaw => hcarries.trans (burnsExactly_iff hlaw hout)⟩

namespace Sample

/-- Account 0 locks 100, and root unlocks 30 of them for account 1. -/
def lockAndUnlock : List (Step config) :=
  [.force .root (.isActivated true), .bridge (.signed 0) (.lock [97] 100),
    .bridge .root (.forceUnlock 1 30)]

end Sample

/-- Less than 5 units of an asset are burned along. -/
theorem Sample.assets_burnLaw : BurnLaw assets (fun balances => balances) fun _ _ => 5 where
  actual {x x' asset who amount actual} h := by
    simp only [assets] at h
    split at h
    · cases (Prod.mk.inj h).1
    · have hactual := Except.ok.inj (Prod.mk.inj h).1
      unfold dust
      split at hactual <;> split <;> omega

/-- The pallet account is left with 70. Another lock carries its amount, and so does a burn that leaves
10 units of the 100. -/
theorem escrow_agrees_after_unlock :
    ∃ s₀, Sample.genesis.start = some s₀ ∧
      let s := (machine Sample.config).run Sample.lockAndUnlock s₀
      Settled (fun balances => balances) s₀.appchain.bridge s.appchain.bridge 0 ∧
        escrow (fun balances => balances) s.appchain.bridge = 70 ∧
        Carries (fun balances => balances) 0 (.lock [97] 5) s.appchain.bridge
          (Bridge.lock s.appchain.appchainInterface (.signed 0) [97] 5 s.appchain.bridge).2 ∧
        Carries (fun balances => balances) 0 (.burnNep141 7 [97] 90) s.appchain.bridge
          (Bridge.burnNep141 s.appchain.appchainInterface (.signed 0) 7 [97] 90
            s.appchain.bridge).2 := by
  refine ⟨_, rfl, ?_⟩
  obtain ⟨hsettled, hcalls⟩ := escrow_agrees_iff (balancesCurrency_laws 10) _ Sample.lockAndUnlock
    ⟨trivial, (by decide : (0 : Nat) ≠ 99), (by decide : (1 : Nat) ≠ 99), trivial⟩
  refine ⟨hsettled, by decide, ((hcalls 0 (.lock [97] 5) (by decide)).2 _ rfl).1.mpr (by simp), ?_⟩
  refine (((hcalls 0 (.burnNep141 7 [97] 90) (by decide)).2 _ rfl).2 _ _
    Sample.assets_burnLaw).mpr ?_
  rintro _ _ _ ⟨⟩
  exact Or.inr (by decide)

/-- 3 units would be left of the asset and are burned along, but the message carries 97. -/
theorem burn_carries_requested_amount :
    ∃ s₀, Sample.genesis.start = some s₀ ∧
      let s := (machine Sample.config).run [.force .root (.isActivated true)] s₀
      (Sample.assets.burnFrom 7 0 97 s.appchain.bridge.assets).1 = .ok 100 ∧
        ∃ b', (Bridge.PalletCall.burnNep141 7 [97] 97).dispatch s.appchain.appchainInterface
            (.signed 0) s.appchain.bridge = (.ok (), b') ∧
          (UpwardMessages.State.accepted b'.messages).map (fun m =>
            (m.read .burnAsset BurnAssetPayload.codec).map BurnAssetPayload.amount) = [some 97] ∧
          ¬ Carries (fun balances => balances) 0 (.burnNep141 7 [97] 97) s.appchain.bridge b' := by
  have hamounts : ∀ p : BurnAssetPayload,
      (Except.ok 100 : Except DispatchError Nat) = .ok p.amount → [some 97] ≠ [some p.amount] := by
    intro p hburned hsent
    rw [← Except.ok.inj hburned] at hsent
    cases hsent
  refine ⟨_, rfl, by decide, _, rfl, by decide, ?_⟩
  rintro ⟨m, haccepted, p, hread, hburned, -⟩
  refine hamounts p ((by decide : _ = _).trans (congrArg Prod.fst hburned)) ?_
  have hsent := congrArg (List.map fun m => (UpwardMessages.Message.read .burnAsset
    BurnAssetPayload.codec m).map BurnAssetPayload.amount) haccepted
  rw [List.map_append, List.map_singleton, hread] at hsent
  exact (by decide : [some 97] = _).trans hsent

end OctopusPallets.Runtime
