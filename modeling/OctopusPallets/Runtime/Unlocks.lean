import OctopusPallets.Runtime.Escrow

/-!
# Unlocks that succeed

A burn is paid from the pallet account, with a transfer that keeps this account alive. So what was
locked can be unlocked as long as the existential deposit is left, and a fee or a premined amount may
be what is left.

* `Backed` — one step, as an inequality between the two sides
* `burn_succeeds` — a notification after a run
-/

namespace OctopusPallets.Runtime

open Infra Infra.Dispatch Infra.FixedWidth

variable {AccountId : Type} {R : Config AccountId} (balanceOf : R.Balances → AccountId → Nat)

/-- Of what came into the pallet account between two states, nothing left it that was not released. -/
def Backed (b b' : Bridge.State R.bridge) : Prop :=
  escrow balanceOf b + b.released + credited b'.messages
    ≤ escrow balanceOf b' + b'.released + credited b.messages

variable {balanceOf}

theorem Settled.backed {b b' : Bridge.State R.bridge} {paid : Nat}
    (h : Settled balanceOf b b' paid) : Backed balanceOf b b' := by
  unfold Settled at h
  unfold Backed
  omega

theorem Backed.trans {b b' b'' : Bridge.State R.bridge} (h : Backed balanceOf b b')
    (h' : Backed balanceOf b' b'') : Backed balanceOf b b'' := by
  unfold Backed at *
  omega

variable {deposits : R.Balances → AccountId → Nat → Bool}

/-- Tokens may be released to the pallet account itself, which moves none. -/
theorem Backed.unlocked (hlaws : CurrencyLaws R.currency balanceOf deposits) {who : AccountId}
    {amount : Nat} {b : Bridge.State R.bridge} {balances : R.Balances}
    (hmoved : R.currency.transfer R.bridgeAccount who amount .keepAlive b.balances
      = (.ok (), balances))
    {event : Bridge.Event AccountId} (hevent : event.released = amount) :
    Backed balanceOf b { b with balances, events := b.events ++ [event] } := by
  by_cases hwho : who = R.bridgeAccount
  · subst hwho
    obtain rfl := hlaws.unmoved hmoved
    have hreleased := released_append b.events event
    unfold Backed escrow Bridge.State.released
    simp only
    omega
  · exact (Settled.unlocked hlaws hwho hmoved hevent).backed

/-! ## Steps -/

variable [DecidableEq AccountId]

omit [DecidableEq AccountId] in
/-- The pallet account sends nothing, and nobody else takes from it. -/
def Step.SparesEscrow (balanceOf : R.Balances → AccountId → Nat) (s : State R) : Step R → Prop
  | .bridge (.signed sender) _ => sender ≠ R.bridgeAccount
  | .elsewhere balances _ _ _ =>
    balanceOf s.balances R.bridgeAccount ≤ balanceOf balances R.bridgeAccount
  | _ => True

/-- The step lemma. Only what is released to the pallet account is not from outside. -/
theorem Backed.step (hlaws : CurrencyLaws R.currency balanceOf deposits) (s : State R) {i : Step R}
    (hi : i.SparesEscrow balanceOf s) :
    Backed balanceOf s.appchain.bridge (s.step i).1.appchain.bridge := by
  have houtside : i.FromOutside balanceOf s → Backed balanceOf s.appchain.bridge
      (s.step i).1.appchain.bridge := fun h => (Settled.step hlaws s h).backed
  cases i with
  | timestamp _ | onInitialize _ | onFinalize | rotate | noteAuthor _ | reportOffence _ _ _ _
  | lpos _ _ | force _ _ | fees _ | keys _ => exact houtside trivial
  | elsewhere balances _ _ _ =>
    have hkept : escrow balanceOf s.appchain.bridge ≤ balanceOf balances R.bridgeAccount := hi
    unfold Backed
    exact Nat.add_le_add_right (Nat.add_le_add_right hkept _) _
  | vote keyData o =>
    cases o with
    | updateValidatorSet _ | lockAsset _ | burnNft _ => exact houtside trivial
    | burn event =>
      show Backed balanceOf s.appchain.bridge (s.vote keyData (.burn event)).1.appchain.bridge
      rcases s.vote_bridge keyData (.burn event) with ⟨-, hsame⟩ | ⟨-, hcalled⟩
      · rw [hsame]
        exact (Settled.refl _).backed
      · rw [hcalled]
        show Backed balanceOf s.appchain.bridge (Bridge.doUnlock event.senderId event.receiver
          event.amount event.index s.appchain.bridge).2
        rcases hrun : Bridge.doUnlock event.senderId event.receiver event.amount event.index
          s.appchain.bridge with ⟨e | _, b'⟩
        · rcases Bridge.doUnlock_error hrun with rfl | ⟨e', balances, hfailed, rfl⟩
          · exact (Settled.refl _).backed
          · exact (Settled.failed hlaws hfailed).backed
        · obtain ⟨-, balances, hmoved, rfl⟩ := Bridge.doUnlock_eq_ok.mp hrun
          exact .unlocked hlaws hmoved rfl
  | bridge origin call =>
    cases origin with
    | none => exact houtside trivial
    | signed sender => exact houtside hi
    | root =>
      cases call with
      | lock _ _ | burnNep141 _ _ _ | lockNonfungible _ _ _ | setTokenId _ _ | deleteTokenId _
      | forceMintNep141 _ _ _ | forceUnlockNonfungible _ _ _ => exact houtside trivial
      | forceUnlock who amount =>
        show Backed balanceOf s.appchain.bridge
          (settle (Bridge.forceUnlock .root who amount) s.appchain.bridge)
        unfold settle
        rcases Bridge.forceUnlock_cases who amount s.appchain.bridge with
          ⟨e, balances, hfailed, hrun⟩ | ⟨balances, hmoved, hrun⟩
        · rw [hrun]
          exact (Settled.failed hlaws hfailed).backed
        · rw [hrun]
          exact .unlocked hlaws hmoved rfl

/-- The run lemma. -/
theorem escrow_backed (hlaws : CurrencyLaws R.currency balanceOf deposits) (s₀ : State R)
    (steps : List (Step R))
    (h : (machine R).Along (fun s i => i.SparesEscrow balanceOf s) steps s₀) :
    Backed balanceOf s₀.appchain.bridge ((machine R).run steps s₀).appchain.bridge := by
  refine (machine R).invariant (P := fun s i => i.SparesEscrow balanceOf s)
    (I := fun _ s _ => Backed balanceOf s₀.appchain.bridge s.appchain.bridge)
    (Settled.refl _).backed ?_ steps h
  intro _ s _ i hbacked hi
  exact hbacked.trans (.step hlaws s hi)

/-! ## Notifications -/

omit [DecidableEq AccountId] in
/-- An unlock succeeds if it leaves the existential deposit to an existing pallet account. -/
theorem doUnlock_of_escrow {existentialDeposit : Nat}
    (halive : KeepAliveLaws R.currency balanceOf existentialDeposit R.balanceBits)
    {b : Bridge.State R.bridge} {receiver : AccountId} {amount : Nat}
    (hescrow : amount + existentialDeposit ≤ escrow balanceOf b)
    (hreceiver : existentialDeposit ≤ balanceOf b.balances receiver) (senderId : List UInt8)
    (sequence : Nat) : ∃ b', Bridge.doUnlock senderId receiver amount sequence b = (.ok (), b') := by
  obtain ⟨balances, hmoved⟩ := halive.moves hescrow hreceiver
  have hfits : amount < 2 ^ R.balanceBits := by
    have hbalance := halive.fits b.balances R.bridgeAccount
    unfold escrow at hescrow
    omega
  exact ⟨_, Bridge.doUnlock_eq_ok.mpr ⟨hfits, balances, hmoved, rfl⟩⟩

/--
**What was locked can be unlocked, but for the existential deposit.** After every run, a burn that
takes effect succeeds if its receiver exists and if, of what the pallet account had and of what the
messages report as paid since, the existential deposit is left over after all that was unlocked.
-/
theorem burn_succeeds {existentialDeposit : Nat}
    (hlaws : CurrencyLaws R.currency balanceOf deposits)
    (halive : KeepAliveLaws R.currency balanceOf existentialDeposit R.balanceBits) (s₀ : State R)
    (steps : List (Step R))
    (hsteps : (machine R).Along (fun s i => i.SparesEscrow balanceOf s) steps s₀) :
    let s := (machine R).run steps s₀
    ∀ (keyData : List UInt8) (event : Appchain.BurnEvent AccountId), s.Executes keyData (.burn event) →
      existentialDeposit ≤ balanceOf s.balances event.receiver →
      event.amount + existentialDeposit + s.appchain.bridge.released + credited s₀.messages
        ≤ escrow balanceOf s₀.appchain.bridge + s₀.appchain.bridge.released + credited s.messages →
      (s.vote keyData (.burn event)).1.appchain.notificationHistory event.index = some .success := by
  rintro s keyData event ⟨x, hvote, heffect⟩ hreceiver hleft
  have hbacked : Backed balanceOf s₀.appchain.bridge s.appchain.bridge :=
    escrow_backed hlaws s₀ steps hsteps
  have hescrow : event.amount + existentialDeposit ≤ escrow balanceOf s.appchain.bridge := by
    unfold Backed at hbacked
    unfold State.messages at hleft
    omega
  obtain ⟨b', hunlocked⟩ := doUnlock_of_escrow halive hescrow hreceiver event.senderId event.index
  have hx : x.observation = .burn event := by
    obtain ⟨v, -, rfl⟩ := Option.map_eq_some_iff.mp hvote
    rfl
  have hnotification : x.observation.IsNotification := by
    rw [hx]
    intro h
    cases h
  have hhistory := Appchain.history_of_step
    (Appchain.voteMachine_step Bridge.bridgeInterface x s.appchain) heffect hnotification
  have hcall : (Appchain.Observation.bridgeCall Bridge.bridgeInterface (.burn event)
      s.appchain.bridge).1 = .ok () := congrArg Prod.fst hunlocked
  rw [hx, hcall] at hhistory
  unfold State.vote
  rw [hvote]
  exact hhistory

namespace Sample

/-- Balances that add up to a balance: of accounts 0 and 1, of the lpos pallet, account 2, and of the
bridge, account 3. There are no assets and no items. -/
def issuing : Config (Fin 4) where
  build := .release
  appchain := Appchain.Sample.config
  messages := Bridge.Sample.messageConfig
  hash := id
  bridgeAccount := 3
  lposAccount := 2
  encode who := [UInt8.ofNat who]
  sessionsPerEra := 2
  bondingDuration := 1
  balanceBits := 128
  Balances := { x : Fin 4 → Nat // Issued 128 x }
  currency := (balancesCurrency 10).within (Issued 128)
  Assets := Unit
  fungibles := ⟨fun _ _ _ x => (.error (.foreign 3), x), fun _ _ _ x => (.error (.foreign 3), x)⟩
  Items := Unit
  nonfungibles := ⟨fun _ _ _ => none, fun _ _ _ x => (.error (.foreign 0), x)⟩
  convertIntoNep171Metadata _ _ := none
  Historical := Nat
  pruneHistoricalUpTo session _ := session

def holder : Fin 4 := 0

def validator : Fin 4 := 1

/-- Account 1 is the only validator. -/
def issued : Genesis issuing where
  now := 0
  sessionPallet := ⟨[1], fun _ keyData => keyData.head?.map fun b => Fin.ofNat 4 b.toNat, some⟩
  anchorContract := []
  validators := [(1, 1)]
  historyDepth := 84
  eraPayout := 5
  bridge := ⟨[], fun _ => none, [], ⟨fun who => if who ≤ 1 then 1000 else 0, by decide +kernel⟩, (),
    (), UpwardMessages.genesisBuild Bridge.Sample.messageConfig 1⟩
  historical := Nat.zero

/-- Account 0 locks 100. -/
def lockHundred : List (Step issuing) :=
  [.force .root (.isActivated true), .bridge (.signed 0) (.lock [97] 100)]

end Sample

/-- Of 100 that account 0 has locked, 90 are unlocked and 10 are left. -/
theorem burn_succeeds_for_ninety :
    ∃ s₀, Sample.issued.start = some s₀ ∧
      let s := (machine Sample.issuing).run Sample.lockHundred s₀
      (s.vote [1] (.burn ⟨0, [], 1, 90⟩)).1.appchain.notificationHistory 0 = some .success := by
  refine ⟨(Sample.issued.start).get (by decide +kernel), Option.some_get _ |>.symm, ?_⟩
  generalize hs₀ : (Sample.issued.start).get _ = s₀
  have hburn := burn_succeeds (balancesCurrency_laws 10).within (balancesCurrency_keepAlive 10 128) s₀
    Sample.lockHundred ⟨trivial, (by decide : (0 : Fin 4) ≠ 3), trivial⟩
  refine hburn [1] ⟨0, [], 1, 90⟩ ?_ ?_ ?_
  all_goals
    subst hs₀
    decide +kernel

/-- All of it cannot be unlocked: nothing would be left in the pallet account. -/
theorem burn_of_everything_fails :
    ∃ s₀, Sample.issued.start = some s₀ ∧
      let active := ((machine Sample.issuing).step (.force .root (.isActivated true)) s₀).1
      let s := (machine Sample.issuing).run [.bridge (.signed 0) (.lock [97] 100)] active
      active.appchain.bridge.events = [] ∧ s.appchain.bridge.events = [.locked 0 [97] 100 0 1] ∧
        100 + s.appchain.bridge.released ≤ 100 ∧ s.balances.1 1 = 1000 ∧
        (s.vote [1] (.burn ⟨0, [], 1, 100⟩)).2 = [.burn ⟨0, [], 1, 100⟩] ∧
        (s.vote [1] (.burn ⟨0, [], 1, 100⟩)).1.appchain.notificationHistory 0
          = some .unlockFailed := by
  refine ⟨(Sample.issued.start).get (by decide +kernel), Option.some_get _ |>.symm, ?_⟩
  generalize hs₀ : (Sample.issued.start).get _ = s₀
  refine ⟨?_, ?_, ?_, ?_, ?_, ?_⟩
  all_goals
    subst hs₀
    decide +kernel

end OctopusPallets.Runtime
