import OctopusPallets.Infra.Custody
import OctopusPallets.Runtime.Shared

/-!
# The custody of an item

An item is locked with a message to the mainchain and unlocked by a notification. Neither reads who
owns it: an item that the pallet account owns can be locked once more, and one that it does not own
can be unlocked.

* `handled_lockNonfungible`, `handled_burnNft` — the two ways of the item
* `custody_alternates_iff` — a run
-/

namespace OctopusPallets.Runtime

open Infra Infra.Dispatch Infra.FixedWidth

variable {AccountId : Type} {R : Config AccountId} (collection item : Nat)

/-! ## What is said of the item -/

/-- The message announces the item to the mainchain. -/
def announces {cfg : UpwardMessages.Config} (m : UpwardMessages.Message cfg) : Bool :=
  (m.read .lockNft LockNftPayload.codec).any fun p => p.collection == collection && p.item == item

def announced {cfg : UpwardMessages.Config} (messages : UpwardMessages.State cfg) : Nat :=
  messages.accepted.countP (announces collection item)

/-- The event reports that a notification unlocked the item. -/
def unlocks : Bridge.Event AccountId → Bool
  | .nonfungibleUnlocked c i _ _ _ => c == collection && i == item
  | _ => false

def unlocked (events : List (Bridge.Event AccountId)) : Nat :=
  events.countP (unlocks collection item)

/-- What happened to the item between two states: the locks that were announced and the unlocks that
were executed. -/
def handovers (b b' : Bridge.State R.bridge) : List Handover :=
  List.replicate (announced collection item b'.messages - announced collection item b.messages)
      .taken ++
    List.replicate (unlocked collection item b'.events - unlocked collection item b.events) .released

def State.ownerOf (s : State R) : Option AccountId :=
  R.nonfungibles.owner s.items collection item

variable {collection item}

section

variable {cfg : UpwardMessages.Config} {messages messages' : UpwardMessages.State cfg}

theorem announced_other {payloadType : PayloadType} (h : payloadType ≠ .lockNft)
    (who : Option AccountId) (payload : List UInt8) :
    announced collection item (UpwardMessages.submit who payloadType payload messages).2
      = announced collection item messages := by
  rcases UpwardMessages.submit_accepted who payloadType payload messages with
    ⟨e, he⟩ | ⟨m, t, hok, htype, -, haccepted⟩
  · rw [he]
  · have hread : m.read .lockNft LockNftPayload.codec = none := if_neg (by rw [htype]; exact h)
    have hnot : announces collection item m = false := by simp [announces, hread]
    unfold announced
    rw [hok, haccepted]
    simp [hnot]

theorem announced_lockNft (who : Option AccountId) {p : LockNftPayload} {nonce : Nat}
    (hvalid : LockNftPayload.codec.valid p = true)
    (h : UpwardMessages.submit who .lockNft (LockNftPayload.codec.encode p) messages
      = (.ok nonce, messages')) :
    announced collection item messages' = announced collection item messages
      + if p.collection = collection ∧ p.item = item then 1 else 0 := by
  obtain ⟨m, haccepted, hread⟩ := UpwardMessages.submit_read who hvalid h
  unfold announced
  rw [haccepted]
  simp [announces, hread, List.countP_append, List.countP_singleton]

end

theorem unlocked_append (events : List (Bridge.Event AccountId)) (event : Bridge.Event AccountId) :
    unlocked collection item (events ++ [event]) = unlocked collection item events
      + if unlocks collection item event then 1 else 0 := by
  simp [unlocked, List.countP_append, List.countP_singleton]

/-! ## The two ways of the item -/

/-- A transfer of an item that fails changes nothing, and one that goes through changes the owner of
no other item. -/
structure MovesAlone {ν : Type} (N : Nonfungibles AccountId ν) : Prop where
  failed : ∀ {n n' : ν} {c i : Nat} {destination : AccountId} {e : DispatchError},
    N.transfer c i destination n = (.error e, n') → n' = n
  others : ∀ {n n' : ν} {c i c' i' : Nat} {destination : AccountId},
    N.transfer c i destination n = (.ok (), n') → ¬ (c = c' ∧ i = i') →
      N.owner n' c' i' = N.owner n c' i'

variable {frozen : R.Items → Nat → Nat → Bool} {P : Prop}

/-- What neither the messages nor the events nor the owner of the item show. -/
theorem handled_of_same {b b' : Bridge.State R.bridge}
    (hannounced : announced collection item b'.messages = announced collection item b.messages)
    (hunlocked : unlocked collection item b'.events = unlocked collection item b.events)
    (howner : R.nonfungibles.owner b'.items collection item
      = R.nonfungibles.owner b.items collection item) (hp : P) :
    Handled R.bridgeAccount (R.nonfungibles.owner b.items collection item)
      (R.nonfungibles.owner b'.items collection item) (handovers collection item b b') P := by
  unfold handovers
  rw [hannounced, hunlocked, howner, Nat.sub_self, Nat.sub_self]
  exact .kept hp

/-- **An item that is locked goes to the pallet account, whoever owns it.** -/
theorem handled_lockNonfungible (hitems : Bridge.MovesExisting R.nonfungibles frozen)
    (halone : MovesAlone R.nonfungibles) {sender : AccountId} {c i : Nat} {receiverId : List UInt8}
    {b b' : Bridge.State R.bridge}
    (h : Bridge.Outbound sender (.lockNonfungible c i receiverId) b b')
    (hp : P ↔ (c = collection ∧ i = item →
      R.nonfungibles.owner b.items collection item ≠ some R.bridgeAccount)) :
    Handled R.bridgeAccount (R.nonfungibles.owner b.items collection item)
      (R.nonfungibles.owner b'.items collection item) (handovers collection item b b') P := by
  cases h with
  | @lockNonfungible _ _ _ _ _ _ _ _ _ items messages _ _ _ _ hmoved hvalid hsubmit =>
    have hannounced : announced collection item messages = announced collection item b.messages
        + if c = collection ∧ i = item then 1 else 0 := announced_lockNft (some sender) hvalid hsubmit
    by_cases hsame : c = collection ∧ i = item
    · rw [if_pos hsame] at hannounced
      obtain ⟨rfl, rfl⟩ := hsame
      have howner : R.nonfungibles.owner items c i = some R.bridgeAccount :=
        (hitems.of_ok hmoved).2
      simp only [handovers, unlocked_append, unlocks, hannounced, howner]
      simpa using Handled.taken (hp.trans ⟨fun h => h ⟨rfl, rfl⟩, fun h _ => h⟩)
    · rw [if_neg hsame] at hannounced
      refine handled_of_same hannounced ?_ (halone.others hmoved hsame)
        (hp.mpr fun h => absurd h hsame)
      simp [unlocked_append, unlocks]

/-- A transfer of tokens says nothing of items. -/
theorem outbound_elsewhere {sender : AccountId} {call : Bridge.PalletCall AccountId}
    {b b' : Bridge.State R.bridge} (h : Bridge.Outbound sender call b b')
    (hcall : ∀ c i receiverId, call ≠ .lockNonfungible c i receiverId) :
    announced collection item b'.messages = announced collection item b.messages ∧
      unlocked collection item b'.events = unlocked collection item b.events ∧ b'.items = b.items := by
  have hother : ∀ payloadType payload nonce messages, payloadType ≠ PayloadType.lockNft →
      UpwardMessages.submit (some sender) payloadType payload b.messages = (.ok nonce, messages) →
      announced collection item messages = announced collection item b.messages := by
    intro payloadType payload nonce messages hne hsubmit
    have hsame : announced collection item _ = announced collection item b.messages :=
      announced_other hne (some sender) payload
    rwa [hsubmit] at hsame
  cases h with
  | lock _ _ _ _ _ _ hsubmit | burnNep141 _ _ _ _ _ _ _ hsubmit =>
    refine ⟨hother _ _ _ _ (by decide) hsubmit, ?_, rfl⟩
    simp [unlocked_append, unlocks]
  | lockNonfungible _ _ _ _ _ _ _ => exact absurd rfl (hcall _ _ _)

/-- Neither does a notification of tokens. -/
theorem notification_elsewhere {o : Appchain.Observation AccountId} (ho : ∀ event, o ≠ .burnNft event)
    (b : Bridge.State R.bridge) :
    let b' := (o.bridgeCall Bridge.bridgeInterface b).2
    announced collection item b'.messages = announced collection item b.messages ∧
      unlocked collection item b'.events = unlocked collection item b.events ∧ b'.items = b.items := by
  refine ⟨congrArg (announced collection item) (bridgeCall_messages o b), ?_⟩
  cases o with
  | updateValidatorSet _ => exact ⟨rfl, rfl⟩
  | burnNft event => exact absurd rfl (ho event)
  | burn event =>
    show unlocked collection item (Bridge.doUnlock event.senderId event.receiver event.amount
      event.index b).2.events = _ ∧ (Bridge.doUnlock event.senderId event.receiver event.amount
        event.index b).2.items = _
    rcases hrun : Bridge.doUnlock event.senderId event.receiver event.amount event.index b with
      ⟨e | _, b'⟩
    · rcases Bridge.doUnlock_error hrun with rfl | ⟨e', balances, -, rfl⟩
      · exact ⟨rfl, rfl⟩
      · exact ⟨rfl, rfl⟩
    · obtain ⟨-, balances, -, rfl⟩ := Bridge.doUnlock_eq_ok.mp hrun
      exact ⟨by simp [unlocked_append, unlocks], rfl⟩
  | lockAsset event =>
    show unlocked collection item (Bridge.doMintNep141 event.tokenId event.senderId event.receiver
      event.amount event.index b).2.events = _ ∧ (Bridge.doMintNep141 event.tokenId event.senderId
        event.receiver event.amount event.index b).2.items = _
    rcases hrun : Bridge.doMintNep141 event.tokenId event.senderId event.receiver event.amount
      event.index b with ⟨r, b'⟩
    obtain ⟨assets, events, rfl, hevents⟩ := Bridge.doMintNep141_cases hrun
    refine ⟨?_, rfl⟩
    rcases hevents with rfl | ⟨assetId, rfl⟩
    · rw [List.append_nil]
    · simp [unlocked_append, unlocks]

/-- **An item that is unlocked goes to the receiver, whoever owns it.** -/
theorem handled_burnNft (hitems : Bridge.MovesExisting R.nonfungibles frozen)
    (halone : MovesAlone R.nonfungibles) (event : Appchain.BurnNftEvent AccountId)
    (b : Bridge.State R.bridge) (howner : (R.nonfungibles.owner b.items collection item).isSome)
    (hp : P ↔ (event.collection = collection ∧ event.item = item →
      event.collection < 2 ^ 128 ∧ event.item < 2 ^ 128 ∧
        frozen b.items event.collection event.item = false →
      R.nonfungibles.owner b.items collection item = some R.bridgeAccount ∧
        event.receiver ≠ R.bridgeAccount)) :
    let b' := (Bridge.doUnlockNonfungible event.collection event.item event.senderId event.receiver
      event.index b).2
    Handled R.bridgeAccount (R.nonfungibles.owner b.items collection item)
      (R.nonfungibles.owner b'.items collection item) (handovers collection item b b') P := by
  rcases hrun : Bridge.doUnlockNonfungible event.collection event.item event.senderId event.receiver
    event.index b with ⟨e | _, b'⟩
  · have hsame : b' = b := by
      rcases Bridge.doUnlockNonfungible_error hrun with hsame | ⟨e', items, hfailed, rfl⟩
      · exact hsame
      · obtain rfl := halone.failed hfailed
        rfl
    rw [hsame]
    refine handled_of_same rfl rfl rfl (hp.mpr ?_)
    -- an item that can be moved would have been unlocked
    rintro ⟨rfl, rfl⟩ ⟨hcollection, hitem, hfrozen⟩
    obtain ⟨items, hmoved, -⟩ := hitems.moves b.items _ _ event.receiver howner hfrozen
    obtain ⟨b'', hunlocked⟩ : ∃ b'', Bridge.doUnlockNonfungible event.collection event.item
        event.senderId event.receiver event.index b = (.ok (), b'') :=
      ⟨_, Bridge.doUnlockNonfungible_eq_ok.mpr ⟨hcollection, hitem, items, hmoved, rfl⟩⟩
    cases (Prod.mk.inj (hrun.symm.trans hunlocked)).1
  · obtain ⟨hcollection, hitem, items, hmoved, rfl⟩ := Bridge.doUnlockNonfungible_eq_ok.mp hrun
    obtain ⟨hfrozen, howner'⟩ := hitems.of_ok hmoved
    by_cases hsame : event.collection = collection ∧ event.item = item
    · obtain ⟨rfl, rfl⟩ := hsame
      simp only [handovers, unlocked_append, unlocks, howner']
      simpa using Handled.released
        (hp.trans ⟨fun h => h ⟨rfl, rfl⟩ ⟨hcollection, hitem, hfrozen⟩, fun h _ _ => h⟩)
    · refine handled_of_same rfl ?_ (halone.others hmoved hsame) (hp.mpr fun h => absurd h hsame)
      simp [unlocked_append, unlocks, hsame]

/-! ## Steps -/

/-- No call of root to the bridge pallet, and no transfer of the item outside the bridge. -/
def Step.LeavesItem (collection item : Nat) (s : State R) : Step R → Prop
  | .bridge origin _ => origin ≠ .root
  | .elsewhere _ _ items _ =>
    R.nonfungibles.owner items collection item = s.ownerOf collection item
  | _ => True

variable [DecidableEq AccountId]

omit [DecidableEq AccountId] in
variable (frozen) in
/-- The call meets what `lock_nonfungible` asks for, and the item can be moved. -/
def State.AcceptsLockNft (s : State R) (sender : AccountId) (c i : Nat) (receiverId : List UInt8) :
    Prop :=
  (∃ receiver metadata fee payload, s.appchain.bridge.AcceptsLock s.appchain.appchainInterface sender
    c i receiverId receiver metadata fee payload) ∧ frozen s.items c i = false

variable (frozen) in
/-- The notification takes effect, and the item can be moved. -/
def State.ExecutesBurnNft (s : State R) (keyData : List UInt8)
    (event : Appchain.BurnNftEvent AccountId) : Prop :=
  s.Executes keyData (.burnNft event) ∧ event.collection < 2 ^ 128 ∧ event.item < 2 ^ 128 ∧
    frozen s.items event.collection event.item = false

variable (frozen) in
/-- The item is locked while others own it, and unlocked for others while the pallet account does. -/
def Step.Custodial (collection item : Nat) (s : State R) : Step R → Prop
  | .bridge (.signed sender) (.lockNonfungible c i receiverId) =>
    c = collection ∧ i = item → s.AcceptsLockNft frozen sender c i receiverId →
      s.ownerOf collection item ≠ some R.bridgeAccount
  | .vote keyData (.burnNft event) =>
    event.collection = collection ∧ event.item = item → s.ExecutesBurnNft frozen keyData event →
      s.ownerOf collection item = some R.bridgeAccount ∧ event.receiver ≠ R.bridgeAccount
  | _ => True

omit [DecidableEq AccountId] in
/-- A lock of an account goes through exactly when it is accepted. -/
theorem lockNonfungible_ok_iff (hitems : Bridge.MovesExisting R.nonfungibles frozen) (s : State R)
    (sender : AccountId) {c i : Nat} (receiverId : List UInt8) (howner : (s.ownerOf c i).isSome) :
    (Bridge.lockNonfungible s.appchain.appchainInterface (.signed sender) c i receiverId
      s.appchain.bridge).1 = .ok () ↔ s.AcceptsLockNft frozen sender c i receiverId := by
  rw [Bridge.lockNonfungible_ok_iff]
  refine and_congr_right fun _ => (hitems.ok_iff _ _ _ _).trans ?_
  exact and_iff_right howner

/-- A call of an account. -/
theorem handled_signed (hitems : Bridge.MovesExisting R.nonfungibles frozen)
    (halone : MovesAlone R.nonfungibles) (s : State R) (sender : AccountId)
    (call : Bridge.PalletCall AccountId) (howner : (s.ownerOf collection item).isSome) :
    let i : Step R := .bridge (.signed sender) call
    Handled R.bridgeAccount (s.ownerOf collection item) ((s.step i).1.ownerOf collection item)
      (handovers collection item s.appchain.bridge (s.step i).1.appchain.bridge)
      (i.Custodial frozen collection item s) := by
  intro i
  let b' := settle (call.dispatch s.appchain.appchainInterface (.signed sender)) s.appchain.bridge
  show Handled R.bridgeAccount (R.nonfungibles.owner s.appchain.bridge.items collection item)
    (R.nonfungibles.owner b'.items collection item)
    (handovers collection item s.appchain.bridge b') (i.Custodial frozen collection item s)
  rcases Bridge.dispatch_signed s.appchain.appchainInterface sender call s.appchain.bridge with
    ⟨e, he⟩ | ⟨b'', hok, -, hout⟩
  · have hsame : b' = s.appchain.bridge := settle_of_error he
    rw [hsame]
    refine handled_of_same rfl rfl rfl ?_
    cases call with
    | lockNonfungible c i receiverId =>
      rintro ⟨rfl, rfl⟩ haccepts
      have hlock := (lockNonfungible_ok_iff hitems s sender receiverId howner).mpr haccepts
      cases hlock.symm.trans (congrArg Prod.fst he)
    | lock _ _ | burnNep141 _ _ _ | setTokenId _ _ | deleteTokenId _ | forceUnlock _ _
    | forceMintNep141 _ _ _ | forceUnlockNonfungible _ _ _ => trivial
  · have hsettled : b' = b'' := settle_of_ok hok
    rw [hsettled]
    cases call with
    | lockNonfungible c i receiverId =>
      refine handled_lockNonfungible hitems halone hout ⟨fun h hsame => h hsame ?_, fun h hsame _ => h hsame⟩
      obtain ⟨rfl, rfl⟩ := hsame
      exact (lockNonfungible_ok_iff hitems s sender receiverId howner).mp (congrArg Prod.fst hok)
    | lock _ _ | burnNep141 _ _ _ =>
      obtain ⟨hannounced, hunlocked, hitems⟩ := outbound_elsewhere hout (by simp)
      exact handled_of_same hannounced hunlocked (by rw [hitems]) trivial
    | setTokenId _ _ | deleteTokenId _ | forceUnlock _ _ | forceMintNep141 _ _ _
    | forceUnlockNonfungible _ _ _ => cases hout

/-- A notification. -/
theorem handled_vote (hitems : Bridge.MovesExisting R.nonfungibles frozen)
    (halone : MovesAlone R.nonfungibles) (s : State R) (keyData : List UInt8)
    (o : Appchain.Observation AccountId) (howner : (s.ownerOf collection item).isSome) :
    let i : Step R := .vote keyData o
    Handled R.bridgeAccount (s.ownerOf collection item) ((s.step i).1.ownerOf collection item)
      (handovers collection item s.appchain.bridge (s.step i).1.appchain.bridge)
      (i.Custodial frozen collection item s) := by
  intro i
  let b' := (s.vote keyData o).1.appchain.bridge
  show Handled R.bridgeAccount (R.nonfungibles.owner s.appchain.bridge.items collection item)
    (R.nonfungibles.owner b'.items collection item)
    (handovers collection item s.appchain.bridge b') (i.Custodial frozen collection item s)
  rcases s.vote_bridge keyData o with ⟨hnone, hsame⟩ | ⟨hemits, hcalled⟩
  · have hbridge : b' = s.appchain.bridge := hsame
    rw [hbridge]
    refine handled_of_same rfl rfl rfl ?_
    cases o with
    | burnNft event =>
      rintro - ⟨hexecutes, -⟩
      cases hnone.symm.trans ((s.executes_iff _ _).mp hexecutes)
    | updateValidatorSet _ | burn _ | lockAsset _ => trivial
  · have hbridge : b' = (o.bridgeCall Bridge.bridgeInterface s.appchain.bridge).2 := hcalled
    have htokens : (∀ event, o ≠ .burnNft event) → i.Custodial frozen collection item s →
        Handled R.bridgeAccount (R.nonfungibles.owner s.appchain.bridge.items collection item)
          (R.nonfungibles.owner b'.items collection item)
          (handovers collection item s.appchain.bridge b') (i.Custodial frozen collection item s) := by
      intro ho hp
      obtain ⟨hannounced, hunlocked, hitems⟩ := notification_elsewhere ho s.appchain.bridge
      rw [hbridge]
      exact handled_of_same hannounced hunlocked (by rw [hitems]) hp
    cases o with
    | burnNft event =>
      rw [hbridge]
      have hexecutes : s.Executes keyData (.burnNft event) := (s.executes_iff _ _).mpr hemits
      exact handled_burnNft hitems halone event s.appchain.bridge howner
        ⟨fun h hsame hmoved => h hsame ⟨hexecutes, hmoved⟩, fun h hsame hmoved => h hsame hmoved.2⟩
    | updateValidatorSet _ | burn _ | lockAsset _ => exact htokens (by simp) trivial

/-- **The step lemma.** -/
theorem handled_step (hitems : Bridge.MovesExisting R.nonfungibles frozen)
    (halone : MovesAlone R.nonfungibles) (s : State R) (i : Step R)
    (howner : (s.ownerOf collection item).isSome) (hi : i.LeavesItem collection item s) :
    Handled R.bridgeAccount (s.ownerOf collection item) ((s.step i).1.ownerOf collection item)
      (handovers collection item s.appchain.bridge (s.step i).1.appchain.bridge)
      (i.Custodial frozen collection item s) := by
  have hquiet : i.Quiet → i.Custodial frozen collection item s →
      Handled R.bridgeAccount (s.ownerOf collection item) ((s.step i).1.ownerOf collection item)
        (handovers collection item s.appchain.bridge (s.step i).1.appchain.bridge)
        (i.Custodial frozen collection item s) := by
    intro hquiet hp
    unfold State.ownerOf State.items
    rw [s.step_bridge hquiet]
    exact handled_of_same rfl rfl rfl hp
  cases i with
  | vote keyData o => exact handled_vote hitems halone s keyData o howner
  | timestamp _ | force _ _ | keys _ | onFinalize | noteAuthor _ | reportOffence _ _ _ _ | lpos _ _ =>
    exact hquiet trivial trivial
  | fees _ => exact handled_of_same rfl rfl rfl trivial
  | elsewhere balances assets items historical => exact handled_of_same rfl rfl hi trivial
  | onInitialize now =>
    show Handled _ _ ((s.onInitialize now).ownerOf collection item)
      (handovers collection item _ (s.onInitialize now).appchain.bridge) _
    obtain ⟨messages, haccepted, hrun⟩ := s.onInitialize_eq now
    rw [hrun]
    exact handled_of_same (congrArg (List.countP (announces collection item)) haccepted) rfl rfl
      trivial
  | rotate =>
    have hannounced := State.rotate_messages (f := announced collection item)
      (fun payloadType hsystem payload messages => announced_other (by
        rcases hsystem with rfl | rfl <;> decide) none payload) s
    exact handled_of_same hannounced rfl rfl trivial
  | bridge origin call =>
    cases origin with
    | root => exact absurd rfl hi
    | signed sender => exact handled_signed hitems halone s sender call howner
    | none =>
      show Handled _ _ (R.nonfungibles.owner (settle (call.dispatch s.appchain.appchainInterface
        .none) s.appchain.bridge).items collection item) (handovers collection item _ (settle
          (call.dispatch s.appchain.appchainInterface .none) s.appchain.bridge)) _
      obtain ⟨e, he⟩ := Bridge.dispatch_none s.appchain.appchainInterface call s.appchain.bridge
      rw [settle_of_error he]
      exact handled_of_same rfl rfl rfl trivial

/-! ## Runs -/

/-- The runtime, observed for the item. -/
def custodian (R : Config AccountId) (collection item : Nat) :
    Machine (State R) (Step R) Handover :=
  (machine R).observing fun s _ s' =>
    handovers collection item s.appchain.bridge s'.appchain.bridge

theorem custodian_run (is : List (Step R)) (s : State R) :
    (custodian R collection item).run is s = (machine R).run is s :=
  (machine R).observing_run _ is s

theorem custodian_along {P : State R → Step R → Prop} {is : List (Step R)} {s : State R} :
    (custodian R collection item).Along P is s ↔ (machine R).Along P is s :=
  (machine R).observing_along _ is s

/--
**The custody of an item alternates exactly when it is locked while others own it and unlocked while
the pallet account does.** The item starts with another owner. In every state of the run the locks
that were announced and the unlocks that were executed alternate, and the pallet account owns the
item exactly after a lock, if and only if no lock that is accepted finds the item with the pallet
account and each unlock that is executed finds it there and gives it to somebody else.
-/
theorem custody_alternates_iff (hitems : Bridge.MovesExisting R.nonfungibles frozen)
    (halone : MovesAlone R.nonfungibles) (collection item : Nat) (s₀ : State R) (who : AccountId)
    (howner : s₀.ownerOf collection item = some who) (hout : who ≠ R.bridgeAccount)
    (steps : List (Step R))
    (hsteps : (machine R).Along (fun s i => i.LeavesItem collection item s) steps s₀) :
    (∀ is, is <+: steps →
        InCustody R.bridgeAccount ((custodian R collection item).log is s₀)
          (((machine R).run is s₀).ownerOf collection item)) ↔
      (machine R).Along (fun s i => i.Custodial frozen collection item s) steps s₀ := by
  have hcustody := (custodian R collection item).custody_iff R.bridgeAccount
    (State.ownerOf collection item)
    (fun s i howner hi => handled_step hitems halone s i howner hi) (s := s₀) (by rw [howner]; rfl)
    (by rw [howner]; simpa using hout) (custodian_along.mpr hsteps)
  simpa only [custodian_run, custodian_along] using hcustody

namespace Sample

/-- Account 0 locks item 42, which is unlocked for account 1. -/
def thereAndBack : List (Step config) :=
  [.force .root (.isActivated true), .bridge (.signed 0) (.lockNonfungible 0 42 [97]),
    .vote [1] (.burnNft ⟨0, [], 1, 0, 42⟩)]

theorem uniques_movesAlone : MovesAlone Bridge.Sample.uniques where
  failed := by
    intro n n' c i destination e h
    exact Bridge.Sample.uniques_clean h
  others := by
    intro n n' c i c' i' destination h hne
    simp only [Bridge.Sample.uniques] at h ⊢
    split at h
    · obtain rfl := (Prod.mk.inj h).2
      exact if_neg fun heq => hne ⟨heq.1.symm, heq.2.symm⟩
    · cases (Prod.mk.inj h).1

end Sample

/-- The item ends with account 1. -/
theorem custody_alternates_there_and_back :
    ∃ s₀, Sample.genesis.start = some s₀ ∧
      (custodian Sample.config 0 42).log Sample.thereAndBack s₀ = [.taken, .released] ∧
      InCustody 99 ((custodian Sample.config 0 42).log Sample.thereAndBack s₀) (some 1) := by
  refine ⟨_, rfl, by decide, ?_⟩
  refine (custody_alternates_iff (R := Sample.config) Bridge.Sample.uniques_movesExisting
    Sample.uniques_movesAlone 0 42 _ 0 rfl (by decide) Sample.thereAndBack
    ⟨trivial, nofun, trivial, trivial⟩).mpr ⟨trivial, ?_, ?_, trivial⟩ _ List.prefix_rfl
  · exact fun _ _ => by decide
  · exact fun _ _ => by decide

/-- Account 1 locks item 42 again while it is in escrow. And an item in the hands of account 0 is
unlocked for account 1, without a lock. -/
theorem custody_does_not_alternate :
    ∃ s₀, Sample.genesis.start = some s₀ ∧
      let active := ((machine Sample.config).step (.force .root (.isActivated true)) s₀).1
      active.ownerOf 0 42 = some 0 ∧
      let twice := (custodian Sample.config 0 42).log
        [.bridge (.signed 0) (.lockNonfungible 0 42 [97]),
          .bridge (.signed 1) (.lockNonfungible 0 42 [98])] active
      let never := (custodian Sample.config 0 42).log [.vote [1] (.burnNft ⟨0, [], 1, 0, 42⟩)] active
      twice = [.taken, .taken] ∧ ¬ Alternates twice ∧ never = [.released] ∧ ¬ Alternates never := by
  refine ⟨_, rfl, ?_⟩
  decide

end OctopusPallets.Runtime
