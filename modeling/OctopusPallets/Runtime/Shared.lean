import OctopusPallets.Appchain.TakingEffect
import OctopusPallets.Bridge.Transfers
import OctopusPallets.Lpos.Payout
import OctopusPallets.Runtime.Pallets
import OctopusPallets.UpwardMessages.Contents

/-!
# What a step does to the shared storages

The balances and the messages are in the storage of the bridge pallet. The lpos pallet changes them
in a rotation, a vote when it takes effect, and a call of the bridge pallet when it goes through.

* `settle_cases` — calls of the bridge pallet
* `State.vote_bridge` — votes
* `State.rotate_cases`, `State.rotate_messages` — rotations
* `State.step_frame` — the storage of the lpos pallet besides rotations
* `State.step_appchain` — the storage of the appchain pallet besides votes and root
* `State.step_bridge` — what shares nothing
-/

namespace OctopusPallets.Runtime

open Infra Infra.Dispatch Infra.FixedWidth

variable {AccountId : Type} {R : Config AccountId}

/-! ## Calls of the bridge pallet -/

theorem settle_of_error {σ : Type} {x : Dispatch Fault σ Unit} {s : σ} {e : Fault}
    (h : x s = (.error e, s)) : settle x s = s := by
  unfold settle
  rw [h]
  cases e <;> rfl

theorem settle_of_ok {σ : Type} {x : Dispatch Fault σ Unit} {s s' : σ} (h : x s = (.ok (), s')) :
    settle x s = s' := by
  unfold settle
  rw [h]

/-- **A call of the bridge pallet changes nothing, or it is a transfer of an account, or it is a call
of root.** -/
theorem settle_cases (appchain : AppchainInterface AccountId) (origin : Origin AccountId)
    (call : Bridge.PalletCall AccountId) (b : Bridge.State R.bridge) :
    settle (call.dispatch appchain origin) b = b ∨
      (∃ sender, origin = .signed sender ∧ appchain.isActivated = true ∧
        Bridge.Outbound sender call b (settle (call.dispatch appchain origin) b)) ∨
      origin = .root ∧
        settle (call.dispatch appchain origin) b = (call.dispatch appchain .root b).2 := by
  cases origin with
  | none =>
    obtain ⟨e, he⟩ := Bridge.dispatch_none appchain call b
    exact Or.inl (settle_of_error he)
  | signed sender =>
    rcases Bridge.dispatch_signed appchain sender call b with ⟨e, he⟩ | ⟨b', hok, hactive, hout⟩
    · exact Or.inl (settle_of_error he)
    · rw [settle_of_ok hok]
      exact Or.inr (Or.inl ⟨sender, rfl, hactive, hout⟩)
  | root =>
    unfold settle
    rcases call.dispatch appchain .root b with ⟨(_ | _) | _, b'⟩
    · exact Or.inr (Or.inr ⟨rfl, rfl⟩)
    · exact Or.inl rfl
    · exact Or.inr (Or.inr ⟨rfl, rfl⟩)

/-- A transfer of an account leaves one message of its own type. -/
theorem outbound_messages {T : Bridge.Config AccountId} {sender : AccountId}
    {call : Bridge.PalletCall AccountId} {b b' : Bridge.State T} (h : Bridge.Outbound sender call b b') :
    ∃ payloadType payload, (payloadType = .lock ∨ payloadType = .burnAsset ∨ payloadType = .lockNft) ∧
      ∃ sequence, T.upwardMessages.submit (some sender) payloadType payload b.messages
        = (.ok sequence, b'.messages) := by
  cases h with
  | lock _ _ _ _ _ _ hsubmit => exact ⟨_, _, Or.inl rfl, _, hsubmit⟩
  | burnNep141 _ _ _ _ _ _ _ hsubmit => exact ⟨_, _, Or.inr (Or.inl rfl), _, hsubmit⟩
  | lockNonfungible _ _ _ _ _ _ hsubmit => exact ⟨_, _, Or.inr (Or.inr rfl), _, hsubmit⟩

/-! ## Votes -/

/-- A notification sends no message. -/
theorem bridgeCall_messages {T : Bridge.Config AccountId} (o : Appchain.Observation AccountId)
    (b : Bridge.State T) : (o.bridgeCall Bridge.bridgeInterface b).2.messages = b.messages := by
  have hevent : ∀ event : Bridge.Event AccountId,
      Keeps (Bridge.State.messages : Bridge.State T → _)
        (Bridge.depositEvent event : Dispatch DispatchError _ _) := fun _ _ => rfl
  cases o with
  | updateValidatorSet _ => rfl
  | burn event =>
    exact Keeps.bind (.okOr _ _) (fun _ => .bind (fun _ => rfl) fun _ => hevent _) b
  | lockAsset event =>
    exact Keeps.bind (.load _) (fun _ => .bind (.okOr _ _) fun _ => .bind (.okOr _ _) fun _ =>
      .bind (fun _ => rfl) fun _ => hevent _) b
  | burnNft event =>
    exact Keeps.bind (.okOr _ _) (fun _ => .bind (.okOr _ _) fun _ =>
      .bind (fun _ => rfl) fun _ => hevent _) b

/-- Neither does root. -/
theorem root_messages {T : Bridge.Config AccountId} (appchain : AppchainInterface AccountId)
    (call : Bridge.PalletCall AccountId) (b : Bridge.State T) :
    (call.dispatch appchain .root b).2.messages = b.messages := by
  by_cases hforce : ∃ who amount, call = .forceUnlock who amount
  · obtain ⟨who, amount, rfl⟩ := hforce
    show (Bridge.forceUnlock .root who amount b).2.messages = b.messages
    rcases Bridge.forceUnlock_cases who amount b with ⟨e, balances, -, hrun⟩ | ⟨balances, -, hrun⟩
    · rw [hrun]
    · rw [hrun]
  · have hkept := Bridge.dispatch_root appchain
      (fun who amount heq => hforce ⟨who, amount, heq⟩) b
    exact congrArg (fun p => p.2.1) hkept

variable [DecidableEq AccountId]

/-- A vote that takes effect is emitted and calls the bridge. Any other leaves the bridge alone. -/
theorem State.vote_bridge (s : State R) (keyData : List UInt8)
    (o : Appchain.Observation AccountId) :
    ((s.vote keyData o).2 = [] ∧ (s.vote keyData o).1.appchain.bridge = s.appchain.bridge) ∨
      (s.vote keyData o).2 = [o] ∧ (s.vote keyData o).1.appchain.bridge
        = (o.bridgeCall Bridge.bridgeInterface s.appchain.bridge).2 := by
  unfold State.vote
  cases hvote : s.voteOf keyData o with
  | none => exact Or.inl ⟨rfl, rfl⟩
  | some x =>
    obtain rfl : x.observation = o := by
      obtain ⟨v, -, rfl⟩ := Option.map_eq_some_iff.mp hvote
      rfl
    have hstep := Appchain.voteMachine_step Bridge.bridgeInterface x s.appchain
    have hos := Appchain.effects_of_step hstep
    have hbridge := Appchain.bridge_of_step hstep
    by_cases heffect : s.appchain.TakesEffect x
    · rw [if_pos heffect] at hos hbridge
      exact Or.inr ⟨hos, hbridge⟩
    · rw [if_neg heffect] at hos hbridge
      exact Or.inl ⟨hos, hbridge⟩

/-- The vote takes effect. -/
def State.Executes (s : State R) (keyData : List UInt8) (o : Appchain.Observation AccountId) : Prop :=
  ∃ x, s.voteOf keyData o = some x ∧ s.appchain.TakesEffect x

instance (s : State R) (keyData : List UInt8) (o : Appchain.Observation AccountId) :
    Decidable (s.Executes keyData o) :=
  decidable_of_iff ((s.voteOf keyData o).any fun x => decide (s.appchain.TakesEffect x)) (by
    simp [State.Executes, Option.any_eq_true])

theorem State.executes_iff (s : State R) (keyData : List UInt8)
    (o : Appchain.Observation AccountId) :
    s.Executes keyData o ↔ (s.vote keyData o).2 = [o] := by
  unfold State.Executes State.vote
  cases hvote : s.voteOf keyData o with
  | none => simp
  | some x =>
    obtain rfl : x.observation = o := by
      obtain ⟨v, -, rfl⟩ := Option.map_eq_some_iff.mp hvote
      rfl
    have hos := Appchain.effects_of_step
      (Appchain.voteMachine_step Bridge.bridgeInterface x s.appchain)
    show _ ↔ ((Appchain.voteMachine Bridge.bridgeInterface).step x s.appchain).2 = [x.observation]
    rw [hos]
    by_cases heffect : s.appchain.TakesEffect x <;> simp [heffect]

/-! ## The lpos pallet -/

/-- A rotation aborts and changes nothing, or it leaves what the hooks leave. -/
theorem State.rotate_cases (s : State R) :
    ((∃ e l, Lpos.rotateSession s.context s.session s.lposState = (.error e, l)) ∧
        s.onChain (.rotate s.context) = s) ∨
      ∃ os l, Lpos.rotateSession s.context s.session s.lposState = (.ok os, l) ∧
        s.onChain (.rotate s.context) = s.withChain ⟨s.session + 1, l⟩ := by
  have hstep : s.onChain (.rotate s.context) = s.withChain (s.chain.rotate s.context).1 := rfl
  rw [hstep]
  unfold Lpos.Chain.rotate
  rcases hrun : Lpos.rotateSession s.context s.chain.session s.chain.state with ⟨e | os, l⟩
  · exact Or.inl ⟨⟨e, l, hrun⟩, rfl⟩
  · exact Or.inr ⟨os, l, hrun, rfl⟩

/-- Of what is read off the messages, a rotation changes only what the messages of the runtime do. -/
theorem State.rotate_messages {τ : Type} {f : UpwardMessages.State R.messages → τ}
    (hf : ∀ payloadType, UpwardMessages.IsSystem payloadType → ∀ payload messages,
      f (UpwardMessages.submit (none : Option AccountId) payloadType payload messages).2 = f messages)
    (s : State R) : f (s.onChain (.rotate s.context)).messages = f s.messages := by
  rcases s.rotate_cases with ⟨-, hsame⟩ | ⟨os, l, hrun, hrotate⟩
  · rw [hsame]
  obtain ⟨l₁, hend, hkept⟩ := Lpos.rotateSession_end (f := fun l => f l.messages) (fun _ _ => rfl)
    (fun _ _ _ _ => rfl) (fun _ payload l => hf .planNewEra (Or.inl rfl) payload l.messages) hrun
  rw [hrotate]
  refine Eq.trans hkept ?_
  cases hend with
  | unpaid _ => rfl
  | payout _ _ hpayout hr =>
    have hmessages : l₁.messages = s.messages ∨ ∃ payload, l₁.messages
        = (UpwardMessages.submit (none : Option AccountId) .eraPayout payload s.messages).2 := by
      rcases hpayout.moved hr with ⟨-, -, hsame⟩ | ⟨-, -, hmessages⟩
      · exact Or.inl hsame
      · exact hmessages
    rcases hmessages with hsame | ⟨payload, hsubmit⟩
    · exact congrArg f hsame
    · rw [hsubmit]
      exact hf .eraPayout (Or.inr rfl) payload s.messages

/-- Besides rotations, the lpos pallet leaves the balances and the messages alone. -/
theorem State.onChain_bridge (s : State R) {call : Lpos.Call R.lpos}
    (hrotate : ∀ ctx, call ≠ .rotate ctx)
    (helsewhere : ∀ balances messages historical, call ≠ .elsewhere balances messages historical) :
    (s.onChain call).appchain.bridge = s.appchain.bridge := by
  have hleaves : call.Leaves (fun l : Lpos.State R.lpos => (l.balances, l.messages)) := by
    cases call with
    | onFinalize _ => exact fun _ _ _ _ => rfl
    | reportOffence _ _ _ _ => exact fun _ _ => rfl
    | elsewhere balances messages historical =>
      exact absurd rfl (helsewhere balances messages historical)
    | rotate _ | noteAuthor _ | dispatch _ _ => trivial
  have hkept := s.chain.step_frame (fun _ _ => rfl) hrotate hleaves
  obtain ⟨hbalances, hmessages⟩ := Prod.mk.inj hkept
  unfold State.onChain
  show ({ s.appchain.bridge with
      balances := (s.chain.step call).1.state.balances
      messages := (s.chain.step call).1.state.messages } : Bridge.State R.bridge)
    = s.appchain.bridge
  rw [hbalances, hmessages]
  rfl

/-- Besides rotations, a step keeps what its call of the lpos pallet does not write. -/
theorem State.step_frame {τ : Type} {f : Lpos.State R.lpos → τ} (hf : Lpos.Apart f) (s : State R)
    {i : Step R} (hi : i ≠ .rotate) (h : (i.chainCall s).Leaves f) :
    f (s.step i).1.lposState = f s.lposState := by
  have hrotate : ∀ ctx, i.chainCall s ≠ .rotate ctx := by
    cases i with
    | rotate => exact absurd rfl hi
    | timestamp _ | onInitialize _ | onFinalize | noteAuthor _ | reportOffence _ _ _ _ | lpos _ _
    | vote _ _ | force _ _ | bridge _ _ | fees _ | keys _ | elsewhere _ _ _ _ => exact fun _ => nofun
  have hkept := s.chain.step_frame hf hrotate h
  rwa [← s.step_chain i] at hkept

/-- **Of the storage of the appchain pallet, only votes and root change more than what is behind the
bridge.** -/
theorem State.step_appchain (s : State R) (i : Step R) :
    (∃ keyData o, i = .vote keyData o) ∨ (∃ origin forced, i = .force origin forced) ∨
      ∃ bridge, (s.step i).1.appchain = { s.appchain with bridge } := by
  cases i with
  | vote keyData o => exact Or.inl ⟨keyData, o, rfl⟩
  | force origin forced => exact Or.inr (Or.inl ⟨origin, forced, rfl⟩)
  | onInitialize now =>
    obtain ⟨messages, -, hrun⟩ := s.onInitialize_eq now
    refine Or.inr (Or.inr ?_)
    show ∃ bridge, (s.onInitialize now).appchain = { s.appchain with bridge }
    rw [hrun]
    exact ⟨_, rfl⟩
  | timestamp _ | onFinalize | rotate | noteAuthor _ | reportOffence _ _ _ _ | lpos _ _
  | bridge _ _ | fees _ | keys _ | elsewhere _ _ _ _ => exact Or.inr (Or.inr ⟨_, rfl⟩)

/-! ## Steps that share nothing -/

omit [DecidableEq AccountId] in
/-- The steps that do not touch the storage of the bridge pallet. -/
def Step.Quiet : Step R → Prop
  | .timestamp _ | .onFinalize | .noteAuthor _ | .reportOffence _ _ _ _ | .lpos _ _ | .force _ _
  | .keys _ => True
  | _ => False

theorem State.step_bridge (s : State R) {i : Step R} (h : i.Quiet) :
    (s.step i).1.appchain.bridge = s.appchain.bridge := by
  cases i with
  | timestamp _ | keys _ => rfl
  | onFinalize | noteAuthor _ | reportOffence _ _ _ _ | lpos _ _ =>
    exact s.onChain_bridge (by simp) (by simp)
  | force origin forced => cases origin <;> cases forced <;> rfl
  | rotate | onInitialize _ | vote _ _ | bridge _ _ | fees _ | elsewhere _ _ _ _ => exact h.elim

end OctopusPallets.Runtime
