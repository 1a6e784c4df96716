import OctopusPallets.Appchain.HonestRuns
import OctopusPallets.Runtime.Network

/-!
# A network of honest workers

Every call that counts is one that a worker has signed, maybe long ago. Then the chain executes the
notifications of the anchor contract in their order, whatever the sets and the stakes are, and no vote
is in the way of another.

* `along_fits` — the votes of a call are entered, without overflow
* `network_executes_history` — the notifications that take effect
-/

namespace OctopusPallets.Appchain

open Infra Infra.Dispatch Infra.FixedWidth

variable {cfg : Config} {AccountId β : Type} [DecidableEq AccountId]

/-- No test under these stakes overflows. -/
structure StakesFit (lpos : LposInterface AccountId) : Prop where
  total : ∀ T ∈ lpos.activeTotalStake, 2 * T < 2 ^ 128
  stake : ∀ S : Finset AccountId, 3 * weightOf lpos.activeStakeOf S < 2 ^ 128

/-- There is room for the votes of `accounts`, and nobody else has voted. -/
structure State.VotedBy (accounts : Finset AccountId) (a : State cfg AccountId β) : Prop where
  wellFormed : a.WellFormed
  voters : ∀ o, a.book o ⊆ accounts

variable {accounts : Finset AccountId} {a a' : State cfg AccountId β}
  {lpos : LposInterface AccountId} {v : AccountId}

theorem State.VotedBy.fits (h : a.VotedBy accounts) (hcard : accounts.card ≤ cfg.maxValidators)
    (hstakes : StakesFit lpos) (hv : v ∈ accounts) (o : Observation AccountId)
    (hwindow : a.nextNotificationId + cfg.requestEventLimit < 2 ^ 32) : Fits a ⟨lpos, v, o⟩ :=
  ⟨fun _ => hwindow, fun _ => h.wellFormed.voter_isSome (h.voters o) hcard hv, fun _ => hstakes.total,
    fun _ => hstakes.stake _⟩

theorem State.VotedBy.step {bridge : BridgeInterface AccountId β} {o : Observation AccountId}
    {os : List (Observation AccountId)} (h : a.VotedBy accounts) (hv : v ∈ accounts)
    (hstep : VoteStep bridge lpos v o a a' os) : a'.VotedBy accounts := by
  refine ⟨wellFormed_step hstep h.wellFormed, fun o' w hw => ?_⟩
  rcases hstep.book with ⟨rfl, -⟩ | ⟨-, hcast⟩
  · exact h.voters o' hw
  · rw [hcast, Book.mem_cast] at hw
    rcases hw with hw | ⟨rfl, -⟩
    · exact h.voters o' hw
    · exact hv

/-- A state with the same entries and the same counter. -/
theorem Faithful.of_fields {H : History AccountId} (h : Faithful H a) (hwf : a'.WellFormed)
    (hobserving : a'.observing = a.observing)
    (hcounter : a'.nextNotificationId = a.nextNotificationId) : Faithful H a' := by
  obtain ⟨-, hknown, hnested⟩ := h
  have hsame : a'.book = a.book := by
    unfold State.book
    rw [hobserving]
  rw [← hsame] at hknown
  rw [← hsame, ← hcounter] at hnested
  exact ⟨hwf, hknown, hnested⟩

theorem State.VotedBy.of_fields (h : a.VotedBy accounts) (hwf : a'.WellFormed)
    (hobserving : a'.observing = a.observing) : a'.VotedBy accounts := by
  refine ⟨hwf, fun o => ?_⟩
  unfold State.book
  rw [hobserving]
  exact h.voters o

/-- **The votes of a call are entered**, as long as the counter stays below its maximum. -/
theorem along_fits (bridge : BridgeInterface AccountId β)
    (hcard : accounts.card ≤ cfg.maxValidators) (hstakes : StakesFit lpos) (hv : v ∈ accounts) :
    ∀ (os : List (Observation AccountId)) {a : State cfg AccountId β}, a.VotedBy accounts →
      a.nextNotificationId + os.length + cfg.requestEventLimit < 2 ^ 32 →
        (voteMachine bridge).Along Fits (votesFor lpos v os) a ∧
          ((voteMachine bridge).run (votesFor lpos v os) a).VotedBy accounts
  | [], _, h, _ => ⟨trivial, h⟩
  | o :: os, a, h, hroom => by
    rw [List.length_cons] at hroom
    have hstep := voteMachine_step bridge ⟨lpos, v, o⟩ a
    have hcounter := nextNotificationId_of_step hstep
    have hone : (notifications ((voteMachine bridge).step ⟨lpos, v, o⟩ a).2).length ≤ 1 := by
      rw [notifications_of_step hstep]
      split <;> simp
    obtain ⟨hrest, hafter⟩ := along_fits bridge hcard hstakes hv os (h.step hv hstep) (by omega)
    exact ⟨⟨h.fits hcard hstakes hv o (by omega), hrest⟩, hafter⟩

omit [DecidableEq AccountId] in
theorem SetsSequenced.of_fields {genesis : List (AccountId × Nat)}
    {sets : List (ValidatorSet AccountId)} (h : SetsSequenced genesis a sets)
    (hset : a'.nextSetId = a.nextSetId) (hplanned : a'.plannedValidators = a.plannedValidators) :
    SetsSequenced genesis a' sets := by
  obtain ⟨hpos, hids, hplan⟩ := h
  rw [← hset] at hpos hids
  rw [← hplanned] at hplan
  exact ⟨hpos, hids, hplan⟩

/-- What takes effect was voted for. -/
theorem exists_vote_of_mem_log {bridge : BridgeInterface AccountId β} {xs : List (Vote AccountId)}
    {o : Observation AccountId} (ho : o ∈ (voteMachine bridge).log xs a) :
    ∃ x ∈ xs, x.observation = o := by
  obtain ⟨js, x, ks, rfl, heffect⟩ := (voteMachine bridge).mem_log ho
  exact ⟨x, by simp, ((voteMachine_step bridge x _).passes_of_mem heffect).1.symm⟩

/-- **What an honest call does.** The notifications that take effect in it are the next ones of the
history, and it leaves nothing behind that is in the way of later calls. -/
theorem honest_votes (bridge : BridgeInterface AccountId β) {H : History AccountId}
    {Public : Type} {c : Call Public AccountId} (hfaithful : Faithful H a)
    (hvoted : a.VotedBy accounts) (hcard : accounts.card ≤ cfg.maxValidators)
    (hstakes : StakesFit c.lpos) (haccounts : ∀ v ∈ c.validatorId, v ∈ accounts)
    (hcall : HonestCall H a c)
    (hwindow : a.nextNotificationId + 2 * cfg.requestEventLimit + 1 < 2 ^ 32) :
    Faithful H ((voteMachine bridge).run c.votes a) ∧
      ((voteMachine bridge).run c.votes a).VotedBy accounts ∧
      notifications ((voteMachine bridge).log c.votes a)
        = H.slice a.nextNotificationId
            (notifications ((voteMachine bridge).log c.votes a)).length := by
  have hcontains : ∀ o ∈ notifications ((voteMachine bridge).log c.votes a), H.Contains o := by
    intro o ho
    have hhonest : (callMachine bridge).Along (HonestCall H) [c] a := ⟨hcall, trivial⟩
    refine contains_of_honest_run hhonest ?_
    rwa [List.flatMap_singleton]
  have hfits : (voteMachine bridge).Along Fits c.votes a ∧
      ((voteMachine bridge).run c.votes a).VotedBy accounts := by
    unfold HonestCall at hcall
    unfold Call.votes
    cases hv : c.validatorId with
    | none => exact ⟨trivial, hvoted⟩
    | some v =>
      rw [hv] at hcall
      refine along_fits bridge hcard hstakes (haccounts v hv) _ hvoted ?_
      have hlength : c.payload.observations.length ≤ cfg.requestEventLimit + 1 := by
        rcases hcall rfl with ⟨m, k, -, hk, hslice⟩ | ⟨valSet, hset⟩
        · rw [hslice, History.slice, List.length_map, List.length_range']
          omega
        · rw [hset, List.length_singleton]
          omega
      omega
  obtain ⟨horder, hfaithful'⟩ := honest_call bridge hfaithful hcall hfits.1
  exact ⟨hfaithful', hfits.2, H.eq_slice hcontains ((indices_run bridge _ _).mpr horder)⟩

end OctopusPallets.Appchain

namespace OctopusPallets.Runtime

open Infra Infra.Dispatch Infra.FixedWidth

variable {AccountId : Type} [DecidableEq AccountId] {R : Config AccountId}
  {Key Public Signature : Type}

/-! ## The stakes -/

section

variable {A : Appchain.Anchor AccountId} {faulty : Finset AccountId} {s : State R}
  {plans : List (Lpos.Plan AccountId)}

/-- The stakes of a rooted chain fit, in a cleared era because there are none. -/
theorem Rooted.stakesFit (h : Rooted A faulty s plans)
    (hsets : ∀ setId, Outvotes (A.plan setId) faulty) : Appchain.StakesFit s.stakes := by
  have hzero : (∀ who, s.stakes.activeStakeOf who = 0) →
      ∀ S : Finset AccountId, 3 * weightOf s.stakes.activeStakeOf S < 2 ^ 128 := by
    intro hstake S
    have hsum : weightOf s.stakes.activeStakeOf S = 0 := Finset.sum_eq_zero fun v _ => hstake v
    rw [hsum]
    exact Nat.two_pow_pos 128
  cases hactive : s.lpos.activeEra with
  | none =>
    have htotal : s.stakes.activeTotalStake = none := by
      show s.lpos.activeEra.map _ = none
      rw [hactive]
      rfl
    refine ⟨fun T hT => ?_, hzero fun who => ?_⟩
    · rw [htotal] at hT
      cases hT
    · show (s.lpos.activeEra.map _).getD 0 = 0
      rw [hactive]
      rfl
  | some activeEra =>
    rcases h.active_stakes hsets hactive with ⟨hstake, htotal⟩ | ⟨setId, hbacks⟩
    · refine ⟨fun T hT => ?_, hzero hstake⟩
      rw [htotal] at hT
      rw [← Option.some.inj hT]
      exact Nat.two_pow_pos 128
    · have hfits := (hsets setId).fits
      refine ⟨fun T hT => ?_, fun S => ?_⟩
      · rw [hbacks.activeTotalStake] at hT
        rw [← Option.some.inj hT]
        omega
      · rw [hbacks.activeStakeOf]
        have hle := (electorateOf (A.plan setId)).stake_le_total S
        have hstake : weightOf (electorateOf (A.plan setId)).weight S
            = (electorateOf (A.plan setId)).stake S := rfl
        omega

/-- The run rule for rooted chains. -/
theorem Rooted.run (h : Rooted A faulty s plans) (hsets : ∀ setId, Outvotes (A.plan setId) faulty) :
    ∀ {steps : List (Step R)},
      (machine R).Along (fun s i => i.SessionInRange s ∧ i.Honest A faulty s) steps s →
        ∃ plans', Rooted A faulty ((machine R).run steps s) plans' := by
  intro steps
  induction steps generalizing s plans with
  | nil => exact fun _ => ⟨plans, h⟩
  | cons i steps ih => exact fun hsteps => ih (h.step hsets hsteps.1.1 hsteps.1.2) hsteps.2

end

/-! ## One step -/

/-- What takes effect by the votes of a call. -/
theorem log_votes (keyData : List UInt8) : ∀ (os : List (Appchain.Observation AccountId))
    (s : State R), (machine R).log (os.map fun o => .vote keyData o) s
      = (Appchain.voteMachine Bridge.bridgeInterface).log
          (Appchain.Call.votes ⟨s.stakes, (⟨(), keyData, 0, os⟩ :
            Appchain.ObservationsPayload Unit AccountId)⟩) s.appchain
  | [], s => by
    unfold Appchain.Call.votes
    split <;> rfl
  | o :: os, s => by
    have hrest := log_votes keyData os (s.vote keyData o).1
    rw [List.map_cons, Machine.log]
    show (s.vote keyData o).2 ++ (machine R).log _ (s.vote keyData o).1 = _
    rw [hrest]
    unfold State.vote State.voteOf Appchain.Call.votes Appchain.Call.validatorId
    dsimp only
    cases hactive : s.stakes.isActiveValidator Appchain.keyType keyData with
    | none => simp only [Option.map_none, hactive]; rfl
    | some v =>
      have hsame : ∀ a, ({ s with appchain := a } : State R).stakes = s.stakes := fun _ => rfl
      simp only [Option.map_some, hsame, hactive, List.map_cons, Machine.log]

/-- The storage of the appchain pallet after a call, and what took effect in it. -/
theorem run_call (s : State R) (c : Appchain.SignedCall Public AccountId Signature) :
    ((machine R).run (Call.appchain .none c.call : Call R Public Signature).steps s).appchain
        = (Appchain.voteMachine Bridge.bridgeInterface).run
            (Appchain.Call.votes ⟨s.stakes, c.payload⟩) s.appchain ∧
      (machine R).log (Call.appchain .none c.call : Call R Public Signature).steps s
        = (Appchain.voteMachine Bridge.bridgeInterface).log
            (Appchain.Call.votes ⟨s.stakes, c.payload⟩) s.appchain := by
  refine ⟨?_, ?_⟩
  · have hrun := Call.run_steps s .none c.call
    have hstate := Appchain.submitObservations_state Bridge.bridgeInterface
      ⟨s.stakes, c.payload⟩ s.appchain
    exact (congrArg State.appchain hrun).trans hstate
  · exact log_votes c.payload.keyData c.payload.observations s

/-! ## Runs -/

omit [DecidableEq AccountId] in
/-- Root leaves the counters and the list of validators alone. -/
def Step.KeepsCounters : Step R → Prop
  | .force .root (.nextSetId _) | .force .root (.plannedValidators _)
  | .force .root (.nextNotificationId _) => False
  | _ => True

/-- What is assumed of the steps. Every valid call that counts was signed by a worker, the validators
are among `accounts`, and the indices stay in `u32`. -/
def NetworkStep.Honest (crypto : Appchain.AppCrypto Key Public AccountId Signature)
    (A : Appchain.Anchor AccountId) (accounts : Finset AccountId) (n : Network R Public Signature) :
    NetworkStep R Key Public Signature → Prop
  | .worker node queries _ _ _ => ∀ isTestnet, A.Answers (queries (node.endpoint isTestnet))
  | .dispatch currentBlock c =>
    n.chain.appchain.nextNotificationId + 2 * R.appchain.requestEventLimit + 1 < 2 ^ 32 ∧
      ∀ t v, Appchain.validateUnsigned R.appchain crypto.toSigningTypes currentBlock c.call = .ok t →
        n.chain.sessionPallet.isActiveValidator Appchain.keyType c.payload.keyData = some v →
          v ∈ accounts ∧ ∃ c' ∈ n.signed, c'.payload = c.payload
  | .chain i => i.SessionInRange n.chain ∧ i.KeepsCounters ∧ ∀ keyData o, i ≠ .vote keyData o

/-- A worker has found a slice of the history, from a value that the counter has had, or a set. -/
def Found (A : Appchain.Anchor AccountId) (s : State R)
    (os : List (Appchain.Observation AccountId)) : Prop :=
  (∀ o ∈ os, A.Holds o) ∧ (Appchain.HonestSlice A.toHistory s.appchain os ∨
    ∃ valSet, os = [.updateValidatorSet valSet])

/-- The chain has executed the history up to the counter, and is ready to go on. -/
structure Executing (A : Appchain.Anchor AccountId) (accounts : Finset AccountId)
    (n : Network R Public Signature) (os : List (Appchain.Observation AccountId)) : Prop where
  rooted : ∃ plans, Rooted A ∅ n.chain plans
  faithful : Appchain.Faithful A.toHistory n.chain.appchain
  votedBy : n.chain.appchain.VotedBy accounts
  signed : ∀ c ∈ n.signed, Found A n.chain c.payload.observations
  holds : ∀ o ∈ os, A.Holds o
  sets : Appchain.SetsSequenced (A.plan 0) n.chain.appchain
    (os.filterMap Appchain.Observation.validatorSet?)
  executed : Appchain.notifications os
    = (List.range n.chain.appchain.nextNotificationId).map A.notification

variable {crypto : Appchain.AppCrypto Key Public AccountId Signature} {A : Appchain.Anchor AccountId}
  {accounts : Finset AccountId} {n : Network R Public Signature}
  {os : List (Appchain.Observation AccountId)}

omit [DecidableEq AccountId] in
/-- What was found stays a slice from a value that the counter has had. -/
theorem Found.mono {s s' : State R} {os : List (Appchain.Observation AccountId)} (h : Found A s os)
    (hle : s.appchain.nextNotificationId ≤ s'.appchain.nextNotificationId) : Found A s' os := by
  refine ⟨h.1, h.2.imp_left ?_⟩
  rintro ⟨m, k, hm, hk, hslice⟩
  exact ⟨m, k, hm.trans hle, hk, hslice⟩

/-- What the steps of the chain do to the votes, besides votes. -/
theorem State.step_votes (s : State R) {i : Step R} (hkeeps : i.KeepsCounters)
    (hvote : ∀ keyData o, i ≠ .vote keyData o) :
    (s.step i).2 = [] ∧ (s.step i).1.appchain.observing = s.appchain.observing ∧
      (s.step i).1.appchain.nextNotificationId = s.appchain.nextNotificationId ∧
      (s.step i).1.appchain.nextSetId = s.appchain.nextSetId ∧
      (s.step i).1.appchain.plannedValidators = s.appchain.plannedValidators := by
  refine ⟨?_, ?_⟩
  · cases i with
    | vote keyData o => exact absurd rfl (hvote keyData o)
    | timestamp _ | onInitialize _ | onFinalize | rotate | noteAuthor _ | reportOffence _ _ _ _
    | lpos _ _ | force _ _ | bridge _ _ | fees _ | keys _ | elsewhere _ _ _ _ => rfl
  · rcases s.step_appchain i with ⟨keyData, o, rfl⟩ | ⟨origin, forced, rfl⟩ | ⟨bridge, hsame⟩
    · exact absurd rfl (hvote keyData o)
    · cases origin with
      | signed _ | none => cases forced <;> exact ⟨rfl, rfl, rfl, rfl⟩
      | root =>
        cases forced with
        | isActivated _ => exact ⟨rfl, rfl, rfl, rfl⟩
        | nextSetId _ | plannedValidators _ | nextNotificationId _ => exact hkeeps.elim
    · rw [hsame]
      exact ⟨rfl, rfl, rfl, rfl⟩

/-- A step that is no vote is honest. -/
theorem Step.KeepsCounters.honest {i : Step R} (h : i.KeepsCounters) (s : State R)
    (hvote : ∀ keyData o, i ≠ .vote keyData o)
    (faulty : Finset AccountId) : i.Honest A faulty s := by
  cases i with
  | vote keyData o => exact absurd rfl (hvote keyData o)
  | force origin forced =>
    cases origin with
    | signed _ | none => cases forced <;> trivial
    | root =>
      cases forced with
      | isActivated _ => trivial
      | nextSetId _ | plannedValidators _ | nextNotificationId _ => exact h.elim
  | timestamp _ | onInitialize _ | onFinalize | rotate | noteAuthor _ | reportOffence _ _ _ _
  | lpos _ _ | bridge _ _ | fees _ | keys _ | elsewhere _ _ _ _ => trivial

/-- A worker runs. -/
theorem Executing.worker (h : Executing A accounts n os)
    {node : Appchain.Node Key Public AccountId Signature}
    {queries : (Appchain.Endpoint → String) → Appchain.MainchainQueries AccountId}
    {pool : Appchain.SignedCall Public AccountId Signature → Except Unit Unit} {blockNumber : Nat}
    {shouldSend : Bool}
    (hqueries : ∀ isTestnet, A.Answers (queries (node.endpoint isTestnet))) :
    Executing A accounts ⟨n.chain, n.signed ++ (Appchain.offchainWorker crypto queries node pool
      n.chain.stakes n.chain.appchain blockNumber shouldSend).2⟩ os := by
  refine { h with signed := fun c hc => ?_ }
  rcases List.mem_append.mp hc with hc | hc
  · exact h.signed c hc
  · obtain ⟨-, key, v, hworked⟩ := Appchain.offchainWorker_spec hc
    refine ⟨Appchain.holds_of_answers (hqueries _) hworked.observe, ?_⟩
    rcases Appchain.observe_of_answers (hqueries _) hworked.observe with hset | ⟨k, hk, hslice⟩
    · exact Or.inr ⟨_, hset⟩
    · exact Or.inl ⟨_, k, Nat.le_refl _, hk, hslice⟩

/-- The chain makes a step of its own. -/
theorem Executing.chain (h : Executing A accounts n os)
    (hsets : ∀ setId, Outvotes (A.plan setId) ∅) {i : Step R} (hrange : i.SessionInRange n.chain)
    (hkeeps : i.KeepsCounters) (hvote : ∀ keyData o, i ≠ .vote keyData o) :
    Executing A accounts ⟨(n.chain.step i).1, n.signed⟩ (os ++ (n.chain.step i).2) := by
  obtain ⟨plans, hrooted⟩ := h.rooted
  obtain ⟨hnone, hobserving, hcounter, hset, hplanned⟩ := n.chain.step_votes hkeeps hvote
  have hwf := wellFormed_step n.chain i hrooted.wellFormed
  refine ⟨⟨_, hrooted.step hsets hrange (hkeeps.honest n.chain hvote ∅)⟩,
    h.faithful.of_fields hwf hobserving hcounter, h.votedBy.of_fields hwf hobserving,
    fun c hc => (h.signed c hc).mono hcounter.ge, ?_, ?_, ?_⟩
  · rw [hnone, List.append_nil]
    exact h.holds
  · rw [hnone, List.append_nil]
    exact h.sets.of_fields hset hplanned
  · rw [hnone, List.append_nil, hcounter]
    exact h.executed

/-- A call is dispatched. -/
theorem Executing.dispatch (h : Executing A accounts n os)
    (hsets : ∀ setId, Outvotes (A.plan setId) ∅)
    (hcard : accounts.card ≤ R.appchain.maxValidators)
    {c : Appchain.SignedCall Public AccountId Signature}
    (hwindow : n.chain.appchain.nextNotificationId + 2 * R.appchain.requestEventLimit + 1 < 2 ^ 32)
    (hsigner : ∀ v,
      n.chain.sessionPallet.isActiveValidator Appchain.keyType c.payload.keyData = some v →
        v ∈ accounts ∧ ∃ c' ∈ n.signed, c'.payload = c.payload) :
    Executing A accounts
      ⟨(machine R).run (Call.appchain .none c.call : Call R Public Signature).steps n.chain,
        n.signed⟩
      (os ++ (machine R).log (Call.appchain .none c.call : Call R Public Signature).steps
        n.chain) := by
  obtain ⟨plans, hrooted⟩ := h.rooted
  obtain ⟨hrun, hlog⟩ := run_call n.chain c
  have hfound : ∀ v, n.chain.sessionPallet.isActiveValidator Appchain.keyType c.payload.keyData
      = some v → Found A n.chain c.payload.observations := by
    intro v hactive
    obtain ⟨-, c', hc', hpayload⟩ := hsigner v hactive
    exact hpayload ▸ h.signed c' hc'
  -- the votes of the call
  have hcall : Appchain.HonestCall A.toHistory n.chain.appchain ⟨n.chain.stakes, c.payload⟩ := by
    intro hsome
    obtain ⟨v, hactive⟩ := Option.isSome_iff_exists.mp hsome
    exact (hfound v hactive).2
  have haccounts : ∀ v ∈ Appchain.Call.validatorId ⟨n.chain.stakes, c.payload⟩, v ∈ accounts :=
    fun v hactive => (hsigner v hactive).1
  obtain ⟨hfaithful, hvotedBy, hslice⟩ := Appchain.honest_votes Bridge.bridgeInterface h.faithful
    h.votedBy hcard (hrooted.stakesFit hsets) haccounts hcall hwindow
  have hcounter := Appchain.nextNotificationId_run Bridge.bridgeInterface n.chain.appchain
    (Appchain.Call.votes ⟨n.chain.stakes, c.payload⟩)
  rw [← hrun] at hfaithful hvotedBy hcounter
  rw [← hlog] at hslice hcounter
  -- the sets that the chain runs on
  have hsteps : (machine R).Along (fun s i => i.SessionInRange s ∧ i.Honest A ∅ s)
      (Call.appchain .none c.call : Call R Public Signature).steps n.chain := by
    refine along_votes n.chain.sessionPallet (fun i hi => ?_) rfl
    obtain ⟨o, ho, rfl⟩ := List.mem_map.mp hi
    exact ⟨_, o, rfl, fun v _ hactive => (hfound v hactive).1 o ho⟩
  refine ⟨hrooted.run hsets hsteps, hfaithful, hvotedBy,
    fun c hc => (h.signed c hc).mono (hcounter ▸ Nat.le_add_right _ _), fun o ho => ?_, ?_, ?_⟩
  · rcases List.mem_append.mp ho with ho | ho
    · exact h.holds o ho
    · rw [hlog] at ho
      obtain ⟨x, hx, rfl⟩ := Appchain.exists_vote_of_mem_log ho
      obtain ⟨-, hactive, hmem⟩ := Appchain.Call.mem_votes.mp hx
      exact (hfound _ hactive).1 _ hmem
  · have hsequenced := h.sets.run Bridge.bridgeInterface
      (Appchain.Call.votes ⟨n.chain.stakes, c.payload⟩)
    rwa [← hrun, ← hlog, ← List.filterMap_append] at hsequenced
  · rw [Appchain.notifications_append, h.executed, hslice, hcounter]
    exact Appchain.History.prefix_append_slice _ _

/-- **The step lemma.** -/
theorem Executing.step (h : Executing A accounts n os)
    (hsets : ∀ setId, Outvotes (A.plan setId) ∅)
    (hcard : accounts.card ≤ R.appchain.maxValidators) {i : NetworkStep R Key Public Signature}
    (hi : i.Honest crypto A accounts n) :
    Executing A accounts ((network crypto).step i n).1 (os ++ ((network crypto).step i n).2) := by
  cases i with
  | worker node queries pool blockNumber shouldSend =>
    have hworker : Executing A accounts ⟨n.chain, n.signed ++ (Appchain.offchainWorker crypto
      queries node pool n.chain.stakes n.chain.appchain blockNumber shouldSend).2⟩ os := h.worker hi
    rwa [← List.append_nil os] at hworker
  | dispatch currentBlock c =>
    have hnothing : Executing A accounts ⟨n.chain, n.signed ++ []⟩ (os ++ []) := by
      rw [List.append_nil, List.append_nil]
      exact h
    show Executing A accounts ⟨(machine R).run
      ((NetworkStep.dispatch currentBlock c : NetworkStep R Key Public Signature).steps crypto)
        n.chain, n.signed ++ []⟩ (os ++ (machine R).log
          ((NetworkStep.dispatch currentBlock c : NetworkStep R Key Public Signature).steps crypto)
            n.chain)
    rw [List.append_nil]
    unfold NetworkStep.steps
    dsimp only
    split
    · next t hvalid => exact h.dispatch hsets hcard hi.1 fun v => hi.2 t v hvalid
    · rwa [List.append_nil] at hnothing
  | chain i =>
    have hchain := h.chain hsets hi.1 hi.2.1 hi.2.2
    show Executing A accounts ⟨(n.chain.step i).1, n.signed ++ []⟩ (os ++ ((n.chain.step i).2 ++ []))
    rw [List.append_nil, List.append_nil]
    exact hchain

theorem Genesis.executing (g : Genesis R) {s₀ : State R} (hstart : g.start = some s₀)
    (hgenesis : g.validators = A.plan 0) :
    Executing A accounts (⟨s₀, []⟩ : Network R Public Signature) [] := by
  have hrooted : Rooted A ∅ s₀ (g.eras s₀ []) := g.rooted hstart hgenesis
  obtain ⟨⟨c₀, os₀⟩, -, rfl⟩ := Option.map_eq_some_iff.mp hstart
  refine ⟨⟨_, hrooted⟩, ?_, ⟨hrooted.wellFormed, fun o v hv => ?_⟩, nofun, nofun,
    ⟨Nat.le_refl 1, rfl, hgenesis⟩, rfl⟩
  · exact (Appchain.faithful_genesis A.toHistory g.anchorContract g.validators _).of_fields
      hrooted.wellFormed rfl rfl
  · simp [Appchain.State.book, State.withChain, Genesis.state, Appchain.genesisBuild] at hv

/-- The sets that have taken effect are those of the contract, in the order of their ids. -/
theorem Executing.installed (h : Executing A accounts n os) :
    os.filterMap Appchain.Observation.validatorSet?
      = (List.range' 1 (n.chain.appchain.nextSetId - 1)).map A.valSet := by
  rw [← h.sets.ids, List.map_map]
  refine (List.map_id _).symm.trans (List.map_congr_left fun valSet hset => ?_)
  obtain ⟨o, ho, hsome⟩ := List.mem_filterMap.mp hset
  cases o with
  | updateValidatorSet valSet' =>
    obtain rfl := Option.some.inj hsome
    exact h.holds _ ho
  | burn _ | lockAsset _ | burnNft _ => cases hsome

/--
**A network of honest workers executes the history of the anchor contract.**

The list of the genesis is set 0 of the contract, and root forces neither the counters nor the planned
list. Every account whose call counts is one of `accounts` and has signed it with an honest worker, in
whatever block and with whatever the chain has done since; calls come in any order, again and again,
or never, and sets, eras and sessions change as they like. Then the notifications that have taken
effect are those of the anchor contract up to `NextNotificationId`, each once and in order, and so are
the validator sets up to `NextSetId`.
-/
theorem network_executes_history (crypto : Appchain.AppCrypto Key Public AccountId Signature)
    (g : Genesis R) {s₀ : State R} (hstart : g.start = some s₀) (A : Appchain.Anchor AccountId)
    (accounts : Finset AccountId) (hgenesis : g.validators = A.plan 0)
    (hfits : ∀ setId, 3 * (electorateOf (A.plan setId)).total < 2 ^ 128)
    (hcard : accounts.card ≤ R.appchain.maxValidators)
    (steps : List (NetworkStep R Key Public Signature))
    (hsteps : (network crypto).Along (fun n i => i.Honest crypto A accounts n) steps ⟨s₀, []⟩) :
    let os := (network crypto).log steps ⟨s₀, []⟩
    let a := ((network crypto).run steps ⟨s₀, []⟩).chain.appchain
    Appchain.notifications os = (List.range a.nextNotificationId).map A.notification ∧
      os.filterMap Appchain.Observation.validatorSet?
        = (List.range' 1 (a.nextSetId - 1)).map A.valSet := by
  intro os a
  have hsets : ∀ setId, Outvotes (A.plan setId) ∅ :=
    fun setId => ⟨hfits setId, Electorate.not_quorum_empty⟩
  have h := (network crypto).invariant (I := fun _ n os => Executing A accounts n os)
    (g.executing hstart hgenesis) (fun _ _ _ _ h hi => h.step hsets hcard hi) steps hsteps
  exact ⟨h.executed, h.installed⟩

namespace Sample

/-- Every endpoint has two notifications of the anchor contract, and no new set. -/
def historyQueries (_ : Appchain.Endpoint → String) : Appchain.MainchainQueries Nat where
  getValidatorListOf _ _ _ := .ok []
  getAppchainNotificationHistories _ _ index limit := .ok (anchor.slice index (min limit 2))

theorem historyQueries_answer (url : Appchain.Endpoint → String) :
    anchor.Answers (historyQueries url) where
  validators _ _ _ _ h := Or.inl (Except.ok.inj h).symm
  notifications _ _ _ _ _ h := ⟨_, Nat.min_le_left .., (Except.ok.inj h).symm⟩

/-- What the worker has signed is dispatched twice. -/
def repeated : Appchain.SignedCall UInt8 Nat UInt8 := ⟨⟨1, [1], 5, anchor.slice 0 2⟩, 1⟩

def repeatedSteps : List (NetworkStep config UInt8 UInt8 UInt8) :=
  [.chain (.force .root (.isActivated true)), .worker node historyQueries (fun _ => .ok ()) 5 true,
    .dispatch 6 repeated, .dispatch 7 repeated]

end Sample

/-- Both notifications take effect, once. -/
theorem network_executes_history_once :
    ∃ s₀, Sample.anchored.start = some s₀ ∧
      ((network Appchain.Sample.appCrypto).run Sample.repeatedSteps
        ⟨s₀, []⟩).chain.appchain.nextNotificationId = 2 ∧
      Appchain.notifications
          ((network Appchain.Sample.appCrypto).log Sample.repeatedSteps ⟨s₀, []⟩)
        = (List.range ((network Appchain.Sample.appCrypto).run Sample.repeatedSteps
            ⟨s₀, []⟩).chain.appchain.nextNotificationId).map Sample.anchor.notification := by
  refine ⟨_, rfl, by decide, (network_executes_history Appchain.Sample.appCrypto Sample.anchored rfl
    Sample.anchor {1} rfl (fun setId => (Sample.anchor_outvotes setId).fits) (by decide)
    Sample.repeatedSteps ?_).1⟩
  have hvalidator : ∀ v, (Sample.keysOf [1]).isActiveValidator Appchain.keyType [1] = some v →
      v ∈ ({1} : Finset Nat) := by
    intro v hactive
    have hone : (Sample.keysOf [1]).isActiveValidator Appchain.keyType [1] = some 1 := by decide
    cases hone.symm.trans hactive
    exact Finset.mem_singleton_self 1
  exact ⟨⟨trivial, trivial, nofun⟩, fun _ => Sample.historyQueries_answer _,
    ⟨by decide, fun _ v _ hactive => ⟨hvalidator v hactive, Sample.repeated, .head _, rfl⟩⟩,
    ⟨by decide, fun _ v _ hactive => ⟨hvalidator v hactive, Sample.repeated, .head _, rfl⟩⟩, trivial⟩

end OctopusPallets.Runtime
