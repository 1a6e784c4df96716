import OctopusPallets.Appchain.Worker
import OctopusPallets.Runtime.Provenance

/-!
# Workers, the transaction pool and the chain

The offchain workers run on the nodes of the validators, each when it likes, and what they sign reaches
the chain later, in any order, more than once or never. Anybody else submits whatever he can sign. Here
the three are one machine, and the honest workers take the place of the assumption on votes.

* `network` — workers, unsigned calls and the steps of the chain, in any order
* `network_rooted` — what takes effect is in the anchor contract
-/

namespace OctopusPallets.Runtime

open Infra Infra.Dispatch Infra.FixedWidth

variable {AccountId : Type} [DecidableEq AccountId] {R : Config AccountId}
  {Key Public Signature : Type}

/-- The chain, and the calls that were signed by honest workers so far. -/
structure Network (R : Config AccountId) (Public Signature : Type) where
  chain : State R
  signed : List (Appchain.SignedCall Public AccountId Signature)

/-- What happens next. -/
inductive NetworkStep (R : Config AccountId) (Key Public Signature : Type) where
  /-- The worker of an honest node runs on the current block. -/
  | worker (node : Appchain.Node Key Public AccountId Signature)
      (queries : (Appchain.Endpoint → String) → Appchain.MainchainQueries AccountId)
      (pool : Appchain.SignedCall Public AccountId Signature → Except Unit Unit)
      (blockNumber : Nat) (shouldSend : Bool)
  /-- An unsigned call is dispatched in a block. -/
  | dispatch (currentBlock : Nat) (c : Appchain.SignedCall Public AccountId Signature)
  /-- Anything else happens on the chain. -/
  | chain (i : Step R)

omit [DecidableEq AccountId] in
/-- The steps of the chain: a call that is not valid is not dispatched, and one that is casts its votes
(`Call.run_steps`). -/
def NetworkStep.steps (crypto : Appchain.AppCrypto Key Public AccountId Signature) :
    NetworkStep R Key Public Signature → List (Step R)
  | .worker _ _ _ _ _ => []
  | .dispatch currentBlock c =>
    match Appchain.validateUnsigned R.appchain crypto.toSigningTypes currentBlock c.call with
    | .ok _ => (Call.appchain .none c.call : Call R Public Signature).steps
    | .error _ => []
  | .chain i => [i]

/-- The calls that a step signs. -/
def NetworkStep.signs (crypto : Appchain.AppCrypto Key Public AccountId Signature) (s : State R) :
    NetworkStep R Key Public Signature → List (Appchain.SignedCall Public AccountId Signature)
  | .worker node queries pool blockNumber shouldSend =>
    (Appchain.offchainWorker crypto queries node pool s.stakes s.appchain blockNumber shouldSend).2
  | _ => []

/-- The network, emitting the observations that take effect. -/
def network (crypto : Appchain.AppCrypto Key Public AccountId Signature) :
    Machine (Network R Public Signature) (NetworkStep R Key Public Signature)
      (Appchain.Observation AccountId) where
  step i n :=
    (⟨(machine R).run (i.steps crypto) n.chain, n.signed ++ i.signs crypto n.chain⟩,
      (machine R).log (i.steps crypto) n.chain)

/-! ## Who does what -/

/-- What is assumed of the steps. Honest nodes ask endpoints that answer from the anchor contract. A
call that counts for an honest validator names the key that signed it, which the chain does not
compare, and nobody but its worker signs with the key of an honest validator. -/
def NetworkStep.Admissible (crypto : Appchain.AppCrypto Key Public AccountId Signature)
    (A : Appchain.Anchor AccountId) (faulty : Finset AccountId) (n : Network R Public Signature) :
    NetworkStep R Key Public Signature → Prop
  | .worker node queries _ _ _ => ∀ isTestnet, A.Answers (queries (node.endpoint isTestnet))
  | .dispatch _ c => ∀ v ∉ faulty,
    n.chain.sessionPallet.isActiveValidator Appchain.keyType c.payload.keyData = some v →
      c.payload.keyData = crypto.toRawVec c.payload.public ∧
        (crypto.verify c.payload.public c.payload c.signature = true →
          ∃ c' ∈ n.signed, c'.payload = c.payload)
  | .chain i =>
    i.SessionInRange n.chain ∧ i.Honest A faulty n.chain ∧ ∀ keyData o, i ≠ .vote keyData o

/-! ## Steps -/

variable {crypto : Appchain.AppCrypto Key Public AccountId Signature}
  {A : Appchain.Anchor AccountId} {faulty : Finset AccountId}

omit [DecidableEq AccountId] in
theorem NetworkStep.mem_steps_dispatch {currentBlock : Nat}
    {c : Appchain.SignedCall Public AccountId Signature} {i : Step R}
    (h : i ∈ (NetworkStep.dispatch currentBlock c : NetworkStep R Key Public Signature).steps crypto) :
    crypto.verify c.payload.public c.payload c.signature = true ∧
      ∃ o ∈ c.payload.observations, i = .vote c.payload.keyData o := by
  unfold NetworkStep.steps at h
  dsimp only at h
  cases hvalid : Appchain.validateUnsigned R.appchain crypto.toSigningTypes currentBlock c.call with
  | error e =>
    rw [hvalid] at h
    cases h
  | ok t =>
    rw [hvalid] at h
    obtain ⟨o, ho, rfl⟩ := List.mem_map.mp h
    exact ⟨Appchain.verify_of_validateUnsigned hvalid, o, ho, rfl⟩

/-- Votes under a key whose validator is honest are honest, one after the other. -/
theorem along_votes (session : Lpos.Session AccountId) {is : List (Step R)}
    (his : ∀ i ∈ is, ∃ keyData o, i = .vote keyData o ∧
      ∀ v ∉ faulty, session.isActiveValidator Appchain.keyType keyData = some v → A.Holds o) :
    ∀ {s : State R}, s.sessionPallet = session →
      (machine R).Along (fun s i => i.SessionInRange s ∧ i.Honest A faulty s) is s := by
  induction is with
  | nil => exact fun _ => trivial
  | cons i is ih =>
    intro s hs
    obtain ⟨keyData, o, rfl, ho⟩ := his i (.head _)
    refine ⟨⟨trivial, fun x hx hhonest => ?_⟩, ih (fun j hj => his j (.tail _ hj)) ?_⟩
    · obtain ⟨v, hactive, rfl⟩ := Option.map_eq_some_iff.mp hx
      exact ho v hhonest (hs ▸ hactive)
    · show (s.vote keyData o).1.sessionPallet = session
      unfold State.vote
      cases s.voteOf keyData o <;> exact hs

/-- **One step of the network is a run of honest steps on the chain.** -/
theorem NetworkStep.Admissible.along {n : Network R Public Signature}
    {i : NetworkStep R Key Public Signature} (h : i.Admissible crypto A faulty n)
    (hsigned : ∀ c ∈ n.signed, ∀ o ∈ c.payload.observations, A.Holds o) :
    (machine R).Along (fun s i => i.SessionInRange s ∧ i.Honest A faulty s) (i.steps crypto)
      n.chain := by
  cases i with
  | worker _ _ _ _ _ => trivial
  | chain i => exact ⟨⟨h.1, h.2.1⟩, trivial⟩
  | dispatch currentBlock c =>
    refine along_votes n.chain.sessionPallet (fun i hi => ?_) rfl
    obtain ⟨hverify, o, ho, rfl⟩ := NetworkStep.mem_steps_dispatch hi
    refine ⟨_, o, rfl, fun v hhonest hactive => ?_⟩
    obtain ⟨c', hc', hpayload⟩ := (h v hhonest hactive).2 hverify
    exact hsigned c' hc' o (hpayload ▸ ho)

/-- What an honest worker signs is in the anchor contract. -/
theorem NetworkStep.Admissible.signs {n : Network R Public Signature}
    {i : NetworkStep R Key Public Signature} (h : i.Admissible crypto A faulty n)
    {c : Appchain.SignedCall Public AccountId Signature} (hc : c ∈ i.signs crypto n.chain) :
    ∀ o ∈ c.payload.observations, A.Holds o := by
  cases i with
  | worker node queries pool blockNumber shouldSend =>
    obtain ⟨-, key, v, hworked⟩ := Appchain.offchainWorker_spec hc
    exact Appchain.holds_of_answers (h _) hworked.observe
  | dispatch _ _ | chain _ => cases hc

/-- **The run lemma.** The chain of the network makes an honest run, and everything that was signed
is in the anchor contract. -/
theorem network_run {n₀ : Network R Public Signature} (hn₀ : n₀.signed = [])
    (steps : List (NetworkStep R Key Public Signature))
    (hsteps : (network crypto).Along (fun n i => i.Admissible crypto A faulty n) steps n₀) :
    ((network crypto).run steps n₀).chain
        = (machine R).run (steps.flatMap (NetworkStep.steps crypto)) n₀.chain ∧
      (network crypto).log steps n₀
        = (machine R).log (steps.flatMap (NetworkStep.steps crypto)) n₀.chain ∧
      (machine R).Along (fun s i => i.SessionInRange s ∧ i.Honest A faulty s)
        (steps.flatMap (NetworkStep.steps crypto)) n₀.chain ∧
      ∀ c ∈ ((network crypto).run steps n₀).signed, ∀ o ∈ c.payload.observations, A.Holds o := by
  refine (network crypto).invariant (I := fun steps n os =>
    n.chain = (machine R).run (steps.flatMap (NetworkStep.steps crypto)) n₀.chain ∧
      os = (machine R).log (steps.flatMap (NetworkStep.steps crypto)) n₀.chain ∧
      (machine R).Along (fun s i => i.SessionInRange s ∧ i.Honest A faulty s)
        (steps.flatMap (NetworkStep.steps crypto)) n₀.chain ∧
      ∀ c ∈ n.signed, ∀ o ∈ c.payload.observations, A.Holds o) ?_ ?_ steps hsteps
  · refine ⟨rfl, rfl, trivial, fun c hc => ?_⟩
    rw [hn₀] at hc
    cases hc
  · rintro is n os i ⟨hchain, hlog, halong, hsigned⟩ hi
    rw [List.flatMap_append, List.flatMap_singleton, Machine.run_append, Machine.log_append,
      Machine.along_append, ← hchain, ← hlog]
    refine ⟨rfl, rfl, ⟨halong, hi.along hsigned⟩, fun c hc => ?_⟩
    rcases List.mem_append.mp hc with hc | hc
    · exact hsigned c hc
    · exact hi.signs hc

/--
**What the honest workers see is what the chain executes.**

Workers sign what they find in the anchor contract and everybody else signs anything; calls are
dispatched in any order, again and again. If only their workers sign for the honest validators, and
what counts for them names the key that signed it, then as long as the other accounts hold at most
two thirds of each set of the contract, whatever takes effect is in the contract, and so are the
planned set and the stakes of every era.
-/
theorem network_rooted (crypto : Appchain.AppCrypto Key Public AccountId Signature) (g : Genesis R)
    {s₀ : State R} (hstart : g.start = some s₀) (A : Appchain.Anchor AccountId)
    (faulty : Finset AccountId) (hgenesis : g.validators = A.plan 0)
    (hsets : ∀ setId, Outvotes (A.plan setId) faulty)
    (steps : List (NetworkStep R Key Public Signature))
    (hsteps : (network crypto).Along (fun n i => i.Admissible crypto A faulty n) steps ⟨s₀, []⟩) :
    let s := ((network crypto).run steps ⟨s₀, []⟩).chain
    (∀ o ∈ (network crypto).log steps ⟨s₀, []⟩, A.Holds o) ∧
      s.appchain.plannedValidators = A.plan (s.appchain.nextSetId - 1) ∧
      ∀ era, EraRooted A s era := by
  intro s
  have hnothing : (⟨s₀, []⟩ : Network R Public Signature).signed = [] := rfl
  obtain ⟨hchain, hlog, halong, -⟩ := network_run hnothing steps hsteps
  have h := rooted_run g hstart hgenesis hsets _ halong
  rw [← hchain] at h
  rw [hlog]
  exact ⟨fun o ho => log_holds g hstart hgenesis hsets halong ho, h.planned, h.era hsets⟩

namespace Sample

/-- The appchain of the anchor contract `at`. -/
def anchored : Genesis config := { genesis with anchorContract := [97, 116] }

/-- The node of validator 1. -/
def node : Appchain.Node UInt8 UInt8 Nat UInt8 where
  isValidator := true
  localKeys := [1]
  sign key := some fun _ => key
  configuredEndpoint := none
  nearTestnet := "testnet"
  nearMainnet := "mainnet"

/-- Every endpoint has the sets of the anchor contract. -/
def setQueries (_ : Appchain.Endpoint → String) : Appchain.MainchainQueries Nat where
  getValidatorListOf _ _ setId := .ok [.updateValidatorSet (anchor.valSet setId)]
  getAppchainNotificationHistories _ _ _ _ := .ok []

theorem setQueries_answer (url : Appchain.Endpoint → String) : anchor.Answers (setQueries url) where
  validators _ _ _ _ h := Or.inr (Except.ok.inj h).symm
  notifications _ _ _ _ _ h := ⟨0, Nat.zero_le _, (Except.ok.inj h).symm⟩

/-- The call of the worker, and one of account 2, who is no validator yet. -/
def reported : Appchain.SignedCall UInt8 Nat UInt8 :=
  ⟨⟨1, [1], 5, [.updateValidatorSet (anchor.valSet 1)]⟩, 1⟩

def forged : Appchain.SignedCall UInt8 Nat UInt8 :=
  ⟨⟨2, [2], 5, [.updateValidatorSet ⟨1, [⟨2, 100⟩]⟩]⟩, 2⟩

def networkSteps : List (NetworkStep config UInt8 UInt8 UInt8) :=
  [.chain (.force .root (.isActivated true)), .worker node setQueries (fun _ => .ok ()) 5 true,
    .dispatch 6 forged, .dispatch 6 reported]

end Sample

/-- The set that the worker has found takes effect. -/
theorem network_rooted_in_reported_set :
    ∃ s₀, Sample.anchored.start = some s₀ ∧
      (network Appchain.Sample.appCrypto).log Sample.networkSteps ⟨s₀, []⟩
        = [.updateValidatorSet (Sample.anchor.valSet 1)] ∧
      ∀ o ∈ (network Appchain.Sample.appCrypto).log Sample.networkSteps ⟨s₀, []⟩,
        Sample.anchor.Holds o := by
  refine ⟨_, rfl, by decide, (network_rooted Appchain.Sample.appCrypto Sample.anchored rfl
    Sample.anchor {2} rfl Sample.anchor_outvotes Sample.networkSteps ?_).1⟩
  refine ⟨⟨trivial, trivial, nofun⟩, fun _ => Sample.setQueries_answer _, fun v _ hactive => ?_,
    fun v _ _ => ⟨rfl, fun _ => ⟨Sample.reported, .head _, rfl⟩⟩, trivial⟩
  have hnone : (Sample.keysOf [1]).isActiveValidator Appchain.keyType [2] = none := by decide
  cases hnone.symm.trans hactive

end OctopusPallets.Runtime
