import OctopusPallets.Lpos.Frames
import OctopusPallets.Lpos.Timeline

/-!
# The payout of an era

`end_era` writes four things: the reward of the era, the offenders, the balance of the pallet
account and the queue of messages, in this order, and it can fail after any of the first three.
`Payout` says where it stops, and in which state.

* `endEra_payout` — what `end_era` does to an era that is to be paid
* `endSession_end` — what is left of it behind `end_session`
-/

namespace OctopusPallets.Lpos

open Infra Infra.Dispatch Infra.FixedWidth

variable {AccountId : Type} {T : Config AccountId}

/-! ## The message -/

section

variable [DecidableEq AccountId]

omit [DecidableEq AccountId] in
/-- The threshold of `expectPoints`, or the abort. -/
def thresholdOf (build : Build) (total validators : Nat) : Except Fault Nat :=
  if validators % 2 ^ 32 = 0 then .error .abort
  else
    match build.mul 32 (total / (validators % 2 ^ 32)) 80 with
    | none => .error .abort
    | some points => .ok (points / 100)

omit [DecidableEq AccountId] in
theorem expectPoints_apply (total validators : Nat) (s : State T) :
    expectPoints total validators s = (thresholdOf T.build total validators, s) := by
  unfold expectPoints thresholdOf
  by_cases hzero : validators % 2 ^ 32 = 0
  · rw [if_pos hzero, hzero]
    rfl
  · have hensure : ensure (validators % 2 ^ 32 != 0) Fault.abort s = (.ok (), s) :=
      ensure_eq_ok.mpr ⟨bne_iff_ne.mpr hzero, rfl⟩
    rw [if_neg hzero, bind_of_ok hensure]
    cases T.build.mul 32 (total / (validators % 2 ^ 32)) 80 with
    | none => rfl
    | some points => rfl

/-- `get_exclude_validators`, of the stakers and the points of an era. -/
def excludeOf (build : Build) (validators : List AccountId) (rewards : EraRewardPoints AccountId) :
    Except Fault (List AccountId) :=
  if rewards.individual.entries.isEmpty then .ok validators
  else
    (thresholdOf build rewards.total validators.length).map fun expectPoints =>
      let qualified := rewards.individual.entries.filter fun p => expectPoints ≤ p.2
      validators.filter fun v => !(qualified.map Sigma.fst).contains v

theorem getExcludeValidators_apply (index : Nat) (s : State T) :
    getExcludeValidators index s
      = (excludeOf T.build (s.erasStakers index).keys (s.erasRewardPoints index), s) := by
  unfold getExcludeValidators excludeOf
  rw [load_bind, load_bind]
  split
  · rfl
  · rw [bind_apply, expectPoints_apply]
    cases thresholdOf T.build (s.erasRewardPoints index).total (s.erasStakers index).keys.length with
    | error e => rfl
    | ok points => rfl

omit [DecidableEq AccountId] in
theorem thresholdOf_cases (build : Build) (total validators : Nat) :
    (∃ points, thresholdOf build total validators = .ok points) ∨
      thresholdOf build total validators = .error .abort := by
  unfold thresholdOf
  split
  · exact Or.inr rfl
  · split
    · exact Or.inr rfl
    · exact Or.inl ⟨_, rfl⟩

theorem excludeOf_cases (build : Build) (validators : List AccountId)
    (rewards : EraRewardPoints AccountId) :
    (∃ excluded, excludeOf build validators rewards = .ok excluded) ∨
      excludeOf build validators rewards = .error .abort := by
  unfold excludeOf
  split
  · exact Or.inl ⟨_, rfl⟩
  · rcases thresholdOf_cases build rewards.total validators.length with ⟨points, h⟩ | h
    · rw [h]
      exact Or.inl ⟨_, rfl⟩
    · rw [h]
      exact Or.inr rfl

/-- The validators that are excluded, when the threshold can be computed. -/
def State.excludeValidators (s : State T) (index : Nat) : List AccountId :=
  match excludeOf T.build (s.erasStakers index).keys (s.erasRewardPoints index) with
  | .ok excluded => excluded
  | .error _ => []

/-- The message that `end_era` composes. -/
def State.eraPayoutMessage (s : State T) (activeEra : ActiveEraInfo) : EraPayoutPayload :=
  ⟨activeEra.setId, (s.excludeValidators activeEra.index).map fun v => hexFormat (T.encode v),
    s.offenders.entries.map (offenderOf T.encode)⟩

end

/-! ## Where a payout stops -/

/-- The reward is set. -/
def State.rewarded (s : State T) (activeEra : ActiveEraInfo) : State T :=
  { s with
    erasValidatorReward :=
      Function.update s.erasValidatorReward activeEra.index (some s.eraPayout) }

/-- And the offenders are drained. -/
def State.drained (s : State T) (activeEra : ActiveEraInfo) : State T :=
  { s.rewarded activeEra with offenders := ∅ }

/-- And the payout is minted. -/
def State.minted (s : State T) (activeEra : ActiveEraInfo) : State T :=
  { s.drained activeEra with
    balances := T.currency.depositCreating T.accountId s.eraPayout s.balances }

variable [DecidableEq AccountId]

/-- The payout of an era: how it ends, and what it leaves. -/
inductive Payout (activeEra : ActiveEraInfo) (s : State T) : Except Fault Unit → State T → Prop where
  /-- An operator overflows, or there is no validator to divide by. -/
  | aborted (s' : State T) : Payout activeEra s (.error .abort) s'
  | amountOverflow (hamount : 2 ^ T.balanceBits ≤ s.eraPayout) :
    Payout activeEra s (.error (lposError .amountOverflow)) (s.drained activeEra)
  | borshSerializeFailed (hamount : s.eraPayout < 2 ^ T.balanceBits)
    (hmessage : EraPayoutPayload.codec.valid (s.eraPayoutMessage activeEra) = false) :
    Payout activeEra s (.error (lposError .borshSerializeFailed)) (s.minted activeEra)
  | rejected (hamount : s.eraPayout < 2 ^ T.balanceBits)
    (hmessage : EraPayoutPayload.codec.valid (s.eraPayoutMessage activeEra) = true)
    {e : DispatchError} {messages : T.Messages}
    (hsubmit : T.upwardMessages.submit none .eraPayout
      (EraPayoutPayload.codec.encode (s.eraPayoutMessage activeEra)) s.messages
        = (.error e, messages)) :
    Payout activeEra s (.ok ()) { s.minted activeEra with
      messages
      events := s.events ++ [.eraPayoutFailed activeEra.setId] }
  | paid (hamount : s.eraPayout < 2 ^ T.balanceBits)
    (hmessage : EraPayoutPayload.codec.valid (s.eraPayoutMessage activeEra) = true)
    {nonce : Nat} {messages : T.Messages}
    (hsubmit : T.upwardMessages.submit none .eraPayout
      (EraPayoutPayload.codec.encode (s.eraPayoutMessage activeEra)) s.messages
        = (.ok nonce, messages)) :
    Payout activeEra s (.ok ()) { s.minted activeEra with
      messages
      events := s.events ++
        [.eraPayout activeEra.setId (s.excludeValidators activeEra.index)] }

/-- An amount that is no balance moves nothing. Any other is minted, and a message may be submitted. -/
theorem Payout.moved {activeEra : ActiveEraInfo} {s s' : State T} {r : Except Fault Unit}
    (h : Payout activeEra s r s') (hr : r ≠ .error .abort) :
    (2 ^ T.balanceBits ≤ s.eraPayout ∧ s'.balances = s.balances ∧ s'.messages = s.messages) ∨
      s.eraPayout < 2 ^ T.balanceBits ∧
        s'.balances = T.currency.depositCreating T.accountId s.eraPayout s.balances ∧
        (s'.messages = s.messages ∨ ∃ payload,
          s'.messages = (T.upwardMessages.submit none .eraPayout payload s.messages).2) := by
  cases h with
  | aborted _ => exact absurd rfl hr
  | amountOverflow hamount => exact Or.inl ⟨hamount, rfl, rfl⟩
  | borshSerializeFailed hamount _ => exact Or.inr ⟨hamount, rfl, Or.inl rfl⟩
  | rejected hamount _ hsubmit | paid hamount _ hsubmit =>
    exact Or.inr ⟨hamount, rfl, Or.inr ⟨_, (congrArg Prod.snd hsubmit).symm⟩⟩

omit [DecidableEq AccountId] in
/-- What is left of a payout once the message is composed. -/
def sendPayout (activeEra : ActiveEraInfo) (validatorPayout : Nat)
    (excludedValidators : List AccountId) (message : EraPayoutPayload) :
    Dispatch Fault (State T) Unit := do
  let amount ← okOr (checkedInto T.balanceBits validatorPayout) (lposError .amountOverflow)
  store fun s => { s with balances := T.currency.depositCreating T.accountId amount s.balances }
  let payload ← okOr (EraPayoutPayload.codec.tryToVec message) (lposError .borshSerializeFailed)
  let res ← attempt (onMessages (T.upwardMessages.submit none .eraPayout payload))
  match res with
  | .ok _ => depositEvent (.eraPayout activeEra.setId excludedValidators)
  | .error _ => depositEvent (.eraPayoutFailed activeEra.setId)

omit [DecidableEq AccountId] in
theorem onMessages_apply {α : Type} (x : Dispatch DispatchError T.Messages α) (s : State T) :
    (onMessages x : Dispatch DispatchError (State T) α) s
      = ((x s.messages).1, { s with messages := (x s.messages).2 }) := rfl

omit [DecidableEq AccountId] in
theorem checkedInto_of_le {w n : Nat} (h : 2 ^ w ≤ n) : checkedInto w n = none :=
  if_neg (Nat.not_lt.mpr h)

/-- The payout aborts when the time runs backwards or no threshold can be computed. -/
theorem payoutEra_apply (ctx : Context AccountId) (activeEra : ActiveEraInfo) (start : Nat)
    (s : State T) :
    ((T.build.sub 64 ctx.nowAsMillisU64 start = none ∨
        excludeOf T.build (s.erasStakers activeEra.index).keys
          (s.erasRewardPoints activeEra.index) = .error .abort) ∧
        ∃ s', payoutEra ctx activeEra start s = (.error .abort, s')) ∨
      ((∃ duration, T.build.sub 64 ctx.nowAsMillisU64 start = some duration) ∧
        (∃ excluded, excludeOf T.build (s.erasStakers activeEra.index).keys
          (s.erasRewardPoints activeEra.index) = .ok excluded) ∧
        payoutEra ctx activeEra start s
          = sendPayout activeEra s.eraPayout (s.excludeValidators activeEra.index)
              (s.eraPayoutMessage activeEra) (s.drained activeEra)) := by
  cases hsub : T.build.sub 64 ctx.nowAsMillisU64 start with
  | none =>
    refine Or.inl ⟨Or.inl rfl, s, ?_⟩
    unfold payoutEra
    rw [hsub]
    rfl
  | some duration =>
    have hrun : payoutEra ctx activeEra start s = (getExcludeValidators activeEra.index >>=
        fun excludedValidators => drainOffenders >>= fun offenders =>
          sendPayout activeEra s.eraPayout excludedValidators
            ⟨activeEra.setId, excludedValidators.map fun v => hexFormat (T.encode v), offenders⟩)
        (s.rewarded activeEra) := by
      unfold payoutEra
      rw [hsub]
      rfl
    have hexclude := getExcludeValidators_apply activeEra.index (s.rewarded activeEra)
    rw [hrun]
    rcases excludeOf_cases T.build (s.erasStakers activeEra.index).keys
      (s.erasRewardPoints activeEra.index) with ⟨excluded, hok⟩ | habort
    · refine Or.inr ⟨⟨_, rfl⟩, ⟨_, hok⟩, ?_⟩
      have hexcluded : s.excludeValidators activeEra.index = excluded := by
        unfold State.excludeValidators
        rw [hok]
      unfold State.eraPayoutMessage
      rw [hexcluded, bind_of_ok (hexclude.trans (congrArg (·, s.rewarded activeEra) hok))]
      rfl
    · exact Or.inl ⟨Or.inr habort, _,
        bind_of_error (hexclude.trans (congrArg (·, s.rewarded activeEra) habort))⟩

/-- **A payout stops in one of five ways.** -/
theorem payoutEra_payout (ctx : Context AccountId) (activeEra : ActiveEraInfo) (start : Nat)
    (s : State T) : Payout activeEra s (payoutEra ctx activeEra start s).1
      (payoutEra ctx activeEra start s).2 := by
  rcases payoutEra_apply ctx activeEra start s with ⟨-, s', habort⟩ | ⟨-, -, hsend⟩
  · rw [habort]
    exact .aborted s'
  rw [hsend]
  unfold sendPayout
  rcases Nat.lt_or_ge s.eraPayout (2 ^ T.balanceBits) with hamount | hamount
  · have hinto : checkedInto T.balanceBits s.eraPayout = some s.eraPayout := if_pos hamount
    have hminted : ({ s.drained activeEra with
        balances := T.currency.depositCreating T.accountId s.eraPayout
          (s.drained activeEra).balances } : State T) = s.minted activeEra := rfl
    rw [hinto, bind_of_ok (okOr_some _ _ _), store_bind, hminted]
    cases hvalid : EraPayoutPayload.codec.valid (s.eraPayoutMessage activeEra) with
    | false =>
      have hvec : EraPayoutPayload.codec.tryToVec (s.eraPayoutMessage activeEra) = none :=
        if_neg (by rw [hvalid]; decide)
      rw [hvec]
      exact .borshSerializeFailed hamount hvalid
    | true =>
      have hvec : EraPayoutPayload.codec.tryToVec (s.eraPayoutMessage activeEra)
          = some (EraPayoutPayload.codec.encode (s.eraPayoutMessage activeEra)) := if_pos hvalid
      rw [hvec, bind_of_ok (okOr_some _ _ _), attempt_bind]
      have hon := onMessages_apply (T.upwardMessages.submit none .eraPayout
        (EraPayoutPayload.codec.encode (s.eraPayoutMessage activeEra))) (s.minted activeEra)
      have hmessages : (s.minted activeEra).messages = s.messages := rfl
      rw [hmessages] at hon
      rw [hon]
      rcases hsubmit : T.upwardMessages.submit none .eraPayout
        (EraPayoutPayload.codec.encode (s.eraPayoutMessage activeEra)) s.messages with
        ⟨e | nonce, messages⟩
      · exact .rejected hamount hvalid hsubmit
      · exact .paid hamount hvalid hsubmit
  · rw [checkedInto_of_le hamount]
    exact .amountOverflow hamount

/-! ## The hook -/

omit [DecidableEq AccountId] in
/-- The era is to be paid: the appchain is active, the payout is not 0, the era has seen a block and
it was not paid before. -/
def State.Pays (s : State T) (ctx : Context AccountId) (activeEra : ActiveEraInfo) : Prop :=
  ctx.appchain.isActivated = true ∧ s.eraPayout ≠ 0 ∧ activeEra.start.isSome = true ∧
    s.erasValidatorReward activeEra.index = none

instance (s : State T) (ctx : Context AccountId) (activeEra : ActiveEraInfo) :
    Decidable (s.Pays ctx activeEra) :=
  inferInstanceAs (Decidable (_ ∧ _))

theorem endEra_of_not_pays {ctx : Context AccountId} {activeEra : ActiveEraInfo} {s : State T}
    (h : ¬ s.Pays ctx activeEra) (sessionIndex : Nat) :
    endEra ctx activeEra sessionIndex s = (.ok (), s) := by
  unfold State.Pays at h
  unfold endEra
  rw [load_bind]
  cases hactivated : ctx.appchain.isActivated with
  | false => rfl
  | true =>
    by_cases hzero : s.eraPayout = 0
    · rw [hzero]
      rfl
    have hguard : (!true || s.eraPayout == 0) = false := by simp [hzero]
    rw [hguard]
    cases hstart : activeEra.start with
    | none => rfl
    | some start =>
      cases hreward : s.erasValidatorReward activeEra.index with
      | none => exact absurd ⟨hactivated, hzero, by rw [hstart]; rfl, hreward⟩ h
      | some reward =>
        show (load (fun s : State T => s.erasValidatorReward activeEra.index) >>= _) s = _
        rw [load_bind, hreward]
        rfl

/-- An era that is to be paid is paid from its start on. -/
theorem endEra_of_pays {ctx : Context AccountId} {activeEra : ActiveEraInfo} {s : State T}
    (h : s.Pays ctx activeEra) (sessionIndex : Nat) :
    ∃ start, activeEra.start = some start ∧
      endEra ctx activeEra sessionIndex s = payoutEra ctx activeEra start s := by
  obtain ⟨hactivated, hzero, hstart, hreward⟩ := h
  obtain ⟨start, hstart⟩ := Option.isSome_iff_exists.mp hstart
  have hguard : (!ctx.appchain.isActivated || s.eraPayout == 0) = false := by
    simp [hactivated, hzero]
  refine ⟨start, hstart, ?_⟩
  unfold endEra
  rw [load_bind, hguard, hstart]
  show (load (fun s : State T => s.erasValidatorReward activeEra.index) >>= _) s = _
  rw [load_bind, hreward]
  rfl

/-- **What `end_era` does to an era that is to be paid.** -/
theorem endEra_payout {ctx : Context AccountId} {activeEra : ActiveEraInfo} {s : State T}
    (h : s.Pays ctx activeEra) (sessionIndex : Nat) :
    Payout activeEra s (endEra ctx activeEra sessionIndex s).1
      (endEra ctx activeEra sessionIndex s).2 := by
  obtain ⟨start, -, hrun⟩ := endEra_of_pays h sessionIndex
  rw [hrun]
  exact payoutEra_payout ctx activeEra start s

omit [DecidableEq AccountId] in
/-- The era to be ended is found without a write, unless an index overflows. -/
theorem endingEra_cases (sessionIndex : Nat) (s : State T) :
    (∃ ending, endingEra sessionIndex s = (.ok ending, s)) ∨
      endingEra sessionIndex s = (.error .abort, s) := by
  unfold endingEra
  rw [load_bind]
  cases s.activeEra with
  | none => exact Or.inl ⟨none, rfl⟩
  | some activeEra =>
    rcases operator_cases (T.build.add 32 activeEra.index 1) s with ⟨next, hnext⟩ | habort
    · dsimp only
      rw [bind_of_ok hnext, load_bind]
      cases s.erasStartSessionIndex next with
      | none => exact Or.inl ⟨none, rfl⟩
      | some start =>
        rcases operator_cases (T.build.add 32 sessionIndex 1) s with ⟨session, hsession⟩ | habort
        · exact Or.inl ⟨_, bind_of_ok hsession⟩
        · exact Or.inr (bind_of_error habort)
    · exact Or.inr (bind_of_error habort)

omit [DecidableEq AccountId] in
/-- The era that is ended is the active one, and the next era starts with the next session. -/
theorem endingEra_some {sessionIndex : Nat} {s s' : State T} {activeEra : ActiveEraInfo}
    (h : endingEra sessionIndex s = (.ok (some activeEra), s')) :
    s.activeEra = some activeEra ∧ ∃ next session,
      T.build.add 32 activeEra.index 1 = some next ∧ T.build.add 32 sessionIndex 1 = some session ∧
        s.erasStartSessionIndex next = some session := by
  unfold endingEra at h
  rw [load_bind] at h
  cases hactive : s.activeEra with
  | none =>
    rw [hactive] at h
    cases h
  | some found =>
    rw [hactive] at h
    dsimp only at h
    rw [bind_eq_ok] at h
    obtain ⟨next, t, hnext, h⟩ := h
    obtain ⟨hadd, rfl⟩ := operator_eq_ok.mp hnext
    rw [load_bind] at h
    cases hstart : t.erasStartSessionIndex next with
    | none =>
      rw [hstart] at h
      cases h
    | some start =>
      rw [hstart] at h
      dsimp only at h
      rw [bind_eq_ok] at h
      obtain ⟨session, t', hsession, h⟩ := h
      obtain ⟨hadd', rfl⟩ := operator_eq_ok.mp hsession
      obtain ⟨hfound, -⟩ := pure_eq_ok.mp h
      by_cases heq : start = session
      · rw [if_pos heq, Option.some.injEq] at hfound
        exact ⟨by rw [hfound], next, session, hfound ▸ hadd, hadd', heq ▸ hstart⟩
      · simp [heq] at hfound

/-- How the end of a session goes: it aborts, it pays nothing, or it pays the era it ends. -/
inductive SessionEnd (ctx : Context AccountId) (sessionIndex : Nat) (s : State T) :
    Except Fault Unit → State T → Prop where
  | aborted (s' : State T) : SessionEnd ctx sessionIndex s (.error .abort) s'
  | unpaid (h : ∀ activeEra, endingEra sessionIndex s = (.ok (some activeEra), s) →
      ¬ s.Pays ctx activeEra) : SessionEnd ctx sessionIndex s (.ok ()) s
  | payout {activeEra : ActiveEraInfo} {r : Except Fault Unit} {s' : State T}
      (hending : endingEra sessionIndex s = (.ok (some activeEra), s))
      (hpays : s.Pays ctx activeEra) (hpayout : Payout activeEra s r s') (hr : r ≠ .error .abort) :
    SessionEnd ctx sessionIndex s (.ok ()) s'

/-- **The end of a session is one of the three.** -/
theorem endSession_end (ctx : Context AccountId) (sessionIndex : Nat) (s : State T) :
    SessionEnd ctx sessionIndex s (SessionManager.endSession ctx sessionIndex s).1
      (SessionManager.endSession ctx sessionIndex s).2 := by
  rw [SessionManager.endSession_apply]
  rcases endingEra_cases sessionIndex s with ⟨ending, hending⟩ | habort
  · cases ending with
    | none =>
      have hend : Lpos.endSession ctx sessionIndex s = (.ok (), s) := bind_of_ok hending
      rw [hend]
      refine .unpaid fun activeEra h => ?_
      rw [hending] at h
      cases h
    | some activeEra =>
      have hend : Lpos.endSession ctx sessionIndex s = endEra ctx activeEra sessionIndex s :=
        bind_of_ok hending
      rw [hend]
      by_cases hpays : s.Pays ctx activeEra
      · have hpayout := endEra_payout hpays sessionIndex
        generalize endEra ctx activeEra sessionIndex s = out at hpayout ⊢
        obtain ⟨(e | _) | _, s'⟩ := out
        · exact .payout (r := .error (.error e)) hending hpays hpayout (by simp)
        · exact .aborted s'
        · exact .payout (r := .ok ()) hending hpays hpayout (by simp)
      · rw [endEra_of_not_pays hpays]
        refine .unpaid fun activeEra' h => ?_
        rw [hending] at h
        cases h
        exact hpays
  · have hend : Lpos.endSession ctx sessionIndex s = (.error .abort, s) := bind_of_error habort
    rw [hend]
    exact .aborted s

/-- A session that ends in an inactive appchain changes nothing. -/
theorem endSession_of_inactive {ctx : Context AccountId} (h : ctx.appchain.isActivated = false)
    (sessionIndex : Nat) (s : State T) :
    (SessionManager.endSession ctx sessionIndex s).2 = s := by
  have hend : (Lpos.endSession ctx sessionIndex s).2 = s := by
    unfold Lpos.endSession
    rcases endingEra_cases sessionIndex s with ⟨_ | activeEra, hending⟩ | habort
    · rw [bind_of_ok hending]
      rfl
    · rw [bind_of_ok hending]
      have hunpaid : ¬ s.Pays ctx activeEra := by
        rintro ⟨hactive, -⟩
        rw [h] at hactive
        cases hactive
      exact congrArg Prod.snd (endEra_of_not_pays hunpaid sessionIndex)
    · rw [bind_of_error habort]
  rw [SessionManager.endSession_apply, logged_state, hend]

/-! ## A rotation -/

/-- Looking for the era that ends changes nothing. -/
theorem endSession_of_ending {ctx : Context AccountId} {session : Nat} {s s' : State T}
    {os : List (Observed AccountId)} (h : ending ctx session s = (.ok os, s')) :
    SessionManager.endSession ctx session s = (.ok (), s') := by
  unfold ending at h
  rw [bind_eq_ok] at h
  obtain ⟨active, t, hfound, h⟩ := h
  obtain rfl : t = s := by
    rcases endingEra_cases session s with ⟨_, hrun⟩ | hrun
    · exact (Prod.mk.inj (hrun.symm.trans hfound)).2.symm
    · cases (Prod.mk.inj (hrun.symm.trans hfound)).1
  rw [bind_eq_ok] at h
  obtain ⟨_, t', hend, hpure⟩ := h
  obtain ⟨-, rfl⟩ := pure_eq_ok.mp hpure
  exact hend

/-- The session ends; what follows is seen only by those who read the active era, the bonded eras,
the records or the plan of an era among the messages. -/
theorem rotateSession_end {τ : Type} {f : State T → τ} (hf : Apart f) {ctx : Context AccountId}
    (hstarted : ∀ (s : State T) activeEra bondedEras historical,
      f { s with activeEra, bondedEras, historical } = f s)
    (hsubmit : ctx.appchain.isActivated = true → ∀ payload (s : State T), f { s with
      messages := (T.upwardMessages.submit none .planNewEra payload s.messages).2 } = f s)
    {session : Nat} {s s' : State T} {os : List (Observed AccountId)}
    (h : rotateSession ctx session s = (.ok os, s')) :
    ∃ s₁, SessionEnd ctx session s (.ok ()) s₁ ∧ f s' = f s₁ := by
  obtain ⟨os₁, os₂, s₁, s₂, hending, hstart, hplan, -⟩ := rotateSession_eq_ok.mp h
  have hkept₁ := startSession_frame hf ctx hstarted (session + 1) s₁
  have hkept₂ := planning_frame hf ctx hsubmit (session + 2) s₂
  rw [hstart] at hkept₁
  rw [hplan] at hkept₂
  have hend := endSession_end ctx session s
  rw [endSession_of_ending hending] at hend
  exact ⟨s₁, hend, hkept₂.trans hkept₁⟩

end OctopusPallets.Lpos
