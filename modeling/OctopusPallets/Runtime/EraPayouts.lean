import OctopusPallets.Lpos.Offences
import OctopusPallets.Runtime.Shared

/-!
# Whether the end of an era is all or nothing

`end_era` sets the reward and drains the offenders before it knows whether the amount is a balance,
and mints the payout before it knows whether the message can be written and queued. What was done
before a failure stays. So the end of an era is all or nothing exactly where nothing fails, and the
offences that a failed payout has drained are lost.

* `allOrNothing_iff` — one end of an era
* `State.step_reports` — a step reports at most one payout, as it was composed
* `offences_kept` — a run in which no payout fails
-/

namespace OctopusPallets.Runtime

open Infra Infra.Dispatch Infra.FixedWidth

variable {AccountId : Type} {R : Config AccountId}

/-- The payouts that were reported to the mainchain. -/
def eraPayouts {cfg : UpwardMessages.Config} (messages : UpwardMessages.State cfg) :
    List EraPayoutPayload :=
  messages.sent .eraPayout EraPayoutPayload.codec

/-! ## One end of an era -/

section

variable (balanceOf : R.Balances → AccountId → Nat)

/-- All four changes: the offenders are moved into an accepted message, the reward is set and the
payout is minted. -/
structure PaidOut (activeEra : Lpos.ActiveEraInfo) (l l' : Lpos.State R.lpos) : Prop where
  sent : ∃ payload, eraPayouts l'.messages = eraPayouts l.messages ++ [payload] ∧
    payload.offenders = l.offenders.entries.map (Lpos.offenderOf R.encode)
  offenders : l'.offenders = ∅
  reward : l'.erasValidatorReward activeEra.index = some l.eraPayout
  minted : balanceOf l'.balances R.lposAccount = balanceOf l.balances R.lposAccount + l.eraPayout

/-- None of the four. -/
structure NotPaidOut (activeEra : Lpos.ActiveEraInfo) (l l' : Lpos.State R.lpos) : Prop where
  sent : eraPayouts l'.messages = eraPayouts l.messages
  offenders : l'.offenders = l.offenders
  reward : l'.erasValidatorReward activeEra.index = l.erasValidatorReward activeEra.index
  minted : balanceOf l'.balances R.lposAccount = balanceOf l.balances R.lposAccount

def AllOrNothing (activeEra : Lpos.ActiveEraInfo) (l l' : Lpos.State R.lpos) : Prop :=
  PaidOut balanceOf activeEra l l' ∨ NotPaidOut balanceOf activeEra l l'

end

variable [DecidableEq AccountId]

/-- Nothing stops the payout: the amount is a balance that the account can take, and the message can
be written and queued. -/
structure PaysThrough (deposits : R.Balances → AccountId → Nat → Bool) (l : Lpos.State R.lpos)
    (activeEra : Lpos.ActiveEraInfo) : Prop where
  amount : l.eraPayout < 2 ^ R.balanceBits
  taken : deposits l.balances R.lposAccount l.eraPayout = true
  valid : EraPayoutPayload.codec.valid (l.eraPayoutMessage activeEra) = true
  room : UpwardMessages.State.HasRoom l.messages
    (EraPayoutPayload.codec.encode (l.eraPayoutMessage activeEra))
  nonce : UpwardMessages.State.nonce l.messages + 1 < 2 ^ 64

variable {balanceOf : R.Balances → AccountId → Nat}
  {deposits : R.Balances → AccountId → Nat → Bool} {activeEra : Lpos.ActiveEraInfo}
  {l l' : Lpos.State R.lpos}

omit [DecidableEq AccountId] in
/-- A reward that is set without a message is neither all nor nothing. -/
theorem not_allOrNothing (hreward : l.erasValidatorReward activeEra.index = none)
    (hset : l'.erasValidatorReward activeEra.index = some l.eraPayout)
    (hsent : eraPayouts l'.messages = eraPayouts l.messages) :
    ¬ AllOrNothing balanceOf activeEra l l' := by
  rintro (hall | hnothing)
  · obtain ⟨payload, hpayload, -⟩ := hall.sent
    rw [hsent] at hpayload
    simpa using congrArg List.length hpayload
  · have hnone := hnothing.reward
    rw [hset, hreward] at hnone
    cases hnone

omit [DecidableEq AccountId] in
theorem rewarded_reward (l : Lpos.State R.lpos) (activeEra : Lpos.ActiveEraInfo) :
    (l.rewarded activeEra).erasValidatorReward activeEra.index = some l.eraPayout :=
  Function.update_self ..

/-- **What a payout does is all or nothing exactly when nothing stops it.** -/
theorem payout_allOrNothing_iff (hlaws : CurrencyLaws R.currency balanceOf deposits)
    {ctx : Lpos.Context AccountId} (hpays : l.Pays ctx activeEra) {r : Except Fault Unit}
    (hpayout : Lpos.Payout activeEra l r l') (hr : r ≠ .error .abort) :
    AllOrNothing balanceOf activeEra l l' ↔ PaysThrough deposits l activeEra := by
  obtain ⟨-, hpositive, -, hreward⟩ := hpays
  cases hpayout with
  | aborted _ => exact absurd rfl hr
  | amountOverflow hamount =>
    refine iff_of_false (not_allOrNothing hreward (rewarded_reward l activeEra) rfl) fun h => ?_
    exact absurd h.amount (Nat.not_lt.mpr hamount)
  | borshSerializeFailed _ hvalid =>
    refine iff_of_false (not_allOrNothing hreward (rewarded_reward l activeEra) rfl) fun h => ?_
    rw [h.valid] at hvalid
    cases hvalid
  | @rejected _ hvalid e messages hsubmit =>
    have hsubmit : UpwardMessages.submit (none : Option AccountId) .eraPayout
      (EraPayoutPayload.codec.encode (l.eraPayoutMessage activeEra)) l.messages
        = (.error e, messages) := hsubmit
    refine iff_of_false (not_allOrNothing hreward (rewarded_reward l activeEra) ?_) fun h => ?_
    · exact congrArg eraPayouts (UpwardMessages.submit_error hsubmit)
    · obtain ⟨nonce, hok⟩ := (UpwardMessages.submit_system_ok_iff (none : Option AccountId)
        (Or.inr rfl) _).mpr ⟨h.room, h.nonce⟩
      rw [hsubmit] at hok
      cases hok
  | @paid hamount hvalid nonce messages hsubmit =>
    have hsubmit : UpwardMessages.submit (none : Option AccountId) .eraPayout
      (EraPayoutPayload.codec.encode (l.eraPayoutMessage activeEra)) l.messages
        = (.ok nonce, messages) := hsubmit
    have hsent := UpwardMessages.submit_sent none hvalid hsubmit
    have hroom := (UpwardMessages.submit_system_ok_iff (none : Option AccountId) (Or.inr rfl) _).mp
      ⟨nonce, congrArg Prod.fst hsubmit⟩
    have hminted := hlaws.deposited l.balances R.lposAccount l.eraPayout
    constructor
    · rintro (hall | hnothing)
      · refine ⟨hamount, ?_, hvalid, hroom.1, hroom.2⟩
        by_contra hnot
        rw [if_neg hnot] at hminted
        have hsame := hminted.symm.trans hall.minted
        omega
      · cases (rewarded_reward l activeEra).symm.trans (hnothing.reward.trans hreward)
    · intro h
      rw [if_pos h.taken] at hminted
      exact Or.inl ⟨⟨_, hsent, rfl⟩, rfl, rewarded_reward l activeEra, hminted⟩

/-- **The end of a session that ends an era is all or nothing exactly when the era is not paid or
nothing stops its payout.** -/
theorem allOrNothing_iff (hlaws : CurrencyLaws R.currency balanceOf deposits)
    {ctx : Lpos.Context AccountId} {session : Nat}
    (hending : Lpos.endingEra session l = (.ok (some activeEra), l))
    (hend : Lpos.SessionManager.endSession ctx session l = (.ok (), l')) :
    AllOrNothing balanceOf activeEra l l' ↔
      (l.Pays ctx activeEra → PaysThrough deposits l activeEra) := by
  have hcases := Lpos.endSession_end ctx session l
  rw [hend] at hcases
  cases hcases with
  | unpaid hunpaid =>
    have hpays := hunpaid activeEra hending
    exact iff_of_true (Or.inr ⟨rfl, rfl, rfl, rfl⟩) fun h => absurd h hpays
  | payout hending' hpays hpayout hr =>
    obtain rfl : _ = activeEra := Option.some.inj
      (Except.ok.inj (Prod.mk.inj (hending'.symm.trans hending)).1)
    rw [payout_allOrNothing_iff hlaws hpays hpayout hr]
    exact ⟨fun h _ => h, fun h => h hpays⟩

/-! ## A step -/

/-- The offences that a step counts. -/
def State.counted (s : State R) : Step R → List (Lpos.Kind × AccountId)
  | .reportOffence kind offenceSession offenders reported =>
    s.lposState.counted kind offenceSession offenders reported
  | _ => []

/-- No payout in this step is stopped, and no count wraps. -/
def Step.EndsWhole (deposits : R.Balances → AccountId → Nat → Bool) (s : State R) (i : Step R) :
    Prop :=
  match i with
  | .rotate => ∀ activeEra,
    Lpos.endingEra s.session s.lposState = (.ok (some activeEra), s.lposState) →
      s.lposState.Pays s.context activeEra → PaysThrough deposits s.lposState activeEra
  | .reportOffence _ _ _ _ =>
    R.build = .debug ∨ ∀ key, s.lposState.offencesOf key + (s.counted i).count key < 2 ^ 32
  | _ => True

/-- A rotation leaves the offenders alone, or moves them into a message. -/
theorem State.rotate_offenders (hlaws : CurrencyLaws R.currency balanceOf deposits) {s : State R}
    (h : Step.EndsWhole deposits s .rotate) :
    ((s.onChain (.rotate s.context)).lpos.offenders = s.lpos.offenders ∧
        eraPayouts (s.onChain (.rotate s.context)).messages = eraPayouts s.messages) ∨
      (s.onChain (.rotate s.context)).lpos.offenders = ∅ ∧
        ∃ payload, eraPayouts (s.onChain (.rotate s.context)).messages
            = eraPayouts s.messages ++ [payload] ∧
          payload.offenders = s.lpos.offenders.entries.map (Lpos.offenderOf R.encode) := by
  rcases s.rotate_cases with ⟨-, hsame⟩ | ⟨os, l, hrun, hrotate⟩
  · rw [hsame]
    exact Or.inl ⟨rfl, rfl⟩
  rw [hrotate]
  let f : Lpos.State R.lpos → _ := fun l => (l.offenders, eraPayouts l.messages)
  have hplan : ∀ payload (l : Lpos.State R.lpos), f { l with
      messages := (R.lpos.upwardMessages.submit none .planNewEra payload l.messages).2 } = f l := by
    intro payload l
    exact congrArg (fun sent => (l.offenders, sent)) (UpwardMessages.submit_sent_of_ne (by decide)
      EraPayoutPayload.codec none payload l.messages)
  obtain ⟨l₁, hend, hf⟩ := Lpos.rotateSession_end (f := f) (fun _ _ => rfl)
    (fun _ _ _ _ => rfl) (fun _ => hplan) hrun
  obtain ⟨hoffenders, hsent⟩ := Prod.mk.inj hf
  show (l.offenders = s.lposState.offenders ∧ eraPayouts l.messages = eraPayouts s.messages) ∨
    l.offenders = ∅ ∧ ∃ payload, eraPayouts l.messages = eraPayouts s.messages ++ [payload] ∧
      payload.offenders = s.lposState.offenders.entries.map (Lpos.offenderOf R.encode)
  rw [hoffenders, hsent]
  cases hend with
  | unpaid _ => exact Or.inl ⟨rfl, rfl⟩
  | payout hending hpays hpayout hr =>
    rcases (payout_allOrNothing_iff hlaws hpays hpayout hr).mpr (h _ hending hpays) with
      hall | hnothing
    · exact Or.inr ⟨hall.offenders, hall.sent⟩
    · exact Or.inl ⟨hnothing.offenders, hnothing.sent⟩

/-- Besides rotations, no step sends a message of the runtime. -/
theorem State.step_sent {α : Type} (s : State R) {i : Step R} (hi : i ≠ .rotate)
    {payloadType : PayloadType} (hsystem : UpwardMessages.IsSystem payloadType) (codec : Codec α) :
    (s.step i).1.messages.sent payloadType codec = s.messages.sent payloadType codec := by
  let sent : UpwardMessages.State R.messages → List α := fun m => m.sent payloadType codec
  show sent (s.step i).1.messages = sent s.messages
  have hbridge : ∀ s' : State R, s'.appchain.bridge = s.appchain.bridge →
      sent s'.messages = sent s.messages := by
    intro s' hs'
    exact congrArg (fun b : Bridge.State R.bridge => sent b.messages) hs'
  cases i with
  | rotate => exact absurd rfl hi
  | fees _ | elsewhere _ _ _ _ => rfl
  | timestamp _ | force _ _ | keys _ | onFinalize | noteAuthor _ | reportOffence _ _ _ _ | lpos _ _ =>
    exact hbridge _ (s.step_bridge trivial)
  | onInitialize now =>
    show sent (s.onInitialize now).messages = _
    obtain ⟨messages, haccepted, hrun⟩ := s.onInitialize_eq now
    rw [hrun]
    exact UpwardMessages.sent_of_accepted haccepted _ _
  | vote keyData o =>
    rcases s.vote_bridge keyData o with ⟨-, hsame⟩ | ⟨-, hcalled⟩
    · exact hbridge _ hsame
    · show sent (s.vote keyData o).1.appchain.bridge.messages = _
      rw [hcalled, bridgeCall_messages]
      rfl
  | bridge origin call =>
    show sent (settle (call.dispatch s.appchain.appchainInterface origin)
      s.appchain.bridge).messages = sent s.appchain.bridge.messages
    rcases settle_cases s.appchain.appchainInterface origin call s.appchain.bridge with
      hsame | ⟨sender, -, -, hout⟩ | ⟨-, hroot⟩
    · rw [hsame]
    · obtain ⟨sentType, payload, htype, sequence, hsubmit⟩ := outbound_messages hout
      have hne : sentType ≠ payloadType := by
        rcases hsystem with rfl | rfl <;> rcases htype with rfl | rfl | rfl <;> decide
      have hsent := UpwardMessages.submit_sent_of_ne hne codec (some sender) payload
        s.appchain.bridge.messages
      rwa [show UpwardMessages.submit (some sender) sentType payload _ = _ from hsubmit] at hsent
    · rw [hroot, root_messages]

/-- Besides rotations, no step reports a payout. -/
theorem State.step_eraPayouts (s : State R) {i : Step R} (hi : i ≠ .rotate) :
    eraPayouts (s.step i).1.messages = eraPayouts s.messages :=
  s.step_sent hi (Or.inr rfl) EraPayoutPayload.codec

/-- **A rotation reports at most one payout, which is that of the active era.** -/
theorem State.rotate_eraPayouts (s : State R) :
    eraPayouts (s.onChain (.rotate s.context)).messages = eraPayouts s.messages ∨
      ∃ activeEra, s.lpos.activeEra = some activeEra ∧
        eraPayouts (s.onChain (.rotate s.context)).messages
          = eraPayouts s.messages ++ [s.lposState.eraPayoutMessage activeEra] := by
  rcases s.rotate_cases with ⟨-, hsame⟩ | ⟨os, l, hrun, hrotate⟩
  · exact Or.inl (congrArg (fun s => eraPayouts (State.messages s)) hsame)
  rw [hrotate]
  have hplan : ∀ payload (l : Lpos.State R.lpos), eraPayouts
      (R.lpos.upwardMessages.submit none .planNewEra payload l.messages).2
        = eraPayouts l.messages := fun payload l =>
    UpwardMessages.submit_sent_of_ne (by decide) EraPayoutPayload.codec (none : Option AccountId)
      payload l.messages
  obtain ⟨l₁, hend, hsent⟩ := Lpos.rotateSession_end
    (f := fun l : Lpos.State R.lpos => eraPayouts l.messages) (fun _ _ => rfl)
    (fun _ _ _ _ => rfl) (fun _ => hplan) hrun
  show eraPayouts l.messages = _ ∨ ∃ activeEra, _ ∧ eraPayouts l.messages = _
  rw [hsent]
  cases hend with
  | unpaid _ => exact Or.inl rfl
  | payout hending hpays hpayout hr =>
    cases hpayout with
    | aborted _ => exact absurd rfl hr
    | amountOverflow _ | borshSerializeFailed _ _ => exact Or.inl rfl
    | @rejected _ _ e messages hsubmit =>
      have hsubmit : UpwardMessages.submit (none : Option AccountId) .eraPayout
        _ s.messages = (.error e, messages) := hsubmit
      exact Or.inl (congrArg eraPayouts (UpwardMessages.submit_error hsubmit))
    | @paid _ hvalid nonce messages hsubmit =>
      have hsubmit : UpwardMessages.submit (none : Option AccountId) .eraPayout
        _ s.messages = (.ok nonce, messages) := hsubmit
      exact Or.inr ⟨_, (Lpos.endingEra_some hending).1, UpwardMessages.submit_sent none hvalid hsubmit⟩

/-- A step reports at most one payout, which is that of the active era. -/
theorem State.step_reports (s : State R) (i : Step R) :
    eraPayouts (s.step i).1.messages = eraPayouts s.messages ∨
      ∃ activeEra, s.lpos.activeEra = some activeEra ∧
        eraPayouts (s.step i).1.messages
          = eraPayouts s.messages ++ [s.lposState.eraPayoutMessage activeEra] := by
  by_cases hrotate : i = .rotate
  · subst hrotate
    exact s.rotate_eraPayouts
  · exact Or.inl (s.step_eraPayouts hrotate)

/-- Besides rotations, a step adds to the counts what it counts. -/
theorem State.step_offences (s : State R) {i : Step R} (hi : i ≠ .rotate)
    (h : i.EndsWhole deposits s) (key : Lpos.Kind × AccountId) :
    (s.step i).1.lposState.offencesOf key
      = s.lposState.offencesOf key + (s.counted i).count key := by
  have hkept : (i.chainCall s).Leaves (fun l : Lpos.State R.lpos => l.offenders) →
      (s.step i).1.lposState.offencesOf key = s.lposState.offencesOf key := fun hleaves =>
    congrArg (fun counts => (AList.lookup key counts).getD 0)
      (State.step_frame (fun _ _ => rfl) s hi hleaves)
  cases i with
  | rotate => exact absurd rfl hi
  | reportOffence kind offenceSession offenders reported =>
    exact s.chain.reportOffence_lookup kind offenceSession offenders reported h key
  | onFinalize => exact hkept fun _ _ _ _ => rfl
  | noteAuthor _ | lpos _ _ => exact hkept trivial
  | timestamp _ | onInitialize _ | vote _ _ | force _ _ | bridge _ _ | fees _ | keys _
  | elsewhere _ _ _ _ => exact hkept fun _ => rfl

/-! ## A run -/

/-- The offences of `key` in messages that were composed of these entries. -/
def carriedFor (key : Lpos.Kind × AccountId)
    (carried : List (List (Sigma fun _ : Lpos.Kind × AccountId => Nat))) : Nat :=
  (carried.map fun entries => (entries.lookupAll key).sum).sum

/-- The offences counted since `s₀` are stored, or carried by the payouts reported since then. -/
def OffencesKept (s₀ s : State R) (counted : List (Lpos.Kind × AccountId)) : Prop :=
  ∃ payouts carried, eraPayouts s.messages = eraPayouts s₀.messages ++ payouts ∧
    payouts.map EraPayoutPayload.offenders
      = carried.map (fun entries => entries.map (Lpos.offenderOf R.encode)) ∧
    ∀ key, s₀.lposState.offencesOf key + counted.count key
      = s.lposState.offencesOf key + carriedFor key carried

omit [DecidableEq AccountId] in
/-- A message names as many offences as the entries it was composed of. -/
theorem offences_carried {payouts : List EraPayoutPayload}
    {carried : List (List (Sigma fun _ : Lpos.Kind × AccountId => Nat))}
    (h : payouts.map EraPayoutPayload.offenders
      = carried.map fun entries => entries.map (Lpos.offenderOf R.encode)) :
    payouts.map (fun payload => payload.offenders.map Offender.offences)
      = carried.map fun entries => entries.map Sigma.snd := by
  have hcounts := congrArg (List.map (List.map Offender.offences)) h
  rw [List.map_map, List.map_map] at hcounts
  refine hcounts.trans (List.map_congr_left fun entries _ => ?_)
  exact List.map_map

theorem carriedFor_append_singleton (key : Lpos.Kind × AccountId)
    (carried : List (List (Sigma fun _ : Lpos.Kind × AccountId => Nat)))
    (counts : AList fun _ : Lpos.Kind × AccountId => Nat) :
    carriedFor key (carried ++ [counts.entries])
      = carriedFor key carried + (counts.lookup key).getD 0 := by
  have hvalues : (counts.entries.lookupAll key).sum = (counts.lookup key).getD 0 := by
    rw [List.lookupAll_eq_dlookup key counts.nodupKeys]
    show (counts.lookup key).toList.sum = _
    cases counts.lookup key <;> rfl
  unfold carriedFor
  rw [List.map_append, List.sum_append, ← hvalues]
  simp

/-- The step lemma. -/
theorem OffencesKept.step (hlaws : CurrencyLaws R.currency balanceOf deposits) {s₀ s : State R}
    {counted : List (Lpos.Kind × AccountId)} (h : OffencesKept s₀ s counted) {i : Step R}
    (hi : i.EndsWhole deposits s) :
    OffencesKept s₀ (s.step i).1 (counted ++ s.counted i) := by
  obtain ⟨payouts, carried, hsent, hoffenders, hbalance⟩ := h
  by_cases hrotate : i = .rotate
  · subst hrotate
    have hcounted : s.counted .rotate = [] := rfl
    rw [hcounted, List.append_nil]
    rcases s.rotate_offenders hlaws hi with ⟨hkept, hsame⟩ | ⟨hnone, payload, hpaid, hmoved⟩
    · refine ⟨payouts, carried, hsame.trans hsent, hoffenders, fun key => ?_⟩
      rw [hbalance key]
      exact congrArg (fun counts => (AList.lookup key counts).getD 0 + carriedFor key carried)
        hkept.symm
    · refine ⟨payouts ++ [payload], carried ++ [s.lpos.offenders.entries], ?_, ?_, fun key => ?_⟩
      · rw [← List.append_assoc, ← hsent]
        exact hpaid
      · rw [List.map_append, List.map_append, hoffenders, List.map_singleton, List.map_singleton,
          hmoved]
      · have hempty : (s.step .rotate).1.lposState.offencesOf key = 0 :=
          congrArg (fun counts => (AList.lookup key counts).getD 0) hnone
        rw [hbalance key, hempty, carriedFor_append_singleton, Nat.zero_add, Nat.add_comm]
        rfl
  · refine ⟨payouts, carried, (s.step_eraPayouts hrotate).trans hsent, hoffenders, fun key => ?_⟩
    rw [s.step_offences hrotate hi key, List.count_append, ← Nat.add_assoc, hbalance key]
    omega

/-- The run lemma: the offences that a run counts are kept. -/
theorem offences_kept (hlaws : CurrencyLaws R.currency balanceOf deposits) (s₀ : State R)
    (steps : List (Step R)) (h : (machine R).Along (fun s i => i.EndsWhole deposits s) steps s₀) :
    OffencesKept s₀ ((machine R).run steps s₀)
      (((machine R).observing fun s i _ => s.counted i).log steps s₀) := by
  let M := (machine R).observing fun s i _ => s.counted i
  have hrun := M.invariant (P := fun s i => i.EndsWhole deposits s)
    (I := fun _ s os => OffencesKept s₀ s os)
    ⟨[], [], by simp, rfl, fun key => rfl⟩ (fun _ s os i h hi => h.step hlaws hi) steps
    (((machine R).observing_along _ steps s₀).mpr h)
  rwa [(machine R).observing_run] at hrun

/--
**Where the end of an era is all or nothing, and loses no offence.** In a state that is reached, a
call of `end_session` that reaches `end_era` sets the reward, drains the offenders, mints the payout
and reports it, or does none of the four, if and only if the era is not paid or nothing stops its
payout. Over a run in which this holds of every rotation and no count wraps, the offences counted by
`report_offence` are those still stored and those carried by the payouts reported, each of which names
the counts of the entries that it carries.
-/
theorem era_ends_whole_iff (hlaws : CurrencyLaws R.currency balanceOf deposits) (g : Genesis R)
    {s₀ : State R} (hstart : g.start = some s₀) (steps : List (Step R)) :
    (∀ session activeEra l', Lpos.endingEra session ((machine R).run steps s₀).lposState
        = (.ok (some activeEra), ((machine R).run steps s₀).lposState) →
      Lpos.SessionManager.endSession ((machine R).run steps s₀).context session
        ((machine R).run steps s₀).lposState = (.ok (), l') →
      (AllOrNothing balanceOf activeEra ((machine R).run steps s₀).lposState l' ↔
        (((machine R).run steps s₀).lposState.Pays ((machine R).run steps s₀).context activeEra →
          PaysThrough deposits ((machine R).run steps s₀).lposState activeEra))) ∧
      ((machine R).Along (fun s i => i.EndsWhole deposits s) steps s₀ →
        ∃ payouts carried,
          eraPayouts ((machine R).run steps s₀).messages = eraPayouts s₀.messages ++ payouts ∧
            payouts.map EraPayoutPayload.offenders
              = carried.map (fun entries => entries.map (Lpos.offenderOf R.encode)) ∧
            payouts.map (fun payload => payload.offenders.map Offender.offences)
              = carried.map (fun entries => entries.map Sigma.snd) ∧
            ∀ key, (((machine R).observing fun s i _ => s.counted i).log steps s₀).count key
              = ((machine R).run steps s₀).lposState.offencesOf key + carriedFor key carried) := by
  refine ⟨fun session activeEra l' hending hend => allOrNothing_iff hlaws hending hend, fun h => ?_⟩
  obtain ⟨payouts, carried, hsent, hoffenders, hbalance⟩ := offences_kept hlaws s₀ steps h
  refine ⟨payouts, carried, hsent, hoffenders, offences_carried hoffenders, fun key => ?_⟩
  obtain ⟨⟨c₀, os₀⟩, hchain, rfl⟩ := Option.map_eq_some_iff.mp hstart
  have hnone : (g.state.withChain c₀).lposState.offencesOf key = 0 :=
    congrArg (fun counts => (AList.lookup key counts).getD 0) (g.lpos.offenders hchain)
  rw [← hbalance key, hnone, Nat.zero_add]

namespace Sample

/-- Kind 107 was reported of account 1, and the era is going to end with the session. -/
def offence : List (Step config) :=
  [.force .root (.isActivated true), .lpos .root (.forceSetEraPayout 50), .onFinalize, .rotate,
    .reportOffence (List.replicate 16 107) 0 [1] (.ok ())]

/-- As many locks as the queue takes. -/
def locks : List (Step config) := List.replicate 20 (.bridge (.signed 0) (.lock [97] 10))

end Sample

/-- Nothing stops the payout of era 0. -/
theorem Sample.offence_paysThrough : PaysThrough
    (fun (balances : Nat → Nat) who value => 10 ≤ balances who + value)
    ((machine config).run offence (genesis.start.get rfl)).lposState ⟨0, 0, some 0⟩ :=
  ⟨by decide, by decide, by decide, by decide, by decide⟩

/-- The offence is carried by the payout of era 0, which names it once. -/
theorem era_ends_whole_with_offence :
    ∃ s₀, Sample.genesis.start = some s₀ ∧
      let s := (machine Sample.config).run Sample.offence s₀
      let s' := (machine Sample.config).run (Sample.offence ++ [.rotate]) s₀
      (∃ l', Lpos.SessionManager.endSession s.context 1 s.lposState = (.ok (), l') ∧
        AllOrNothing (fun balances => balances) ⟨0, 0, some 0⟩ s.lposState l') ∧
      ∃ payouts carried, eraPayouts s'.messages = [] ++ payouts ∧
        payouts.map EraPayoutPayload.offenders
          = carried.map (fun entries => entries.map (Lpos.offenderOf Sample.config.encode)) ∧
        payouts.map (fun payload => payload.offenders.map Offender.offences)
          = carried.map (fun entries => entries.map Sigma.snd) ∧
        payouts.map (fun payload => payload.offenders.map Offender.offences) = [[1]] ∧
        s'.lposState.offencesOf (List.replicate 16 107, 1) = 0 ∧
        carriedFor (List.replicate 16 107, 1) carried = 1 := by
  have hstart : Sample.genesis.start = some (Sample.genesis.start.get rfl) := rfl
  refine ⟨_, hstart, ?_⟩
  have hone := (era_ends_whole_iff (balancesCurrency_laws 10) Sample.genesis hstart Sample.offence).1
  obtain ⟨-, hrun⟩ := era_ends_whole_iff (balancesCurrency_laws 10) Sample.genesis hstart
    (Sample.offence ++ [.rotate])
  refine ⟨⟨_, rfl, (hone 1 ⟨0, 0, some 0⟩ _ rfl rfl).mpr fun _ => Sample.offence_paysThrough⟩, ?_⟩
  refine Exists.elim (hrun ⟨trivial, trivial, trivial, fun activeEra hending => ?_,
    Or.inr fun key => ?_, fun activeEra hending _ => ?_, trivial⟩) ?_
  · -- era 1 does not start with session 1
    cases (congrArg Prod.fst hending).symm.trans
      (by decide : (Lpos.endingEra _ _ : _ × _).1 = .ok none)
  · exact Nat.lt_of_le_of_lt (Nat.add_le_add (Nat.le_of_eq (rfl : _ = 0)) List.count_le_length)
      (by decide)
  · cases (congrArg Prod.fst hending).symm.trans
      (by decide : (Lpos.endingEra _ _ : _ × _).1 = .ok (some ⟨0, 0, some 0⟩))
    exact Sample.offence_paysThrough
  rintro payouts ⟨carried, hsent, hoffenders, hcounts, hbalance⟩
  have hnone : ((machine Sample.config).run (Sample.offence ++ [.rotate])
      (Sample.genesis.start.get rfl)).lposState.offencesOf (List.replicate 16 107, 1) = 0 := by decide
  refine ⟨payouts, carried, hsent, hoffenders, hcounts, ?_, hnone, ?_⟩
  · rw [← List.nil_append payouts]
    refine (congrArg (List.map _) hsent).symm.trans ?_
    decide
  · rw [← Nat.zero_add (carriedFor _ carried), ← hnone, ← hbalance]
    decide

/-- With a full queue the offence is drained and not sent. -/
theorem era_payout_loses_offence :
    ∃ s₀, Sample.genesis.start = some s₀ ∧
      let s := (machine Sample.config).run (Sample.offence ++ Sample.locks) s₀
      let s' := ((machine Sample.config).step .rotate s).1
      (Lpos.endingEra 1 s.lposState).1 = .ok (some ⟨0, 0, some 0⟩) ∧
      (Lpos.SessionManager.endSession s.context 1 s.lposState).1 = .ok () ∧
      ¬ AllOrNothing (fun balances => balances) ⟨0, 0, some 0⟩ s.lposState
        (Lpos.SessionManager.endSession s.context 1 s.lposState).2 ∧
      (((machine Sample.config).observing fun s i _ => s.counted i).log
        (Sample.offence ++ Sample.locks) s₀).count (List.replicate 16 107, 1) = 1 ∧
      s'.lposState.offencesOf (List.replicate 16 107, 1) = 0 ∧ eraPayouts s'.messages = [] := by
  refine ⟨(Sample.genesis.start).get (by decide), Option.some_get _ |>.symm, ?_⟩
  generalize hs₀ : (Sample.genesis.start).get _ = s₀
  refine ⟨?_, ?_, not_allOrNothing ?_ ?_ ?_, ?_, ?_, ?_⟩
  all_goals
    subst hs₀
    decide +kernel

end OctopusPallets.Runtime
