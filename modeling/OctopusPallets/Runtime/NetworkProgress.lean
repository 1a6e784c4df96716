import OctopusPallets.Appchain.TakingEffect
import OctopusPallets.Runtime.HonestNetwork

/-!
# The network makes progress

In an honest run of the network nothing that the storage holds is in the way of the next observation:
under its index nobody has registered another one, and there is room for every vote. So it takes
effect in a run that goes on honestly once a quorum of the active era has reported it, in whatever
order the calls are dispatched.

* `State.Genuine` — the votes that honest calls leave behind
* `reported_step` — a vote makes a quorum, or is entered without making one
* `network_makes_progress` — a quorum of reports is enough
-/

namespace OctopusPallets.Appchain

open Infra Infra.Dispatch Infra.FixedWidth

variable {cfg : Config} {AccountId β : Type} [DecidableEq AccountId]

omit [DecidableEq AccountId] in
/-- The anchor contract holds one observation of a kind under an index. -/
theorem Anchor.eq_of_holds {A : Anchor AccountId} {o o' : Observation AccountId} (h : A.Holds o)
    (h' : A.Holds o') (htype : o'.getObservationType = o.getObservationType)
    (hindex : o'.observationIndex = o.observationIndex) : o' = o := by
  by_cases ho : o.IsNotification
  · have ho' : o'.IsNotification := by
      unfold Observation.IsNotification
      rw [htype]
      exact ho
    have hcontains : A.Contains o := (Anchor.holds_notification ho).mp h
    have hcontains' : A.Contains o' := (Anchor.holds_notification ho').mp h'
    rw [hcontains, hcontains', hindex]
  · cases o with
    | burn _ | lockAsset _ | burnNft _ => exact absurd (fun heq => nomatch heq) ho
    | updateValidatorSet valSet =>
      cases o' with
      | burn _ | lockAsset _ | burnNft _ => cases htype
      | updateValidatorSet valSet' =>
        have hid : valSet'.setId = valSet.setId := hindex
        have hset : valSet = A.valSet valSet.setId := h
        have hset' : valSet' = A.valSet valSet'.setId := h'
        rw [hset, hset', hid]

/-- The votes are by some of `accounts`, for what the anchor contract holds. -/
structure State.Genuine (A : Anchor AccountId) (accounts : Finset AccountId)
    (a : State cfg AccountId β) : Prop extends a.VotedBy accounts where
  holds : ∀ o, ∀ v ∈ a.book o, A.Holds o

variable {A : Anchor AccountId} {accounts : Finset AccountId} {a a' : State cfg AccountId β}
  {lpos : LposInterface AccountId} {v w : AccountId} {o o' : Observation AccountId}
  {os : List (Observation AccountId)} {bridge : BridgeInterface AccountId β}
  {E : Electorate AccountId}

/-- Under an index there is nothing registered but what the contract holds. -/
theorem State.Genuine.hasRoom (h : a.Genuine A accounts) (ho : A.Holds o) : a.HasRoom o := by
  have hall : ∀ o' ∈ (a.observations (o.getObservationType, o.observationIndex)).val, o' = o := by
    intro o' ho'
    have hkey := h.wellFormed.keyed _ o' ho'
    obtain ⟨v, hv⟩ : (a.book o').Nonempty := by
      rw [State.book, List.toFinset_nonempty_iff, ← h.wellFormed.registered, hkey]
      exact ho'
    rw [Prod.mk.injEq] at hkey
    exact Anchor.eq_of_holds ho (h.holds o' v hv) hkey.1 hkey.2
  unfold State.HasRoom
  cases hlist : (a.observations (o.getObservationType, o.observationIndex)).val with
  | nil => exact Or.inr (show 0 < maxObservations by decide)
  | cons o' rest =>
    rw [hlist] at hall
    rw [hall o' (List.mem_cons_self ..)]
    exact Or.inl (List.mem_cons_self ..)

theorem State.Genuine.step (h : a.Genuine A accounts) (hstep : VoteStep bridge lpos v o a a' os)
    (hv : v ∈ accounts) (ho : A.Holds o) : a'.Genuine A accounts := by
  refine ⟨h.toVotedBy.step hv hstep, fun o' w hw => ?_⟩
  rcases hstep.book with ⟨rfl, -⟩ | ⟨-, hcast⟩
  · exact h.holds o' w hw
  · rw [hcast, Book.mem_cast] at hw
    rcases hw with hw | ⟨-, rfl⟩
    · exact h.holds o' w hw
    · exact ho

/-- The counters do not go back. -/
theorem counterOf_le_of_step (hstep : VoteStep bridge lpos v o a a' os)
    (o' : Observation AccountId) : a.counterOf o' ≤ a'.counterOf o' := by
  unfold State.counterOf
  cases hstep with
  | refused _ | counted _ _ _ => exact Nat.le_refl _
  | installed _ _ _ _ _ =>
    split
    · exact Nat.le_refl _
    · exact Nat.le_succ _
  | relayed _ _ _ _ _ =>
    split
    · exact Nat.le_succ _
    · exact Nat.le_refl _

theorem counterOf_le_run (bridge : BridgeInterface AccountId β) (o : Observation AccountId) :
    ∀ (xs : List (Vote AccountId)) (a : State cfg AccountId β),
      a.counterOf o ≤ ((voteMachine bridge).run xs a).counterOf o
  | [], _ => Nat.le_refl _
  | x :: xs, a => (counterOf_le_of_step (voteMachine_step bridge x a) o).trans
      (counterOf_le_run bridge o xs _)

/-- A vote that nothing refuses is entered in the book. -/
theorem VoteStep.cast_of_room (hstep : VoteStep bridge lpos v o a a' os) (hrange : a.InRange o)
    (hroom : a.HasRoom o) (hvoter : ((a.observing o).tryPushAbsent v).isSome)
    (htotal : lpos.activeTotalStake.isSome) (hlt : a.counterOf o + 1 < 2 ^ 32) :
    a'.book = a.book.cast v o := by
  cases hstep with
  | refused h =>
    exfalso
    cases h with
    | wrongSetId _ h | invalidNotificationId _ h => exact h hrange
    | observationsFull _ h => simpa [h] using hroom.isSome
    | observingFull _ h => simp [h] at hvoter
    | noActiveEra _ h => simp [h] at htotal
    | nextSetIdOverflow _ ho h =>
      rw [State.counterOf, if_neg ho] at hlt
      omega
    | nextNotificationIdOverflow _ ho h =>
      rw [State.counterOf, if_pos ho] at hlt
      omega
  | counted hreg _ _ | installed hreg _ _ _ _ | relayed hreg _ _ _ _ => exact book_withVote hreg

/-! ## Reports -/

/-- `o` has taken effect since, or `w` has voted for it and there was no quorum. -/
def State.Reported (a : State cfg AccountId β) (E : Electorate AccountId) (w : AccountId)
    (o : Observation AccountId) : Prop :=
  o.observationIndex < a.counterOf o ∨
    o.observationIndex = a.counterOf o ∧ w ∈ a.book o ∧ ¬ E.Quorum (a.book o)

theorem State.Reported.of_fields (h : a.Reported E w o) (hobserving : a'.observing = a.observing)
    (hcounter : a'.counterOf o = a.counterOf o) : a'.Reported E w o := by
  have hbook : a'.book = a.book := by
    unfold State.book
    rw [hobserving]
  unfold State.Reported
  rw [hcounter, hbook]
  exact h

omit [DecidableEq AccountId] in
/-- An observation at its counter is accepted. -/
theorem State.inRange_of_next (hnext : o.observationIndex = a.counterOf o)
    (hlimit : 0 < cfg.requestEventLimit)
    (hwindow : o.observationIndex + cfg.requestEventLimit < 2 ^ 32) : a.InRange o := by
  by_cases ho : o.IsNotification
  · rw [State.counterOf, if_pos ho] at hnext
    rw [State.inRange_notification ho, ← hnext, wrappingAdd_of_lt hwindow]
    omega
  · rw [State.counterOf, if_neg ho] at hnext
    exact (State.inRange_set ho).mpr hnext

/-- **A vote for the next observation makes a quorum, or is entered without making one**, and other
votes leave its voters as they are. -/
theorem reported_step (h : a.Genuine A accounts) (hstep : VoteStep bridge lpos v o' a a' os)
    (ho : A.Holds o) (hle : o.observationIndex ≤ a.counterOf o) (hbacks : Backs E lpos)
    (htotal : 3 * E.total < 2 ^ 128) (hcard : accounts.card ≤ cfg.maxValidators)
    (hv : v ∈ accounts) (hlimit : 0 < cfg.requestEventLimit)
    (hwindow : o.observationIndex + cfg.requestEventLimit < 2 ^ 32)
    (hreported : o' = o ∧ v = w ∨ a.Reported E w o) : a'.Reported E w o := by
  have hcounter := counterOf_le_of_step hstep o
  rcases Nat.lt_or_ge o.observationIndex (a'.counterOf o) with hpast | hfuture
  · exact Or.inl hpast
  -- the counter stands at `o` still
  have hnext : o.observationIndex = a.counterOf o := by omega
  have hnext' : o.observationIndex = a'.counterOf o := by omega
  refine Or.inr ⟨hnext', ?_⟩
  by_cases hself : o' = o
  · subst hself
    have hrange : a.InRange o' := State.inRange_of_next hnext hlimit hwindow
    have hroom := h.hasRoom ho
    have hlt : a.counterOf o' + 1 < 2 ^ 32 := by omega
    have hvoter := h.wellFormed.voter_isSome (h.voters o') hcard hv
    have hcast := hstep.cast_of_room hrange hroom hvoter
      (by rw [hbacks.activeTotalStake]; rfl) hlt
    have hbook : a'.book o' = insert v (a.book o') := by rw [hcast, Book.cast_self]
    have hquorum : ¬ E.Quorum (insert v (a.book o')) := by
      intro hquorum
      have heffect : a.TakesEffect ⟨lpos, v, o'⟩ := ⟨hrange, hroom.isSome, hvoter,
        (hbacks.passes_iff htotal h.wellFormed v o').mpr hquorum, hlt⟩
      have hmoved := counter_of_step (x := ⟨lpos, v, o'⟩) hstep heffect
      dsimp only at hmoved
      omega
    rw [hbook]
    refine ⟨?_, hquorum⟩
    rcases hreported with ⟨-, rfl⟩ | hpast | ⟨-, hw, -⟩
    · exact Finset.mem_insert_self ..
    · omega
    · exact Finset.mem_insert_of_mem hw
  · have hbook : a'.book o = a.book o := by
      rcases hstep.book with ⟨rfl, -⟩ | ⟨-, hcast⟩
      · rfl
      · rw [hcast, Book.cast_of_ne _ _ (Ne.symm hself)]
    rw [hbook]
    rcases hreported with ⟨hsame, -⟩ | hpast | ⟨-, hvoted⟩
    · exact absurd hsame hself
    · omega
    · exact hvoted

/-- The votes of a call, one after the other. -/
theorem reported_call (bridge : BridgeInterface AccountId β) (h : a.Genuine A accounts)
    (ho : A.Holds o) (hle : o.observationIndex ≤ a.counterOf o) (hbacks : Backs E lpos)
    (htotal : 3 * E.total < 2 ^ 128) (hcard : accounts.card ≤ cfg.maxValidators)
    (hv : v ∈ accounts) (hlimit : 0 < cfg.requestEventLimit)
    (hwindow : o.observationIndex + cfg.requestEventLimit < 2 ^ 32) (hos : ∀ o' ∈ os, A.Holds o')
    (hreported : o ∈ os ∧ v = w ∨ a.Reported E w o) :
    ((voteMachine bridge).run (votesFor lpos v os) a).Reported E w o := by
  have halong : (voteMachine bridge).Along
      (fun _ x => (x.lpos = lpos ∧ x.validatorId = v) ∧ A.Holds x.observation)
      (votesFor lpos v os) a := by
    refine (voteMachine bridge).along_of_forall (fun x hx => ?_) a
    obtain ⟨o', ho', rfl⟩ := List.mem_map.mp hx
    exact ⟨⟨rfl, rfl⟩, hos o' ho'⟩
  have hmeets : (voteMachine bridge).Meets (fun _ x => x.observation = o ∧ x.validatorId = w)
      (votesFor lpos v os) a ∨ a.Reported E w o := by
    refine hreported.imp_left fun ⟨hmem, hsame⟩ => ?_
    exact (voteMachine bridge).meets_of_mem (fun _ => ⟨rfl, hsame⟩)
      (List.mem_map.mpr ⟨o, hmem, rfl⟩)
  refine Machine.Meets.after (I := fun a => a.Genuine A accounts ∧ o.observationIndex ≤ a.counterOf o)
    (G := fun a => a.Reported E w o) ?_ ?_ ⟨h, hle⟩ halong hmeets
  · rintro a ⟨lpos', v', o'⟩ ⟨h, hle⟩ ⟨⟨rfl, rfl⟩, ho'⟩
    have hstep := voteMachine_step bridge ⟨lpos', v', o'⟩ a
    exact ⟨h.step hstep hv ho', hle.trans (counterOf_le_of_step hstep o)⟩
  · rintro a ⟨lpos', v', o'⟩ ⟨h, hle⟩ ⟨⟨rfl, rfl⟩, -⟩ hreported
    exact reported_step h (voteMachine_step bridge ⟨lpos', v', o'⟩ a) ho hle hbacks htotal hcard hv
      hlimit hwindow hreported

end OctopusPallets.Appchain

namespace OctopusPallets.Runtime

open Infra Infra.Dispatch Infra.FixedWidth

variable {AccountId : Type} [DecidableEq AccountId] {R : Config AccountId}
  {Key Public Signature : Type} {crypto : Appchain.AppCrypto Key Public AccountId Signature}
  {A : Appchain.Anchor AccountId} {accounts : Finset AccountId} {n n' : Network R Public Signature}
  {os os' : List (Appchain.Observation AccountId)} {o : Appchain.Observation AccountId}
  {E : Electorate AccountId} {v : AccountId}

omit [DecidableEq AccountId] in
/-- A valid call that counts for `v` and carries `o` is dispatched. -/
def NetworkStep.Reports (crypto : Appchain.AppCrypto Key Public AccountId Signature)
    (v : AccountId) (o : Appchain.Observation AccountId) (n : Network R Public Signature) :
    NetworkStep R Key Public Signature → Prop
  | .dispatch currentBlock c =>
    (∃ t, Appchain.validateUnsigned R.appchain crypto.toSigningTypes currentBlock c.call = .ok t) ∧
      n.chain.sessionPallet.isActiveValidator Appchain.keyType c.payload.keyData = some v ∧
        o ∈ c.payload.observations
  | _ => False

theorem Executing.genuine (h : Executing A accounts n os) : n.chain.appchain.Genuine A accounts := by
  obtain ⟨plans, hrooted⟩ := h.rooted
  exact ⟨h.votedBy, fun o v hv => hrooted.book o v hv (Finset.notMem_empty v)⟩

/-- The counters do not go back. -/
theorem Executing.counterOf_le {i : NetworkStep R Key Public Signature}
    (hi : i.Honest crypto A accounts n) (o : Appchain.Observation AccountId) :
    n.chain.appchain.counterOf o
      ≤ ((network crypto).step i n).1.chain.appchain.counterOf o := by
  cases i with
  | worker _ _ _ _ _ => exact Nat.le_refl _
  | chain i =>
    obtain ⟨-, -, hcounter, hset, -⟩ := n.chain.step_votes hi.2.1 hi.2.2
    show n.chain.appchain.counterOf o ≤ (n.chain.step i).1.appchain.counterOf o
    unfold Appchain.State.counterOf
    rw [hcounter, hset]
  | dispatch currentBlock c =>
    show n.chain.appchain.counterOf o ≤ ((machine R).run ((NetworkStep.dispatch currentBlock c :
      NetworkStep R Key Public Signature).steps crypto) n.chain).appchain.counterOf o
    unfold NetworkStep.steps
    dsimp only
    split
    · rw [(run_call n.chain c).1]
      exact Appchain.counterOf_le_run ..
    · exact Nat.le_refl _

/-- **The step lemma.** -/
theorem Executing.reported (h : Executing A accounts n os) {i : NetworkStep R Key Public Signature}
    (hi : i.Honest crypto A accounts n) (ho : A.Holds o)
    (hle : o.observationIndex ≤ n.chain.appchain.counterOf o)
    (hbacks : Appchain.Backs E n.chain.stakes) (htotal : 3 * E.total < 2 ^ 128)
    (hcard : accounts.card ≤ R.appchain.maxValidators) (hlimit : 0 < R.appchain.requestEventLimit)
    (hwindow : o.observationIndex + R.appchain.requestEventLimit < 2 ^ 32)
    (hreported : i.Reports crypto v o n ∨ n.chain.appchain.Reported E v o) :
    ((network crypto).step i n).1.chain.appchain.Reported E v o := by
  cases i with
  | worker _ _ _ _ _ => exact hreported.resolve_left id
  | chain i =>
    obtain ⟨-, hobserving, hcounter, hset, -⟩ := n.chain.step_votes hi.2.1 hi.2.2
    refine (hreported.resolve_left id).of_fields hobserving ?_
    show (n.chain.step i).1.appchain.counterOf o = n.chain.appchain.counterOf o
    unfold Appchain.State.counterOf
    rw [hcounter, hset]
  | dispatch currentBlock c =>
    show ((machine R).run ((NetworkStep.dispatch currentBlock c :
      NetworkStep R Key Public Signature).steps crypto) n.chain).appchain.Reported E v o
    unfold NetworkStep.steps
    dsimp only
    split
    · next t hvalid =>
      rw [(run_call n.chain c).1]
      unfold Appchain.Call.votes
      cases hactive : Appchain.Call.validatorId ⟨n.chain.stakes, c.payload⟩ with
      | none =>
        refine hreported.resolve_left fun hreports => ?_
        cases hactive.symm.trans hreports.2.1
      | some w =>
        obtain ⟨hw, c', hc', hpayload⟩ := hi.2 t w hvalid hactive
        refine Appchain.reported_call Bridge.bridgeInterface h.genuine ho hle hbacks htotal hcard hw
          hlimit hwindow (fun o' ho' => (h.signed c' hc').1 o' (hpayload ▸ ho')) ?_
        exact hreported.imp_left fun hreports =>
          ⟨hreports.2.2, Option.some.inj (hactive.symm.trans hreports.2.1)⟩
    · next hinvalid =>
      refine hreported.resolve_left fun hreports => ?_
      obtain ⟨t, hvalid⟩ := hreports.1
      cases hinvalid.symm.trans hvalid

/-- What a counter has passed took effect on the way. -/
theorem Executing.mem_of_passed (h : Executing A accounts n os)
    (h' : Executing A accounts n' (os ++ os')) (ho : A.Holds o)
    (hfrom : n.chain.appchain.counterOf o ≤ o.observationIndex)
    (hto : o.observationIndex < n'.chain.appchain.counterOf o) : o ∈ os' := by
  by_cases hn : o.IsNotification
  · rw [Appchain.State.counterOf, if_pos hn] at hfrom hto
    have hcontains : o = A.notification o.observationIndex :=
      (Appchain.Anchor.holds_notification hn).mp ho
    have hall := h'.executed
    obtain ⟨k, hk⟩ := Nat.exists_eq_add_of_lt (Nat.lt_of_le_of_lt hfrom hto)
    rw [Appchain.notifications_append, h.executed, hk, Nat.add_assoc,
      ← Appchain.History.prefix_append_slice, List.append_cancel_left_eq] at hall
    refine (List.mem_filter.mp (?_ : o ∈ Appchain.notifications os')).1
    rw [hall, hcontains]
    exact List.mem_map.mpr ⟨_, List.mem_range'_1.mpr ⟨hfrom, by omega⟩, rfl⟩
  · rw [Appchain.State.counterOf, if_neg hn] at hfrom hto
    cases o with
    | burn _ | lockAsset _ | burnNft _ =>
      refine absurd ?_ hn
      intro heq
      cases heq
    | updateValidatorSet valSet =>
      have hset : valSet = A.valSet valSet.setId := ho
      have hpos := h.sets.pos
      have hall := h'.installed
      obtain ⟨k, hk⟩ := Nat.exists_eq_add_of_lt (Nat.lt_of_le_of_lt hfrom hto)
      have hcount : n'.chain.appchain.nextSetId - 1 = n.chain.appchain.nextSetId - 1 + (k + 1) := by
        omega
      rw [List.filterMap_append, h.installed, hcount, ← List.range'_append_1, List.map_append,
        List.append_cancel_left_eq] at hall
      have hmem : valSet ∈ os'.filterMap Appchain.Observation.validatorSet? := by
        rw [hall, hset]
        refine List.mem_map.mpr ⟨_, List.mem_range'_1.mpr ⟨?_, ?_⟩, rfl⟩
        · show 1 + (n.chain.appchain.nextSetId - 1) ≤ valSet.setId
          have hfrom : n.chain.appchain.nextSetId ≤ valSet.setId := hfrom
          omega
        · have hto : valSet.setId < n'.chain.appchain.nextSetId := hto
          omega
      obtain ⟨o, hlogged, hsome⟩ := List.mem_filterMap.mp hmem
      cases o with
      | updateValidatorSet valSet' =>
        obtain rfl := Option.some.inj hsome
        exact hlogged
      | burn _ | lockAsset _ | burnNft _ => cases hsome

/--
**A quorum of honest workers makes an honest network go on.**

The genesis list is set 0 of the anchor contract, whose sets fit, and there is room for the vote of
each account. After any honest run, `o` is the next notification of the contract, or its next set, and
the window behind it does not reach the end of the indices. The run goes on honestly: every call that
counts is that of an honest worker here too. The stakes are those of a set of the contract, and for
each member of a quorum of it some valid call that carries `o` is dispatched, in any order and among
other honest calls. Then `o` takes effect. With junk at an index of the window that need not be so.
-/
theorem network_makes_progress (crypto : Appchain.AppCrypto Key Public AccountId Signature)
    (g : Genesis R) {s₀ : State R} (hstart : g.start = some s₀) (A : Appchain.Anchor AccountId)
    (accounts : Finset AccountId) (hgenesis : g.validators = A.plan 0)
    (hfits : ∀ setId, 3 * (electorateOf (A.plan setId)).total < 2 ^ 128)
    (hcard : accounts.card ≤ R.appchain.maxValidators) (hlimit : 0 < R.appchain.requestEventLimit)
    (earlier later : List (NetworkStep R Key Public Signature)) (setId : Nat)
    {H : Finset AccountId} (hH : (electorateOf (A.plan setId)).Quorum H)
    {o : Appchain.Observation AccountId} (ho : A.Holds o)
    (hwindow : o.observationIndex + R.appchain.requestEventLimit < 2 ^ 32)
    (hearlier : (network crypto).Along (fun n i => i.Honest crypto A accounts n) earlier ⟨s₀, []⟩) :
    let n := (network crypto).run earlier ⟨s₀, []⟩
    o.observationIndex = n.chain.appchain.counterOf o →
      (network crypto).Along (fun n i => i.Honest crypto A accounts n ∧
        Appchain.Backs (electorateOf (A.plan setId)) n.chain.stakes) later n →
      (∀ v ∈ H, (network crypto).Meets (fun n i => i.Reports crypto v o n) later n) →
        o ∈ (network crypto).log later n := by
  intro n hnext hlater hreports
  have hsets : ∀ setId, Outvotes (A.plan setId) ∅ :=
    fun setId => ⟨hfits setId, Electorate.not_quorum_empty⟩
  have hrun : ∀ steps,
      (network crypto).Along (fun n i => i.Honest crypto A accounts n) steps ⟨s₀, []⟩ →
      Executing A accounts ((network crypto).run steps ⟨s₀, []⟩)
        ((network crypto).log steps ⟨s₀, []⟩) :=
    (network crypto).invariant (I := fun _ n os => Executing A accounts n os)
      (g.executing hstart hgenesis) fun _ _ _ _ h hi => h.step hsets hcard hi
  have hafter : (network crypto).Along (fun n i => i.Honest crypto A accounts n) (earlier ++ later)
      ⟨s₀, []⟩ :=
    ((network crypto).along_append earlier later _).mpr
      ⟨hearlier, Machine.Along.mono (fun _ _ h => h.1) hlater⟩
  have hexecuting := hrun earlier hearlier
  have hexecuted := hrun (earlier ++ later) hafter
  rw [Machine.run_append, Machine.log_append] at hexecuted
  -- every member of the quorum has reported `o`
  have hreported : ∀ v ∈ H, ((network crypto).run later n).chain.appchain.Reported
      (electorateOf (A.plan setId)) v o := by
    intro v hv
    refine Machine.Meets.after
      (I := fun n => (∃ os, Executing A accounts n os) ∧
        o.observationIndex ≤ n.chain.appchain.counterOf o)
      (G := fun n => n.chain.appchain.Reported (electorateOf (A.plan setId)) v o)
      ?_ ?_ ⟨⟨_, hexecuting⟩, hnext.le⟩ hlater (Or.inl (hreports v hv))
    · rintro n i ⟨⟨os, h⟩, hle⟩ ⟨hi, -⟩
      exact ⟨⟨_, h.step hsets hcard hi⟩, hle.trans (Executing.counterOf_le hi o)⟩
    · rintro n i ⟨⟨os, h⟩, hle⟩ ⟨hi, hbacks⟩ hreport
      exact h.reported hi ho hle hbacks (hfits setId) hcard hlimit hwindow hreport
  refine hexecuting.mem_of_passed hexecuted ho hnext.ge ?_
  by_contra hstays
  -- then all of them have voted for it, and they are no quorum
  have hvoted : ∀ v ∈ H, v ∈ ((network crypto).run later n).chain.appchain.book o ∧
      ¬ (electorateOf (A.plan setId)).Quorum (((network crypto).run later n).chain.appchain.book o) :=
    fun v hv => ((hreported v hv).resolve_left hstays).2
  obtain ⟨v, hv⟩ : H.Nonempty := by
    rw [Finset.nonempty_iff_ne_empty]
    rintro rfl
    exact Electorate.not_quorum_empty hH
  exact (hvoted v hv).2 (hH.mono fun w hw => (hvoted w hw).1)

namespace Sample

/-- The same notifications for an appchain that four accounts validate. -/
def four : Appchain.Anchor Nat :=
  { anchor with validators _ := [⟨1, 1⟩, ⟨2, 1⟩, ⟨3, 1⟩, ⟨4, 1⟩] }

def fourGenesis : Genesis config :=
  { anchored with sessionPallet := keysOf [1, 2, 3, 4], validators := four.plan 0 }

def fourQueries (_ : Appchain.Endpoint → String) : Appchain.MainchainQueries Nat where
  getValidatorListOf _ _ _ := .ok []
  getAppchainNotificationHistories _ _ index limit := .ok (four.slice index (min limit 2))

def nodeOf (key : UInt8) : Appchain.Node UInt8 UInt8 Nat UInt8 := { node with localKeys := [key] }

def workerOf (key : UInt8) : NetworkStep config UInt8 UInt8 UInt8 :=
  .worker (nodeOf key) fourQueries (fun _ => .ok ()) 5 true

def foundBy (key : UInt8) : Appchain.SignedCall UInt8 Nat UInt8 :=
  ⟨⟨key, [key], 5, four.slice 0 2⟩, key⟩

/-- Three of the four have found the first two notifications, and their calls come in another order. -/
def workedSteps : List (NetworkStep config UInt8 UInt8 UInt8) :=
  [.chain (.force .root (.isActivated true)), workerOf 1, workerOf 2, workerOf 3]

def reportSteps : List (NetworkStep config UInt8 UInt8 UInt8) :=
  [.dispatch 6 (foundBy 3), .dispatch 6 (foundBy 1), .dispatch 7 (foundBy 2)]

theorem four_fits (setId : Nat) : 3 * (electorateOf (four.plan setId)).total < 2 ^ 128 := by
  have hplan : four.plan setId = four.plan 0 := rfl
  rw [hplan]
  decide

theorem four_quorum : (electorateOf (four.plan 0)).Quorum {1, 2, 3} := by
  unfold Electorate.Quorum
  decide

theorem four_backs {s : State config}
    (h : ∃ s₀, Sample.fourGenesis.start = some s₀ ∧ s.lpos = s₀.lpos) :
    Appchain.Backs (electorateOf (four.plan 0)) s.stakes := by
  obtain ⟨s₀, hstart, hlpos⟩ := h
  cases hstart
  have hactive : s.timeline.activeIndex = some 0 := by
    show (s.lposState).timeline.activeIndex = _
    rw [Lpos.State.timeline_activeIndex]
    show s.lpos.activeEra.map _ = _
    rw [hlpos]
    rfl
  refine State.backs (p := ⟨0, 0, four.plan 0⟩) hactive ⟨?_, ?_⟩ (by decide)
  · show s.lpos.erasStakers 0 = _
    rw [hlpos]
    rfl
  · show s.lpos.erasTotalStake 0 = _
    rw [hlpos]
    rfl

theorem fourQueries_answer (url : Appchain.Endpoint → String) : four.Answers (fourQueries url) where
  validators _ _ _ _ h := Or.inl (Except.ok.inj h).symm
  notifications _ _ _ _ _ h := ⟨_, Nat.min_le_left .., (Except.ok.inj h).symm⟩

theorem keys_are_active : ∀ key ∈ ([1, 2, 3] : List UInt8),
    (keysOf [1, 2, 3, 4]).isActiveValidator Appchain.keyType [key] = some key.toNat ∧
      key.toNat ∈ ({1, 2, 3} : Finset Nat) := by
  simp only [List.forall_mem_cons, List.not_mem_nil, false_implies, implies_true]
  decide

theorem four_honest {n : Network config UInt8 UInt8} {key : UInt8} {currentBlock : Nat}
    (hkey : key ∈ ([1, 2, 3] : List UInt8)) (hsigned : n.signed = [1, 2, 3].map foundBy)
    (hsession : n.chain.sessionPallet = keysOf [1, 2, 3, 4])
    (hcounter : n.chain.appchain.nextNotificationId ≤ 2) :
    (NetworkStep.dispatch currentBlock (foundBy key) :
      NetworkStep config UInt8 UInt8 UInt8).Honest Appchain.Sample.appCrypto four {1, 2, 3} n := by
  have hlimit : config.appchain.requestEventLimit ≤ 100 := by decide
  refine ⟨by omega, fun _ v _ hactive => ⟨?_, _, ?_, rfl⟩⟩
  · rw [hsession] at hactive
    obtain ⟨hkeyed, hmember⟩ := keys_are_active key hkey
    rw [← Option.some.inj (hkeyed.symm.trans hactive)]
    exact hmember
  · rw [hsigned]
    exact List.mem_map_of_mem hkey

end Sample

/-- Three of four make the network go on. -/
theorem network_makes_progress_by_three_of_four :
    ∃ s₀, Sample.fourGenesis.start = some s₀ ∧
      Sample.four.notification 0 ∈ (network Appchain.Sample.appCrypto).log Sample.reportSteps
        ((network Appchain.Sample.appCrypto).run Sample.workedSteps ⟨s₀, []⟩) := by
  have hholds : Sample.four.Holds (.burn ⟨0, [], 1, 1⟩) := rfl
  refine ⟨_, rfl, network_makes_progress Appchain.Sample.appCrypto Sample.fourGenesis rfl Sample.four
    {1, 2, 3} rfl Sample.four_fits (by decide) (by decide) Sample.workedSteps Sample.reportSteps 0
    Sample.four_quorum hholds (by decide) ?_ rfl ?_ ?_⟩
  · exact ⟨⟨trivial, trivial, nofun⟩, fun _ => Sample.fourQueries_answer _,
      fun _ => Sample.fourQueries_answer _, fun _ => Sample.fourQueries_answer _, trivial⟩
  · exact ⟨⟨Sample.four_honest (by decide) rfl rfl (by decide), Sample.four_backs ⟨_, rfl, rfl⟩⟩,
      ⟨Sample.four_honest (by decide) rfl rfl (by decide), Sample.four_backs ⟨_, rfl, rfl⟩⟩,
      ⟨Sample.four_honest (by decide) rfl rfl (by decide), Sample.four_backs ⟨_, rfl, rfl⟩⟩, trivial⟩
  · intro v hv
    simp only [Finset.mem_insert, Finset.mem_singleton] at hv
    rcases hv with rfl | rfl | rfl
    · exact Or.inr (Or.inl ⟨⟨_, rfl⟩, by decide, by decide⟩)
    · exact Or.inr (Or.inr (Or.inl ⟨⟨_, rfl⟩, by decide, by decide⟩))
    · exact Or.inl ⟨⟨_, rfl⟩, by decide, by decide⟩

end OctopusPallets.Runtime
