import OctopusPallets.Lpos.EraStakers
import OctopusPallets.Runtime.AnchorEras
import OctopusPallets.Runtime.EraPayouts

/-!
# Which eras are reported

An era is paid once: its reward is stored under its index. What is reported is another number, the
set id that the era was started under, and two eras are started under one set id when no validator
set takes effect between their starts.

* `State.rotate_reports` — what a rotation reports
* `Dated.step` — the set ids of the eras, and those reported, never go down
* `reported_once_iff` — when no set id is reported twice
-/

namespace OctopusPallets.Runtime

open Infra Infra.Dispatch Infra.FixedWidth

variable {AccountId : Type} {R : Config AccountId}

/-- A sorted list is extended by a new element exactly when the element exceeds the last one. -/
theorem nodup_concat_iff {l : List Nat} {a : Nat} (hsorted : l.Pairwise (· ≤ ·))
    (hle : ∀ x ∈ l, x ≤ a) (hl : l.Nodup) :
    (l ++ [a]).Nodup ↔ ∀ last ∈ l.getLast?, last < a := by
  rw [← List.concat_eq_append, List.nodup_concat, and_iff_left hl]
  rcases List.eq_nil_or_concat l with rfl | ⟨before, last, rfl⟩
  · simp
  · rw [List.concat_eq_append] at *
    rw [List.pairwise_append] at hsorted
    have hlast : ∀ x ∈ before, x ≤ last := fun x hx => hsorted.2.2 x hx last (.head _)
    have hlasta : last ≤ a := hle last (by simp)
    simp only [List.getLast?_concat, Option.mem_some_iff, forall_eq', List.mem_append,
      List.mem_singleton, not_or]
    constructor
    · rintro ⟨-, hne⟩
      exact lt_of_le_of_ne hlasta (Ne.symm hne)
    · intro hlt
      refine ⟨fun ha => ?_, hlt.ne'⟩
      exact absurd (hlast a ha) (Nat.not_le.mpr hlt)

/-! ## Reports -/

namespace State

variable (s : State R)

/-- The set ids that were reported. -/
def reported : List Nat := (eraPayouts s.messages).map EraPayoutPayload.endEra

/-- The set id of the active era. -/
def activeSetId : Option Nat := s.lpos.activeEra.map Lpos.ActiveEraInfo.setId

end State

variable [DecidableEq AccountId]

/-- The session ends `activeEra`, which is to be paid, and the message about it can be written and
queued. -/
structure State.Reports (s : State R) (activeEra : Lpos.ActiveEraInfo) : Prop where
  ending : Lpos.endingEra s.session s.lposState = (.ok (some activeEra), s.lposState)
  pays : s.lposState.Pays s.context activeEra
  amount : s.lposState.eraPayout < 2 ^ R.balanceBits
  valid : EraPayoutPayload.codec.valid (s.lposState.eraPayoutMessage activeEra) = true
  room : UpwardMessages.State.HasRoom s.messages
    (EraPayoutPayload.codec.encode (s.lposState.eraPayoutMessage activeEra))
  nonce : UpwardMessages.State.nonce s.messages + 1 < 2 ^ 64

/-- **A rotation that goes through reports the era that it ends, or nothing.** -/
theorem State.rotate_reports {s : State R} {os : List (Lpos.Observed AccountId)}
    {l : Lpos.State R.lpos}
    (hrun : Lpos.rotateSession s.context s.session s.lposState = (.ok os, l)) :
    (∃ activeEra, s.Reports activeEra ∧
        (eraPayouts l.messages).map EraPayoutPayload.endEra = s.reported ++ [activeEra.setId]) ∨
      (∀ activeEra, ¬ s.Reports activeEra) ∧
        (eraPayouts l.messages).map EraPayoutPayload.endEra = s.reported := by
  let f : Lpos.State R.lpos → _ := fun l => (eraPayouts l.messages).map EraPayoutPayload.endEra
  obtain ⟨l₁, hend, hf⟩ := Lpos.rotateSession_end (f := f) (fun _ _ => rfl) (fun _ _ _ _ => rfl)
    (fun _ payload l => congrArg (List.map EraPayoutPayload.endEra)
      (UpwardMessages.submit_sent_of_ne (by decide) EraPayoutPayload.codec none payload l.messages))
    hrun
  have hl : (eraPayouts l.messages).map EraPayoutPayload.endEra = f l₁ := hf
  have hsame : f s.lposState = s.reported := rfl
  rw [hl]
  cases hend with
  | unpaid hunpaid => exact Or.inr ⟨fun activeEra h => hunpaid activeEra h.ending h.pays, hsame⟩
  | @payout activeEra r _ hending hpays hpayout hr =>
    -- at most this era is reported
    have honly : ∀ other, s.Reports other → s.Reports activeEra := by
      intro other h
      obtain rfl : activeEra = other := Option.some.inj
        (Except.ok.inj (Prod.mk.inj (hending.symm.trans h.ending)).1)
      exact h
    cases hpayout with
    | aborted _ => exact absurd rfl hr
    | amountOverflow hamount =>
      refine Or.inr ⟨fun other h => ?_, hsame⟩
      exact absurd (honly other h).amount (Nat.not_lt.mpr hamount)
    | borshSerializeFailed _ hvalid =>
      refine Or.inr ⟨fun other h => ?_, hsame⟩
      have htrue := (honly other h).valid
      rw [hvalid] at htrue
      cases htrue
    | @rejected _ hvalid e messages hsubmit =>
      have hsubmit : UpwardMessages.submit (none : Option AccountId) .eraPayout
        (EraPayoutPayload.codec.encode (s.lposState.eraPayoutMessage activeEra)) s.messages
          = (.error e, messages) := hsubmit
      refine Or.inr ⟨fun other h => ?_, ?_⟩
      · obtain ⟨nonce, hok⟩ := (UpwardMessages.submit_system_ok_iff (none : Option AccountId)
          (Or.inr rfl) _).mpr ⟨(honly other h).room, (honly other h).nonce⟩
        rw [hsubmit] at hok
        cases hok
      · exact congrArg (fun messages => (eraPayouts messages).map EraPayoutPayload.endEra)
          (UpwardMessages.submit_error hsubmit)
    | @paid hamount hvalid nonce messages hsubmit =>
      have hsubmit : UpwardMessages.submit (none : Option AccountId) .eraPayout
        (EraPayoutPayload.codec.encode (s.lposState.eraPayoutMessage activeEra)) s.messages
          = (.ok nonce, messages) := hsubmit
      have hroom := (UpwardMessages.submit_system_ok_iff (none : Option AccountId) (Or.inr rfl)
        _).mp ⟨nonce, congrArg Prod.fst hsubmit⟩
      refine Or.inl ⟨activeEra, ⟨hending, hpays, hamount, hvalid, hroom.1, hroom.2⟩, ?_⟩
      have hsent : eraPayouts messages
          = eraPayouts s.messages ++ [s.lposState.eraPayoutMessage activeEra] :=
        UpwardMessages.submit_sent none hvalid hsubmit
      show (eraPayouts messages).map EraPayoutPayload.endEra = _
      rw [hsent, List.map_append]
      rfl

/-! ## The set ids of the eras -/

/-- Besides rotations, no step changes the set id of the active era. -/
theorem State.step_activeSetId (s : State R) {i : Step R} (hi : i ≠ .rotate) :
    (s.step i).1.activeSetId = s.activeSetId := by
  let f : Lpos.State R.lpos → Option Nat := fun l => l.activeEra.map Lpos.ActiveEraInfo.setId
  refine State.step_frame (f := f) (fun _ _ => rfl) s hi ?_
  cases i with
  | onFinalize =>
    intro l activeEra start hactive
    simp [f, hactive]
  | reportOffence _ _ _ _ => exact fun _ _ => rfl
  | rotate | noteAuthor _ | lpos _ _ => trivial
  | timestamp _ | onInitialize _ | vote _ _ | force _ _ | bridge _ _ | fees _ | keys _
  | elsewhere _ _ _ _ => exact fun _ => rfl

/-- Nobody sets the counter by force. -/
def Step.LeavesSetId : Step R → Prop
  | .force .root (.nextSetId _) => False
  | _ => True

instance : (i : Step R) → Decidable i.LeavesSetId
  | .force .root (.nextSetId _) => inferInstanceAs (Decidable False)
  | .force .root (.isActivated _) | .force .root (.plannedValidators _)
  | .force .root (.nextNotificationId _) | .force (.signed _) _ | .force .none _ | .timestamp _
  | .onInitialize _ | .onFinalize | .rotate | .noteAuthor _ | .reportOffence _ _ _ _ | .lpos _ _
  | .vote _ _ | .bridge _ _ | .fees _ | .keys _ | .elsewhere _ _ _ _ => isTrue trivial

/-- The counter only grows. -/
theorem State.step_nextSetId (s : State R) {i : Step R} (hi : i.LeavesSetId)
    (hlt : s.appchain.nextSetId < 2 ^ 32) :
    s.appchain.nextSetId ≤ (s.step i).1.appchain.nextSetId ∧
      (s.step i).1.appchain.nextSetId < 2 ^ 32 := by
  cases i with
  | vote keyData o =>
    show s.appchain.nextSetId ≤ (s.vote keyData o).1.appchain.nextSetId ∧
      (s.vote keyData o).1.appchain.nextSetId < 2 ^ 32
    unfold State.vote
    cases s.voteOf keyData o with
    | none => exact ⟨Nat.le_refl _, hlt⟩
    | some x =>
      dsimp only
      have hstep := Appchain.voteMachine_step Bridge.bridgeInterface x s.appchain
      generalize (Appchain.voteMachine Bridge.bridgeInterface).step x s.appchain = r at hstep ⊢
      obtain ⟨a, os⟩ := r
      cases hstep with
      | refused _ | counted _ _ _ | relayed _ _ _ _ _ => exact ⟨Nat.le_refl _, hlt⟩
      | installed _ _ _ _ hfits => exact ⟨Nat.le_succ _, hfits⟩
  | force origin forced =>
    have hsame : (s.step (.force origin forced)).1.appchain.nextSetId = s.appchain.nextSetId := by
      cases origin with
      | signed _ | none => cases forced <;> rfl
      | root =>
        cases forced with
        | nextSetId id => exact hi.elim
        | isActivated _ | plannedValidators _ | nextNotificationId _ => rfl
    exact ⟨hsame.ge, hsame.trans_lt hlt⟩
  | onInitialize now =>
    show s.appchain.nextSetId ≤ (s.onInitialize now).appchain.nextSetId ∧
      (s.onInitialize now).appchain.nextSetId < 2 ^ 32
    obtain ⟨messages, -, hrun⟩ := s.onInitialize_eq now
    rw [hrun]
    exact ⟨Nat.le_refl _, hlt⟩
  | timestamp _ | onFinalize | rotate | noteAuthor _ | reportOffence _ _ _ _ | lpos _ _
  | bridge _ _ | fees _ | keys _ | elsewhere _ _ _ _ => exact ⟨Nat.le_refl _, hlt⟩

omit [DecidableEq AccountId] in
theorem timeline_setId (l : Lpos.State R.lpos) :
    l.timeline.activeEra.map Prod.snd = l.activeEra.map Lpos.ActiveEraInfo.setId := by
  unfold Lpos.State.timeline
  rw [Option.map_map]
  rfl

/-- The era that is planned for the next session starts with it. -/
def State.StartsEra (s : State R) : Prop := s.timeline.startsEra (s.session + 1) = true

/-- **An era starts under the set id before the counter.** -/
theorem State.rotate_activeSetId {s : State R} {plans : List (Lpos.Plan AccountId)}
    (hentered : Lpos.Entered s.chain plans) (hrange : s.session + 2 < 2 ^ 32)
    (hpos : 1 ≤ s.appchain.nextSetId) (hlt : s.appchain.nextSetId < 2 ^ 32)
    {os : List (Lpos.Observed AccountId)} {l : Lpos.State R.lpos}
    (hrun : Lpos.rotateSession s.context s.session s.lposState = (.ok os, l)) :
    (s.StartsEra ∧ l.activeEra.map Lpos.ActiveEraInfo.setId = some (s.appchain.nextSetId - 1)) ∨
      ¬ s.StartsEra ∧ l.activeEra.map Lpos.ActiveEraInfo.setId = s.activeSetId := by
  have hcurrent : Lpos.following s.timeline.currentEra < 2 ^ 32 :=
    Nat.lt_of_le_of_lt hentered.following_le hrange
  have hactive : Lpos.following s.timeline.activeIndex < 2 ^ 32 :=
    Nat.lt_of_le_of_lt hentered.timeline.active_le hcurrent
  obtain ⟨setId, kept, hsub, -, htimeline⟩ := Lpos.rotateSession_of_ok s.context hactive hcurrent hrun
  have hactive' : l.timeline.activeEra = (s.timeline.startPhase setId (s.session + 1)).activeEra :=
    (Lpos.Timeline.activeEra_of_unprinted htimeline).trans
      (Lpos.Timeline.planPhase_activeEra _ _ _ _ _)
  rw [← timeline_setId l, hactive']
  unfold Lpos.Timeline.startPhase
  by_cases hstarts : s.StartsEra
  · have hset : R.build.sub 32 s.appchain.nextSetId 1 = some setId := hsub hstarts
    rw [R.build.sub_of_le hpos hlt] at hset
    have hyes : s.timeline.startsEra (s.session + 1) = true := hstarts
    rw [if_pos hyes, Option.some.inj hset]
    exact Or.inl ⟨hstarts, rfl⟩
  · have hno : ¬ s.timeline.startsEra (s.session + 1) = true := hstarts
    rw [if_neg hno]
    exact Or.inr ⟨hstarts, timeline_setId s.lposState⟩

/-! ## One step -/

/-- The set ids of the eras never go down: that of the active era is below the counter, and those
that were reported are in order and at most that of the active era. -/
structure Dated (s : State R) : Prop where
  entered : ∃ plans, Lpos.Entered s.chain plans
  pos : 1 ≤ s.appchain.nextSetId
  lt : s.appchain.nextSetId < 2 ^ 32
  active_lt : ∀ setId ∈ s.activeSetId, setId < s.appchain.nextSetId
  sorted : s.reported.Pairwise (· ≤ ·)
  reported_le : ∀ id ∈ s.reported, ∃ setId ∈ s.activeSetId, id ≤ setId

/-- The hooks of the rotation end. -/
def State.Rotates (s : State R) : Prop :=
  ∃ os l, Lpos.rotateSession s.context s.session s.lposState = (.ok os, l)

/-- An era that is reported was started under a higher set id than the one reported before it. -/
def Step.ReportsNext (s : State R) : Step R → Prop
  | .rotate => s.Rotates → ∀ activeEra, s.Reports activeEra →
    ∀ last ∈ s.reported.getLast?, last < activeEra.setId
  | _ => True

/-- An era starts after a validator set has taken effect since the era before it started. -/
def Step.StartsNewSet (s : State R) : Step R → Prop
  | .rotate => s.StartsEra → ∀ setId ∈ s.activeSetId, setId + 1 < s.appchain.nextSetId
  | _ => True

instance (s : State R) : Decidable s.StartsEra := inferInstanceAs (Decidable (_ = true))

instance (s : State R) : (i : Step R) → Decidable (i.StartsNewSet s)
  | .rotate => inferInstanceAs (Decidable
      (s.StartsEra → ∀ setId ∈ s.activeSetId, setId + 1 < s.appchain.nextSetId))
  | .force _ _ | .timestamp _ | .onInitialize _ | .onFinalize | .noteAuthor _
  | .reportOffence _ _ _ _ | .lpos _ _ | .vote _ _ | .bridge _ _ | .fees _ | .keys _
  | .elsewhere _ _ _ _ => isTrue trivial

/-- The era that is reported is the active one. -/
theorem State.Reports.active {s : State R} {activeEra : Lpos.ActiveEraInfo}
    (h : s.Reports activeEra) : s.lpos.activeEra = some activeEra :=
  (Lpos.endingEra_some h.ending).1

theorem State.Reports.activeSetId {s : State R} {activeEra : Lpos.ActiveEraInfo}
    (h : s.Reports activeEra) : s.activeSetId = some activeEra.setId :=
  congrArg (Option.map Lpos.ActiveEraInfo.setId) h.active

namespace Dated

variable {s : State R}

/-- No era was reported under a higher set id than the one that is reported next. -/
theorem le_of_reports (h : Dated s) {activeEra : Lpos.ActiveEraInfo} (hreports : s.Reports activeEra) :
    ∀ id ∈ s.reported, id ≤ activeEra.setId := by
  intro id hid
  obtain ⟨setId, hsetId, hle⟩ := h.reported_le id hid
  rw [hreports.activeSetId, Option.mem_some_iff] at hsetId
  rwa [hsetId]

/-- The set id of the active era after a rotation that goes through. -/
theorem rotated (h : Dated s) (hrange : s.session + 2 < 2 ^ 32)
    {os : List (Lpos.Observed AccountId)} {l : Lpos.State R.lpos}
    (hrun : Lpos.rotateSession s.context s.session s.lposState = (.ok os, l)) :
    (s.withChain ⟨s.session + 1, l⟩).activeSetId = some (s.appchain.nextSetId - 1) ∨
      (s.withChain ⟨s.session + 1, l⟩).activeSetId = s.activeSetId := by
  obtain ⟨plans, hentered⟩ := h.entered
  rcases State.rotate_activeSetId hentered hrange h.pos h.lt hrun with ⟨-, hnew⟩ | ⟨-, hsame⟩
  · exact Or.inl hnew
  · exact Or.inr hsame

/-- A rotation does not lower the set id of the active era. -/
theorem rotated_le (h : Dated s) (hrange : s.session + 2 < 2 ^ 32)
    {os : List (Lpos.Observed AccountId)} {l : Lpos.State R.lpos}
    (hrun : Lpos.rotateSession s.context s.session s.lposState = (.ok os, l)) :
    ∀ setId ∈ s.activeSetId, ∃ setId' ∈ (s.withChain ⟨s.session + 1, l⟩).activeSetId,
      setId ≤ setId' := by
  intro setId hsetId
  have hbelow := h.active_lt setId hsetId
  rcases h.rotated hrange hrun with hnew | hsame
  · exact ⟨_, hnew, by omega⟩
  · exact ⟨setId, hsame.trans hsetId, Nat.le_refl _⟩

/-- It stays below the counter. -/
theorem rotated_lt (h : Dated s) (hrange : s.session + 2 < 2 ^ 32)
    {os : List (Lpos.Observed AccountId)} {l : Lpos.State R.lpos}
    (hrun : Lpos.rotateSession s.context s.session s.lposState = (.ok os, l)) :
    ∀ setId ∈ (s.withChain ⟨s.session + 1, l⟩).activeSetId, setId < s.appchain.nextSetId := by
  intro setId hsetId
  rcases h.rotated hrange hrun with hnew | hsame
  · rw [hnew, Option.mem_some_iff] at hsetId
    have hone := h.pos
    omega
  · exact h.active_lt setId (hsame ▸ hsetId)

/-- A rotation that goes through reports the active era, or none. -/
theorem rotation (h : Dated s) (hrange : s.session + 2 < 2 ^ 32)
    {os : List (Lpos.Observed AccountId)} {l : Lpos.State R.lpos}
    (hrun : Lpos.rotateSession s.context s.session s.lposState = (.ok os, l))
    (hentered : ∃ plans, Lpos.Entered (s.withChain ⟨s.session + 1, l⟩).chain plans) :
    Dated (s.withChain ⟨s.session + 1, l⟩) := by
  have hactive := h.rotated_le hrange hrun
  have hreported_le : ∀ id ∈ s.reported, ∃ setId ∈ (s.withChain
      ⟨s.session + 1, l⟩).activeSetId, id ≤ setId := by
    intro id hid
    obtain ⟨setId, hsetId, hle⟩ := h.reported_le id hid
    obtain ⟨setId', hsetId', hle'⟩ := hactive setId hsetId
    exact ⟨setId', hsetId', hle.trans hle'⟩
  rcases State.rotate_reports hrun with ⟨activeEra, hreports, hreported⟩ | ⟨-, hreported⟩
  · have heq : (s.withChain ⟨s.session + 1, l⟩).reported = s.reported ++ [activeEra.setId] :=
      hreported
    refine ⟨hentered, h.pos, h.lt, h.rotated_lt hrange hrun, ?_, ?_⟩
    · rw [heq, List.pairwise_append]
      exact ⟨h.sorted, List.pairwise_singleton _ _, by simpa using h.le_of_reports hreports⟩
    · intro id hid
      rw [heq, List.mem_append, List.mem_singleton] at hid
      rcases hid with hid | rfl
      · exact hreported_le id hid
      · exact hactive _ hreports.activeSetId
  · have heq : (s.withChain ⟨s.session + 1, l⟩).reported = s.reported := hreported
    refine ⟨hentered, h.pos, h.lt, h.rotated_lt hrange hrun, ?_, ?_⟩
    · rw [heq]
      exact h.sorted
    · rw [heq]
      exact hreported_le

/-- **The step lemma.** -/
theorem step (h : Dated s) {i : Step R} (hrange : i.SessionInRange s) (hset : i.LeavesSetId) :
    Dated (s.step i).1 := by
  obtain ⟨plans, hentered⟩ := h.entered
  have hentered' : ∃ plans, Lpos.Entered (s.step i).1.chain plans := by
    have hstep := hentered.step (Step.chainCall_inRange hrange)
    rw [← s.step_chain i] at hstep
    exact ⟨_, hstep⟩
  by_cases hrotate : i = .rotate
  · subst hrotate
    rcases s.rotate_cases with ⟨-, hsame⟩ | ⟨os, l, hrun, hl⟩
    · have hstep : (s.step .rotate).1 = s := hsame
      rw [hstep]
      exact h
    · have hstep : (s.step .rotate).1 = s.withChain ⟨s.session + 1, l⟩ := hl
      rw [hstep] at hentered' ⊢
      exact h.rotation hrange hrun hentered'
  · obtain ⟨hle, hlt⟩ := s.step_nextSetId hset h.lt
    have hreported : (s.step i).1.reported = s.reported :=
      congrArg (List.map EraPayoutPayload.endEra) (s.step_eraPayouts hrotate)
    have hactive := s.step_activeSetId hrotate
    refine ⟨hentered', h.pos.trans hle, hlt, fun setId hsetId => ?_, ?_, fun id hid => ?_⟩
    · rw [hactive] at hsetId
      exact (h.active_lt setId hsetId).trans_le hle
    · rw [hreported]
      exact h.sorted
    · rw [hreported] at hid
      rw [hactive]
      exact h.reported_le id hid

/-- The era that a rotation reports is followed by the one that it starts. -/
theorem startsEra (h : Dated s) (hrange : s.session + 2 < 2 ^ 32) {activeEra : Lpos.ActiveEraInfo}
    (hreports : s.Reports activeEra) : s.StartsEra := by
  obtain ⟨plans, hentered⟩ := h.entered
  obtain ⟨hactive, next, session, hnext, hsession, hstart⟩ := Lpos.endingEra_some hreports.ending
  have hindex : s.timeline.activeIndex = some activeEra.index := by
    refine s.lposState.timeline_activeIndex.trans ?_
    rw [show s.lposState.activeEra = some activeEra from hactive]
    rfl
  have hlt : activeEra.index + 1 < 2 ^ 32 := by
    have hle := hentered.timeline.active_le
    rw [show s.chain.state.timeline.activeIndex = some activeEra.index from hindex] at hle
    have hfits := hentered.following_le
    exact Nat.lt_of_le_of_lt (hle.trans hfits) hrange
  rw [R.lpos.build.add_of_lt hlt, Option.some.injEq] at hnext
  rw [R.lpos.build.add_of_lt (by omega), Option.some.injEq] at hsession
  subst hnext
  subst hsession
  unfold State.StartsEra Lpos.Timeline.startsEra
  rw [hindex]
  show (s.lposState.erasStartSessionIndex (activeEra.index + 1)).any _ = true
  rw [hstart]
  simp

/-- **A step keeps the reported set ids apart exactly when it reports the next one.** -/
theorem step_nodup_iff (h : Dated s) {i : Step R} (hrange : i.SessionInRange s)
    (hnodup : s.reported.Nodup) : (s.step i).1.reported.Nodup ↔ i.ReportsNext s := by
  by_cases hrotate : i = .rotate
  · subst hrotate
    rcases s.rotate_cases with ⟨⟨e, l, hrun⟩, hsame⟩ | ⟨os, l, hrun, hl⟩
    · have hstep : (s.step .rotate).1 = s := hsame
      rw [hstep]
      refine iff_of_true hnodup fun ⟨os, l', hrun'⟩ => ?_
      rw [hrun] at hrun'
      cases hrun'
    · have hstep : (s.step .rotate).1.reported
          = (eraPayouts l.messages).map EraPayoutPayload.endEra :=
        congrArg State.reported hl
      rw [hstep]
      rcases State.rotate_reports hrun with ⟨activeEra, hreports, hreported⟩ | ⟨hnone, hreported⟩
      · rw [hreported, nodup_concat_iff h.sorted (h.le_of_reports hreports) hnodup]
        constructor
        · intro hlast _ other hother last hmem
          have heq : activeEra.setId = other.setId :=
            Option.some.inj (hreports.activeSetId.symm.trans hother.activeSetId)
          rw [← heq]
          exact hlast last hmem
        · exact fun hnext => hnext ⟨os, l, hrun⟩ activeEra hreports
      · rw [hreported]
        exact iff_of_true hnodup fun _ activeEra hreports => absurd hreports (hnone activeEra)
  · have hreported : (s.step i).1.reported = s.reported :=
      congrArg (List.map EraPayoutPayload.endEra) (s.step_eraPayouts hrotate)
    rw [hreported]
    refine iff_of_true hnodup ?_
    cases i with
    | rotate => exact absurd rfl hrotate
    | _ => trivial

/-- Where every era starts after a new set, all reported set ids are below the active one. -/
theorem step_below (h : Dated s) {i : Step R} (hrange : i.SessionInRange s) (hnew : i.StartsNewSet s)
    (hbelow : ∀ id ∈ s.reported, ∀ setId ∈ s.activeSetId, id < setId) :
    i.ReportsNext s ∧ ∀ id ∈ (s.step i).1.reported, ∀ setId ∈ (s.step i).1.activeSetId,
      id < setId := by
  by_cases hrotate : i = .rotate
  · subst hrotate
    refine ⟨fun _ activeEra hreports last hlast => ?_, ?_⟩
    · exact hbelow last (List.mem_of_getLast? hlast) _ hreports.activeSetId
    rcases s.rotate_cases with ⟨-, hsame⟩ | ⟨os, l, hrun, hl⟩
    · have hstep : (s.step .rotate).1 = s := hsame
      rw [hstep]
      exact hbelow
    · have hstep : (s.step .rotate).1 = s.withChain ⟨s.session + 1, l⟩ := hl
      rw [hstep]
      intro id hid setId' hsetId'
      obtain ⟨plans, hentered⟩ := h.entered
      have hkept : id ∈ s.reported → id < setId' := by
        intro hid
        obtain ⟨setId, hsetId, hle⟩ := h.reported_le id hid
        rcases State.rotate_activeSetId hentered hrange h.pos h.lt hrun with
          ⟨hstarts, hset⟩ | ⟨-, hset⟩
        · rw [show (s.withChain ⟨s.session + 1, l⟩).activeSetId = _ from hset,
            Option.mem_some_iff] at hsetId'
          have hlt := hnew hstarts setId hsetId
          omega
        · rw [show (s.withChain ⟨s.session + 1, l⟩).activeSetId = _ from hset] at hsetId'
          exact hbelow id hid setId' hsetId'
      rcases State.rotate_reports hrun with ⟨activeEra, hreports, hreported⟩ | ⟨-, hreported⟩
      · rw [show (s.withChain ⟨s.session + 1, l⟩).reported = _ from hreported, List.mem_append,
          List.mem_singleton] at hid
        rcases hid with hid | rfl
        · exact hkept hid
        · -- the reported era is followed by one with a new set
          have hstarts := h.startsEra hrange hreports
          rcases State.rotate_activeSetId hentered hrange h.pos h.lt hrun with
            ⟨-, hset⟩ | ⟨hno, -⟩
          · rw [show (s.withChain ⟨s.session + 1, l⟩).activeSetId = _ from hset,
              Option.mem_some_iff] at hsetId'
            have hlt := hnew hstarts _ hreports.activeSetId
            omega
          · exact absurd hstarts hno
      · exact hkept (hreported ▸ hid)
  · have hreported : (s.step i).1.reported = s.reported :=
      congrArg (List.map EraPayoutPayload.endEra) (s.step_eraPayouts hrotate)
    rw [hreported, s.step_activeSetId hrotate]
    refine ⟨?_, hbelow⟩
    cases i with
    | rotate => exact absurd rfl hrotate
    | _ => trivial

end Dated

/-! ## Runs -/

/-- The hooks of the genesis report nothing. -/
theorem Genesis.reported (g : Genesis R) (hnone : eraPayouts g.bridge.messages = []) {s₀ : State R}
    (hstart : g.start = some s₀) : s₀.reported = [] := by
  obtain ⟨⟨c₀, os₀⟩, hchain, rfl⟩ := Option.map_eq_some_iff.mp hstart
  let f : Lpos.State R.lpos → List EraPayoutPayload := fun l => eraPayouts l.messages
  have hkept : f c₀.state = f g.lpos.state :=
    g.lpos.frame (f := f) (fun _ _ => rfl) (fun _ _ _ _ => rfl) (fun _ payload l =>
      UpwardMessages.submit_sent_of_ne (by decide) EraPayoutPayload.codec none payload l.messages)
      hchain
  exact congrArg (List.map EraPayoutPayload.endEra) (hkept.trans hnone)

/-- The set id to come is 1, and the active era, if there is one, has set id 0. -/
theorem Genesis.dated (g : Genesis R) (hnone : eraPayouts g.bridge.messages = []) {s₀ : State R}
    (hstart : g.start = some s₀) : Dated s₀ := by
  have hreported := g.reported hnone hstart
  obtain ⟨⟨c₀, os₀⟩, hchain, rfl⟩ := Option.map_eq_some_iff.mp hstart
  obtain ⟨kept, setId, t, -, ht, hsub, -, htimeline⟩ := g.lpos.phases hchain
  refine ⟨⟨_, g.lpos.entered hchain⟩, Nat.le_refl 1, (by decide : 1 < 2 ^ 32), fun id hid => ?_,
    ?_, ?_⟩
  · -- era 0 is started under the set id before 1
    have hactive : c₀.state.timeline.activeEra = (t.startPhase setId 0).activeEra :=
      Lpos.Timeline.activeEra_of_unprinted htimeline
    have hinactive : t.activeEra = none := by
      rw [ht, Lpos.Timeline.planPhase_activeEra, Lpos.Timeline.planKept_activeEra]
      rfl
    have hid' : c₀.state.timeline.activeEra.map Prod.snd = some id :=
      (timeline_setId c₀.state).trans hid
    rw [hactive] at hid'
    unfold Lpos.Timeline.startPhase at hid'
    by_cases hstarts : t.startsEra 0 = true
    · have hone : R.build.sub 32 1 1 = some setId := hsub hstarts
      rw [R.build.sub_of_le (Nat.le_refl 1) (by decide)] at hone
      rw [if_pos hstarts] at hid'
      obtain rfl : setId = id := Option.some.inj hid'
      rw [← Option.some.inj hone]
      exact Nat.zero_lt_one
    · rw [if_neg hstarts, hinactive] at hid'
      cases hid'
  · rw [hreported]
    exact List.Pairwise.nil
  · intro id hid
    rw [hreported] at hid
    cases hid

/--
**No set id is reported twice exactly when every report is of a higher set id than the one before
it.** That is so if a validator set takes effect between the starts of any two eras that follow each
other.
-/
theorem reported_once_iff (g : Genesis R) (hnone : eraPayouts g.bridge.messages = [])
    {s₀ : State R} (hstart : g.start = some s₀) (steps : List (Step R))
    (hsteps : (machine R).Along (fun s i => i.SessionInRange s ∧ i.LeavesSetId) steps s₀) :
    ((∀ js, js <+: steps →
        ((eraPayouts ((machine R).run js s₀).messages).map EraPayoutPayload.endEra).Nodup) ↔
      (machine R).Along (fun s i => i.ReportsNext s) steps s₀) ∧
    ((machine R).Along (fun s i => i.StartsNewSet s) steps s₀ →
      (machine R).Along (fun s i => i.ReportsNext s) steps s₀) := by
  have hdated := g.dated hnone hstart
  have hreported := g.reported hnone hstart
  constructor
  · refine (machine R).prefixes_iff (Q := fun s i => i.SessionInRange s ∧ i.LeavesSetId) (J := Dated)
      (I := fun _ s => s.reported.Nodup) (fun s i h hi => h.step hi.1 hi.2)
      (fun _ s i h hi hnodup => h.step_nodup_iff hi.1 hnodup) steps [] s₀ hdated hsteps ?_
    rw [hreported]
    exact List.nodup_nil
  · intro hnew
    refine Machine.Along.of_invariant (I := fun s => Dated s ∧
      ∀ id ∈ s.reported, ∀ setId ∈ s.activeSetId, id < setId) ?_ ⟨hdated, ?_⟩ (hsteps.and hnew)
    · rintro s i ⟨h, hbelow⟩ ⟨hi, hstarts⟩
      obtain ⟨hnext, hbelow'⟩ := h.step_below hi.1 hstarts hbelow
      exact ⟨hnext, h.step hi.1 hi.2, hbelow'⟩
    · intro id hid
      rw [hreported] at hid
      cases hid

namespace Sample

/-- Two sessions, in which the era sees a block. -/
def era : List (Step config) := [.onFinalize, .rotate, .rotate]

/-- Eras 0 and 1 are paid. -/
def twoEras : List (Step config) := .force .root (.isActivated true) :: era ++ era

/-- Set 1 takes effect in era 0, and set 2 in era 1. -/
def threeSets : List (Step config) :=
  .force .root (.isActivated true) :: newSet :: era ++
    .vote [1] (.updateValidatorSet ⟨2, [⟨1, 5⟩]⟩) :: era

end Sample

theorem reported_once_with_new_sets :
    ∃ s₀, Sample.genesis.start = some s₀ ∧
      (eraPayouts ((machine Sample.config).run Sample.threeSets s₀).messages).map
        EraPayoutPayload.endEra = [0, 1] ∧
      ∀ js, js <+: Sample.threeSets →
        ((eraPayouts ((machine Sample.config).run js s₀).messages).map
          EraPayoutPayload.endEra).Nodup := by
  refine ⟨_, rfl, by decide +kernel, ?_⟩
  obtain ⟨hiff, hnew⟩ := reported_once_iff Sample.genesis rfl rfl Sample.threeSets (by decide)
  exact hiff.mpr (hnew (by decide))

/-- No set takes effect: eras 0 and 1 are both reported under set id 0. -/
theorem set_id_reported_twice :
    ∃ s₀, Sample.genesis.start = some s₀ ∧
      ∃ ids, (eraPayouts ((machine Sample.config).run Sample.twoEras s₀).messages).map
          EraPayoutPayload.endEra = ids ∧
        ids = [0, 0] ∧ ¬ ids.Nodup :=
  ⟨_, rfl, [0, 0], by decide +kernel, rfl, by decide⟩

end OctopusPallets.Runtime
