import SerialBroker.Client.Session

/-!
# What a tab's writes leave alone

Most of what a tab does with its writes, and at its port, leaves its session as it is: the terms,
the election, the status and the turn that runs. `Kept` says so, and that a request which waits for
a term that has ended was waiting for it before, unless there is nothing to hand it to. Every
function of the writes keeps it; `dispatchWaiting` leaves no such request behind where there is a
connection and a current term.
-/

namespace SerialBroker

namespace Tab

variable {t t' t'' : Tab} {config : TabConfig} {requestId r : RequestId} {term a : TermId}
  {h h' : Holder} {key : WriteKey}
  {outcome : WriteOutcome} {action : Action}

/-- A pending request is addressed to the term. -/
def IsAddressed (t : Tab) (r : RequestId) (a : TermId) : Prop :=
  ∃ w ∈ t.writes, w.requestId = r ∧ w.addressedTerm = some a

/-- A pending request that was not begun is addressed to a term that has ended. -/
def IsStuck (t : Tab) (r : RequestId) (a : TermId) : Prop :=
  t.terms.isEnded a = true ∧ ∃ w ∈ t.writes, w.requestId = r ∧ w.addressedTerm = some a ∧
    w.startedTerm = none

/-- Whether there is a connection to write to, and a term to hand writes to. -/
def CanHandOn (t : Tab) : Prop := t.status = .open ∧ t.terms.current ≠ none

/-- The term the tab serves at its port, and how far it has given it up. -/
def held (t : Tab) : Option (TermId × HolderStage) := t.holder.map fun h => (h.term, h.stage)

/-- The write was handed to the current term: with a request on the bus, or at this tab's own
port. -/
def IsHanded (config : TabConfig) (t : Tab) (w : PendingWrite) : Prop :=
  ∃ a, w.addressedTerm = some a ∧ t.terms.current = some a ∧
    ((∃ payload, .send ⟨config.clientId, .all, .writeRequest w.requestId payload a⟩ ∈ t.outbox) ∨
      t.held = some (a, .serving))

/-- The session is as it was, and no request waits for an ended term that did not wait for it
before. -/
structure Kept (config : TabConfig) (t t' : Tab) : Prop where
  isJoined : t'.isJoined = t.isJoined
  isReleased : t'.isReleased = t.isReleased
  isWithdrawn : t'.isWithdrawn = t.isWithdrawn
  status : t'.status = t.status
  stack : t'.stack = t.stack
  election : t'.election = t.election
  terms : t'.terms = t.terms
  nextKey : t'.nextKey = t.nextKey
  issued : t'.issued = t.issued
  held : t'.held = t.held
  outbox : t.outbox ⊆ t'.outbox
  ids : (t'.writes.map PendingWrite.requestId).Sublist (t.writes.map PendingWrite.requestId)
  addressed : ∀ w' ∈ t'.writes, (∃ w ∈ t.writes, w.requestId = w'.requestId ∧
    w.addressedTerm = w'.addressedTerm) ∨
    t'.IsHanded config w'
  stuck : ∀ r a, t.CanHandOn → t'.IsStuck r a → t.IsStuck r a ∨ t.terms.current = some a

namespace Kept

theorem refl (config : TabConfig) (t : Tab) : Kept config t t :=
  ⟨rfl, rfl, rfl, rfl, rfl, rfl, rfl, rfl, rfl, rfl, List.Subset.refl _, List.Sublist.refl _,
    fun w hw => Or.inl ⟨w, hw, rfl, rfl⟩, fun _ _ _ => Or.inl⟩

theorem canHandOn (hk : Kept config t t') : t'.CanHandOn ↔ t.CanHandOn := by
  unfold CanHandOn
  rw [hk.status, hk.terms]

theorem isHanded (hk : Kept config t t') {w w' : PendingWrite} (hid : w.requestId = w'.requestId)
    (haddressed : w.addressedTerm = w'.addressedTerm) (hhanded : t.IsHanded config w) :
    t'.IsHanded config w' := by
  obtain ⟨a, ha, hcurrent, hhanded⟩ := hhanded
  refine ⟨a, haddressed ▸ ha, hk.terms ▸ hcurrent, ?_⟩
  rcases hhanded with ⟨payload, hsent⟩ | hheld
  · exact Or.inl ⟨payload, hid ▸ hk.outbox hsent⟩
  · exact Or.inr (hk.held ▸ hheld)

theorem trans (hk : Kept config t t') (hk' : Kept config t' t'') : Kept config t t'' where
  isJoined := hk'.isJoined.trans hk.isJoined
  isReleased := hk'.isReleased.trans hk.isReleased
  isWithdrawn := hk'.isWithdrawn.trans hk.isWithdrawn
  status := hk'.status.trans hk.status
  stack := hk'.stack.trans hk.stack
  election := hk'.election.trans hk.election
  terms := hk'.terms.trans hk.terms
  nextKey := hk'.nextKey.trans hk.nextKey
  issued := hk'.issued.trans hk.issued
  held := hk'.held.trans hk.held
  outbox := fun _ h => hk'.outbox (hk.outbox h)
  ids := hk'.ids.trans hk.ids
  addressed w'' hw'' := by
    rcases hk'.addressed w'' hw'' with ⟨w', hw', hid', ha'⟩ | hhanded
    · rcases hk.addressed w' hw' with ⟨w, hw, hid, ha⟩ | hhanded
      · exact Or.inl ⟨w, hw, hid.trans hid', ha.trans ha'⟩
      · exact Or.inr (hk'.isHanded hid' ha' hhanded)
    · exact Or.inr hhanded
  stuck r a hcan hstuck := by
    rcases hk'.stuck r a (hk.canHandOn.mpr hcan) hstuck with hstuck | hcurrent
    · exact hk.stuck r a hcan hstuck
    · exact Or.inr (hk.terms ▸ hcurrent)

end Kept

/-! ### what leaves the writes alone -/

/-- Where no write changes its address. -/
theorem addressed_of_writes (hwrites : t'.writes = t.writes) {w' : PendingWrite}
    (hw' : w' ∈ t'.writes) :
    (∃ w ∈ t.writes, w.requestId = w'.requestId ∧ w.addressedTerm = w'.addressedTerm) ∨
      t'.IsHanded config w' :=
  Or.inl ⟨w', hwrites ▸ hw', rfl, rfl⟩

theorem act_kept : Kept config t (t.act action) :=
  { Kept.refl config t with
    outbox := List.subset_append_left _ _
    addressed := fun _ => addressed_of_writes rfl }

theorem send_kept {target : MessageTarget} {body : MessageBody} :
    Kept config t (t.send config target body) := act_kept

/-- The tab serves the term of `h`, and has given it up as far as `h` says. -/
abbrev HasStage (t : Tab) (h : Holder) : Prop := t.held = some (h.term, h.stage)

theorem setHolder_kept (hstage : t.HasStage h) : Kept config t (t.setHolder h) :=
  { Kept.refl config t with
    held := hstage.symm
    addressed := fun _ => addressed_of_writes rfl }

theorem holder_of_serving (hserving : t.serving? = some h) :
    t.holder = some h ∧ h.stage = .serving := by
  obtain ⟨hholder, hstage⟩ := Option.filter_eq_some_iff.mp hserving
  exact ⟨hholder, of_decide_eq_true hstage⟩

theorem hasStage_of_serving (hserving : t.serving? = some h) : t.HasStage h := by
  rw [HasStage, held, (holder_of_serving hserving).1, Option.map_some]

theorem Kept.hasStage (hk : Kept config t t') (hstage : t.HasStage h) : t'.HasStage h :=
  hk.held.trans hstage

/-! ### assigning to the fields of one write -/

theorem mem_modifyWrite {f : PendingWrite → PendingWrite} {w' : PendingWrite} :
    w' ∈ (t.modifyWrite requestId f).writes ↔ ∃ w ∈ t.writes, w' =
      if w.requestId = requestId then f w else w :=
  KeyedList.mem_adjust

theorem modifyWrite_ids {f : PendingWrite → PendingWrite}
    (hid : ∀ w, (f w).requestId = w.requestId) :
    (t.modifyWrite requestId f).writes.map PendingWrite.requestId = t.writes.map
      PendingWrite.requestId := by
  simp only [modifyWrite, KeyedList.adjust, List.map_map]
  refine List.map_congr_left fun w _ => ?_
  simp only [Function.comp_apply]
  split
  · exact hid w
  · rfl

/-- A write that stays addressed as it was and does not stop being begun. -/
theorem modifyWrite_kept {f : PendingWrite → PendingWrite}
    (hid : ∀ w, (f w).requestId = w.requestId)
    (haddressed : ∀ w, (f w).addressedTerm = w.addressedTerm)
    (hstarted : ∀ w, (f w).startedTerm = none → w.startedTerm = none) :
    Kept config t (t.modifyWrite requestId f) :=
  { Kept.refl config t with
    ids := by rw [modifyWrite_ids hid]
    addressed := fun w' hw' => by
      obtain ⟨w, hw, rfl⟩ := mem_modifyWrite.mp hw'
      refine Or.inl ⟨w, hw, ?_⟩
      split
      · exact ⟨(hid w).symm, (haddressed w).symm⟩
      · exact ⟨rfl, rfl⟩
    stuck := fun r a _ => by
      rintro ⟨hended, w', hw', rfl, ha, hnone⟩
      obtain ⟨w, hw, rfl⟩ := mem_modifyWrite.mp hw'
      refine Or.inl ⟨hended, w, hw, ?_⟩
      split at ha
      · next hr =>
        rw [if_pos hr] at hnone
        exact ⟨by rw [if_pos hr, hid], (haddressed w).symm.trans ha, hstarted w hnone⟩
      · next hr =>
        rw [if_neg hr] at hnone
        exact ⟨by rw [if_neg hr], ha, hnone⟩ }

theorem settle_kept : Kept config t (t.settle requestId outcome) := by
  unfold settle
  split
  · exact Kept.refl config t
  · refine Kept.trans ?_ act_kept
    have hsub : ∀ w ∈ KeyedList.erase PendingWrite.requestId requestId t.writes, w ∈ t.writes :=
        fun w hw =>
      (KeyedList.mem_erase.mp hw).1
    exact { Kept.refl config t with
      ids := List.filter_sublist.map _
      addressed := fun w hw => Or.inl ⟨w, hsub w hw, rfl, rfl⟩
      stuck := fun r a _ ⟨hended, w, hw, h⟩ => Or.inl ⟨hended, w, hsub w hw, h⟩ }

theorem settleAll_kept {requestIds : List RequestId} :
    Kept config t (t.settleAll requestIds outcome) := by
  unfold settleAll
  induction requestIds generalizing t with
  | nil => exact Kept.refl config t
  | cons requestId requestIds ih => exact settle_kept.trans ih

theorem approve_kept : Kept config t (t.approve requestId term).1 := by
  unfold approve
  split
  · exact Kept.refl config t
  · split
    · exact Kept.refl config t
    · refine modifyWrite_kept (fun _ => rfl) (fun _ => rfl) fun w hnone => ?_
      exact (Option.or_eq_none_iff.mp hnone).1

/-! ### writes at this tab's port -/

theorem finishedForPeer_kept (hstage : t.HasStage h) :
    Kept config t (t.finishedForPeer config h key outcome) := by
  unfold finishedForPeer sendWriteResult
  refine Kept.trans ?_ send_kept
  exact setHolder_kept hstage

theorem answerAtOnce_kept (hstage : t.HasStage h) :
    Kept config t (t.answerAtOnce config h key outcome) := by
  unfold answerAtOnce
  split
  · exact settle_kept
  · exact finishedForPeer_kept hstage

theorem performWrite_kept (hstage : t.HasStage h) {payload : Payload} :
    Kept config t (t.performWrite config h key payload) := by
  unfold performWrite
  split
  · exact answerAtOnce_kept hstage
  · split
    · exact Kept.refl config t
    · exact answerAtOnce_kept hstage
    · exact setHolder_kept hstage

theorem dispatchWrite_kept {payload : Payload} :
    Kept config t (t.dispatchWrite config requestId payload term) := by
  unfold dispatchWrite
  split
  · next h hserving =>
    split
    · exact performWrite_kept (hasStage_of_serving hserving)
    · exact send_kept
  · exact send_kept

theorem current_of_dispatchTerm {write : PendingWrite} (hterm : t.dispatchTerm? write = some term) :
    t.terms.current = some term := by
  unfold dispatchTerm? at hterm
  split at hterm
  · cases hterm
  · cases hcurrent : t.terms.current with
    | none => simp [hcurrent] at hterm
    | some current =>
      rw [hcurrent] at hterm
      dsimp only at hterm
      split at hterm
      · cases hterm
      · split at hterm
        · exact hterm
        · split at hterm
          · cases hterm
          · exact hterm

/-- The write as `#dispatch` marks it before it hands it on. -/
def handOn (term : TermId) (w : PendingWrite) : PendingWrite :=
  { w with isDispatched := true, addressedTerm := some term }

/-- Marking a write for the current term keeps everything but its address. -/
theorem handOn_stuck (hcurrent : t.terms.current = some term)
    (hstuck : (t.modifyWrite requestId (handOn term)).IsStuck r a) :
    t.IsStuck r a ∨ t.terms.current = some a := by
  obtain ⟨hended, w', hw', rfl, ha, hnone⟩ := hstuck
  obtain ⟨w, hw, rfl⟩ := mem_modifyWrite.mp hw'
  split at ha
  · exact Or.inr (hcurrent.trans ha)
  · next hr =>
    rw [if_neg hr] at hnone
    exact Or.inl ⟨hended, w, hw, by rw [if_neg hr], ha, hnone⟩

theorem dispatchWrite_isHanded {payload : Payload} (hcurrent : t.terms.current = some term)
    {w : PendingWrite}
    (hid : w.requestId = requestId) (ha : w.addressedTerm = some term) :
    (t.dispatchWrite config requestId payload term).IsHanded config w := by
  have hk : Kept config t (t.dispatchWrite config requestId payload term) := dispatchWrite_kept
  refine ⟨term, ha, hk.terms ▸ hcurrent, ?_⟩
  have hsent : (∃ p, .send ⟨config.clientId, .all, .writeRequest w.requestId p term⟩ ∈
      (t.send config .all (.writeRequest requestId payload term)).outbox) :=
    ⟨payload, by rw [hid]; exact List.mem_append_right _ (List.mem_singleton_self _)⟩
  unfold dispatchWrite at hk ⊢
  split
  · next h hserving =>
    split
    · next hown =>
      have hheld := hasStage_of_serving hserving
      rw [HasStage, (holder_of_serving hserving).2, ← hown.2] at hheld
      rw [hserving] at hk
      simp only [if_pos hown] at hk
      exact Or.inr (hk.held.trans hheld)
    · exact Or.inl hsent
  · exact Or.inl hsent

theorem dispatch_kept : Kept config t (t.dispatch config requestId) := by
  unfold dispatch
  split
  · exact Kept.refl config t
  · split
    · exact Kept.refl config t
    · next write _ _ term hterm =>
      have hcurrent := current_of_dispatchTerm hterm
      have hk : Kept config (t.modifyWrite requestId (handOn term))
        ((t.modifyWrite requestId (handOn term)).dispatchWrite config requestId
          write.payload term) := dispatchWrite_kept
      have hids : (t.modifyWrite requestId (handOn term)).writes.map PendingWrite.requestId =
          t.writes.map PendingWrite.requestId := modifyWrite_ids fun _ => rfl
      refine ⟨hk.isJoined, hk.isReleased, hk.isWithdrawn, hk.status, hk.stack, hk.election,
        hk.terms, hk.nextKey, hk.issued,
        hk.held, hk.outbox, hids ▸ hk.ids, fun w'' hw'' => ?_, fun r a hcan hstuck => ?_⟩
      · rcases hk.addressed w'' hw'' with ⟨w', hw', hid', ha'⟩ | hhanded
        · obtain ⟨w, hw, rfl⟩ := mem_modifyWrite.mp hw'
          split at ha'
          · next hr =>
            rw [if_pos hr] at hid'
            have hmarked : (t.modifyWrite requestId (handOn term)).terms.current = some term :=
              hcurrent
            exact Or.inr (dispatchWrite_isHanded hmarked (hid'.symm.trans hr) ha'.symm)
          · next hr => exact Or.inl ⟨w, hw, by rwa [if_neg hr] at hid', ha'⟩
        · exact Or.inr hhanded
      · rcases hk.stuck r a hcan hstuck with hstuck | hcurrent'
        · exact handOn_stuck hcurrent hstuck
        · exact Or.inr hcurrent'

theorem dispatchAll_kept {requestIds : List RequestId} :
    Kept config t (t.dispatchAll config requestIds) := by
  unfold dispatchAll
  induction requestIds generalizing t with
  | nil => exact Kept.refl config t
  | cons requestId requestIds ih => exact dispatch_kept.trans ih

theorem resend_kept : Kept config t (t.resend config requestId) := by
  have hagain : Kept config t ((t.modifyWrite requestId fun w =>
      { w with isDispatched := false }).dispatch config requestId) := by
    refine Kept.trans ?_ dispatch_kept
    exact modifyWrite_kept (fun _ => rfl) (fun _ => rfl) fun _ => id
  unfold resend
  split
  · exact Kept.refl config t
  · split
    · exact Kept.refl config t
    · split
      · exact hagain
      · split
        · exact hagain
        · exact Kept.refl config t

theorem resendUnstarted_kept : Kept config t (t.resendUnstarted config) := by
  unfold resendUnstarted
  have hfold : ∀ (requestIds : List RequestId) (t : Tab),
      Kept config t (requestIds.foldl (fun t requestId => t.resend config requestId) t) := by
    intro requestIds
    induction requestIds with
    | nil => exact Kept.refl config
    | cons requestId requestIds ih => exact fun t => resend_kept.trans (ih _)
  exact hfold _ t

theorem writeDeadline_kept : Kept config t (t.writeDeadline requestId) := by
  unfold writeDeadline
  split
  · exact Kept.refl config t
  · exact settle_kept

theorem takeApproval_kept {approved : Bool} : Kept config t (t.takeApproval key term approved) := by
  unfold takeApproval
  split
  · exact Kept.refl config t
  · next h hserving =>
    split
    · exact Kept.refl config t
    · split
      · exact Kept.refl config t
      · have hstage := hasStage_of_serving hserving
        exact setHolder_kept hstage

theorem performWriteForPeer_kept {payload : Payload} :
    Kept config t (t.performWriteForPeer config key payload term) := by
  unfold performWriteForPeer
  split
  · exact Kept.refl config t
  · next h hserving =>
    split
    · exact Kept.refl config t
    · exact performWrite_kept (hasStage_of_serving hserving)

/-! ### handing on what waits for an ended term -/

/-- What the writes rely on: each request is pending once, and the current term has not ended. -/
structure WritesSound (t : Tab) : Prop where
  ids : (t.writes.map PendingWrite.requestId).Nodup
  current : ∀ a, t.terms.current = some a → t.terms.isEnded a = false

theorem Kept.writesSound (hk : Kept config t t') (hs : t.WritesSound) : t'.WritesSound :=
  ⟨hs.ids.sublist hk.ids, hk.terms.symm ▸ hs.current⟩

/-- A request that nothing was waiting for an ended term under still has nothing waiting. -/
theorem Kept.not_stuck (hk : Kept config t t') (hs : t.WritesSound) (hcan : t.CanHandOn)
    (hnot : ∀ a, ¬ t.IsStuck r a) (a : TermId) :
    ¬ t'.IsStuck r a := by
  intro hstuck
  rcases hk.stuck r a hcan hstuck with hstuck' | hcurrent
  · exact hnot a hstuck'
  · have hended := hs.current a hcurrent
    rw [← hk.terms, hstuck.1] at hended
    cases hended

theorem isStuck_iff (hs : t.WritesSound) {w : PendingWrite} (hw : w ∈ t.writes) :
    t.IsStuck w.requestId a ↔
      t.terms.isEnded a = true ∧ w.addressedTerm = some a ∧ w.startedTerm = none := by
  constructor
  · rintro ⟨hended, w', hw', hid, h⟩
    rw [KeyedList.Distinct.eq_of_mem hs.ids hw' hw hid] at h
    exact ⟨hended, h⟩
  · exact fun ⟨hended, h⟩ => ⟨hended, w, hw, rfl, h⟩

/-- Where there is something to hand writes to, a dispatched request does not wait for an ended
term. -/
theorem dispatch_not_stuck (hs : t.WritesSound) (hcan : t.CanHandOn) (a : TermId) :
    ¬ (t.dispatch config requestId).IsStuck requestId a := by
  unfold dispatch
  cases hpending : t.pending? requestId with
  | none =>
    rintro ⟨-, w, hw, hid, -⟩
    exact KeyedList.lookup_eq_none.mp hpending w hw hid
  | some write =>
    obtain ⟨hw, rfl⟩ : write ∈ t.writes ∧ write.requestId = requestId :=
      ⟨KeyedList.mem_of_lookup hpending, KeyedList.key_of_lookup hpending⟩
    obtain ⟨hopen, hcurrent⟩ := hcan
    obtain ⟨term, hterm⟩ := Option.ne_none_iff_exists'.mp hcurrent
    dsimp only
    cases hto : t.dispatchTerm? write with
    | none =>
      rw [isStuck_iff hs hw]
      rintro ⟨hended, haddressed, hnone⟩
      have hne : a ≠ term := by
        rintro rfl
        rw [hs.current a hterm] at hended
        cases hended
      simp [dispatchTerm?, hnone, hopen, hterm, haddressed, hne, hended] at hto
    | some handed =>
      have hto' := current_of_dispatchTerm hto
      have hids : (t.modifyWrite write.requestId (handOn handed)).writes.map
          PendingWrite.requestId =
          t.writes.map PendingWrite.requestId := modifyWrite_ids fun _ => rfl
      have hsound : (t.modifyWrite write.requestId (handOn handed)).WritesSound :=
        ⟨hids ▸ hs.ids, hs.current⟩
      have hnot : ∀ a, ¬ (t.modifyWrite write.requestId (handOn handed)).IsStuck
          write.requestId a := by
        rintro a ⟨hended, w', hw', hid, haddressed, -⟩
        obtain ⟨w, -, rfl⟩ := mem_modifyWrite.mp hw'
        split at haddressed
        · obtain rfl := Option.some.inj haddressed
          have hcurrent' := hs.current _ hto'
          rw [show t.terms.isEnded handed = true from hended] at hcurrent'
          cases hcurrent'
        · next hother => exact hother (by rwa [if_neg hother] at hid)
      exact dispatchWrite_kept.not_stuck hsound ⟨hopen, hcurrent⟩ hnot a

theorem dispatchAll_not_stuck (hs : t.WritesSound) (hcan : t.CanHandOn)
    {requestIds : List RequestId} (hr : r ∈ requestIds) (a : TermId) :
    ¬ (t.dispatchAll config requestIds).IsStuck r a := by
  unfold dispatchAll
  induction requestIds generalizing t with
  | nil => cases hr
  | cons requestId requestIds ih =>
    have hk : Kept config t (t.dispatch config requestId) := dispatch_kept
    rcases List.mem_cons.mp hr with rfl | hr
    · have hrest : Kept config (t.dispatch config r)
        ((t.dispatch config r).dispatchAll config requestIds) := dispatchAll_kept
      exact hrest.not_stuck (hk.writesSound hs) (hk.canHandOn.mpr hcan)
        (dispatch_not_stuck hs hcan) a
    · exact ih (hk.writesSound hs) (hk.canHandOn.mpr hcan) hr

theorem dispatchWaiting_kept : Kept config t (t.dispatchWaiting config) := dispatchAll_kept

/-- **Where there is something to hand writes to, `dispatchWaiting` leaves no request waiting for an
ended term.** -/
theorem dispatchWaiting_not_stuck (hs : t.WritesSound) (hcan : t.CanHandOn) (r : RequestId)
    (a : TermId) :
    ¬ (t.dispatchWaiting config).IsStuck r a := by
  by_cases hr : r ∈ t.writes.map PendingWrite.requestId
  · exact dispatchAll_not_stuck hs hcan hr a
  · refine dispatchWaiting_kept.not_stuck hs hcan (fun a ⟨_, w, hw, hid, _⟩ => ?_) a
    exact hr (hid ▸ List.mem_map_of_mem hw)

theorem handleTermEnded_kept : Kept config t (t.handleTermEnded config term) :=
  settleAll_kept.trans dispatchWaiting_kept

theorem handleTermEnded_not_stuck (hs : t.WritesSound) (hcan : t.CanHandOn) (r : RequestId)
    (a : TermId) :
    ¬ (t.handleTermEnded config term).IsStuck r a := by
  have hk : Kept config t
      (t.settleAll ((t.writes.filter fun w => w.startedTerm = some term).map PendingWrite.requestId)
    (some (.plain .OWNER_LOST_DURING_WRITE))) := settleAll_kept
  exact dispatchWaiting_not_stuck (hk.writesSound hs) (hk.canHandOn.mpr hcan) r a

/-- A write handed back is handed on in the same turn, where it can be. -/
theorem handleResult_kept (hs : t.WritesSound) {term : Option TermId} :
    Kept config t (t.handleResult config requestId term outcome) := by
  unfold handleResult
  split
  · exact Kept.refl config t
  · split
    · exact Kept.refl config t
    · split
      · generalize hback : (t.modifyWrite requestId fun w =>
          { w with startedTerm := none, isDispatched := false }) = back
        have hids : (back.writes.map PendingWrite.requestId) = t.writes.map
            PendingWrite.requestId := by
          rw [← hback, modifyWrite_ids]
          exact fun _ => rfl
        have hother : ∀ w' ∈ back.writes, ∃ w ∈ t.writes, w'.requestId = w.requestId ∧
            w'.addressedTerm = w.addressedTerm ∧
            (w.requestId ≠ requestId → w' = w) := by
          rw [← hback]
          intro w' hw'
          obtain ⟨w, hw, rfl⟩ := mem_modifyWrite.mp hw'
          refine ⟨w, hw, ?_⟩
          split
          · next hid => exact ⟨rfl, rfl, fun hne => absurd hid hne⟩
          · exact ⟨rfl, rfl, fun _ => rfl⟩
        have hsame : back = { t with writes := back.writes } := by rw [← hback]; rfl
        have hterms : back.terms = t.terms := by rw [hsame]
        have hstatus : back.status = t.status := by rw [hsame]
        have hsound : back.WritesSound := ⟨hids ▸ hs.ids, hterms ▸ hs.current⟩
        have hk : Kept config back (back.dispatch config requestId) := dispatch_kept
        refine ⟨?_, ?_, ?_, ?_, ?_, ?_, ?_, ?_, ?_, ?_, ?_, ?_, fun w'' hw'' => ?_,
          fun r a hcan hstuck => ?_⟩
        · rw [hk.isJoined, hsame]
        · rw [hk.isReleased, hsame]
        · rw [hk.isWithdrawn, hsame]
        · rw [hk.status, hsame]
        · rw [hk.stack, hsame]
        · rw [hk.election, hsame]
        · rw [hk.terms, hsame]
        · rw [hk.nextKey, hsame]
        · rw [hk.issued, hsame]
        · rw [hk.held, hsame]
          rfl
        · refine List.Subset.trans ?_ hk.outbox
          rw [hsame]
          exact List.Subset.refl _
        · exact hids ▸ hk.ids
        · rcases hk.addressed w'' hw'' with ⟨w', hw', hid, ha⟩ | hhanded
          · obtain ⟨w, hw, hid', ha', -⟩ := hother w' hw'
            exact Or.inl ⟨w, hw, hid'.symm.trans hid, ha'.symm.trans ha⟩
          · exact Or.inr hhanded
        · have hcan' : back.CanHandOn := by
            unfold CanHandOn
            rw [hstatus, hterms]
            exact hcan
          rcases hk.stuck r a hcan' hstuck with ⟨hended, w', hw', hid, ha, hnone⟩ | hcurrent
          · by_cases hr : r = requestId
            · exact absurd (hr ▸ hstuck) (dispatch_not_stuck hsound hcan' a)
            · obtain ⟨w, hw, hid', ha', heq⟩ := hother w' hw'
              obtain rfl := heq fun hne => hr (by rw [← hid, hid', hne])
              exact Or.inl ⟨hterms ▸ hended, w', hw, hid, ha, hnone⟩
          · exact Or.inr (hterms ▸ hcurrent)
      · exact settle_kept

/-! ### what the port does -/

theorem beginWrite_kept (hstage : t.HasStage h) {job : Job} {connection : ConnectionId} :
    Kept config t (t.beginWrite h job connection) := by
  refine Kept.trans ?_ act_kept
  exact setHolder_kept hstage

theorem goOnWithWrite_kept (hstage : t.HasStage h) {job : Job} {isApproved : Bool} :
    Kept config t (t.goOnWithWrite h job isApproved) := by
  unfold goOnWithWrite
  split
  · exact setHolder_kept hstage
  · split
    · exact beginWrite_kept hstage
    · exact setHolder_kept hstage

theorem askToBegin_kept (hstage : t.HasStage h) {job : Job} :
    Kept config t (t.askToBegin config h job) := by
  unfold askToBegin
  split
  · have hk : Kept config t (t.approve job.key.requestId h.term).1 := approve_kept
    exact hk.trans (goOnWithWrite_kept (hk.hasStage hstage))
  · refine Kept.trans ?_ send_kept
    exact setHolder_kept hstage

theorem startJob_kept (hstage : t.HasStage h) {job : Job} {isExpired : Bool} :
    Kept config t (t.startJob config h job isExpired) := by
  unfold startJob
  dsimp only
  split
  · exact setHolder_kept hstage
  · split
    · exact setHolder_kept hstage
    · refine askToBegin_kept ?_
      exact hstage

end Tab

end SerialBroker
