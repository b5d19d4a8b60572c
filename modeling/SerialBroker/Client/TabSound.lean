import SerialBroker.Client.TabRuns
import SerialBroker.Client.TermEnds
import SerialBroker.Client.WritesKept

/-!
# What holds of a tab in every run

A tab's session in the middle of any turn: what its writes, its terms, its election and its port say
about each other, and what the rest of the turn still has to do. Two facts carry the writes: a tab
without a current term is not connected, unless it holds the port itself or is about to hear of the
end (`Led`); and a request waits for an ended term only while there is nothing to hand it to, or
while the rest of the turn hands it on (`Settled`).
-/

namespace SerialBroker

/-- A frame in which the application may be running. -/
def TurnFrame.isCallback : TurnFrame → Bool
  | .emitted _ | .announcing _ => true
  | .effects _ | .takeOwn _ | .withdraw => false

/-- The locks of a term are held, or about to be let go. -/
def ElectionPhase.isHolding : ElectionPhase → Bool
  | .owner _ | .leaving .. => true
  | _ => false

def ElectionPhase.isLeaving : ElectionPhase → Bool
  | .leaving .. => true
  | _ => false

namespace Tab

variable {t t' : Tab} {config : TabConfig} {frame : TurnFrame} {stack : List TurnFrame}
  {status : SerialBrokerStatus}
  {input : TermInput} {a : TermId} {r : RequestId}

/-- The rest of the turn has ends to handle, of which some satisfy `p`. -/
def EndsWaiting (t : Tab) (p : Bool → Prop) : Prop :=
  ∃ l, .effects l ∈ t.stack ∧ ∃ key a c, .ended key a c ∈ l ∧ p c

/-- What the parts of a tab say about each other. -/
structure Based (t : Tab) : Prop where
  terms : t.terms.WellFormed t.nextKey
  ids : (t.writes.map PendingWrite.requestId).Nodup
  fresh : ∀ w ∈ t.writes, w.requestId < t.issued.length
  released : t.isReleased = true → t.writes = []
  withdrawing : .withdraw ∈ t.stack → t.isWithdrawn = true
  disposed : t.terms.isDisposed = true →
    t.writes = [] ∧ (t.isReleased = true ∨ t.isWithdrawn = true)
  stopped : t.election.isStopped = true → t.isReleased = true ∨ t.isWithdrawn = true
  leaving : t.election.phase.isLeaving = true → t.election.isStopped = true
  owner : t.election.isOwner = true → t.isWithdrawn = false ∧ t.election.phase.isHolding = true
  serving : ∀ a, t.held = some (a, .serving) → t.election.isOwner = true ∧ t.isReleased = false
  givenUp : ∀ a stage, t.held = some (a, stage) → stage ≠ .serving → t.isReleased = true
  starting : ∀ a, .takeOwn a ∈ t.stack →
    t.election.isOwner = true ∧ (t.status = .open → t.terms.current ≠ none) ∧
    ∃ frames, t.stack = frames ++ [.takeOwn a] ∧ ∀ f ∈ frames, f.isCallback = true
  ended : ∀ l, .effects l ∈ t.stack → ∀ key a c, .ended key a c ∈ l → t.terms.isEnded a = true ∨
    t.terms.isDisposed = true
  applied : ∀ l, .effects l ∈ t.stack → ∀ message, .apply message ∈ l → message.claim? ≠ none →
    t.terms.current ≠ none ∨ t.terms.isDisposed = true

/-- A withdrawn tab has given everything up, or the rest of the turn does. -/
def Withdraws (t : Tab) : Prop :=
  t.isWithdrawn = true → .withdraw ∈ t.stack ∨ (t.writes = [] ∧ t.election.isStopped = true)

/-- A connected tab without a current term holds the port, or is about to hear of the end of its
term. -/
def Led (t : Tab) : Prop :=
  t.status = .open → t.terms.current = none → t.election.isOwner = true ∨ t.isReleased = true ∨
    t.EndsWaiting (· = true)

/-- The rest of the turn hands waiting writes on. -/
def WillHandOn (t : Tab) : Prop := .emitted (some .open) ∈ t.stack ∨ t.EndsWaiting fun _ => True

/-- No request waits for an ended term that could be handed on, unless the rest of the turn does
it. -/
def Settled (t : Tab) : Prop := t.CanHandOn → ∀ r a, t.IsStuck r a → t.WillHandOn

/-- What holds of a tab at every moment. -/
structure Sound (t : Tab) : Prop extends Based t where
  withdraws : t.Withdraws
  led : t.Led
  settled : t.Settled

theorem init_sound : init.Sound where
  terms := OwnerTerms.empty_wellFormed
  ids := List.nodup_nil
  fresh := by simp [init]
  released := nofun
  withdraws := nofun
  withdrawing := by simp [init]
  disposed := nofun
  stopped := nofun
  leaving := nofun
  owner := nofun
  serving := by simp [init, held]
  givenUp := by simp [init, held]
  starting := by simp [init]
  ended := by simp [init]
  applied := by simp [init]
  led := nofun
  settled := by simp [Settled, CanHandOn, init]

theorem Based.writesSound (hb : t.Based) : t.WritesSound :=
  ⟨hb.ids, fun _ => hb.terms.current_not_ended⟩

theorem not_stuck_of_empty (hempty : t.writes = []) : ¬ t.IsStuck r a := by
  rintro ⟨-, w, hw, -⟩
  rw [hempty] at hw
  cases hw

/-- Where a turn ends, no request waits for an ended term that could be handed on. -/
theorem Settled.not_stuck (hs : t.Settled) (hstack : t.stack = []) (hcan : t.CanHandOn) :
    ¬ t.IsStuck r a := by
  intro hstuck
  rcases hs hcan r a hstuck with hin | ⟨l, hin, -⟩
  · rw [hstack] at hin
    cases hin
  · rw [hstack] at hin
    cases hin

/-! ### working on the writes, and at the port -/

theorem Kept.empty (hk : Kept config t t') (hempty : t.writes = []) : t'.writes = [] := by
  have hids := hk.ids
  rw [hempty] at hids
  exact List.map_eq_nil_iff.mp (List.sublist_nil.mp hids)

theorem Kept.endsWaiting (hk : Kept config t t') {p : Bool → Prop} :
    t'.EndsWaiting p ↔ t.EndsWaiting p := by
  unfold EndsWaiting
  rw [hk.stack]

theorem Kept.based (hk : Kept config t t') (hb : t.Based) : t'.Based where
  terms := by
    rw [hk.terms, hk.nextKey]
    exact hb.terms
  ids := hb.ids.sublist hk.ids
  fresh w' hw' := by
    obtain ⟨w, hw, hid⟩ := List.mem_map.mp (hk.ids.subset (List.mem_map_of_mem hw'))
    rw [hk.issued, ← hid]
    exact hb.fresh w hw
  released h := hk.empty (hb.released (hk.isReleased ▸ h))
  withdrawing h := by
    rw [hk.isWithdrawn]
    exact hb.withdrawing (hk.stack ▸ h)
  disposed h := by
    rw [hk.isReleased, hk.isWithdrawn]
    exact (hb.disposed (hk.terms ▸ h)).imp_left hk.empty
  stopped h := by
    rw [hk.isReleased, hk.isWithdrawn]
    exact hb.stopped (hk.election ▸ h)
  leaving h := by
    rw [hk.election] at h ⊢
    exact hb.leaving h
  owner h := by
    rw [hk.election] at h ⊢
    rw [hk.isWithdrawn]
    exact hb.owner h
  serving a h := by
    rw [hk.election, hk.isReleased]
    exact hb.serving a (hk.held ▸ h)
  givenUp a stage h := by
    rw [hk.isReleased]
    exact hb.givenUp a stage (hk.held ▸ h)
  starting a h := by
    rw [hk.stack] at h ⊢
    rw [hk.election, hk.status, hk.terms]
    exact hb.starting a h
  ended l h := by
    rw [hk.terms]
    exact hb.ended l (hk.stack ▸ h)
  applied l h := by
    rw [hk.terms]
    exact hb.applied l (hk.stack ▸ h)

theorem Kept.withdraws (hk : Kept config t t') (hw : t.Withdraws) : t'.Withdraws := by
  intro h
  rw [hk.stack, hk.election]
  exact (hw (hk.isWithdrawn ▸ h)).imp_right fun h => ⟨hk.empty h.1, h.2⟩

theorem Kept.led (hk : Kept config t t') (hled : t.Led) : t'.Led := by
  intro hopen hcurrent
  rw [hk.election, hk.isReleased, hk.endsWaiting]
  exact hled (hk.status ▸ hopen) (hk.terms ▸ hcurrent)

theorem Kept.settled (hk : Kept config t t') (hb : t.Based) (hs : t.Settled) : t'.Settled := by
  intro hcan r a hstuck
  have hcan := hk.canHandOn.mp hcan
  rcases hk.stuck r a hcan hstuck with hbefore | hcurrent
  · unfold WillHandOn
    rw [hk.stack, hk.endsWaiting]
    exact hs hcan r a hbefore
  · have hnot := hb.terms.current_not_ended hcurrent
    rw [← hk.terms, hstuck.1] at hnot
    cases hnot

theorem Kept.sound (hk : Kept config t t') (hs : t.Sound) : t'.Sound :=
  ⟨hk.based hs.toBased, hk.withdraws hs.withdraws, hk.led hs.led, hk.settled hs.toBased hs.settled⟩

/-! ### calling the application back -/

theorem mem_push_callback (hf : frame.isCallback = true) {f : TurnFrame}
    (hne : f.isCallback = false) :
    f ∈ (t.push frame).stack ↔ f ∈ t.stack := by
  refine List.mem_cons.trans (or_iff_right ?_)
  rintro rfl
  rw [hne] at hf
  cases hf

theorem EndsWaiting.push {p : Bool → Prop} (h : t.EndsWaiting p) :
    (t.push frame).EndsWaiting p := by
  obtain ⟨l, hin, hend⟩ := h
  exact ⟨l, List.mem_cons_of_mem _ hin, hend⟩

theorem WillHandOn.push (h : t.WillHandOn) : (t.push frame).WillHandOn :=
  h.imp (List.mem_cons_of_mem _) EndsWaiting.push

theorem Based.push (hb : t.Based) (hf : frame.isCallback = true) : (t.push frame).Based :=
  { hb with
    withdrawing := fun h => hb.withdrawing ((mem_push_callback hf rfl).mp h)
    starting := fun a h => by
      obtain ⟨howner, hcurrent, frames, hstack, hcallbacks⟩ :=
        hb.starting a ((mem_push_callback hf rfl).mp h)
      refine ⟨howner, hcurrent, frame :: frames, congrArg (frame :: ·) hstack, fun f hin => ?_⟩
      rcases List.mem_cons.mp hin with rfl | hin
      · exact hf
      · exact hcallbacks f hin
    ended := fun l h => hb.ended l ((mem_push_callback hf rfl).mp h)
    applied := fun l h => hb.applied l ((mem_push_callback hf rfl).mp h) }

theorem Withdraws.push (hw : t.Withdraws) : (t.push frame).Withdraws :=
  fun h => (hw h).imp_left (List.mem_cons_of_mem _)

theorem Led.push (hled : t.Led) : (t.push frame).Led := fun hopen hcurrent =>
  (hled hopen hcurrent).imp_right (Or.imp_right EndsWaiting.push)

theorem Settled.push (hs : t.Settled) : (t.push frame).Settled :=
  fun hcan r a hstuck => (hs hcan r a hstuck).push

theorem Sound.push (hs : t.Sound) (hf : frame.isCallback = true) : (t.push frame).Sound :=
  ⟨hs.toBased.push hf, hs.withdraws.push, hs.led.push, hs.settled.push⟩

/-- Going back to a turn whose callback has returned. -/
theorem Based.pop (hb : t.Based) (hstack : t.stack = frame :: stack) :
    ({ t with stack } : Tab).Based :=
  have hsub : ∀ f, f ∈ stack → f ∈ t.stack := fun f hf => hstack ▸ List.mem_cons_of_mem _ hf
  { hb with
    withdrawing := fun h => hb.withdrawing (hsub _ h)
    starting := fun a h => by
      obtain ⟨howner, hcurrent, frames, heq, hcallbacks⟩ := hb.starting a (hsub _ h)
      refine ⟨howner, hcurrent, ?_⟩
      rw [hstack] at heq
      cases frames with
      | nil =>
        obtain ⟨-, rfl⟩ := List.cons.inj heq
        cases h
      | cons f frames =>
        obtain ⟨rfl, rfl⟩ := List.cons.inj heq
        exact ⟨frames, rfl, fun f hf => hcallbacks f (List.mem_cons_of_mem _ hf)⟩
    ended := fun l h => hb.ended l (hsub _ h)
    applied := fun l h => hb.applied l (hsub _ h) }

/-! ### setting the status -/

theorem setStatus_cases (t : Tab) (status : SerialBrokerStatus) : t.setStatus status = t ∨
    (t.setStatus status = { t with
      status }.push (.emitted (some status)) ∧ (t.isReleased = true → status = .released)) := by
  unfold setStatus
  split
  · exact Or.inl rfl
  · next h =>
    refine Or.inr ⟨rfl, fun hreleased => ?_⟩
    by_contra hne
    exact h (Or.inr ⟨hreleased, hne⟩)

/-- Nothing but the status and the turn changes. -/
theorem setStatus_rest (t : Tab) (status : SerialBrokerStatus) :
    (t.setStatus status).writes = t.writes ∧ (t.setStatus status).terms = t.terms ∧
    (t.setStatus status).election = t.election ∧ (t.setStatus status).isReleased = t.isReleased ∧
    (t.setStatus status).isWithdrawn = t.isWithdrawn := by
  rcases setStatus_cases t status with heq | ⟨heq, -⟩ <;> rw [heq]
    <;> exact ⟨rfl, rfl, rfl, rfl, rfl⟩

theorem setStatus_open (hne : status ≠ .open) (hopen : (t.setStatus status).status = .open) :
    t.isReleased = true := by
  unfold Tab.setStatus at hopen
  split at hopen
  · next h =>
    rcases h with h | h
    · exact absurd (h.symm.trans hopen) hne
    · exact h.1
  · exact absurd hopen hne

theorem mem_setStatus_stack (hin : frame ∈ (t.setStatus status).stack)
    (hne : frame ≠ .emitted (some status)) : frame ∈ t.stack := by
  rcases setStatus_cases t status with heq | ⟨heq, -⟩ <;> rw [heq] at hin
  · exact hin
  · exact (List.mem_cons.mp hin).resolve_left hne

theorem Based.setStatus (hb : t.Based)
    (hstarting : status = .open → t.terms.current = none → ∀ a, .takeOwn a ∉ t.stack) :
    (t.setStatus status).Based := by
  rcases setStatus_cases t status with heq | ⟨heq, -⟩ <;> rw [heq]
  · exact hb
  · refine Based.push ?_ rfl
    exact { hb with
      starting := fun a h => by
        obtain ⟨howner, -, hframes⟩ := hb.starting a h
        exact ⟨howner, fun hopen hcurrent => hstarting hopen hcurrent a h, hframes⟩ }

theorem Withdraws.setStatus (hw : t.Withdraws) : (t.setStatus status).Withdraws := by
  rcases setStatus_cases t status with heq | ⟨heq, -⟩ <;> rw [heq]
  · exact hw
  · exact fun h => (hw h).imp_left (List.mem_cons_of_mem _)

theorem Led.setStatus (hled : t.Led)
    (hopen : status = .open → t.terms.current = none → t.election.isOwner = true) :
    (t.setStatus status).Led := by
  rcases setStatus_cases t status with heq | ⟨heq, -⟩ <;> rw [heq]
  · exact hled
  · exact fun h hcurrent => Or.inl (hopen h hcurrent)

theorem Settled.setStatus (hs : t.Settled) : (t.setStatus status).Settled := by
  rcases setStatus_cases t status with heq | ⟨heq, -⟩ <;> rw [heq]
  · exact hs
  · rintro ⟨rfl, -⟩ r a -
    exact Or.inl List.mem_cons_self

theorem Sound.setStatus (hs : t.Sound)
    (hopen : status = .open → t.terms.current = none →
      t.election.isOwner = true ∧ ∀ a, .takeOwn a ∉ t.stack) :
    (t.setStatus status).Sound :=
  ⟨hs.toBased.setStatus fun h hcurrent => (hopen h hcurrent).2, hs.withdraws.setStatus,
    hs.led.setStatus fun h hcurrent => (hopen h hcurrent).1,
    hs.settled.setStatus⟩

/-! ### the election -/

/-- A step of the election that does not make the tab the owner. -/
theorem Based.withElection (hb : t.Based) {e : Election}
    (hstopped : e.isStopped = true → t.election.isStopped = true ∨ t.isReleased = true ∨
      t.isWithdrawn = true)
    (hleaving : e.phase.isLeaving = true → e.isStopped = true)
    (howner : e.isOwner = true → t.election.isOwner = true ∧ e.phase.isHolding = true)
    (hlost : t.election.isOwner = true → e.isOwner = true ∨ (t.isReleased = true ∧ t.stack = [])) :
    ({ t with election := e } : Tab).Based :=
  { hb with
    stopped := fun h => (hstopped h).elim hb.stopped id
    leaving := hleaving
    owner := fun h => ⟨(hb.owner (howner h).1).1, (howner h).2⟩
    serving := fun a h => by
      obtain ⟨hown, hnot⟩ := hb.serving a h
      refine ⟨(hlost hown).resolve_right ?_, hnot⟩
      rw [hnot]
      exact nofun
    starting := fun a h => by
      obtain ⟨hown, hrest⟩ := hb.starting a h
      refine ⟨(hlost hown).resolve_right fun hover => ?_, hrest⟩
      rw [show ({ t with election := e } : Tab).stack = [] from hover.2] at h
      cases h }

theorem Sound.withElection (hs : t.Sound) {e : Election}
    (hstopped : e.isStopped = true → t.election.isStopped = true ∨ t.isReleased = true ∨
      t.isWithdrawn = true)
    (hkept : t.election.isStopped = true → e.isStopped = true)
    (hleaving : e.phase.isLeaving = true → e.isStopped = true)
    (howner : e.isOwner = true → t.election.isOwner = true ∧ e.phase.isHolding = true)
    (hlost : t.election.isOwner = true → e.isOwner = true ∨ (t.isReleased = true ∧ t.stack = [])) :
    ({ t with election := e } : Tab).Sound where
  toBased := hs.toBased.withElection hstopped hleaving howner hlost
  withdraws h := (hs.withdraws h).imp_right fun h => ⟨h.1, hkept h.2⟩
  led hopen hcurrent := by
    rcases hs.led hopen hcurrent with h | h | h
    · exact (hlost h).imp_right fun h => Or.inl h.1
    · exact Or.inr (Or.inl h)
    · exact Or.inr (Or.inr h)
  settled := hs.settled

theorem Sound.act (hs : t.Sound) {action : Action} : (t.act action).Sound :=
  (show Kept ⟨⟨.infinity, true, 0⟩, 0⟩ t (t.act action) from act_kept).sound hs

theorem stopElection_cases (t : Tab) :
    (t.election.isStopped = true ∧ t.stopElection = t) ∨ ∃ e :
    Election, e.isStopped = true ∧ e.isOwner = t.election.isOwner ∧
    (t.election.phase.isHolding = true → e.phase.isHolding = true) ∧
    (t.stopElection = { t with election := e } ∨ t.stopElection =
      { t with election := e }.act .withdrawOwnerRequest) := by
  unfold stopElection
  split
  · next hstopped => exact Or.inl ⟨hstopped, rfl⟩
  · refine Or.inr ?_
    cases hphase : t.election.phase with
    | off =>
      exact ⟨{ t.election with phase := .left, isStopped := true }, rfl, rfl, nofun, Or.inl rfl⟩
    | paused =>
      exact ⟨{ t.election with phase := .left, isStopped := true }, rfl, rfl, nofun, Or.inl rfl⟩
    | requested => exact ⟨{ t.election with
      phase := .left
      isStopped := true }, rfl, rfl, nofun, Or.inr rfl⟩
    | owner term => exact ⟨{ t.election with
      phase := .leaving term true
      isStopped := true }, rfl, rfl, fun _ => rfl, Or.inl rfl⟩
    | locking term => exact ⟨{ t.election with isStopped := true }, rfl, rfl, nofun, Or.inl rfl⟩
    | leaving term holds =>
      exact ⟨{ t.election with isStopped := true }, rfl, rfl,
        fun _ => by rw [hphase]; rfl, Or.inl rfl⟩
    | left => exact ⟨{ t.election with isStopped := true }, rfl, rfl, nofun, Or.inl rfl⟩

theorem stopElection_isStopped : t.stopElection.election.isStopped = true := by
  rcases stopElection_cases t with ⟨hstopped, heq⟩ | ⟨e, hstopped, -, -, heq | heq⟩ <;> rw [heq]
    <;> exact hstopped

/-- Nothing but the election and the outbox changes. -/
theorem stopElection_rest (t : Tab) :
    t.stopElection.writes = t.writes ∧ t.stopElection.stack = t.stack ∧
    t.stopElection.status = t.status ∧
    t.stopElection.isReleased = t.isReleased ∧ t.stopElection.isWithdrawn = t.isWithdrawn ∧
      t.stopElection.terms = t.terms := by
  rcases stopElection_cases t with ⟨-, heq⟩ | ⟨e, -, -, -, heq | heq⟩ <;> rw [heq]
    <;> exact ⟨rfl, rfl, rfl, rfl, rfl, rfl⟩

theorem Based.stopElection (hb : t.Based) (hgone : t.isReleased = true ∨ t.isWithdrawn = true) :
    t.stopElection.Based := by
  rcases stopElection_cases t with ⟨-, heq⟩ | ⟨e, hstopped, howner, hholding, heq⟩
  · rwa [heq]
  · have hset : ({ t with election := e } : Tab).Based :=
      hb.withElection (fun _ => Or.inr hgone) (fun _ => hstopped)
        (fun h => ⟨howner ▸ h, hholding (hb.owner (howner ▸ h)).2⟩) fun h => Or.inl (howner.trans h)
    rcases heq with heq | heq
    · rwa [heq]
    · rw [heq]
      exact (show Kept ⟨⟨.infinity, true, 0⟩, 0⟩ _ _ from act_kept).based hset

theorem Sound.stopElection (hs : t.Sound) (hgone : t.isReleased = true ∨ t.isWithdrawn = true) :
    t.stopElection.Sound := by
  rcases stopElection_cases t with ⟨-, heq⟩ | ⟨e, hstopped, howner, hholding, heq⟩
  · rwa [heq]
  · have hset : ({ t with election := e } : Tab).Sound :=
      hs.withElection (fun _ => Or.inr hgone) (fun _ => hstopped) (fun _ => hstopped)
        (fun h => ⟨howner ▸ h, hholding (hs.owner (howner ▸ h)).2⟩) fun h => Or.inl (howner.trans h)
    rcases heq with heq | heq
    · rwa [heq]
    · rw [heq]
      exact hset.act

theorem startElection_rest (t : Tab) :
    t.startElection.writes = t.writes ∧ t.startElection.terms = t.terms := by
  unfold startElection
  split
  · exact ⟨rfl, rfl⟩
  · split <;> exact ⟨rfl, rfl⟩

theorem Sound.startElection (hs : t.Sound) : t.startElection.Sound := by
  have hrequested : t.election.phase.isHolding = false →
      ({ t with election := { t.election with phase := .requested } } : Tab).Sound := fun hphase =>
    hs.withElection Or.inl id nofun (fun h => by simp [(hs.owner h).2] at hphase) Or.inl
  unfold Tab.startElection
  split
  · exact hs
  · split
    · next hphase => exact (hrequested (by rw [hphase]; rfl)).act
    · next hphase => exact (hrequested (by rw [hphase]; rfl)).act
    · exact hs

/-! ### what the terms do -/

theorem handled_of (hb : t.Based) (input : TermInput) :
    OwnerTerms.Handled t.terms t.nextKey input (t.terms.handle t.nextKey input).1
    (t.terms.handle t.nextKey input).2 :=
  OwnerTerms.handle_handled hb.terms

theorem mem_handleTerms_stack (hstack : t.stack = []) {f : TurnFrame} :
    f ∈ (t.handleTerms input).stack ↔ f = .effects (t.terms.handle t.nextKey input).2 := by
  show f ∈ TurnFrame.effects (t.terms.handle t.nextKey input).2 :: t.stack ↔ _
  rw [hstack, List.mem_singleton]

theorem Based.handleTerms (hb : t.Based) (hstack : t.stack = [])
    (hdispose : input = .dispose → t.writes = [] ∧ (t.isReleased = true ∨ t.isWithdrawn = true)) :
    (t.handleTerms input).Based :=
  have hh := handled_of hb input
  { hb with
    terms := hh.wellFormed hb.terms (Nat.le_refl _)
    withdrawing := fun h => by cases (mem_handleTerms_stack hstack).mp h
    disposed := fun h => by
      by_cases hinput : input = .dispose
      · exact hdispose hinput
      · exact hb.disposed ((hh.isDisposed hinput).symm.trans h)
    starting := fun a h => by cases (mem_handleTerms_stack hstack).mp h
    ended := fun l h key a c hended => by
      cases (mem_handleTerms_stack hstack).mp h
      exact Or.inl (hh.ended_isEnded hb.terms (Nat.le_refl _) hended)
    applied := fun l h message happlied hclaim => by
      cases (mem_handleTerms_stack hstack).mp h
      exact Or.inl (hh.applied_current hb.terms happlied hclaim) }

theorem Led.handleTerms (hled : t.Led) (hb : t.Based) (hstack : t.stack = [])
    (hdispose : input = .dispose → t.isReleased = true) :
    (t.handleTerms input).Led := by
  intro hopen hcurrent
  by_cases hinput : input = .dispose
  · exact Or.inr (Or.inl (hdispose hinput))
  · rcases (handled_of hb input).current_lost hinput hcurrent with hbefore | ⟨key, a, hended⟩
    · rcases hled hopen hbefore with h | h | ⟨l, hin, -⟩
      · exact Or.inl h
      · exact Or.inr (Or.inl h)
      · rw [hstack] at hin
        cases hin
    · exact Or.inr (Or.inr ⟨_, (mem_handleTerms_stack hstack).mpr rfl, key, a, true, hended, rfl⟩)

/-- A tab that gains a current term must have no request waiting for an ended one, for nothing hands
it on then. -/
theorem Settled.handleTerms (hs : t.Settled) (hb : t.Based) (hstack : t.stack = [])
    (hgained : t.status = .open → t.terms.current = none →
      ((∃ e ∈ t.terms.terms, e.phase = .checking ∧ input = .checkAnswered e.key .held) ∨
        ∃ claim, input = .takeOwn claim) →
      ∀ r a, ¬ t.IsStuck r a) : (t.handleTerms input).Settled := by
  rintro ⟨hopen, hcurrent⟩ r a ⟨hended, hw⟩
  have hh := handled_of hb input
  rcases hh.isEnded_cases hb.terms (Nat.le_refl _) hended with hbefore | ⟨key, c, hin⟩
  · by_cases hnone : t.terms.current = none
    · exact absurd ⟨hbefore, hw⟩ (hgained hopen hnone (hh.current_gained hnone hcurrent) r a)
    · exact absurd ⟨hbefore, hw⟩ (hs.not_stuck hstack ⟨hopen, hnone⟩)
  · exact Or.inr ⟨_, (mem_handleTerms_stack hstack).mpr rfl, key, a, c, hin, trivial⟩

theorem Sound.handleTerms (hs : t.Sound) (hstack : t.stack = [])
    (hdispose : input = .dispose → t.isReleased = true)
    (hgained : t.status = .open → t.terms.current = none →
      ((∃ e ∈ t.terms.terms, e.phase = .checking ∧ input = .checkAnswered e.key .held) ∨
        ∃ claim, input = .takeOwn claim) →
      ∀ r a, ¬ t.IsStuck r a) : (t.handleTerms input).Sound where
  toBased := hs.toBased.handleTerms hstack fun h => ⟨hs.released (hdispose h), Or.inl (hdispose h)⟩
  withdraws h := by
    rcases hs.withdraws h with hin | hdone
    · rw [hstack] at hin
      cases hin
    · exact Or.inr hdone
  led := hs.led.handleTerms hs.toBased hstack hdispose
  settled := hs.settled.handleTerms hs.toBased hstack hgained

/-! ### going on with a turn -/

theorem Led.pop (hled : t.Led) (hstack : t.stack = frame :: stack) (hf : ∀ l, frame ≠ .effects l) :
    ({ t with stack } : Tab).Led := by
  intro hopen hcurrent
  rcases hled hopen hcurrent with h | h | ⟨l, hin, hend⟩
  · exact Or.inl h
  · exact Or.inr (Or.inl h)
  · rw [hstack] at hin
    exact Or.inr (Or.inr ⟨l, (List.mem_cons.mp hin).resolve_left fun heq => hf l heq.symm, hend⟩)

theorem Settled.pop (hs : t.Settled) (hstack : t.stack = frame :: stack)
    (hf : ∀ l, frame ≠ .effects l)
    (hopen : frame ≠ .emitted (some .open)) : ({ t with stack } : Tab).Settled := by
  intro hcan r a hstuck
  rcases hs hcan r a hstuck with hin | ⟨l, hin, hend⟩
  · rw [hstack] at hin
    exact Or.inl ((List.mem_cons.mp hin).resolve_left fun heq => hopen heq.symm)
  · rw [hstack] at hin
    exact Or.inr ⟨l, (List.mem_cons.mp hin).resolve_left fun heq => hf l heq.symm, hend⟩

theorem Withdraws.pop (hw : t.Withdraws) (hstack : t.stack = frame :: stack)
    (hf : frame ≠ .withdraw) :
    ({ t with stack } : Tab).Withdraws := by
  intro h
  refine (hw h).imp_left fun hin => ?_
  rw [hstack] at hin
  exact (List.mem_cons.mp hin).resolve_left fun heq => hf heq.symm

/-- The application was called back, and returned. -/
theorem Sound.goOn_emitted (hs : t.Sound) {emitted : Option SerialBrokerStatus}
    (hstack : t.stack = .emitted emitted :: stack) :
    (if emitted = some .open then ({ t with stack } : Tab).dispatchWaiting config else
      { t with stack }).Sound := by
  have hb := hs.toBased.pop hstack
  have hw := hs.withdraws.pop hstack nofun
  have hled := hs.led.pop hstack nofun
  split
  · have hk : Kept config ({ t with
      stack } : Tab) (({ t with stack } : Tab).dispatchWaiting config) := dispatchWaiting_kept
    refine ⟨hk.based hb, hk.withdraws hw, hk.led hled, fun hcan r a hstuck => ?_⟩
    exact absurd hstuck (dispatchWaiting_not_stuck hb.writesSound (hk.canHandOn.mp hcan) r a)
  · next hne =>
      exact ⟨hb, hw, hled, hs.settled.pop hstack nofun fun heq => hne (TurnFrame.emitted.inj heq)⟩

theorem Sound.goOn_announcing (hs : t.Sound) {announcement : Announcement}
    (hstack : t.stack = .announcing announcement :: stack) :
    (({ t with stack } : Tab).send config .all announcement.body).Sound :=
  send_kept.sound ⟨hs.toBased.pop hstack, hs.withdraws.pop hstack nofun, hs.led.pop hstack nofun,
    hs.settled.pop hstack nofun nofun⟩

theorem Based.stack_of_takeOwn (hb : t.Based) (hstack : t.stack = .takeOwn a :: stack) :
    stack = [] := by
  obtain ⟨-, -, frames, heq, hcallbacks⟩ := hb.starting a (hstack ▸ List.mem_cons_self)
  rw [hstack] at heq
  cases frames with
  | nil => exact (List.cons.inj heq).2
  | cons f frames =>
    obtain ⟨rfl, -⟩ := List.cons.inj heq
    cases hcallbacks _ List.mem_cons_self

theorem Sound.goOn_takeOwn (hs : t.Sound) {claim : TermClaim}
    (hstack : t.stack = .takeOwn a :: stack) :
    (({ t with stack } : Tab).handleTerms (.takeOwn claim)).Sound := by
  have hpop : ({ t with stack } : Tab).Sound :=
    ⟨hs.toBased.pop hstack, hs.withdraws.pop hstack nofun, hs.led.pop hstack nofun,
      hs.settled.pop hstack nofun nofun⟩
  refine hpop.handleTerms (hs.toBased.stack_of_takeOwn hstack) nofun fun hopen hcurrent _ => ?_
  exact absurd hcurrent ((hs.starting a (hstack ▸ List.mem_cons_self)).2.1 hopen)

theorem mem_settle {requestId : RequestId} {outcome : WriteOutcome} {w : PendingWrite}
    (hw : w ∈ (t.settle requestId outcome).writes) :
    w ∈ t.writes ∧ w.requestId ≠ requestId := by
  unfold settle at hw
  split at hw
  · next hnone => exact ⟨hw, KeyedList.lookup_eq_none.mp hnone w hw⟩
  · exact KeyedList.mem_erase.mp hw

theorem mem_settleAll {requestIds : List RequestId} {outcome : WriteOutcome} {w : PendingWrite}
    (hw : w ∈ (t.settleAll requestIds outcome).writes) :
    w ∈ t.writes ∧ w.requestId ∉ requestIds := by
  unfold settleAll at hw
  induction requestIds generalizing t with
  | nil => exact ⟨hw, List.not_mem_nil⟩
  | cons requestId requestIds ih =>
    obtain ⟨hw, hnot⟩ := ih hw
    obtain ⟨hw, hne⟩ := mem_settle hw
    exact ⟨hw, fun hin => (List.mem_cons.mp hin).elim hne hnot⟩

theorem failAll_writes {error : SerialBrokerError} : (t.failAll error).writes = [] := by
  refine List.eq_nil_iff_forall_not_mem.mpr fun w hw => ?_
  obtain ⟨hw, hnot⟩ := mem_settleAll hw
  exact hnot (List.mem_map_of_mem hw)

theorem failAll_kept {error : SerialBrokerError} : Kept config t (t.failAll error) := settleAll_kept

/-- Withdrawing its terms costs a tab without writes nothing. -/
theorem Based.dispose (hb : t.Based) (hempty : t.writes = [])
    (hgone : t.isReleased = true ∨ t.isWithdrawn = true)
    (hstarting : ∀ a, .takeOwn a ∉ t.stack) : ({ t with terms := t.terms.dispose.1 } : Tab).Based :=
  { hb with
    terms := OwnerTerms.Handled.wellFormed hb.terms (Nat.le_refl _) OwnerTerms.Handled.disposed |>
        fun h =>
      { h with fresh := fun _ he => absurd he List.not_mem_nil }
    disposed := fun _ => ⟨hempty, hgone⟩
    starting := fun a h => absurd h (hstarting a)
    ended := fun _ _ _ _ _ _ => Or.inr rfl
    applied := fun _ _ _ _ _ => Or.inr rfl }

theorem Based.push_effects (hb : t.Based) {l : List TermEffect}
    (hstarting : ∀ a, .takeOwn a ∉ t.stack)
    (hl : ∀ effect ∈ l, ∃ key, effect = .abort key) : (t.push (.effects l)).Based :=
  have hmem : ∀ f : TurnFrame, f ∈ (t.push (.effects l)).stack → f = .effects l ∨ f ∈ t.stack :=
    fun f => List.mem_cons.mp
  { hb with
    withdrawing := fun h => hb.withdrawing ((hmem _ h).resolve_left nofun)
    starting := fun a h => absurd ((hmem _ h).resolve_left nofun) (hstarting a)
    ended := fun k h key a c hended => by
      rcases hmem _ h with heq | h
      · cases heq
        obtain ⟨_, heq⟩ := hl _ hended
        cases heq
      · exact hb.ended k h key a c hended
    applied := fun k h message happlied => by
      rcases hmem _ h with heq | h
      · cases heq
        obtain ⟨_, heq⟩ := hl _ happlied
        cases heq
      · exact hb.applied k h message happlied }

theorem Sound.goOn_withdraw (hs : t.Sound) (hstack : t.stack = .withdraw :: stack) :
    ({ t with stack } : Tab).withdrawEnd.Sound := by
  have hwithdrawn : t.isWithdrawn = true := hs.withdrawing (hstack ▸ List.mem_cons_self)
  generalize hfailed : ({ t with stack } : Tab).failAll (.plain .CONFIGURATION_CONFLICT) = failed
  have hk : Kept ⟨⟨.infinity, true, 0⟩, 0⟩ ({ t with stack } : Tab) failed := hfailed ▸ failAll_kept
  have hempty : failed.writes = [] := hfailed ▸ failAll_writes
  have hgone : failed.isWithdrawn = true := hk.isWithdrawn.trans hwithdrawn
  have hstarting : ∀ a, .takeOwn a ∉ failed.stack := by
    intro a h
    rw [hk.stack] at h
    have howner := (hs.starting a (hstack ▸ List.mem_cons_of_mem _ h)).1
    rw [(hs.owner howner).1] at hwithdrawn
    cases hwithdrawn
  have hdisposed := (hk.based (hs.toBased.pop hstack)).dispose hempty (Or.inr hgone) hstarting
  generalize hd : ({ failed with terms := failed.terms.dispose.1 } : Tab) = disposed at hdisposed
  have hsame : disposed.writes = [] ∧ disposed.stack = failed.stack ∧ disposed.isWithdrawn = true :=
    hd ▸ ⟨hempty, rfl, hgone⟩
  obtain ⟨hwrites, hstack', -, -, -⟩ := stopElection_rest disposed
  obtain ⟨hwrites', -, helection, hreleased, -⟩ := setStatus_rest disposed.stopElection .failed
  have hfinal : ({ t with stack } : Tab).withdrawEnd =
      (disposed.stopElection.setStatus .failed).push (.effects failed.terms.dispose.2) := by
    rw [← hd, ← hfailed]
    rfl
  have hclear : (disposed.stopElection.setStatus
    .failed).writes = [] := by rw [hwrites', hwrites, hsame.1]
  rw [hfinal]
  exact {
    toBased := by
      refine ((hdisposed.stopElection (Or.inr hsame.2.2)).setStatus
        (fun h => by cases h)).push_effects (fun a h => ?_) fun effect h => ?_
      · have hin := mem_setStatus_stack h nofun
        rw [hstack', hsame.2.1] at hin
        exact hstarting a hin
      · obtain ⟨e, -, rfl⟩ := List.mem_map.mp h
        exact ⟨_, rfl⟩
    withdraws := fun _ => Or.inr ⟨hclear, by
      show (disposed.stopElection.setStatus .failed).election.isStopped = true
      rw [helection]
      exact stopElection_isStopped⟩
    led := fun hopen _ => Or.inr (Or.inl (hreleased.trans (setStatus_open (by decide) hopen)))
    settled := fun _ r a hstuck => absurd hstuck (not_stuck_of_empty hclear) }

end Tab

end SerialBroker
