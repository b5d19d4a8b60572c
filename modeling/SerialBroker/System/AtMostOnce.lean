import SerialBroker.System.WritesFollow

/-!
# A write is begun at most once, and its outcome is true

The runs of all the tabs in which every approval is taken for the question it answers, and no port
forgets an outcome that the issuer of the write still waits for. In every one of them each write
keeps to `Entrusting`: it is begun in at most one term, its bytes reach the port in order, without a
gap and none of them twice, and what `send()` rejects or resolves with is what has happened to the
write, and stays so.
-/

namespace SerialBroker

open Entrusting.State (Steps)

namespace System

variable {settings : ClientId → TabSettings} {discipline : Discipline} {s s' : System}
  {tab : ClientId} {t t' : Tab} {key : WriteKey}
  {event : SystemEvent} {es : List SystemEvent}

/-! ### the writes of every tab -/

theorem writesIssued_setTab (hw : ∀ tab, (s.tabs tab).WritesIssued) (ht : t.WritesIssued)
    (other : ClientId) :
    ((s.setTab settings tab t).tabs other).WritesIssued := by
  obtain ⟨htabs, -⟩ := setTab_same settings s tab t
  rw [htabs, Function.update_apply]
  split
  · exact ht.of_same rfl rfl
  · exact hw other

theorem Move.writesIssued (hm : Move settings discipline s s')
    (hw : ∀ tab, (s.tabs tab).WritesIssued) :
    ∀ tab, (s'.tabs tab).WritesIssued := by
  cases hm with
  | aside _ haside => exact fun tab => haside.tabs ▸ hw tab
  | crashes tab => exact hw
  | acts tab hlive t' hmove => exact writesIssued_setTab hw (hmove.writesIssued (hw tab))
  | hears sender receiver hlive hidle message rest hchannel t' hrest =>
    exact writesIssued_setTab (s := { s with
      channel := _ }) hw ((hw receiver).of_same hrest.writes hrest.issued)
  | grantsOwner tab hlive hphase lock hgrant =>
    exact writesIssued_setTab (s := { s with ownerLock := lock, granted := s.granted ++ [tab] }) hw
      ((hw tab).of_same rfl rfl)
  | refusesOwner tab hlive hphase =>
    exact writesIssued_setTab (s := { s with
      ownerLock := s.ownerLock.withdraw tab }) hw ((hw tab).of_same rfl rfl)
  | grantsTerm tab hlive hidle term hphase lock hgrant =>
    refine writesIssued_setTab (s := s.updateTermLock (ownClaim settings tab term)
      fun _ => lock) hw ?_
    obtain ⟨-, heq⟩ | ⟨-, -, heq⟩ | ⟨-, -, heq⟩ :=
      termGranted_cases (s.tabs tab) (config settings tab) term
    · rw [heq]
      exact (hw tab).of_same rfl rfl
    · rw [heq]
      exact (hw tab).of_same rfl rfl
    · rw [heq]
      exact (hw tab).of_same rfl rfl
  | refusesTerm tab hlive term hphase =>
    exact writesIssued_setTab (s := { s.updateTermLock (ownClaim settings tab term) (fun lock =>
        lock.withdraw (.own tab)) with
      ownerLock := s.ownerLock.letGo tab }) hw ((hw tab).of_same rfl rfl)
  | letsTermGo tab hlive term hphase =>
    exact writesIssued_setTab (s := s.updateTermLock (ownClaim settings tab term) fun lock =>
      lock.letGo (.own tab)) hw ((hw tab).of_same rfl rfl)
  | letsOwnerGo tab hlive term hphase =>
    exact writesIssued_setTab (s := { s with
      ownerLock := s.ownerLock.letGo tab }) hw ((hw tab).of_same rfl rfl)

/-! ### every write of every run -/

/-- What holds of all the writes between two moves. -/
structure Entrusted (settings : ClientId → TabSettings) (s : System) : Prop where
  grounded : s.Grounded
  owned : Owned settings s
  writes : ∀ tab, (s.tabs tab).WritesIssued
  sound : ∀ key, (s.view key).Sound writeRules
  remembered : ∀ key, (s.view key).Remembered

theorem init_entrusted : Entrusted settings .init where
  grounded := init_grounded
  owned := init_owned
  writes _ := Tab.init_writesIssued
  sound _ := Entrusting.State.init_sound _ rfl rfl (fun _ => rfl) (fun _ => rfl)
    (fun _ => rfl) rfl rfl rfl
  remembered _ _ _ h := by cases h

/-- Moves that keep to what is asked take every write along. -/
theorem Entrusted.moves (he : Entrusted settings s) (hm : Moves settings discipline s s')
    (htakes : ∀ holder message, discipline.takes holder message →
      answersAsked holder message = true)
    (hforgets : ∀ key, discipline.forgets key →
      (s.view key).pending = none ∧ (s.view key).task ≠ none) :
    Entrusted settings s' ∧ ∀ key, Steps writeRules (s.view key) (s'.view key) := by
  induction hm with
  | refl => exact ⟨he, fun _ => .refl⟩
  | tail _ hmove ih =>
    obtain ⟨hbefore, hsteps⟩ := ih
    have hfollows := fun key => hmove.follows hbefore.grounded hbefore.owned hbefore.writes htakes
        fun hforgotten =>
      (hsteps key).over (hforgets key hforgotten)
    refine ⟨⟨hmove.grounded hbefore.grounded, hmove.owned hbefore.grounded hbefore.owned,
      hmove.writesIssued hbefore.writes, fun key => ?_,
      fun key => ?_⟩, fun key => (hsteps key).trans (hfollows key)⟩
    · exact (hfollows key).sound (hbefore.sound key)
    · exact (hfollows key).remembered (hbefore.sound key) (hbefore.remembered key)

/-- Whether the issuer of the write waits for its outcome. -/
def isAwaited (s : System) (key : WriteKey) : Bool :=
  !s.isCrashed key.origin && ((s.tabs key.origin).pending? key.requestId).isSome

/-- Whether the port still has, after it has ended the job, every outcome that is waited for and
that it had before. -/
def remembersAwaited (s : System) (h : Holder) (ended : EndedJob) : Bool :=
  h.accepted.finished.all fun write => !s.isAwaited write.key ||
    (KeyedList.lookup FinishedWrite.key write.key
      (h.accepted.finish ended.job.key ended.outcome).finished).isSome

/-- Whether a step takes an approval for the question it answers only, and forgets no outcome that
is waited for. -/
def isFaithful (s : System) : SystemEvent → Bool
  | .goOn tab =>
    match (s.tabs tab).stack with
    | .effects (.apply message :: _) :: _ => answersAsked (s.tabs tab).holder message
    | _ => true
  | .port tab (.jobReported id) =>
    (s.tabs tab).holder.all fun h => (h.ended.find? fun ended => ended.job.id = id).all fun ended =>
      s.remembersAwaited h ended
  | _ => true

theorem pending_of_unawaited (h : s.isAwaited key = false) : (s.view key).pending = none := by
  unfold isAwaited at h
  by_cases hcrashed : s.isCrashed key.origin = true
  · simp [view, hcrashed]
  · have hnone : (s.tabs key.origin).pending? key.requestId = none := by simpa [hcrashed] using h
    simp [view, hnone]

/-- What is asked of the moves of a faithful step. -/
def faithful (s : System) : Discipline :=
  ⟨fun holder message => answersAsked holder message = true, fun key =>
    (s.view key).pending = none ∧ (s.view key).task ≠ none⟩

theorem Entrusted.abides (he : Entrusted settings s) (hfaithful : s.isFaithful event = true) :
    Abides s.faithful s event where
  takes tab hevent message t₀ hears := by
    obtain ⟨effects, stack, hstack, -⟩ := hears
    simpa [isFaithful, hevent, hstack, faithful] using hfaithful
  answers tab id hevent h hholder ended hended forgotten hbefore hafter := by
    subst hevent
    have hall : s.remembersAwaited h ended = true := by
      simpa [isFaithful, hholder, hended] using hfaithful
    obtain ⟨write, hwrite⟩ := Option.isSome_iff_exists.mp hbefore
    obtain rfl := KeyedList.key_of_lookup hwrite
    have hkept := List.all_eq_true.mp hall write (KeyedList.mem_of_lookup hwrite)
    rw [hafter, Option.isSome_none, Bool.or_false, Bool.not_eq_true'] at hkept
    refine ⟨pending_of_unawaited hkept,
      he.remembered write.key tab (h.desk write.key) (congrArg (Option.map _) hholder) ?_⟩
    rw [Holder.desk, hwrite]
    simp

/-! ### what every write comes to -/

/-- The terms a write was begun in. -/
def begunIn (s : System) (key : WriteKey) : List TermId :=
  s.log.filterMap fun e => e.2.begunTerm? key

/-- The chunks of a write a port has taken, in the order it took them. -/
def chunksOf (s : System) (key : WriteKey) : List (Entrusting.Part TermId) :=
  s.log.filterMap fun e => e.2.part? key

/-- What the issuer of a write was told of it. -/
def outcomesOf (s : System) (key : WriteKey) : List WriteOutcome :=
  s.log.filterMap fun e => if e.1 = key.origin then e.2.outcome? key.requestId else none

/-- Every job of the write, at any port, has the payload that was issued. -/
def CarriesIssued (s : System) (key : WriteKey) : Prop :=
  ∀ tab h, (s.tabs tab).holder = some h → ∀ job ∈ h.unanswered, job.key = key →
    (s.tabs key.origin).issued[key.requestId]? = some job.payload

/-- What has been done of a write was done once: it was issued, its payload is what the ports have
of it, it was begun in one term at most, and the ports have taken its bytes from the first on, in
order and in that term. -/
structure WrittenOnce (s : System) (key : WriteKey) : Prop where
  carried : s.CarriesIssued key
  begun : (s.begunIn key).length ≤ 1
  chunks : ∀ chunk ∈ s.chunksOf key, chunk.term ∈ s.begunIn key
  issued : s.begunIn key ≠ [] → ∃ payload, (s.tabs key.origin).issued[key.requestId]? = some payload
  bytes : ∃ taken, Entrusting.Spans (s.chunksOf key) 0 taken ∧
    ∀ payload, (s.tabs key.origin).issued[key.requestId]? = some payload → taken ≤ payload.length

/-- What the issuer of a write is told is what has happened to it: the ports have what it issued, it
is told once, of a write that was not begun only if no port has begun it, and of a success only if
the ports have taken all of its bytes. -/
structure TrulyTold (s : System) (key : WriteKey) : Prop where
  carried : s.CarriesIssued key
  once : (s.outcomesOf key).length ≤ 1
  settled : s.outcomesOf key ≠ [] → (s.tabs key.origin).pending? key.requestId = none ∨
    s.isCrashed key.origin = true
  unbegun : ∀ outcome ∈ s.outcomesOf key, outcome.isUnbegun = true →
    s.begunIn key = [] ∧ s.chunksOf key = []
  success : none ∈ s.outcomesOf key →
    ∃ payload, (s.tabs key.origin).issued[key.requestId]? = some payload ∧
    Entrusting.Spans (s.chunksOf key) 0 payload.length ∧ (s.begunIn key).length = 1

/-- **In every faithful run every write is entrusted as it should be.** -/
theorem run_entrusted
    (hfaithful : (systemRuns settings).Always (fun s event => s.isFaithful event = true) es)
    (hrun : (systemRuns settings).run es = some s) : Entrusted settings s :=
  TransitionSystem.run_invariant init_entrusted (fun _ _ _ he hkeeps hstep =>
    (he.moves (step_moves he.grounded (he.abides hkeeps) hstep) (fun _ _ h => h) fun _ h => h).1)
      hfaithful hrun

theorem Entrusted.carriesIssued (he : Entrusted settings s) (key : WriteKey) :
    s.CarriesIssued key := by
  rintro tab h hholder job hjob rfl
  obtain ⟨stage, hdesk⟩ := (he.owned.ports tab h hholder).job_desk hjob
  exact (he.sound job.key).tasks.1 tab (h.desk job.key) (congrArg (Option.map _) hholder) _ hdesk

/-- Tab 2 writes through the port of tab 1, which asks it before it begins and takes the bytes in
two chunks. -/
def peerWrite : List SystemEvent :=
  [.join 1, .deliver 1 2, .join 2, .deliver 2 1, .goOn 1, .goOn 1, .ownerGranted 1, .termGranted 1,
    .goOn 1, .goOn 1, .deliver 1 2, .goOn 2,
    .goOn 2, .lockCalled 2 (.check 0 ⟨0, 1, .infinity⟩), .checkAnswered 2 ⟨0, .held⟩, .goOn 2,
    .goOn 2, .goOn 2,
    .lockCalled 2 (.watch 0 ⟨0, 1, .infinity⟩), .port 1 .opened, .port 1 (.status .open), .goOn 1,
    .deliver 1 2, .goOn 2, .goOn 2, .goOn 2,
    .send 2 [7, 8, 9], .deliver 2 1, .goOn 1, .goOn 1, .port 1 (.jobStarted false), .deliver 1 2,
    .goOn 2, .goOn 2, .deliver 2 1, .goOn 1,
    .goOn 1, .port 1 .jobWentOn, .port 1 .chunkTaken, .port 1 .chunkTaken, .port 1 (.jobReported 0),
    .goOn 1, .deliver 1 2, .goOn 2, .goOn 2,
    .deliver 1 2, .goOn 2, .goOn 2]

theorem peerWrite_faithful :
    (systemRuns plainSettings).Always (fun s event => s.isFaithful event = true) peerWrite :=
  TransitionSystem.always_of_alwaysFrom isFaithful (by decide +kernel)

/-- **A write is begun at most once.** -/
theorem written_once
    (hfaithful : (systemRuns settings).Always (fun s event => s.isFaithful event = true) es)
    (hrun : (systemRuns settings).run es = some s) (key : WriteKey) : WrittenOnce s key := by
  have hentrusted := run_entrusted hfaithful hrun
  have hsound := hentrusted.sound key
  refine ⟨hentrusted.carriesIssued key, hsound.once, hsound.parts.1,
    fun hbegun => ?_, hsound.parts.2⟩
  refine Option.ne_none_iff_exists'.mp fun hnone => ?_
  exact hbegun (hsound.unissued hnone).2

theorem written_once_peerWrite :
    ∃ s, (systemRuns plainSettings).run peerWrite = some s ∧ WrittenOnce s ⟨2, 0⟩ ∧
    s.begunIn ⟨2, 0⟩ = [0] := by
  obtain ⟨s, hrun, hbegun⟩ :=
      (Option.any_eq_true _ _).mp (show ((systemRuns plainSettings).run peerWrite).any (fun s =>
    decide (s.begunIn ⟨2, 0⟩ = [0])) = true by decide +kernel)
  exact ⟨s, hrun, written_once peerWrite_faithful hrun _, of_decide_eq_true hbegun⟩

/-- **What `send()` says of a write is true, and stays true.** -/
theorem truly_told
    (hfaithful : (systemRuns settings).Always (fun s event => s.isFaithful event = true) es)
    (hrun : (systemRuns settings).run es = some s) (key : WriteKey) : TrulyTold s key := by
  have hentrusted := run_entrusted hfaithful hrun
  have hsound := hentrusted.sound key
  refine ⟨hentrusted.carriesIssued key, hsound.settled.1, fun hsettled => ?_,
    fun outcome hmem hunbegun => ?_, fun hmem => ?_⟩
  · have hpending : (s.view key).pending = none := (hsound.settled.2 hsettled).1
    by_cases hcrashed : s.isCrashed key.origin = true
    · exact Or.inr hcrashed
    · exact Or.inl (by simpa [view, hcrashed] using hpending)
  · have hbegun := (hsound.nonstart outcome hmem hunbegun).1
    exact ⟨hbegun, hsound.parts_of_unbegun hbegun⟩
  · obtain ⟨hbegun, ⟨payload, hissued, hspans⟩, -⟩ := hsound.success (Or.inr (Or.inr hmem))
    exact ⟨payload, hissued, hspans, Nat.le_antisymm hsound.once (List.length_pos_iff.mpr hbegun)⟩

theorem truly_told_peerWrite :
    ∃ s, (systemRuns plainSettings).run peerWrite = some s ∧ TrulyTold s ⟨2, 0⟩ ∧
    s.outcomesOf ⟨2, 0⟩ = [none] := by
  obtain ⟨s, hrun, htold⟩ :=
      (Option.any_eq_true _ _).mp (show ((systemRuns plainSettings).run peerWrite).any (fun s =>
    decide (s.outcomesOf ⟨2, 0⟩ = [none])) = true by decide +kernel)
  exact ⟨s, hrun, truly_told peerWrite_faithful hrun _, of_decide_eq_true htold⟩

end System

end SerialBroker
