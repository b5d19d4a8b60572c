import Mathlib.Combinatorics.Enumerative.DoubleCounting
import Mathlib.Tactic.FinCases
import SerialBroker.Client.TabLimit

/-!
# Who is admitted, and who waits

What the tab limit comes to in every run. Nothing is under way when only the application, a refusal
or a crash can change anything: whatever can be granted is granted, every callback has run, and
whatever was given up is let go. Then a tab that stopped holds nothing, and a tab waits only while
all places are kept, unless the browser refused it one of the places and that place is free: the tab
waits for the other places alone, and keeps the gate closed behind it.
-/

namespace SerialBroker

variable {τ : Type*}

/-- Whether the event is neither a call of the application nor a refusal nor a crash. -/
def SlotEvent.isProgress : SlotEvent τ → Bool
  | .start _ | .stop _ | .gateRefused _ | .placeRefused .. | .crash _ => false
  | .gateGranted _ | .gateEntered _ | .gateWithdrawn _ | .gateRetried _ | .gateLetGo _ => true
  | .placeGranted .. | .placeEntered .. | .placeWithdrawn .. | .placeLetGo .. => true

namespace TabLimit

variable [DecidableEq τ] (maxTabs : ℕ)

/-- Nothing is under way. -/
def IsAtRest (s : TabLimit τ) : Prop :=
  ∀ event, event.isProgress = true → s.step maxTabs event = none

/-- The tab was told that it has a place, and has neither stopped nor crashed. -/
def IsAdmitted (s : TabLimit τ) (t : τ) : Prop :=
  t ∈ s.acquired ∧ (s.tab t).isAlive = true ∧ (s.tab t).isStopped = false

/-- The tab wants a place and has none. -/
def IsWaiting (s : TabLimit τ) (t : τ) : Prop :=
  (s.tab t).isAlive = true ∧ (s.tab t).isStarted = true ∧ (s.tab t).isStopped = false ∧
    (s.tab t).isHeld = false

/-- The limit, and what it rests on. -/
structure KeepsLimit (s : TabLimit τ) : Prop where
  limit : ∀ tabs : Finset τ, (∀ t ∈ tabs, s.IsAdmitted t) → tabs.card ≤ maxTabs
  oneKept : ∀ t place other, (s.tab t).place place = .kept → (s.tab t).place other = .kept →
    place = other
  oneHeld : s.IsAtRest maxTabs → ∀ t place other, (s.place place).isHeldBy t →
    (s.place other).isHeldBy t → place = other
  once : s.acquired.Nodup
  notStopped : ∀ event s', s.step maxTabs event = some s' →
    s'.acquired = s.acquired ∨ ∃ t, s'.acquired = s.acquired ++ [t] ∧ (s.tab t).isStopped = false
  inOrder : s.acquired.Pairwise fun t u => s.grantOf t < s.grantOf u
  stopped : s.IsAtRest maxTabs → ∀ t, (s.tab t).isStopped = true →
    ¬s.gate.isHeldBy t ∧ ∀ place, ¬(s.place place).isHeldBy t

/-- A tab waits only while every place is kept. -/
def AdmitsNext (s : TabLimit τ) : Prop :=
  s.IsAtRest maxTabs → ∀ t, s.IsWaiting t → ∀ place, place < maxTabs →
    ∃ u, (s.tab u).place place = .kept

/-- Whoever waits at the places was refused none of those that nobody holds. -/
def MissesNoPlace (s : TabLimit τ) : Prop :=
  ∀ t place, (s.tab t).gate = .taking → (s.tab t).place place = .refused →
    ∃ u, (s.place place).isHeldBy u

end TabLimit

/-! ### a tab that wants a place asks for it -/

namespace SlotTab

/-- A tab without a place is on its way to one, and competes for every place. -/
structure Wants (maxTabs : ℕ) (tab : SlotTab) : Prop where
  gate : tab.isAlive = true → tab.isStarted = true → tab.isStopped = false → tab.isHeld = false →
    tab.gate ≠ .idle ∧ tab.gate ≠ .left false
  places : tab.gate = .taking → ∀ place, place < maxTabs → tab.place place ≠ .idle

variable {maxTabs place : ℕ} {tab : SlotTab} {stage : PlaceStage}

/-- A gate in another stage. -/
theorem wants_of_gate {gate : GateStage} (hgate : gate ≠ .idle) (hleft : gate ≠ .left false)
    (htaking : gate ≠ .taking)
    (hsame : tab.gate = gate) : tab.Wants maxTabs where
  gate _ _ _ _ := hsame ▸ ⟨hgate, hleft⟩
  places h := absurd (hsame ▸ h) htaking

theorem wants_of_aborted (hsound : tab.Sound maxTabs) (haborted : tab.isAborted = true) :
    tab.Wants maxTabs where
  gate _ _ hstopped hheld := by
    rw [isAborted_eq_false.mpr ⟨hheld, hstopped⟩] at haborted
    cases haborted
  places htaking := by
    rw [hsound.not_aborted_of_taking htaking] at haborted
    cases haborted

theorem wants_of_dead (hdead : tab.isAlive = false) (hgate : tab.gate = .idle) :
    tab.Wants maxTabs where
  gate halive := by
    rw [hdead] at halive
    cases halive
  places htaking := by
    rw [hgate] at htaking
    cases htaking

theorem Wants.setPlace (h : tab.Wants maxTabs) (hstage : stage ≠ .idle) :
    (tab.setPlace place stage).Wants maxTabs where
  gate := h.gate
  places htaking other hother := by
    rw [place_setPlace]
    split
    · exact hstage
    · exact h.places htaking other hother

@[simp] theorem isAborted_settle (maxTabs : ℕ) (tab : SlotTab) :
    (tab.settle maxTabs).isAborted = tab.isAborted := by
  obtain heq | ⟨_, hasFailed, heq⟩ := settle_eq maxTabs tab
  · rw [heq]
  · rw [heq]
    rfl

/-- Of a tab that competes, the last request to end was refused or an earlier one was. -/
theorem Wants.settle (h : tab.Wants maxTabs) (hplace : place < maxTabs)
    (hrefused : tab.place place = .refused) :
    (tab.settle maxTabs).Wants maxTabs := by
  rw [SlotTab.settle]
  split
  · next hall =>
    obtain ⟨_, hheld⟩ := Bool.and_eq_true_iff.mp hall
    rw [leaveGate]
    split
    · have hany : ((List.range maxTabs).any fun place =>
          decide (tab.place place = .refused)) = true :=
        List.any_eq_true.mpr ⟨place, List.mem_range.mpr hplace, decide_eq_true hrefused⟩
      rw [hany, Bool.true_and]
      refine ⟨fun _ _ hstopped _ => ⟨GateStage.noConfusion, fun hleft => ?_⟩,
        fun htaking => by cases htaking⟩
      rw [show tab.isStopped = false from hstopped] at hleft
      cases hleft
    · exact h
  · exact h

end SlotTab

namespace TabLimit

variable [DecidableEq τ] {maxTabs place : ℕ} {s s' : TabLimit τ} {t u : τ} {tab : SlotTab}
  {event : SlotEvent τ}

/-- What every run keeps of the tabs that want a place. -/
structure Wanting (maxTabs : ℕ) (s : TabLimit τ) : Prop where
  limited : Limited maxTabs s
  wants : ∀ t, (s.tab t).Wants maxTabs

theorem wants_update (h : ∀ t, (s.tab t).Wants maxTabs) (htab : tab.Wants maxTabs) (u : τ) :
    (Function.update s.tab t tab u).Wants maxTabs := by
  rw [Function.update_apply]
  split
  · exact htab
  · exact h u

theorem wants_endPlace {lock : WebLock τ}
    (hsound : (((s.setTab t (((s.tab t).setPlace place .idle).settle maxTabs)).setPlaceLock
      place lock).tab t).Sound maxTabs)
    (haborted : (s.tab t).isAborted = true) :
    (((s.tab t).setPlace place .idle).settle maxTabs).Wants maxTabs := by
  simp only [TabLimit.setPlaceLock, TabLimit.setTab, Function.update_self] at hsound
  refine SlotTab.wants_of_aborted hsound ?_
  rw [SlotTab.isAborted_settle]
  exact haborted

theorem Wanting.wants_step (h : Wanting maxTabs s) (hstep : s.step maxTabs event = some s') :
    ∀ t, (s'.tab t).Wants maxTabs := by
  have hlimited := h.limited.step hstep
  cases event with
  | start t =>
    simp only [TabLimit.step, Option.ite_none_right_eq_some] at hstep
    obtain ⟨_, hstep⟩ := hstep
    split at hstep
    · next hstopped =>
      obtain rfl := Option.some.inj hstep
      refine wants_update h.wants ⟨fun _ _ hunstopped => ?_, (h.wants t).places⟩
      rw [show (s.tab t).isStopped = false from hunstopped] at hstopped
      cases hstopped
    · obtain rfl := Option.some.inj hstep
      exact wants_update h.wants (SlotTab.wants_of_gate GateStage.noConfusion GateStage.noConfusion
        GateStage.noConfusion rfl)
  | stop t =>
    obtain ⟨_, hstep⟩ := Option.ite_none_right_eq_some.mp hstep
    obtain rfl := Option.some.inj hstep
    refine wants_update h.wants (SlotTab.wants_of_aborted (h.limited.sound t).stop ?_)
    rw [SlotTab.isAborted, Bool.or_eq_true]
    refine .inr ?_
    rw [SlotTab.stop]
    split
    · assumption
    · rfl
  | gateGranted t =>
    obtain ⟨_, hstep⟩ := Option.ite_none_right_eq_some.mp hstep
    obtain ⟨lock, _, rfl⟩ := Option.map_eq_some_iff.mp hstep
    exact wants_update h.wants (SlotTab.wants_of_gate GateStage.noConfusion GateStage.noConfusion
      GateStage.noConfusion rfl)
  | gateEntered t =>
    obtain ⟨hgate, hstep⟩ := Option.ite_none_right_eq_some.mp hstep
    obtain rfl := Option.some.inj hstep
    rw [TabLimit.enterGate]
    split
    · next hstopped =>
      refine wants_update h.wants ⟨fun _ _ hunstopped => ?_, fun htaking => by cases htaking⟩
      rw [show (s.tab t).isStopped = false from hunstopped] at hstopped
      cases hstopped
    · refine wants_update h.wants ⟨fun _ _ _ _ => ⟨GateStage.noConfusion, GateStage.noConfusion⟩,
        fun _ place hplace => ?_⟩
      simp only [SlotTab.takePlace, if_pos hplace]
      exact PlaceStage.noConfusion
  | gateWithdrawn t =>
    obtain ⟨hgate, hstep⟩ := Option.ite_none_right_eq_some.mp hstep
    obtain ⟨_, hstopped⟩ := Bool.and_eq_true_iff.mp hgate
    obtain rfl := Option.some.inj hstep
    refine wants_update h.wants ⟨fun _ _ hunstopped => ?_, fun htaking => by cases htaking⟩
    rw [show (s.tab t).isStopped = false from hunstopped] at hstopped
    cases hstopped
  | gateRefused t =>
    obtain ⟨_, hstep⟩ := Option.ite_none_right_eq_some.mp hstep
    obtain rfl := Option.some.inj hstep
    refine wants_update h.wants ⟨fun _ _ hunstopped _ => ?_, fun htaking => ?_⟩
    · have hgoes : ¬(s.tab t).isStopped = true := by
        rw [show (s.tab t).isStopped = false from hunstopped]
        exact Bool.false_ne_true
      rw [if_neg hgoes]
      exact ⟨GateStage.noConfusion, GateStage.noConfusion⟩
    · dsimp only at htaking
      split at htaking
      · cases htaking
      · cases htaking
  | gateRetried t =>
    obtain ⟨_, hstep⟩ := Option.ite_none_right_eq_some.mp hstep
    obtain rfl := Option.some.inj hstep
    exact wants_update h.wants (SlotTab.wants_of_gate GateStage.noConfusion GateStage.noConfusion
      GateStage.noConfusion rfl)
  | gateLetGo t =>
    simp only [TabLimit.step] at hstep
    split at hstep
    · next hasFailed hgate =>
      obtain rfl := Option.some.inj hstep
      refine wants_update h.wants ⟨fun halive hstarted hstopped hheld => ?_, fun htaking => ?_⟩
      · have hleft := ((h.wants t).gate halive hstarted hstopped hheld).2
        rw [hgate] at hleft
        have hfailed : hasFailed = true := by
          by_contra hfalse
          exact hleft (by simpa using hfalse)
        rw [if_pos (by rw [hfailed, show (s.tab t).isStopped = false from hstopped]; rfl)]
        exact ⟨GateStage.noConfusion, GateStage.noConfusion⟩
      · dsimp only at htaking
        split at htaking
        · cases htaking
        · cases htaking
    · cases hstep
  | placeGranted t place =>
    obtain ⟨_, hstep⟩ := Option.ite_none_right_eq_some.mp hstep
    obtain ⟨lock, _, rfl⟩ := Option.map_eq_some_iff.mp hstep
    exact wants_update h.wants ((h.wants t).setPlace PlaceStage.noConfusion)
  | placeEntered t place stops =>
    obtain ⟨hplace, hstep⟩ := Option.ite_none_right_eq_some.mp hstep
    obtain rfl := Option.some.inj hstep
    have hsound := hlimited.sound t
    rw [TabLimit.enterPlace] at hsound ⊢
    split
    · exact wants_update h.wants ((h.wants t).setPlace PlaceStage.noConfusion)
    · next haborted =>
      have hkept := (h.limited.sound t).keepPlace hplace (by simpa using haborted)
      have hheld : ((s.tab t).keepPlace place).isHeld = true := rfl
      refine wants_update h.wants ?_
      split
      · refine SlotTab.wants_of_aborted hkept.stop ?_
        rw [SlotTab.isAborted, Bool.or_eq_true]
        refine .inr ?_
        rw [SlotTab.stop]
        split
        · assumption
        · rfl
      · refine SlotTab.wants_of_aborted hkept ?_
        rw [SlotTab.isAborted, hheld]
        rfl
  | placeWithdrawn t place =>
    obtain ⟨hplace, hstep⟩ := Option.ite_none_right_eq_some.mp hstep
    obtain ⟨_, haborted⟩ := Bool.and_eq_true_iff.mp hplace
    obtain rfl := Option.some.inj hstep
    exact wants_update h.wants (wants_endPlace (hlimited.sound t) haborted)
  | placeRefused t place =>
    obtain ⟨hplace, hstep⟩ := Option.ite_none_right_eq_some.mp hstep
    obtain rfl := Option.some.inj hstep
    have hlt : place < maxTabs := (h.limited.sound t).lt (by simp [hplace])
    refine wants_update h.wants (((h.wants t).setPlace PlaceStage.noConfusion).settle hlt ?_)
    rw [SlotTab.place_setPlace, if_pos rfl]
  | placeLetGo t place =>
    obtain ⟨hplace, hstep⟩ := Option.ite_none_right_eq_some.mp hstep
    obtain rfl := Option.some.inj hstep
    exact wants_update h.wants
      (wants_endPlace (hlimited.sound t) ((h.limited.sound t).returned place hplace))
  | crash t =>
    obtain ⟨_, hstep⟩ := Option.ite_none_right_eq_some.mp hstep
    obtain rfl := Option.some.inj hstep
    exact wants_update h.wants (SlotTab.wants_of_dead rfl rfl)

theorem Wanting.step (h : Wanting maxTabs s) (hstep : s.step maxTabs event = some s') :
    Wanting maxTabs s' :=
  ⟨h.limited.step hstep, h.wants_step hstep⟩

omit [DecidableEq τ] in
theorem wanting_init (maxTabs : ℕ) :
    ∀ t, ((⟨.free, fun _ => .free, fun _ => .fresh, 0, fun _ => 0, []⟩ : TabLimit τ).tab t).Wants
    maxTabs := by
  intro t
  refine ⟨fun _ hstarted => ?_, fun htaking => by cases htaking⟩
  cases hstarted

/-- What a tab at rest may still have of its locks. -/
structure Quiet (maxTabs : ℕ) (s : TabLimit τ) (t : τ) : Prop where
  gate : (s.tab t).gate = .idle ∨ (s.tab t).gate = .taking ∨
    ((s.tab t).gate = .requested ∧ (s.tab t).isStopped = false ∧ s.gate.grant t = none)
  place : ∀ place, (s.tab t).place place = .idle ∨ (s.tab t).place place = .kept ∨
    (s.tab t).place place = .refused ∨
    ((s.tab t).place place = .requested ∧ (s.tab t).isAborted = false ∧
      (s.place place).grant t = none)

/-- At rest no tab has anything under way. -/
theorem IsAtRest.quiet (h : s.IsAtRest maxTabs) (t : τ) : Quiet maxTabs s t where
  gate := by
    cases hgate : (s.tab t).gate with
    | idle => exact .inl rfl
    | taking => exact .inr (.inl rfl)
    | requested =>
      refine .inr (.inr ⟨rfl, ?_, ?_⟩)
      · have hwithdrawn := h (.gateWithdrawn t) rfl
        simpa [TabLimit.step, hgate] using hwithdrawn
      · have hgranted := h (.gateGranted t) rfl
        simpa [TabLimit.step, hgate] using hgranted
    | refused =>
      have hretried := h (.gateRetried t) rfl
      simp [TabLimit.step, hgate] at hretried
    | granted =>
      have hentered := h (.gateEntered t) rfl
      simp [TabLimit.step, hgate] at hentered
    | left hasFailed =>
      have hletGo := h (.gateLetGo t) rfl
      simp [TabLimit.step, hgate] at hletGo
  place := by
    intro place
    cases hplace : (s.tab t).place place with
    | idle => exact .inl rfl
    | kept => exact .inr (.inl rfl)
    | refused => exact .inr (.inr (.inl rfl))
    | requested =>
      refine .inr (.inr (.inr ⟨rfl, ?_, ?_⟩))
      · have hwithdrawn := h (.placeWithdrawn t place) rfl
        simpa [TabLimit.step, hplace] using hwithdrawn
      · have hgranted := h (.placeGranted t place) rfl
        simpa [TabLimit.step, hplace] using hgranted
    | granted =>
      have hentered := h (.placeEntered t place false) rfl
      simp [TabLimit.step, hplace] at hentered
    | returned =>
      have hletGo := h (.placeLetGo t place) rfl
      simp [TabLimit.step, hplace] at hletGo

theorem isAtRest_of_quiet (h : ∀ t, Quiet maxTabs s t) : s.IsAtRest maxTabs := by
  intro event hprogress
  cases event with
  | gateGranted t =>
    obtain hgate | hgate | ⟨hgate, _, hgrant⟩ := (h t).gate <;> simp [TabLimit.step, *]
  | gateEntered t => obtain hgate | hgate | ⟨hgate, _⟩ := (h t).gate <;> simp [TabLimit.step, hgate]
  | gateWithdrawn t =>
    obtain hgate | hgate | ⟨hgate, hstopped, _⟩ := (h t).gate <;> simp [TabLimit.step, *]
  | gateRetried t => obtain hgate | hgate | ⟨hgate, _⟩ := (h t).gate <;> simp [TabLimit.step, hgate]
  | gateLetGo t => obtain hgate | hgate | ⟨hgate, _⟩ := (h t).gate <;> simp [TabLimit.step, hgate]
  | placeGranted t place =>
    obtain hplace | hplace | hplace | ⟨hplace, _, hgrant⟩ :=
      (h t).place place <;> simp [TabLimit.step, *]
  | placeEntered t place stops =>
    obtain hplace | hplace | hplace | ⟨hplace, _⟩ :=
      (h t).place place <;> simp [TabLimit.step, hplace]
  | placeWithdrawn t place =>
    obtain hplace | hplace | hplace | ⟨hplace, haborted, _⟩ :=
      (h t).place place <;> simp [TabLimit.step, *]
  | placeLetGo t place =>
    obtain hplace | hplace | hplace | ⟨hplace, _⟩ :=
      (h t).place place <;> simp [TabLimit.step, hplace]
  | start | stop | gateRefused | placeRefused | crash => cases hprogress

/-! ### the limit -/

namespace Limited

/-- Who holds a place at rest keeps it. -/
theorem kept_of_held (h : Limited maxTabs s) (hrest : s.IsAtRest maxTabs)
    (hheld : (s.place place).isHeldBy t) :
    (s.tab t).place place = .kept := by
  have huse : ((s.tab t).place place).use = .held := ((h.place place).held t).mp hheld
  obtain hplace | hplace | hplace | ⟨hplace, _⟩ := (hrest.quiet t).place place
  · rw [hplace] at huse
    cases huse
  · exact hplace
  · rw [hplace] at huse
    cases huse
  · rw [hplace] at huse
    cases huse

omit [DecidableEq τ] in
theorem held_of_kept (h : Limited maxTabs s) (hkept : (s.tab t).place place = .kept) :
    (s.place place).isHeldBy t := by
  refine ((h.place place).held t).mpr ?_
  rw [hkept]
  rfl

omit [DecidableEq τ] in
/-- The tabs admitted have each a place of their own. -/
theorem card_le (h : Limited maxTabs s) {tabs : Finset τ} (htabs : ∀ t ∈ tabs, s.IsAdmitted t) :
    tabs.card ≤ maxTabs := by
  have hkeeps : ∀ t ∈ tabs, ∃ place ∈ Finset.range maxTabs, (s.tab t).place place = .kept := by
    intro t ht
    obtain ⟨hacquired, halive, hstopped⟩ := htabs t ht
    obtain ⟨place, hlt, hkept⟩ := (h.sound t).held ((h.ended t hacquired).held halive hstopped)
    exact ⟨place, Finset.mem_range.mpr hlt, hkept⟩
  have halone : ∀ place ∈ Finset.range maxTabs,
      ({t ∈ tabs | (s.tab t).place place = .kept} : Set τ).Subsingleton := by
    intro place _ t ht u hu
    refine (h.place place).unique ?_ ?_
    · rw [ht.2]
      rfl
    · rw [hu.2]
      rfl
  have hcard := Finset.card_le_card_of_forall_subsingleton (fun t place =>
    (s.tab t).place place = .kept) hkeeps halone
  rwa [Finset.card_range] at hcard

/-- Only a tab that has not stopped is told that it has a place. -/
theorem acquired_step (hstep : s.step maxTabs event = some s') :
    s'.acquired = s.acquired ∨ ∃ t, s'.acquired = s.acquired ++ [t] ∧
      (s.tab t).isStopped = false := by
  cases event with
  | placeEntered t place stops =>
    obtain ⟨_, hstep⟩ := Option.ite_none_right_eq_some.mp hstep
    obtain rfl := Option.some.inj hstep
    rw [TabLimit.enterPlace]
    split
    · exact .inl rfl
    · next haborted =>
        exact .inr ⟨t, rfl, (SlotTab.isAborted_eq_false.mp (by simpa using haborted)).2⟩
  | start t =>
    simp only [TabLimit.step, Option.ite_none_right_eq_some] at hstep
    obtain ⟨_, hstep⟩ := hstep
    split at hstep
    · obtain rfl := Option.some.inj hstep
      exact .inl rfl
    · obtain rfl := Option.some.inj hstep
      exact .inl rfl
  | gateLetGo t =>
    simp only [TabLimit.step] at hstep
    split at hstep
    · obtain rfl := Option.some.inj hstep
      exact .inl rfl
    · cases hstep
  | gateEntered t =>
    obtain ⟨_, hstep⟩ := Option.ite_none_right_eq_some.mp hstep
    obtain rfl := Option.some.inj hstep
    rw [TabLimit.enterGate]
    split <;> exact .inl rfl
  | gateGranted t =>
    obtain ⟨_, hstep⟩ := Option.ite_none_right_eq_some.mp hstep
    obtain ⟨lock, _, rfl⟩ := Option.map_eq_some_iff.mp hstep
    exact .inl rfl
  | placeGranted t place =>
    obtain ⟨_, hstep⟩ := Option.ite_none_right_eq_some.mp hstep
    obtain ⟨lock, _, rfl⟩ := Option.map_eq_some_iff.mp hstep
    exact .inl rfl
  | _ =>
    obtain ⟨_, hstep⟩ := Option.ite_none_right_eq_some.mp hstep
    obtain rfl := Option.some.inj hstep
    exact .inl rfl

theorem keepsLimit (h : Limited maxTabs s) : s.KeepsLimit maxTabs where
  limit _ htabs := h.card_le htabs
  oneKept t := (h.sound t).unique
  oneHeld hrest t place other hplace hother :=
    (h.sound t).unique place other (h.kept_of_held hrest hplace) (h.kept_of_held hrest hother)
  once := h.once
  notStopped _ _ hstep := acquired_step hstep
  inOrder := h.order
  stopped hrest t hstopped := by
    constructor
    · intro hheld
      have huse : (s.tab t).gate.use = .held := (h.gate.held t).mp hheld
      obtain hgate | hgate | ⟨hgate, _⟩ := (hrest.quiet t).gate
      · rw [hgate] at huse
        cases huse
      · rw [(h.sound t).taking hgate] at hstopped
        cases hstopped
      · rw [hgate] at huse
        cases huse
    · intro place hheld
      have hunstopped := (h.sound t).unstopped ((h.sound t).kept place (h.kept_of_held hrest hheld))
      rw [hstopped] at hunstopped
      cases hunstopped

end Limited

/-! ### the next tab -/

namespace Wanting

/-- Where a tab waits at rest, one of them has the gate and competes. -/
theorem exists_taking (h : Wanting maxTabs s) (hrest : s.IsAtRest maxTabs)
    (hwaiting : s.IsWaiting t) :
    ∃ u, (s.tab u).gate = .taking := by
  obtain ⟨halive, hstarted, hstopped, hheld⟩ := hwaiting
  obtain hgate | hgate | ⟨hgate, _⟩ := (hrest.quiet t).gate
  · exact absurd hgate ((h.wants t).gate halive hstarted hstopped hheld).1
  · exact ⟨t, hgate⟩
  · by_contra hnone
    have hfree : ∀ u, (s.tab u).gate.use ≠ .held := by
      intro u huse
      obtain hgate | hgate | ⟨hgate, _⟩ := (hrest.quiet u).gate
      · rw [hgate] at huse
        cases huse
      · exact hnone ⟨u, hgate⟩
      · rw [hgate] at huse
        cases huse
    have hwaits : (s.tab t).gate.use = .queued := by
      rw [hgate]
      rfl
    obtain ⟨first, lock, hqueued, hgrant⟩ := h.limited.gate.exists_grant hwaits hfree
    obtain hgate | hgate | ⟨_, _, hnot⟩ := (hrest.quiet first).gate
    · rw [hgate] at hqueued
      cases hqueued
    · rw [hgate] at hqueued
      cases hqueued
    · rw [hgrant] at hnot
      cases hnot

/-- At rest a place for which a tab has a request is kept by another. -/
theorem kept_of_requested (h : Wanting maxTabs s) (hrest : s.IsAtRest maxTabs)
    (hplace : (s.tab t).place place = .requested) :
    ∃ u, (s.tab u).place place = .kept := by
  by_contra hnone
  have hfree : ∀ u, ((s.tab u).place place).use ≠ .held := fun u huse =>
    hnone ⟨u, h.limited.kept_of_held hrest (((h.limited.place place).held u).mpr huse)⟩
  have hwaits : ((s.tab t).place place).use = .queued := by
    rw [hplace]
    rfl
  obtain ⟨first, lock, hqueued, hgrant⟩ := (h.limited.place place).exists_grant hwaits hfree
  obtain hplace | hplace | hplace | ⟨_, _, hnot⟩ := (hrest.quiet first).place place
  · rw [hplace] at hqueued
    cases hqueued
  · rw [hplace] at hqueued
    cases hqueued
  · rw [hplace] at hqueued
    cases hqueued
  · rw [hgrant] at hnot
    cases hnot

theorem admitsNext_iff (h : Wanting maxTabs s) : s.AdmitsNext maxTabs ↔
      (s.IsAtRest maxTabs → s.MissesNoPlace) := by
  constructor
  · intro hadmits hrest t place htaking hrefused
    have hs := h.limited.sound t
    have halive : (s.tab t).isAlive = true := h.limited.alive (.inl (by simp [htaking]))
    have hstarted : (s.tab t).isStarted = true := by
      by_contra hunstarted
      rw [(hs.unstarted (by simpa using hunstarted)).1] at htaking
      cases htaking
    obtain ⟨u, hkept⟩ :=
        hadmits hrest t ⟨halive, hstarted, hs.taking htaking, hs.not_held_of_taking htaking⟩ place
      (hs.lt (by simp [hrefused]))
    exact ⟨u, h.limited.held_of_kept hkept⟩
  · intro hmisses hrest t hwaiting place hlt
    obtain ⟨u, htaking⟩ := h.exists_taking hrest hwaiting
    obtain hplace | hplace | hplace | ⟨hplace, _⟩ := (hrest.quiet u).place place
    · exact absurd hplace ((h.wants u).places htaking place hlt)
    · exact ⟨u, hplace⟩
    · obtain ⟨v, hheld⟩ := hmisses hrest u place htaking hplace
      exact ⟨v, h.limited.kept_of_held hrest hheld⟩
    · exact h.kept_of_requested hrest hplace

end Wanting

theorem wanting_of_run {events : List (SlotEvent τ)} (hrun : (system maxTabs).run events = some s) :
    Wanting maxTabs s :=
  TransitionSystem.run_invariant_all ⟨limited_init maxTabs, wanting_init maxTabs⟩
    (fun _ _ _ h hstep => h.step hstep) hrun

/-- **In every run the limit holds; and the next tab is admitted as soon as a place is free if and
only if, whenever nothing is under way, no tab waits that was refused a free place.** -/
theorem tab_limit_holds {events : List (SlotEvent τ)}
    (hrun : (system maxTabs).run events = some s) :
    s.KeepsLimit maxTabs ∧ (s.AdmitsNext maxTabs ↔ (s.IsAtRest maxTabs → s.MissesNoPlace)) :=
  ⟨(wanting_of_run hrun).limited.keepsLimit, (wanting_of_run hrun).admitsNext_iff⟩

/-! ### three tabs and two places -/

/-- Two tabs have the places; the third has the gate, and asks for both. -/
def thirdTabAsks : List (SlotEvent (Fin 3)) :=
  [.start 0, .gateGranted 0, .gateEntered 0, .placeGranted 0 0, .placeEntered 0 0 false,
    .placeWithdrawn 0 1, .gateLetGo 0,
    .start 1, .gateGranted 1, .gateEntered 1, .placeGranted 1 1, .placeEntered 1 1 false,
    .placeWithdrawn 1 0, .gateLetGo 1,
    .start 2, .gateGranted 2, .gateEntered 2]

/-- A tab gives its place up while the third one waits for either. -/
theorem tab_limit_holds_thirdTab :
    ∃ s, (system 2).run
    (thirdTabAsks ++ [.stop 1, .placeLetGo 1 1, .placeGranted 2 1,
    .placeEntered 2 1 false]) = some s ∧
      s.acquired = [0, 1, 2] ∧ s.KeepsLimit 2 ∧
        (s.AdmitsNext 2 ↔ (s.IsAtRest 2 → s.MissesNoPlace)) := by
  obtain ⟨s, hrun, hfacts⟩ := (Option.any_eq_true _ _).mp
    (show ((system 2).run (thirdTabAsks ++ [.stop 1, .placeLetGo 1 1, .placeGranted 2 1,
        .placeEntered 2 1 false])).any
      (fun s => decide (s.acquired = [0, 1, 2])) = true by decide)
  exact ⟨s, hrun, of_decide_eq_true hfacts, tab_limit_holds hrun⟩

/-- The browser refuses the third tab one of the places, which becomes free: the tab goes on waiting
for the other. -/
theorem free_place_missed :
    ¬∀ (maxTabs : ℕ) (events : List (SlotEvent (Fin 3))) (s : TabLimit (Fin 3)),
      (system maxTabs).run events = some s →
      s.KeepsLimit maxTabs ∧ s.AdmitsNext maxTabs := by
  intro h
  obtain ⟨s, hrun, hfacts⟩ := (Option.any_eq_true _ _).mp
    (show ((system 2).run (thirdTabAsks ++ [.placeRefused 2 1, .stop 1, .placeLetGo 1 1])).any
      (fun s => decide ((s.tab 0).gate = .idle ∧ (s.tab 1).gate = .idle ∧ (s.tab 2).gate = .taking ∧
        (s.tab 0).place 0 = .kept ∧ (s.tab 0).place 1 = .idle ∧ (s.tab 1).place 0 = .idle ∧
          (s.tab 1).place 1 = .idle ∧
        (s.tab 2).place 0 = .requested ∧ (s.tab 2).place 1 = .refused ∧
          (s.tab 2).isAborted = false ∧
        ((s.place 0).grant 2).isNone = true)) = true by decide)
  obtain ⟨hgate₀, hgate₁, hgate₂, hplace₀₀, hplace₀₁, hplace₁₀, hplace₁₁, hplace₂₀, hplace₂₁,
      haborted, hgrant⟩ :=
    of_decide_eq_true hfacts
  have hlimited := (wanting_of_run hrun).limited
  have hrest : s.IsAtRest 2 := by
    refine isAtRest_of_quiet fun t => ⟨?_, fun place => ?_⟩
    · fin_cases t
      · exact .inl hgate₀
      · exact .inl hgate₁
      · exact .inr (.inl hgate₂)
    · obtain _ | _ | place := place
      · fin_cases t
        · exact .inr (.inl hplace₀₀)
        · exact .inl hplace₁₀
        · exact .inr (.inr (.inr ⟨hplace₂₀, haborted, Option.isNone_iff_eq_none.mp hgrant⟩))
      · fin_cases t
        · exact .inl hplace₀₁
        · exact .inl hplace₁₁
        · exact .inr (.inr (.inl hplace₂₁))
      · exact .inl ((hlimited.sound t).beyond _ (by omega))
  have hmisses := (wanting_of_run hrun).admitsNext_iff.mp (h 2 _ s hrun).2 hrest
  obtain ⟨u, hheld⟩ := hmisses 2 1 hgate₂ hplace₂₁
  have hkept := hlimited.kept_of_held hrest hheld
  fin_cases u
  · simp [hplace₀₁] at hkept
  · simp [hplace₁₁] at hkept
  · simp [hplace₂₁] at hkept

end TabLimit

end SerialBroker
