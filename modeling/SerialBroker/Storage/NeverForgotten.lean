import SerialBroker.Storage.PersistenceHold

/-!
# A remembered configuration is not forgotten under a hold

The removal of the entry runs inside the persistence lock taken exclusively, so by the exclusion of
the lock no hold is held from the first of its operations to the last. What is not locked are the
saves, and a save of the name only ever adds to what is stored, with one exception: an index it
could not read is removed before the new one is written, and by then another tab may have written
its own.
-/

namespace SerialBroker

variable {τ ν : Type*}

/-- The stages in which the lock is held. -/
def HoldStage.isHeld : HoldStage → Bool
  | .registered => false
  | .requested => false
  | .refused => false
  | .granted => true
  | .saving => true
  | .holding _ => true
  | .returned => true

def LeavingStage.isHeld : LeavingStage → Bool
  | .lettingGo => false
  | .asking _ => false
  | .granted => true
  | .removing => true
  | .removed => true
  | .refused _ => false

namespace NameTab

variable {tab tab' : NameTab ν} {number : ℕ}

/-- The holds and the leavings have numbers below `next`. -/
structure Numbered (next : ℕ) (tab : NameTab ν) : Prop where
  holds : ∀ number hold, tab.holds number = some hold → number < next
  leavings : ∀ number leaving, tab.leavings number = some leaving → number < next
  registered : ∀ number, tab.registered = some number → number < next

theorem Numbered.mono {next later : ℕ} (h : Numbered next tab) (hle : next ≤ later) :
    Numbered later tab where
  holds := fun number hold hhold => Nat.lt_of_lt_of_le (h.holds number hold hhold) hle
  leavings := fun number leaving hleaving =>
    Nat.lt_of_lt_of_le (h.leavings number leaving hleaving) hle
  registered := fun number hregistered => Nat.lt_of_lt_of_le (h.registered number hregistered) hle

theorem Numbered.of_eq {next : ℕ} (h : Numbered next tab) (hholds : tab'.holds = tab.holds)
    (hleavings : tab'.leavings = tab.leavings) (hregistered : tab'.registered = tab.registered) :
    Numbered next tab' where
  holds := by
    rw [hholds]
    exact h.holds
  leavings := by
    rw [hleavings]
    exact h.leavings
  registered := by
    rw [hregistered]
    exact h.registered

theorem numbered_of_empty {next : ℕ} (hholds : ∀ number, tab.holds number = none)
    (hleavings : ∀ number, tab.leavings number = none) (hregistered : tab.registered = none) :
    Numbered next tab where
  holds := by
    intro number hold hhold
    rw [hholds number] at hhold
    cases hhold
  leavings := by
    intro number leaving hleaving
    rw [hleavings number] at hleaving
    cases hleaving
  registered := by
    intro number heq
    rw [hregistered] at heq
    cases heq

theorem Numbered.holds_eq_none {next : ℕ} (h : Numbered next tab) : tab.holds next = none := by
  cases hhold : tab.holds next with
  | none => rfl
  | some hold => exact absurd (h.holds next hold hhold) (Nat.lt_irrefl next)

theorem Numbered.leavings_eq_none {next : ℕ} (h : Numbered next tab) :
    tab.leavings next = none := by
  cases hleaving : tab.leavings next with
  | none => rfl
  | some leaving => exact absurd (h.leavings next leaving hleaving) (Nat.lt_irrefl next)

theorem Numbered.setHold {next : ℕ} (h : Numbered next tab) (hnumber : number < next)
    (hold : Option Hold) : Numbered next (tab.setHold number hold) where
  holds := by
    intro other entered hentered
    rw [holds_setHold] at hentered
    split at hentered
    · next heq => exact heq ▸ hnumber
    · exact h.holds other entered hentered
  leavings := h.leavings
  registered := h.registered

theorem Numbered.setLeaving {next : ℕ} (h : Numbered next tab) (hnumber : number < next)
    (leaving : Option Leaving) : Numbered next (tab.setLeaving number leaving) where
  holds := h.holds
  leavings := by
    intro other entered hentered
    rw [leavings_setLeaving] at hentered
    split at hentered
    · next heq => exact heq ▸ hnumber
    · exact h.leavings other entered hentered
  registered := h.registered

theorem Numbered.stopHold {next : ℕ} (h : Numbered next tab) : Numbered next tab.stopHold := by
  unfold NameTab.stopHold
  split
  · exact h
  · next number hregistered =>
    have hset := h.setHold (h.registered number hregistered) ((tab.holds number).bind Hold.stop)
    exact { hset with registered := fun _ hnone => by cases hnone }

theorem Numbered.look {next : ℕ} (h : Numbered next tab) (remember : Bool) :
    Numbered next (tab.look remember) := by
  unfold NameTab.look
  split
  · exact h
  · exact h.of_eq rfl rfl rfl

theorem Numbered.leave {next : ℕ} (h : Numbered next tab) (isForgetting : Bool) :
    Numbered (next + 1) (tab.leave next isForgetting) :=
  (h.stopHold.mono next.le_succ).setLeaving next.lt_succ_self _

theorem Numbered.remember {next : ℕ} (h : Numbered next tab) (name : ν) (remember : Bool) :
    Numbered (next + 1) (tab.remember name next remember) := by
  unfold NameTab.remember
  split
  · have hset := (h.mono next.le_succ).setHold next.lt_succ_self (some ⟨.registered, false⟩)
    refine { holds := hset.holds, leavings := hset.leavings, registered := fun number heq => ?_ }
    obtain rfl := Option.some.inj heq
    exact Nat.lt_succ_self _
  · exact h.leave true

end NameTab

namespace RememberedName

variable [DecidableEq ν]

/-- What a running call of the store has done so far and relies on. -/
def Fits (name : ν) (storage : KeyValueStorage ν) (tab : NameTab ν) (run : StoreRun ν) : Prop :=
  match run.use with
  | .resolution => run.call.IsSaveOf name
  | .hold number =>
    run.call.IsSaveOf name ∧ (run.call = .writeEntry name ∨ storage.hasEntry name = true) ∧
      ∃ isStopped, tab.holds number = some ⟨.saving, isStopped⟩
  | .forget number =>
    ∃ hold isForgetting, tab.leavings number = some ⟨hold, isForgetting, .removing⟩

/-- What holds of one tab in every run. -/
structure TabKept (name : ν) (storage : KeyValueStorage ν) (lock : WebLock (PersistenceRequest τ))
    (t : τ) (tab : NameTab ν) :
    Prop where
  holdHeld : ∀ number hold, tab.holds number = some hold → hold.stage.isHeld = true →
    ⟨.hold t number, false⟩ ∈ lock.held
  forgetHeld : ∀ number leaving, tab.leavings number = some leaving → leaving.stage.isHeld = true →
    ⟨.forget t number, true⟩ ∈ lock.held
  runs : ∀ run, tab.running = some run → Fits name storage tab run
  setups : ∀ number call, .saving number call ∈ tab.setups → call.IsSaveOf name
  above : ∀ number call saved rest, .saving number call ∈ tab.setups →
    tab.running = some ⟨.hold saved, rest⟩ → saved < number
  kept : ∀ number isStopped, tab.holds number = some ⟨.holding true, isStopped⟩ →
    storage.hasEntry name = true ∧ name ∈ storage.index.names

/-- What holds of all tabs in every run. -/
structure Kept (name : ν) (s : RememberedName τ ν) : Prop where
  exclusion : s.lock.Exclusion
  queued : ∀ r ∈ s.lock.queue, r.isExclusive = false
  tabs : ∀ t, TabKept name s.storage s.lock t (s.tab t)
  numbered : ∀ t, (s.tab t).Numbered s.next

variable {name : ν} {storage storage' : KeyValueStorage ν}
  {lock lock' : WebLock (PersistenceRequest τ)} {t : τ}
  {tab tab' : NameTab ν} {number : ℕ}

/-! ### one tab -/

omit [DecidableEq ν] in
theorem Fits.of_eq {run : StoreRun ν} (h : Fits name storage tab run)
    (hholds : tab'.holds = tab.holds)
    (hleavings : tab'.leavings = tab.leavings) : Fits name storage tab' run := by
  unfold Fits at h ⊢
  rw [hholds, hleavings]
  exact h

theorem TabKept.of_eq (h : TabKept name storage lock t tab) (hholds : tab'.holds = tab.holds)
    (hleavings : tab'.leavings = tab.leavings) (hrunning : tab'.running = tab.running)
    (hsetups : tab'.setups = tab.setups) : TabKept name storage lock t tab' where
  holdHeld := by
    rw [hholds]
    exact h.holdHeld
  forgetHeld := by
    rw [hleavings]
    exact h.forgetHeld
  runs := by
    rw [hrunning]
    exact fun run hrun => (h.runs run hrun).of_eq hholds hleavings
  setups := by
    rw [hsetups]
    exact h.setups
  above := by
    rw [hsetups, hrunning]
    exact h.above
  kept := by
    rw [hholds]
    exact h.kept

theorem tabKept_of_empty (hholds : ∀ number, tab.holds number = none)
    (hleavings : ∀ number, tab.leavings number = none) (hrunning : tab.running = none)
    (hsetups : tab.setups = []) : TabKept name storage lock t tab where
  holdHeld := by
    intro number hold hhold
    rw [hholds number] at hhold
    cases hhold
  forgetHeld := by
    intro number leaving hleaving
    rw [hleavings number] at hleaving
    cases hleaving
  runs := by
    intro run hrun
    rw [hrunning] at hrun
    cases hrun
  setups := by
    intro number call hcall
    rw [hsetups] at hcall
    exact absurd hcall List.not_mem_nil
  above := by
    intro number call saved rest hcall
    rw [hsetups] at hcall
    exact absurd hcall List.not_mem_nil
  kept := by
    intro number isStopped hhold
    rw [hholds number] at hhold
    cases hhold

theorem TabKept.of_lock (h : TabKept name storage lock t tab)
    (hlock : ∀ r ∈ lock.held, r.id.tab = t → r ∈ lock'.held) :
    TabKept name storage lock' t tab where
  holdHeld := fun number hold hhold hheld => hlock _ (h.holdHeld number hold hhold hheld) rfl
  forgetHeld := fun number leaving hleaving hheld =>
    hlock _ (h.forgetHeld number leaving hleaving hheld) rfl
  runs := h.runs
  setups := h.setups
  above := h.above
  kept := h.kept

/-- The storage has lost nothing a hold of the tab relies on. -/
theorem TabKept.of_storage (h : TabKept name storage lock t tab)
    (hentry : storage.hasEntry name = true → storage'.hasEntry name = true)
    (hlisted : ∀ number isStopped, tab.holds number = some ⟨.holding true, isStopped⟩ →
      name ∈ storage.index.names → name ∈ storage'.index.names) :
      TabKept name storage' lock t tab where
  holdHeld := h.holdHeld
  forgetHeld := h.forgetHeld
  runs := by
    intro run hrun
    have hfits := h.runs run hrun
    unfold Fits at hfits ⊢
    cases huse : run.use with
    | resolution => simpa only [huse] using hfits
    | hold number =>
      simp only [huse] at hfits ⊢
      exact ⟨hfits.1, hfits.2.1.imp id hentry, hfits.2.2⟩
    | forget number => simpa only [huse] using hfits
  setups := h.setups
  above := h.above
  kept := by
    intro number isStopped hhold
    obtain ⟨hhas, hin⟩ := h.kept number isStopped hhold
    exact ⟨hentry hhas, hlisted number isStopped hhold hin⟩

/-- No hold of the tab is held, so it relies on nothing that is stored. -/
theorem TabKept.of_storage_of_not_held (h : TabKept name storage lock t tab)
    (hnot : ∀ number, (⟨.hold t number, false⟩ : LockRequest (PersistenceRequest τ)) ∉ lock.held) :
    TabKept name storage' lock t tab where
  holdHeld := h.holdHeld
  forgetHeld := h.forgetHeld
  runs := by
    intro run hrun
    have hfits := h.runs run hrun
    unfold Fits at hfits ⊢
    cases huse : run.use with
    | resolution => simpa only [huse] using hfits
    | hold number =>
      simp only [huse] at hfits
      obtain ⟨-, -, isStopped, hhold⟩ := hfits
      exact absurd (h.holdHeld number _ hhold rfl) (hnot number)
    | forget number => simpa only [huse] using hfits
  setups := h.setups
  above := h.above
  kept := fun number isStopped hhold => absurd (h.holdHeld number _ hhold rfl) (hnot number)

theorem TabKept.setHold {hold : Option Hold} (h : TabKept name storage lock t tab)
    (hsaving : (∀ rest, tab.running ≠ some ⟨.hold number, rest⟩) ∨
      ∀ isStopped, tab.holds number = some ⟨.saving, isStopped⟩ →
        ∃ stopped, hold = some ⟨.saving, stopped⟩)
    (hheld : ∀ entered, hold = some entered → entered.stage.isHeld = true →
      ⟨.hold t number, false⟩ ∈ lock.held)
    (hkept : ∀ isStopped, hold = some ⟨.holding true, isStopped⟩ →
      storage.hasEntry name = true ∧ name ∈ storage.index.names) :
    TabKept name storage lock t (tab.setHold number hold) where
  holdHeld := by
    intro other entered hentered
    rw [NameTab.holds_setHold] at hentered
    split at hentered
    · next heq => exact heq ▸ hheld entered hentered
    · exact h.holdHeld other entered hentered
  forgetHeld := h.forgetHeld
  runs := by
    intro run hrun
    have hfits := h.runs run hrun
    obtain ⟨use, call⟩ := run
    unfold Fits at hfits ⊢
    cases use with
    | resolution => exact hfits
    | hold saved =>
      obtain ⟨hsave, hwritten, isStopped, hhold⟩ := hfits
      refine ⟨hsave, hwritten, ?_⟩
      rw [NameTab.holds_setHold]
      split
      · next heq =>
        subst heq
        obtain hnot | hsaving := hsaving
        · exact absurd hrun (hnot call)
        · exact hsaving isStopped hhold
      · exact ⟨isStopped, hhold⟩
    | forget _ => exact hfits
  setups := h.setups
  above := h.above
  kept := by
    intro other isStopped hentered
    rw [NameTab.holds_setHold] at hentered
    split at hentered
    · exact hkept isStopped hentered
    · exact h.kept other isStopped hentered

theorem TabKept.setLeaving {leaving : Option Leaving} (h : TabKept name storage lock t tab)
    (hidle : tab.running = none ∨
      ∀ hold isForgetting, tab.leavings number ≠ some ⟨hold, isForgetting, .removing⟩)
    (hheld : ∀ entered, leaving = some entered → entered.stage.isHeld = true →
      ⟨.forget t number, true⟩ ∈ lock.held) :
    TabKept name storage lock t (tab.setLeaving number leaving) where
  holdHeld := h.holdHeld
  forgetHeld := by
    intro other entered hentered
    rw [NameTab.leavings_setLeaving] at hentered
    split at hentered
    · next heq => exact heq ▸ hheld entered hentered
    · exact h.forgetHeld other entered hentered
  runs := by
    intro run hrun
    have hfits := h.runs run hrun
    obtain hnone | hnot := hidle
    · rw [show tab.running = some run from hrun] at hnone
      cases hnone
    · unfold Fits at hfits ⊢
      cases huse : run.use with
      | resolution => simpa only [huse] using hfits
      | hold _ =>
        simp only [huse] at hfits ⊢
        exact hfits
      | forget removed =>
        simp only [huse] at hfits ⊢
        obtain ⟨hold, isForgetting, hleaving⟩ := hfits
        refine ⟨hold, isForgetting, ?_⟩
        rw [NameTab.leavings_setLeaving, if_neg]
        · exact hleaving
        · rintro rfl
          exact hnot hold isForgetting hleaving
  setups := h.setups
  above := h.above
  kept := h.kept

theorem TabKept.run (h : TabKept name storage lock t tab) (running : Option (StoreRun ν))
    (hfits : ∀ run, running = some run → Fits name storage tab run)
    (habove : tab.setups = [] ∨ running = none) :
    TabKept name storage lock t { tab with running := running } where
  holdHeld := h.holdHeld
  forgetHeld := h.forgetHeld
  runs := fun run hrun => (hfits run hrun).of_eq rfl rfl
  setups := h.setups
  above := by
    intro number call saved rest hcall hrun
    obtain hnone | hnone := habove
    · rw [show _ = [] from hnone] at hcall
      exact absurd hcall List.not_mem_nil
    · rw [show _ = none from hnone] at hrun
      cases hrun
  kept := h.kept

theorem TabKept.setSetups (h : TabKept name storage lock t tab) {setups : List (SetupWork ν)}
    (hsetups : ∀ number call, .saving number call ∈ setups → call.IsSaveOf name)
    (habove : ∀ number call saved rest, .saving number call ∈ setups →
      tab.running = some ⟨.hold saved, rest⟩ → saved < number) :
    TabKept name storage lock t { tab with setups := setups } where
  holdHeld := h.holdHeld
  forgetHeld := h.forgetHeld
  runs := fun run hrun => (h.runs run hrun).of_eq rfl rfl
  setups := hsetups
  above := habove
  kept := h.kept

theorem stage_of_stop {hold stopped : Hold} (h : hold.stop = some stopped) :
    stopped.stage = hold.stage := by
  unfold Hold.stop at h
  split at h
  · cases h
  · cases h
  · cases h
    rfl

theorem TabKept.stopHold (h : TabKept name storage lock t tab) :
    TabKept name storage lock t tab.stopHold := by
  unfold NameTab.stopHold
  split
  · exact h
  · next number _ =>
    have hstop : TabKept name storage lock t
        (tab.setHold number ((tab.holds number).bind Hold.stop)) := by
      refine h.setHold (.inr fun isStopped hsaving => ⟨true, ?_⟩) ?_ ?_
      · rw [hsaving]
        rfl
      · intro stopped hstopped hheld
        obtain ⟨hold, hhold, hstop⟩ := Option.bind_eq_some_iff.mp hstopped
        rw [stage_of_stop hstop] at hheld
        exact h.holdHeld number hold hhold hheld
      · intro isStopped hstopped
        obtain ⟨hold, hhold, hstop⟩ := Option.bind_eq_some_iff.mp hstopped
        obtain ⟨stage, wasStopped⟩ := hold
        obtain rfl : .holding true = stage := stage_of_stop hstop
        exact h.kept number wasStopped hhold
    exact hstop.of_eq rfl rfl rfl rfl

theorem TabKept.leave (h : TabKept name storage lock t tab) (hnone : tab.leavings number = none)
    (isForgetting : Bool) : TabKept name storage lock t (tab.leave number isForgetting) := by
  refine h.stopHold.setLeaving (.inr fun hold isForgetting hleaving => ?_)
    fun entered hentered hheld => ?_
  · rw [NameTab.leavings_stopHold, hnone] at hleaving
    cases hleaving
  · obtain rfl := Option.some.inj hentered
    cases hheld

/-! ### the calls of `setup()` -/

theorem TabKept.look (h : TabKept name storage lock t tab) (remember : Bool) :
    TabKept name storage lock t (tab.look remember) := by
  unfold NameTab.look
  split
  · exact h
  · have hmem : ∀ number call, .saving number call ∈ SetupWork.looking remember :: tab.setups →
        SetupWork.saving number call ∈ tab.setups := by
      intro number call hcall
      exact (List.mem_cons.mp hcall).resolve_left (by simp)
    exact h.setSetups (fun number call hcall => h.setups number call (hmem number call hcall))
      fun number call saved rest hcall => h.above number call saved rest (hmem number call hcall)

/-- A call of `setup()` that is done, or has gone on. -/
theorem TabKept.drop (h : TabKept name storage lock t tab) {work : SetupWork ν}
    {below : List (SetupWork ν)} (hsetups : tab.setups = work :: below) :
    TabKept name storage lock t { tab with setups := below } := by
  have hmem : ∀ number call, .saving number call ∈ below →
      SetupWork.saving number call ∈ tab.setups := by
    intro number call hcall
    rw [hsetups]
    exact List.mem_cons_of_mem _ hcall
  exact h.setSetups (fun number call hcall => h.setups number call (hmem number call hcall))
    fun number call saved rest hcall => h.above number call saved rest (hmem number call hcall)

theorem TabKept.saved_lt {next saved : ℕ} {rest : StoreCall ν} (h : TabKept name storage lock t tab)
    (hnumbered : tab.Numbered next) (hrun : tab.running = some ⟨.hold saved, rest⟩) :
    saved < next := by
  obtain ⟨-, -, isStopped, hhold⟩ := h.runs _ hrun
  exact hnumbered.holds saved _ hhold

theorem TabKept.remember (h : TabKept name storage lock t tab) (hnumbered : tab.Numbered number)
    (remember : Bool) : TabKept name storage lock t (tab.remember name number remember) := by
  unfold NameTab.remember
  split
  · have hset : TabKept name storage lock t (tab.setHold number (some ⟨.registered, false⟩)) := by
      refine h.setHold (.inr fun isStopped hsaving => ?_) (fun entered hentered hheld => ?_)
        fun isStopped hentered => ?_
      · rw [hnumbered.holds_eq_none] at hsaving
        cases hsaving
      · obtain rfl := Option.some.inj hentered
        cases hheld
      · cases hentered
    have hsave : TabKept name storage lock t
        { tab.setHold number (some ⟨.registered, false⟩) with
          setups := .saving number (.save name) :: tab.setups } := by
      refine hset.setSetups (fun other call hcall => ?_) fun other call saved rest hcall hrun => ?_
      · obtain heq | hcall := List.mem_cons.mp hcall
        · cases heq
          exact StoreCall.isSaveOf_save name
        · exact h.setups other call hcall
      · obtain heq | hcall := List.mem_cons.mp hcall
        · cases heq
          exact h.saved_lt hnumbered hrun
        · exact h.above other call saved rest hcall hrun
    exact hsave.of_eq rfl rfl rfl rfl
  · exact h.leave hnumbered.leavings_eq_none true

/-! ### all tabs -/

variable [DecidableEq τ] {s s' : RememberedName τ ν} {event : PersistenceEvent τ}

theorem Kept.setBoth (h : Kept name s) (hexclusion : lock'.Exclusion)
    (hqueued : ∀ r ∈ lock'.queue, r.isExclusive = false)
    (hothers : ∀ r ∈ s.lock.held, r.id.tab ≠ t → r ∈ lock'.held)
    (htab : TabKept name s.storage lock' t tab') (hnumbered : tab'.Numbered s.next) :
    Kept name ((s.setTab t tab').setLock lock') where
  exclusion := hexclusion
  queued := hqueued
  tabs := by
    intro u
    show TabKept name s.storage lock' u (Function.update s.tab t tab' u)
    obtain rfl | hne := eq_or_ne u t
    · rw [Function.update_self]
      exact htab
    · rw [Function.update_of_ne hne]
      refine (h.tabs u).of_lock fun r hr hu => hothers r hr ?_
      rw [hu]
      exact hne
  numbered := by
    intro u
    show (Function.update s.tab t tab' u).Numbered s.next
    obtain rfl | hne := eq_or_ne u t
    · rw [Function.update_self]
      exact hnumbered
    · rw [Function.update_of_ne hne]
      exact h.numbered u

theorem Kept.setTab (h : Kept name s) (htab : TabKept name s.storage s.lock t tab')
    (hnumbered : tab'.Numbered s.next) : Kept name (s.setTab t tab') :=
  h.setBoth h.exclusion h.queued (fun _ hr _ => hr) htab hnumbered

omit [DecidableEq τ] in
theorem Kept.mono (h : Kept name s) {next : ℕ} (hle : s.next ≤ next) :
    Kept name { s with next := next } :=
  ⟨h.exclusion, h.queued, h.tabs, fun u => (h.numbered u).mono hle⟩

/-- The tab takes the next number. -/
theorem Kept.setNext (h : Kept name s) (htab : TabKept name s.storage s.lock t tab')
    (hnumbered : tab'.Numbered (s.next + 1)) :
    Kept name { s.setTab t tab' with next := s.next + 1 } :=
  (h.mono s.next.le_succ).setTab htab hnumbered

omit [DecidableEq τ] in
theorem kept_init (name : ν) (storage : KeyValueStorage ν) :
    Kept name (⟨storage, .free, fun _ => .fresh, 0⟩ : RememberedName τ ν) where
  exclusion := WebLock.exclusion_free
  queued := fun _ hr => absurd hr List.not_mem_nil
  tabs := fun _ => tabKept_of_empty (fun _ => rfl) (fun _ => rfl) rfl rfl
  numbered := fun _ => NameTab.numbered_of_empty (fun _ => rfl) (fun _ => rfl) rfl

theorem Kept.start (h : Kept name s) (t : τ) (hnumber : number < s.next)
    (hrunning : ∀ rest, (s.tab t).running ≠ some ⟨.hold number, rest⟩) :
    Kept name (s.start t number) := by
  refine h.setBoth (h.exclusion.request _) ?_ (fun r hr _ => hr) ?_
    ((h.numbered t).setHold hnumber _)
  · intro r hr
    obtain hr | hr := List.mem_append.mp hr
    · exact h.queued r hr
    · obtain rfl := List.mem_singleton.mp hr
      rfl
  · have htab : TabKept name s.storage (s.lock.request ⟨.hold t number, false⟩) t (s.tab t) :=
      (h.tabs t).of_lock fun r hr _ => hr
    refine htab.setHold (.inl hrunning) (fun entered hentered hheld => ?_)
      fun isStopped hentered => ?_
    · obtain rfl := Option.some.inj hentered
      cases hheld
    · cases hentered

theorem Kept.setup (h : Kept name s) (t : τ) (remember : Bool) :
    Kept name (s.setTab t ((s.tab t).setup remember)) := by
  unfold NameTab.setup
  split
  · exact h.setTab ((h.tabs t).of_eq rfl rfl rfl rfl) ((h.numbered t).of_eq rfl rfl rfl)
  · exact h.setTab ((h.tabs t).look remember) ((h.numbered t).look remember)

theorem Kept.rememberIn (h : Kept name s) (t : τ) (remember : Bool) {work : SetupWork ν}
    {below : List (SetupWork ν)} (hsetups : (s.tab t).setups = work :: below) :
    Kept name (s.rememberIn name t remember below) := by
  have hmade : TabKept name s.storage s.lock t
      { s.tab t with session := some s.next, setups := below } :=
    ((h.tabs t).drop hsetups).of_eq rfl rfl rfl rfl
  have hnumbered : ({ s.tab t with session := some s.next, setups := below } : NameTab ν).Numbered
      s.next :=
    (h.numbered t).of_eq rfl rfl rfl
  exact h.setNext (hmade.remember hnumbered remember) (hnumbered.remember name remember)

theorem Kept.releaseIn (h : Kept name s) (t : τ) (forget : Bool) :
    Kept name (s.releaseIn t forget) := by
  unfold RememberedName.releaseIn
  split
  · have hleft := (h.tabs t).leave (h.numbered t).leavings_eq_none forget
    exact h.setNext (hleft.of_eq rfl rfl rfl rfl) (((h.numbered t).leave forget).of_eq rfl rfl rfl)
  · exact h.setTab ((h.tabs t).of_eq rfl rfl rfl rfl) ((h.numbered t).of_eq rfl rfl rfl)

theorem Kept.forgetIn (h : Kept name s) (t : τ) (forget : Bool) :
    Kept name (s.forgetIn t forget) := by
  unfold RememberedName.forgetIn
  split
  · exact h.setNext ((h.tabs t).leave (h.numbered t).leavings_eq_none true)
      ((h.numbered t).leave true)
  · exact h

theorem Kept.goOn (h : Kept name s) (t : τ) (call : NameCall) : Kept name (s.goOn t call) := by
  have hgone : Kept name (s.setTab t { s.tab t with waiting := (s.tab t).waiting.erase call }) :=
    h.setTab ((h.tabs t).of_eq rfl rfl rfl rfl) ((h.numbered t).of_eq rfl rfl rfl)
  unfold RememberedName.goOn
  cases call with
  | setup remember releasing =>
    refine hgone.setTab (TabKept.look ?_ remember) (NameTab.Numbered.look ?_ remember)
    · exact (hgone.tabs t).of_eq rfl rfl rfl rfl
    · exact (hgone.numbered t).of_eq rfl rfl rfl
  | release number =>
    exact hgone.setTab ((hgone.tabs t).of_eq rfl rfl rfl rfl)
      ((hgone.numbered t).of_eq rfl rfl rfl)
  | releaseAgain forget releasing => exact hgone.releaseIn t forget
  | forgetAsAsked forget releasing => exact hgone.forgetIn t forget

theorem Kept.enterHold (h : Kept name s) {isStopped : Bool} (hidle : (s.tab t).isIdle = true)
    (hgranted : (s.tab t).holds number = some ⟨.granted, isStopped⟩) :
    Kept name (s.enterHold name t number isStopped) := by
  have hrunning := NameTab.running_of_isIdle hidle
  have hnumber : number < s.next := (h.numbered t).holds number _ hgranted
  have hheld : ⟨.hold t number, false⟩ ∈ s.lock.held := (h.tabs t).holdHeld number _ hgranted rfl
  have hset : ∀ stage, stage ≠ .holding true →
      TabKept name s.storage s.lock t ((s.tab t).setHold number (some ⟨stage, isStopped⟩)) := by
    intro stage hstage
    refine (h.tabs t).setHold (.inl fun rest => by simp [hrunning]) (fun _ _ _ => hheld)
      fun stopped hentered => absurd ?_ hstage
    exact congrArg Hold.stage (Option.some.inj hentered)
  unfold RememberedName.enterHold
  split
  · next hstopped =>
    subst hstopped
    exact h.setTab (hset .returned (by decide)) ((h.numbered t).setHold hnumber _)
  · next hstopped =>
    obtain rfl : isStopped = false := by simpa using hstopped
    split
    · refine h.setTab ((hset .saving (by decide)).run (some ⟨.hold number, .save name⟩)
        (fun run hrun => ?_) (.inl (NameTab.setups_of_isIdle hidle)))
        (((h.numbered t).setHold hnumber _).of_eq rfl rfl rfl)
      obtain rfl := Option.some.inj hrun
      exact ⟨StoreCall.isSaveOf_save name, .inl rfl,
        false, by rw [NameTab.holds_setHold, if_pos rfl]⟩
    · exact h.setTab (hset (.holding false) (by decide)) ((h.numbered t).setHold hnumber _)

/-! ### the storage operations -/

/-- A save removes the index it could not read. -/
def isDiscarding (s : RememberedName τ ν) : PersistenceEvent τ → Bool
  | .operation tab =>
    match (s.tab tab).storeCall with
    | some (.discardIndex _) => true
    | _ => false
  | _ => false

/-- No save removes the index it could not read while a hold is held whose save is done. -/
def discardsUnheld (s : RememberedName τ ν) (event : PersistenceEvent τ) : Prop :=
  s.isDiscarding event = true →
    ∀ tab number isStopped, (s.tab tab).holds number ≠ some ⟨.holding true, isStopped⟩

omit [DecidableEq τ] [DecidableEq ν] in
theorem discardsUnheld_of_not_discarding (h : s.isDiscarding event = false) :
    s.discardsUnheld event := by
  intro hdiscards
  rw [h] at hdiscards
  cases hdiscards

omit [DecidableEq ν] in
theorem Fits.isSaveOf {run : StoreRun ν} (h : Fits name storage tab run)
    (hsave : ∀ number, run.use ≠ .forget number) : run.call.IsSaveOf name := by
  unfold Fits at h
  cases huse : run.use with
  | resolution => simpa only [huse] using h
  | hold _ =>
    simp only [huse] at h
    exact h.1
  | forget number => exact absurd huse (hsave number)

omit [DecidableEq τ] in
/-- Inside the lock taken exclusively no hold is held. -/
theorem Kept.not_held (h : Kept name s) {run : StoreRun ν} (hrun : (s.tab t).running = some run)
    (huse : run.use = .forget number) : s.lock.held = [⟨.forget t number, true⟩] := by
  have hfits := (h.tabs t).runs run hrun
  unfold Fits at hfits
  simp only [huse] at hfits
  obtain ⟨hold, isForgetting, hleaving⟩ := hfits
  exact h.exclusion _ ((h.tabs t).forgetHeld number _ hleaving rfl) rfl

omit [DecidableEq τ] in
/-- The call of the store that is under way is a save, or runs inside the lock taken exclusively. -/
theorem Kept.storeCall (h : Kept name s) {call : StoreCall ν}
    (hcall : (s.tab t).storeCall = some call) :
    call.IsSaveOf name ∨ ∃ number, s.lock.held = [⟨.forget t number, true⟩] := by
  unfold NameTab.storeCall at hcall
  split at hcall
  · obtain ⟨run, hrun, rfl⟩ := Option.map_eq_some_iff.mp hcall
    by_cases hforget : ∃ number, run.use = .forget number
    · obtain ⟨number, huse⟩ := hforget
      exact .inr ⟨number, h.not_held hrun huse⟩
    · push Not at hforget
      exact .inl (((h.tabs t).runs run hrun).isSaveOf hforget)
  · cases hcall
  · next number called below hsetups =>
    obtain rfl := Option.some.inj hcall
    exact .inl ((h.tabs t).setups number called (by rw [hsetups]; exact List.mem_cons_self))

omit [DecidableEq τ] in
/-- A storage operation of one tab takes nothing from another. -/
theorem Kept.next_storage (h : Kept name s) {call : StoreCall ν}
    (hcall : (s.tab t).storeCall = some call) (hcond : s.discardsUnheld (.operation t)) :
    Kept name { s with storage := (call.next s.storage).1 } := by
  refine ⟨h.exclusion, h.queued, fun u => ?_, h.numbered⟩
  obtain hsave | ⟨number, halone⟩ := h.storeCall hcall
  · refine (h.tabs u).of_storage (StoreCall.hasEntry_next hsave)
      fun number isStopped hhold hlisted => ?_
    refine (StoreCall.keeps_next hsave ?_ hlisted).1
    obtain hwrite | hlist | hdiscard | ⟨names, hwrite, hmem⟩ := hsave.eq
    · rw [hwrite]
      rfl
    · rw [hlist]
      rfl
    · have hdiscarding : s.isDiscarding (.operation t) = true := by
        simp only [isDiscarding, hcall, hdiscard]
      exact absurd hhold (hcond hdiscarding u number isStopped)
    · rw [hwrite]
      simpa [StoreCall.keeps] using hmem
  · refine (h.tabs u).of_storage_of_not_held fun held hmem => ?_
    rw [halone] at hmem
    exact Bool.false_ne_true (congrArg (·.isExclusive) (List.mem_singleton.mp hmem))

theorem Kept.remembered (h : Kept name s) {call : StoreCall ν} {below : List (SetupWork ν)}
    (hsetups : (s.tab t).setups = .saving number call :: below) :
    Kept name (s.remembered t number below) := by
  have hdone : Kept name (s.setTab t { s.tab t with setups := below }) :=
    h.setTab ((h.tabs t).drop hsetups) ((h.numbered t).of_eq rfl rfl rfl)
  have htab : (s.setTab t { s.tab t with setups := below }).tab t =
      { s.tab t with setups := below } :=
    Function.update_self ..
  unfold RememberedName.remembered
  dsimp only
  split
  · next hregistered =>
    refine hdone.start t ((hdone.numbered t).registered number hregistered) ?_
    rw [htab]
    intro rest hrun
    have hlt := (h.tabs t).above number call number rest
      (by rw [hsetups]; exact List.mem_cons_self) hrun
    exact absurd hlt (Nat.lt_irrefl number)
  · exact hdone

theorem Kept.returned {run : StoreRun ν} (h : Kept name s) (hrun : (s.tab t).running = some run)
    (hsaved : ∀ number, run.use = .hold number →
      s.storage.hasEntry name = true ∧ name ∈ s.storage.index.names) :
    Kept name (s.returned t run.use) := by
  have hfits := (h.tabs t).runs run hrun
  have hidle : Kept name (s.setTab t { s.tab t with running := none }) :=
    h.setTab ((h.tabs t).run none (fun run hnone => by cases hnone) (.inr rfl))
      ((h.numbered t).of_eq rfl rfl rfl)
  have htab : (s.setTab t { s.tab t with running := none }).tab t =
      { s.tab t with running := none } := Function.update_self ..
  unfold RememberedName.returned
  unfold Fits at hfits
  cases huse : run.use with
  | resolution => exact hidle
  | hold number =>
    simp only [huse] at hfits
    obtain ⟨-, -, isStopped, hhold⟩ := hfits
    refine hidle.setTab ((hidle.tabs t).setHold (.inl fun rest => by simp [htab])
        (fun entered _ _ => ?_)
      fun _ _ => ?_) ((hidle.numbered t).setHold ((h.numbered t).holds number _ hhold) _)
    · exact (h.tabs t).holdHeld number _ hhold rfl
    · exact hsaved number huse
  | forget number =>
    simp only [huse] at hfits
    obtain ⟨hold, isForgetting, hleaving⟩ := hfits
    refine hidle.setTab ((hidle.tabs t).setLeaving (.inl (by rw [htab])) fun entered _ _ => ?_)
      ((hidle.numbered t).setLeaving ((h.numbered t).leavings number _ hleaving) _)
    exact (h.tabs t).forgetHeld number _ hleaving rfl

theorem Kept.operateSetup (h : Kept name s) {call : StoreCall ν} {below : List (SetupWork ν)}
    (hsetups : (s.tab t).setups = .saving number call :: below)
    (hcond : s.discardsUnheld (.operation t)) :
    Kept name (s.operateSetup t number call below) := by
  have hnext : Kept name { s with storage := (call.next s.storage).1 } :=
    h.next_storage (by simp [NameTab.storeCall, hsetups]) hcond
  have hmem : SetupWork.saving number call ∈ (s.tab t).setups := by
    rw [hsetups]
    exact List.mem_cons_self
  unfold RememberedName.operateSetup
  cases hcall : call.next s.storage with
  | mk storage rest =>
    rw [hcall] at hnext
    cases rest with
    | some rest =>
      have hbelow := (hnext.tabs t).drop hsetups
      refine hnext.setTab ((hnext.tabs t).setSetups (fun other left hleft => ?_)
        fun other left saved run hleft hrun => ?_) ((hnext.numbered t).of_eq rfl rfl rfl)
      · obtain heq | hleft := List.mem_cons.mp hleft
        · cases heq
          exact StoreCall.isSaveOf_next ((h.tabs t).setups number call hmem)
            (congrArg Prod.snd hcall)
        · exact hbelow.setups other left hleft
      · obtain heq | hleft := List.mem_cons.mp hleft
        · cases heq
          exact (h.tabs t).above number call saved run hmem hrun
        · exact hbelow.above other left saved run hleft hrun
    | none => exact hnext.remembered hsetups

theorem Kept.operateRun {run : StoreRun ν} (h : Kept name s)
    (hrun : (s.tab t).running = some run) (hsetups : (s.tab t).setups = [])
    (hcond : s.discardsUnheld (.operation t)) : Kept name (s.operateRun t run) := by
  have hnext : Kept name { s with storage := (run.call.next s.storage).1 } :=
    h.next_storage (by simp [NameTab.storeCall, hsetups, hrun]) hcond
  have hfits := (h.tabs t).runs run hrun
  unfold RememberedName.operateRun
  cases hcall : run.call.next s.storage with
  | mk storage rest =>
    rw [hcall] at hnext
    cases rest with
    | some rest =>
      refine hnext.setTab ((hnext.tabs t).run _ (fun left hleft => ?_) (.inl hsetups))
        ((hnext.numbered t).of_eq rfl rfl rfl)
      obtain rfl := Option.some.inj hleft
      unfold Fits at hfits ⊢
      cases huse : run.use with
      | resolution =>
        simp only [huse] at hfits
        exact StoreCall.isSaveOf_next hfits (congrArg Prod.snd hcall)
      | hold number =>
        simp only [huse] at hfits
        obtain ⟨hsave, hwritten, hhold⟩ := hfits
        refine ⟨StoreCall.isSaveOf_next hsave (congrArg Prod.snd hcall), .inr ?_, hhold⟩
        have hentry := StoreCall.hasEntry_of_next hsave hwritten
        rw [hcall] at hentry
        exact hentry
      | forget number =>
        simp only [huse] at hfits
        exact hfits
    | none =>
      refine hnext.returned hrun fun number huse => ?_
      unfold Fits at hfits
      simp only [huse] at hfits
      obtain ⟨hsave, hwritten, -⟩ := hfits
      have hentry := StoreCall.hasEntry_of_next hsave hwritten
      have hlisted := StoreCall.listed_of_returns hsave (congrArg Prod.snd hcall)
      rw [hcall] at hentry hlisted
      exact ⟨hentry, hlisted⟩

theorem Kept.operate (h : Kept name s) (hcond : s.discardsUnheld (.operation t))
    (hstep : s.operate t = some s') : Kept name s' := by
  unfold RememberedName.operate at hstep
  split at hstep
  · next number call below hsetups =>
    obtain rfl := Option.some.inj hstep
    exact h.operateSetup hsetups hcond
  · cases hstep
  · next hsetups =>
    obtain ⟨run, hrun, rfl⟩ := Option.map_eq_some_iff.mp hstep
    exact h.operateRun hrun hsetups hcond

/-! ### every event -/

theorem Kept.grantHold (h : Kept name s) {isStopped : Bool}
    (hhold : (s.tab t).holds number = some ⟨.requested, isStopped⟩)
    (hgrant : s.lock.grant (.hold t number) = some lock') :
    Kept name ((s.setTab t ((s.tab t).setHold number (some ⟨.granted, isStopped⟩))).setLock
      lock') := by
  have hexclusion := WebLock.exclusion_of_grant hgrant
  obtain ⟨r, hqueue, hid, -, hheld⟩ := WebLock.grant_eq_some.mp hgrant
  have hr : r = ⟨.hold t number, false⟩ := by
    obtain ⟨id, isExclusive⟩ := r
    obtain rfl : id = .hold t number := hid
    obtain rfl : isExclusive = false :=
      h.queued ⟨.hold t number, isExclusive⟩ (by rw [hqueue]; exact List.mem_cons_self)
    rfl
  have hkept : ∀ r ∈ s.lock.held, r ∈ lock'.held := by
    intro r hr
    rw [hheld]
    exact List.mem_append_left _ hr
  refine h.setBoth hexclusion (fun r hr =>
      h.queued r (by rw [hqueue]; exact List.mem_cons_of_mem _ hr))
    (fun r hr _ => hkept r hr) ?_ ((h.numbered t).setHold ((h.numbered t).holds number _ hhold) _)
  refine ((h.tabs t).of_lock fun r hr _ => hkept r hr).setHold (.inr fun stopped hsaving => ?_)
    (fun _ _ _ => ?_) ?_
  · rw [hhold] at hsaving
    cases hsaving
  · rw [hheld, hr]
    exact List.mem_append_right _ (List.mem_singleton_self _)
  · intro stopped hentered
    cases hentered

/-- A hold that is not held any more, or is not yet, whatever has become of its request. -/
theorem Kept.withdrawHold (h : Kept name s) {old : Hold} {hold : Option Hold}
    (hold' : (s.tab t).holds number = some old) (hsaving : old.stage ≠ .saving)
    (hhold : ∀ entered, hold = some entered → entered.stage.isHeld = false) :
    Kept name ((s.setTab t ((s.tab t).setHold number hold)).setLock
      (s.lock.withdraw (.hold t number))) := by
  refine h.setBoth (h.exclusion.withdraw _) (fun r hr => h.queued r (List.mem_filter.mp hr).1)
    (fun r hr _ => hr) ?_ ((h.numbered t).setHold ((h.numbered t).holds number _ hold') _)
  have htab : TabKept name s.storage (s.lock.withdraw (.hold t number)) t (s.tab t) :=
    (h.tabs t).of_lock fun r hr _ => hr
  refine htab.setHold (.inr fun isStopped heq => absurd ?_ hsaving)
    (fun entered hentered hheld => ?_) fun isStopped hentered => ?_
  · rw [hold'] at heq
    exact congrArg Hold.stage (Option.some.inj heq)
  · rw [hhold entered hentered] at hheld
    cases hheld
  · cases hhold _ hentered

theorem mem_letGo {r : LockRequest (PersistenceRequest τ)} {id : PersistenceRequest τ}
    (hr : r ∈ lock.held) (hne : r.id ≠ id) : r ∈ (lock.letGo id).held :=
  List.mem_filter.mpr ⟨hr, by simpa using hne⟩

theorem Kept.letGoHold (h : Kept name s) {hold : Hold}
    (hhold : (s.tab t).holds number = some hold) (hsaving : hold.stage ≠ .saving) :
    Kept name ((s.setTab t ((s.tab t).setHold number none)).setLock
      (s.lock.letGo (.hold t number))) := by
  have hset : TabKept name s.storage s.lock t ((s.tab t).setHold number none) := by
    refine (h.tabs t).setHold (.inr fun isStopped heq => absurd ?_ hsaving)
      (fun _ hnone => by cases hnone) fun _ hnone => by cases hnone
    rw [hhold] at heq
    exact congrArg Hold.stage (Option.some.inj heq)
  refine h.setBoth (h.exclusion.letGo _) h.queued (fun r hr hne => mem_letGo hr fun heq => hne ?_)
    ?_ ((h.numbered t).setHold ((h.numbered t).holds number _ hhold) _)
  · rw [heq]
    rfl
  · refine { hset with
      holdHeld := fun other entered hentered hheld => ?_
      forgetHeld := fun other entered hentered hheld => ?_ }
    · refine mem_letGo (hset.holdHeld other entered hentered hheld) fun heq => ?_
      obtain rfl : other = number := by simpa using heq
      rw [NameTab.holds_setHold, if_pos rfl] at hentered
      cases hentered
    · exact mem_letGo (hset.forgetHeld other entered hentered hheld) (by simp)

theorem Kept.letGoForget (h : Kept name s) {leaving : Leaving}
    (hleaving : (s.tab t).leavings number = some leaving) (hremoved : leaving.stage = .removed) :
    Kept name ((s.setTab t ((s.tab t).setLeaving number none)).setLock
      (s.lock.letGo (.forget t number))) := by
  have hset : TabKept name s.storage s.lock t ((s.tab t).setLeaving number none) := by
    refine (h.tabs t).setLeaving (.inr fun hold isForgetting heq => ?_) fun _ hnone =>
      by cases hnone
    rw [hleaving] at heq
    obtain rfl := Option.some.inj heq
    cases hremoved
  refine h.setBoth (h.exclusion.letGo _) h.queued (fun r hr hne => mem_letGo hr fun heq => hne ?_)
    ?_ ((h.numbered t).setLeaving ((h.numbered t).leavings number _ hleaving) _)
  · rw [heq]
    rfl
  · refine { hset with
      holdHeld := fun other entered hentered hheld => ?_
      forgetHeld := fun other entered hentered hheld => ?_ }
    · exact mem_letGo (hset.holdHeld other entered hentered hheld) (by simp)
    · refine mem_letGo (hset.forgetHeld other entered hentered hheld) fun heq => ?_
      obtain rfl : other = number := by simpa using heq
      rw [NameTab.leavings_setLeaving, if_pos rfl] at hentered
      cases hentered

theorem Kept.setLeaving (h : Kept name s) {old : Leaving} {leaving : Option Leaving}
    (hleaving : (s.tab t).leavings number = some old) (hremoving : old.stage ≠ .removing)
    (hheld : ∀ entered, leaving = some entered → entered.stage.isHeld = true →
      old.stage.isHeld = true) :
    Kept name (s.setTab t ((s.tab t).setLeaving number leaving)) := by
  refine h.setTab ((h.tabs t).setLeaving (.inr fun hold isForgetting heq => hremoving ?_)
      fun entered hentered hstage => ?_)
    ((h.numbered t).setLeaving ((h.numbered t).leavings number _ hleaving) _)
  · rw [hleaving] at heq
    exact congrArg Leaving.stage (Option.some.inj heq)
  · exact (h.tabs t).forgetHeld number old hleaving (hheld entered hentered hstage)

theorem Kept.grantForget (h : Kept name s) {hold : Option ℕ} {isForgetting : Bool} {attempt : ℕ}
    (hleaving : (s.tab t).leavings number = some ⟨hold, isForgetting, .asking attempt⟩)
    (hgrant : s.lock.grantIfAvailable ⟨.forget t number, true⟩ = some lock') :
    Kept name ((s.setTab t
      ((s.tab t).setLeaving number (some ⟨hold, isForgetting, .granted⟩))).setLock lock') := by
  obtain ⟨-, hcompatible, rfl⟩ := WebLock.grantIfAvailable_eq_some.mp hgrant
  have hkept : ∀ r ∈ s.lock.held, r ∈ s.lock.held ++ [⟨.forget t number, true⟩] :=
    fun r hr => List.mem_append_left _ hr
  refine h.setBoth (WebLock.exclusion_of_compatible hcompatible rfl) h.queued
    (fun r hr _ => hkept r hr) ?_
    ((h.numbered t).setLeaving ((h.numbered t).leavings number _ hleaving) _)
  have htab : TabKept name s.storage ⟨s.lock.held ++ [⟨.forget t number, true⟩], s.lock.queue⟩
      t (s.tab t) :=
    (h.tabs t).of_lock fun r hr _ => hkept r hr
  refine htab.setLeaving (.inr fun hold isForgetting heq => ?_) fun _ _ _ => ?_
  · rw [hleaving] at heq
    cases heq
  · exact List.mem_append_right _ (List.mem_singleton_self _)

theorem Kept.enterForget (h : Kept name s) {hold : Option ℕ} {isForgetting : Bool}
    (hidle : (s.tab t).isIdle = true)
    (hleaving : (s.tab t).leavings number = some ⟨hold, isForgetting, .granted⟩) :
    Kept name (s.setTab t { (s.tab t).setLeaving number (some ⟨hold, isForgetting, .removing⟩) with
      running := some ⟨.forget number, .remove name⟩ }) := by
  have hset : TabKept name s.storage s.lock t
      ((s.tab t).setLeaving number (some ⟨hold, isForgetting, .removing⟩)) :=
    (h.tabs t).setLeaving (.inl (NameTab.running_of_isIdle hidle))
      fun _ _ _ => (h.tabs t).forgetHeld number _ hleaving rfl
  have hnumbered := (h.numbered t).setLeaving ((h.numbered t).leavings number _ hleaving)
    (some ⟨hold, isForgetting, .removing⟩)
  refine h.setTab (hset.run (some ⟨.forget number, .remove name⟩) (fun run hrun => ?_)
    (.inl (NameTab.setups_of_isIdle hidle))) (hnumbered.of_eq rfl rfl rfl)
  obtain rfl := Option.some.inj hrun
  exact ⟨hold, isForgetting, by rw [NameTab.leavings_setLeaving, if_pos rfl]⟩

theorem Kept.crash (h : Kept name s) (t : τ) :
    Kept name ((s.setTab t .crashed).setLock
      (s.lock.drop fun request => decide (request.tab = t))) := by
  refine h.setBoth (h.exclusion.drop _) (fun r hr => h.queued r (List.mem_filter.mp hr).1)
    (fun r hr hne => ?_) ?_ (NameTab.numbered_of_empty (fun _ => rfl) (fun _ => rfl) rfl)
  · exact List.mem_filter.mpr ⟨hr, by simpa using hne⟩
  · exact tabKept_of_empty (fun _ => rfl) (fun _ => rfl) rfl rfl

theorem Kept.step (h : Kept name s) (hcond : s.discardsUnheld event)
    (hstep : step name s event = some s') : Kept name s' := by
  cases event with
  | setup t remember =>
    simp only [RememberedName.step, Option.ite_none_right_eq_some] at hstep
    obtain ⟨-, hstep⟩ := hstep
    obtain rfl := Option.some.inj hstep
    exact h.setup t remember
  | sessionMade t =>
    simp only [RememberedName.step] at hstep
    split at hstep
    · next remember below hsetups =>
      obtain rfl := Option.some.inj hstep
      exact h.rememberIn t remember hsetups
    · cases hstep
  | release t forget =>
    simp only [RememberedName.step, Option.ite_none_right_eq_some] at hstep
    obtain ⟨-, hstep⟩ := hstep
    obtain rfl := Option.some.inj hstep
    exact h.releaseIn t forget
  | releaseFinished t number =>
    simp only [RememberedName.step, Option.ite_none_right_eq_some] at hstep
    obtain ⟨-, hstep⟩ := hstep
    obtain rfl := Option.some.inj hstep
    exact h.setTab ((h.tabs t).of_eq rfl rfl rfl rfl) ((h.numbered t).of_eq rfl rfl rfl)
  | goesOn t call =>
    simp only [RememberedName.step, Option.ite_none_right_eq_some] at hstep
    obtain ⟨-, hstep⟩ := hstep
    obtain rfl := Option.some.inj hstep
    exact h.goOn t call
  | resolved t =>
    simp only [RememberedName.step, Option.ite_none_right_eq_some, Bool.and_eq_true] at hstep
    obtain ⟨⟨⟨hidle, -⟩, -⟩, hstep⟩ := hstep
    obtain rfl := Option.some.inj hstep
    refine h.setTab ((h.tabs t).run (some ⟨.resolution, .save name⟩) (fun run hrun => ?_)
      (.inl (NameTab.setups_of_isIdle hidle))) ((h.numbered t).of_eq rfl rfl rfl)
    obtain rfl := Option.some.inj hrun
    exact StoreCall.isSaveOf_save name
  | operation t => exact h.operate hcond hstep
  | holdGranted t number =>
    simp only [RememberedName.step] at hstep
    split at hstep
    · next isStopped hhold =>
      obtain ⟨lock', hgrant, rfl⟩ := Option.map_eq_some_iff.mp hstep
      exact h.grantHold hhold hgrant
    · cases hstep
  | holdEntered t number =>
    simp only [RememberedName.step] at hstep
    split at hstep
    · next isStopped hhold =>
      simp only [Option.ite_none_right_eq_some] at hstep
      obtain ⟨hidle, hstep⟩ := hstep
      obtain rfl := Option.some.inj hstep
      exact h.enterHold hidle hhold
    · cases hstep
  | holdWithdrawn t number =>
    simp only [RememberedName.step] at hstep
    split at hstep
    · next hhold =>
      obtain rfl := Option.some.inj hstep
      exact h.withdrawHold hhold (by simp) fun _ hnone => by cases hnone
    · cases hstep
  | holdRefused t number =>
    simp only [RememberedName.step] at hstep
    split at hstep
    · next isStopped hhold =>
      obtain rfl := Option.some.inj hstep
      refine h.withdrawHold hhold (by simp) fun entered hentered => ?_
      split at hentered
      · cases hentered
      · obtain rfl := Option.some.inj hentered
        rfl
    · cases hstep
  | holdRetried t number =>
    simp only [RememberedName.step] at hstep
    split at hstep
    · next hhold =>
      simp only [Option.ite_none_right_eq_some] at hstep
      obtain ⟨hidle, hstep⟩ := hstep
      obtain rfl := Option.some.inj hstep
      exact h.start t ((h.numbered t).holds number _ hhold)
        fun rest => by simp [NameTab.running_of_isIdle hidle]
    · cases hstep
  | holdLetGo t number =>
    simp only [RememberedName.step] at hstep
    split at hstep
    · next hhold =>
      obtain rfl := Option.some.inj hstep
      exact h.letGoHold hhold (by simp)
    · next hhold =>
      obtain rfl := Option.some.inj hstep
      exact h.letGoHold hhold (by simp)
    · cases hstep
  | letGoAwaited t number =>
    simp only [RememberedName.step] at hstep
    split at hstep
    · next hold isForgetting hleaving =>
      simp only [Option.ite_none_right_eq_some] at hstep
      obtain ⟨-, hstep⟩ := hstep
      obtain rfl := Option.some.inj hstep
      refine h.setLeaving hleaving (by simp) fun entered hentered hheld => ?_
      split at hentered
      · obtain rfl := Option.some.inj hentered
        cases hheld
      · cases hentered
    · cases hstep
  | forgetAnswered t number isGranted =>
    simp only [RememberedName.step] at hstep
    split at hstep
    · next hold isForgetting attempt hleaving =>
      split at hstep
      · obtain ⟨lock', hgrant, rfl⟩ := Option.map_eq_some_iff.mp hstep
        exact h.grantForget hleaving hgrant
      · obtain rfl := Option.some.inj hstep
        refine h.setLeaving hleaving (by simp) fun entered hentered hheld => ?_
        obtain rfl := Option.some.inj hentered
        cases hheld
    · cases hstep
  | forgetEntered t number =>
    simp only [RememberedName.step] at hstep
    split at hstep
    · next hold isForgetting hleaving =>
      simp only [Option.ite_none_right_eq_some] at hstep
      obtain ⟨hidle, hstep⟩ := hstep
      obtain rfl := Option.some.inj hstep
      exact h.enterForget hidle hleaving
    · cases hstep
  | forgetLetGo t number =>
    simp only [RememberedName.step] at hstep
    split at hstep
    · next hleaving =>
      obtain rfl := Option.some.inj hstep
      exact h.letGoForget hleaving rfl
    · cases hstep
  | forgetFailed t number =>
    simp only [RememberedName.step] at hstep
    split at hstep
    · next hleaving =>
      obtain rfl := Option.some.inj hstep
      exact h.setLeaving hleaving (by simp) fun _ hnone => by cases hnone
    · next hleaving =>
      obtain rfl := Option.some.inj hstep
      exact h.setLeaving hleaving (by simp) fun _ hnone => by cases hnone
    · cases hstep
  | holdersQueried t number someoneHolds =>
    simp only [RememberedName.step] at hstep
    split at hstep
    · next hold isForgetting attempt hleaving =>
      split at hstep
      · obtain rfl := Option.some.inj hstep
        exact h.setLeaving hleaving (by simp) fun _ hnone => by cases hnone
      · simp only [Option.ite_none_right_eq_some] at hstep
        obtain ⟨-, hstep⟩ := hstep
        obtain rfl := Option.some.inj hstep
        refine h.setLeaving hleaving (by simp) fun entered hentered hheld => ?_
        obtain rfl := Option.some.inj hentered
        cases hheld
    · cases hstep
  | crash t =>
    simp only [RememberedName.step, Option.ite_none_right_eq_some] at hstep
    obtain ⟨-, hstep⟩ := hstep
    obtain rfl := Option.some.inj hstep
    exact h.crash t

theorem kept_of_run {initial : KeyValueStorage ν} {events : List (PersistenceEvent τ)}
    (hcond : (system name initial).Always discardsUnheld events)
    (hrun : (system name initial).run events = some s) :
    Kept name s :=
  TransitionSystem.run_invariant (kept_init name initial) (fun _ _ _ ht hcond hstep =>
    ht.step hcond hstep) hcond hrun

/-- An entry is only ever removed inside the lock taken exclusively. -/
theorem Kept.held_of_removed (h : Kept name s) (hstep : RememberedName.step name s event = some s')
    (hentry : s.storage.hasEntry name = true) (hremoved : s'.storage.hasEntry name = false) :
    ∃ t number, s.lock.held = [⟨.forget t number, true⟩] := by
  by_cases hevent : ∃ t, event = .operation t
  · obtain ⟨t, rfl⟩ := hevent
    obtain ⟨call, hcall, hstorage⟩ := storage_of_operate hstep
    obtain hsave | ⟨number, halone⟩ := h.storeCall hcall
    · have hkept := StoreCall.hasEntry_next hsave hentry
      rw [hstorage, hkept] at hremoved
      cases hremoved
    · exact ⟨t, number, halone⟩
  · push Not at hevent
    rw [storage_of_step hstep hevent, hentry] at hremoved
    cases hremoved

/-- **A remembered configuration is not forgotten under a hold.** The entry is removed only while no
tab's hold is held; and while a tab's hold is held and its save is done the entry is stored and
listed, where no save of another tab removes the index it could not read in that time. -/
theorem never_forgotten {initial : KeyValueStorage ν} {events : List (PersistenceEvent τ)}
    (hcond : (system name initial).Always discardsUnheld events)
    (hrun : (system name initial).run events = some s) :
    (∀ event s', step name s event = some s' → s.storage.hasEntry name = true →
      s'.storage.hasEntry name = false →
      ∀ t number, ¬s.lock.isHeldBy (.hold t number)) ∧
    ∀ t number isStopped, (s.tab t).holds number = some ⟨.holding true, isStopped⟩ →
      s.storage.hasEntry name = true ∧ name ∈ s.storage.index.names := by
  have hkept := kept_of_run hcond hrun
  refine ⟨fun event s' hstep hentry hremoved t number hheld => ?_, fun t => (hkept.tabs t).kept⟩
  obtain ⟨u, removed, halone⟩ := hkept.held_of_removed hstep hentry hremoved
  obtain ⟨r, hr, hid⟩ := hheld
  rw [halone] at hr
  rw [List.mem_singleton.mp hr] at hid
  cases hid

/-- The first tab saves, and so does the second, which then forgets the name in vain, with a
`setup()` and a further release waiting for that; the first tab's save is never undone. -/
def forgottenInVain : List (PersistenceEvent ℕ) :=
  [.setup 0 true, .sessionMade 0, .operation 0, .operation 0, .setup 1 true, .sessionMade 1,
    .operation 0, .operation 1, .operation 1, .holdGranted 0 0, .holdEntered 0 0, .operation 0,
    .operation 0, .release 1 true, .setup 1 true, .release 1 false, .holdWithdrawn 1 1,
    .letGoAwaited 1 2, .forgetAnswered 1 2 false, .holdersQueried 1 2 true, .releaseFinished 1 2,
    .goesOn 1 (.setup true 2), .sessionMade 1, .operation 1, .operation 1,
    .goesOn 1 (.releaseAgain false (some 2)), .goesOn 1 (.release 2)]

theorem never_forgotten_forgottenInVain :
    ∃ s : RememberedName ℕ ℕ, (system 7 ⟨.absent, fun _ => false⟩).run forgottenInVain = some s ∧
      (s.tab 0).holds 0 = some ⟨.holding true, false⟩ ∧
      ((∀ event s', step 7 s event = some s' → s.storage.hasEntry 7 = true →
        s'.storage.hasEntry 7 = false →
          ∀ t number, ¬s.lock.isHeldBy (.hold t number)) ∧
        ∀ t number isStopped, (s.tab t).holds number = some ⟨.holding true, isStopped⟩ →
          s.storage.hasEntry 7 = true ∧ 7 ∈ s.storage.index.names) := by
  obtain ⟨s, hrun, hhold⟩ := (Option.any_eq_true _ _).mp
    (show ((system 7 ⟨.absent, fun _ => false⟩).run forgottenInVain).any (fun s =>
      decide ((s.tab 0).holds 0 = some ⟨.holding true, false⟩)) = true by decide)
  have hcheck : (system 7 ⟨.absent, fun _ => false⟩).Always (fun s event =>
      (!s.isDiscarding event) = true) forgottenInVain :=
    TransitionSystem.always_of_alwaysFrom _ (by decide)
  refine ⟨s, hrun, of_decide_eq_true hhold, never_forgotten (hcheck.mono fun t event h => ?_) hrun⟩
  exact discardsUnheld_of_not_discarding (by simpa using h)

/-- Two tabs find an index they cannot read. The second removes it, writes its own, and is granted
its hold; then the first removes what it takes for the unreadable index. -/
def discardedUnderAHold : List (PersistenceEvent ℕ) :=
  [.setup 0 true, .sessionMade 0, .operation 0, .operation 0, .setup 1 true, .sessionMade 1,
    .operation 1, .operation 1, .operation 1, .operation 1, .holdGranted 1 1, .holdEntered 1 1,
    .operation 1, .operation 1, .operation 0]

/-- The second tab's hold is held and its save is done, and the name is not listed. -/
theorem not_never_forgotten :
    ∃ s : RememberedName ℕ ℕ,
      (system 7 ⟨.unreadable, fun _ => false⟩).run discardedUnderAHold = some s ∧
      (s.tab 1).holds 1 = some ⟨.holding true, false⟩ ∧ 7 ∉ s.storage.index.names := by
  obtain ⟨s, hrun, hlost⟩ := (Option.any_eq_true _ _).mp
    (show ((system 7 ⟨.unreadable, fun _ => false⟩).run discardedUnderAHold).any (fun s =>
      decide ((s.tab 1).holds 1 = some ⟨.holding true, false⟩ ∧
        7 ∉ s.storage.index.names)) = true by decide)
  exact ⟨s, hrun, of_decide_eq_true hlost⟩

/-! ### an index that could be read -/

/-- Nobody is about to discard an index. -/
structure Readable (s : RememberedName τ ν) : Prop where
  read : s.storage.index.read ≠ none
  runs : ∀ t call, (s.tab t).IsCalling call → ∀ listed, call ≠ .discardIndex listed

theorem Readable.step (h : Readable s) (hstep : RememberedName.step name s event = some s') :
    Readable s' where
  read := by
    by_cases hevent : ∃ t, event = .operation t
    · obtain ⟨t, rfl⟩ := hevent
      obtain ⟨call, -, hstorage⟩ := storage_of_operate hstep
      rw [hstorage]
      exact StoreCall.read_next h.read
    · push Not at hevent
      rw [storage_of_step hstep hevent]
      exact h.read
  runs := by
    intro u call hcall listed
    obtain hcall | hsave | hremove | ⟨t, called, -, hnext⟩ := calling_of_step hstep hcall
    · exact h.runs u call hcall listed
    · rw [hsave]
      simp [StoreCall.save]
    · rw [hremove]
      simp [StoreCall.remove]
    · exact StoreCall.ne_discardIndex_of_next h.read hnext

/-- **Over an index that can be read no run discards one**, so nothing remembered is forgotten under
a hold. -/
theorem always_discardsUnheld {initial : KeyValueStorage ν} (hread : initial.index.read ≠ none)
    {events : List (PersistenceEvent τ)} : (system name initial).Always discardsUnheld events := by
  have hinit : Readable (system (τ := τ) name initial).init := by
    refine ⟨hread, fun t call hcall => ?_⟩
    obtain ⟨use, hrun⟩ | ⟨number, hmem⟩ := hcall
    · cases hrun
    · exact absurd hmem List.not_mem_nil
  suffices hfrom : ∀ s, Readable s → (system name initial).AlwaysFrom discardsUnheld s events from
    hfrom _ hinit
  induction events with
  | nil => exact fun _ _ => trivial
  | cons event events ih =>
    refine fun s hs => ⟨fun hdiscards => ?_, fun s' hstep => ih s' (hs.step hstep)⟩
    unfold isDiscarding at hdiscards
    split at hdiscards
    · split at hdiscards
      · next listed hcall =>
        exact absurd rfl (hs.runs _ _ (NameTab.isCalling_of_storeCall hcall) listed)
      · cases hdiscards
    · cases hdiscards

end RememberedName

end SerialBroker
