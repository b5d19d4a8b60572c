import SerialBroker.Client.TabSlot

/-!
# The tab limit holds

A tab competes for the places only while it holds the gate, and every request it has for a place
once it has kept one or stopped is aborted: its callback returns, or it is withdrawn. So at most one
place is kept by a tab, at most one tab at a time is to keep one, and a tab that has stopped gives
back whatever it is still granted.
-/

namespace SerialBroker

variable {τ : Type*}

/-- What the tab has of the gate. -/
def GateStage.use : GateStage → WebLock.Use
  | .idle | .refused => .none
  | .requested => .queued
  | .granted | .taking | .left _ => .held

def PlaceStage.use : PlaceStage → WebLock.Use
  | .idle | .refused => .none
  | .requested => .queued
  | .granted | .kept | .returned => .held

namespace SlotTab

/-- What every event keeps of one tab's slot. -/
structure Sound (maxTabs : ℕ) (tab : SlotTab) : Prop where
  held : tab.isHeld = true → ∃ place, place < maxTabs ∧ tab.place place = .kept
  kept : ∀ place, tab.place place = .kept → tab.isHeld = true
  unique : ∀ place other, tab.place place = .kept → tab.place other = .kept → place = other
  unstopped : tab.isHeld = true → tab.isStopped = false
  gateLeft : tab.isHeld = true → tab.gate = .left false ∨ tab.gate = .idle
  competing : ∀ place, tab.place place = .requested ∨ tab.place place = .granted →
    tab.isAborted = false → tab.gate = .taking
  returned : ∀ place, tab.place place = .returned → tab.isAborted = true
  taking : tab.gate = .taking → tab.isStopped = false
  refused : tab.gate = .refused → tab.isStopped = false
  beyond : ∀ place, maxTabs ≤ place → tab.place place = .idle
  unstarted : tab.isStarted = false → tab.gate = .idle ∧ tab.isHeld = false

/-- A tab that waits for a place waits for one of its requests. -/
def Waits (maxTabs : ℕ) (tab : SlotTab) : Prop :=
  tab.gate = .taking → 0 < maxTabs → ∃ place, place < maxTabs ∧ (tab.place place).isSettled = false

variable {maxTabs place : ℕ} {tab : SlotTab} {stage : PlaceStage}

theorem isAborted_eq_false :
    tab.isAborted = false ↔ tab.isHeld = false ∧ tab.isStopped = false := by
  simp [isAborted]

theorem place_setPlace (tab : SlotTab) (place other : ℕ) (stage : PlaceStage) :
    (tab.setPlace place stage).place other = if other = place then stage else tab.place other :=
    Function.update_apply ..

theorem keepPlace_eq (htaking : tab.gate = .taking) :
    tab.keepPlace place = { tab.setPlace place .kept with
    gate := .left false
    isHeld := true } := by
  simp only [keepPlace, leaveGate]
  rw [if_pos (show (tab.setPlace place .kept).gate = .taking from htaking)]

theorem waits_of_ne (h : tab.gate ≠ .taking) : tab.Waits maxTabs := fun htaking => absurd htaking h

namespace Sound

theorem lt (h : tab.Sound maxTabs) (hplace : tab.place place ≠ .idle) : place < maxTabs := by
  by_contra hle
  exact hplace (h.beyond place (by omega))

theorem not_held_of_taking (h : tab.Sound maxTabs) (htaking : tab.gate = .taking) :
    tab.isHeld = false := by
  by_contra hheld
  obtain hleft | hidle := h.gateLeft (by simpa using hheld)
  · rw [htaking] at hleft
    cases hleft
  · rw [htaking] at hidle
    cases hidle

theorem not_aborted_of_taking (h : tab.Sound maxTabs) (htaking : tab.gate = .taking) :
    tab.isAborted = false :=
  isAborted_eq_false.mpr ⟨h.not_held_of_taking htaking, h.taking htaking⟩

/-- A tab that neither waits for a place nor has kept one or stopped has no request for one. -/
theorem settled (h : tab.Sound maxTabs) (hgate : tab.gate ≠ .taking)
    (haborted : tab.isAborted = false) (place : ℕ) :
    (tab.place place).isSettled = true := by
  cases hplace : tab.place place with
  | idle => rfl
  | refused => rfl
  | requested => exact absurd (h.competing place (.inl hplace) haborted) hgate
  | granted => exact absurd (h.competing place (.inr hplace) haborted) hgate
  | kept =>
    have hheld := h.kept place hplace
    rw [(isAborted_eq_false.mp haborted).1] at hheld
    cases hheld
  | returned =>
    have hreturned := h.returned place hplace
    rw [haborted] at hreturned
    cases hreturned

/-- A request for a place that is not kept, in its next stage. -/
theorem setPlace (h : tab.Sound maxTabs) (hlt : place < maxTabs) (hold : tab.place place ≠ .kept)
    (hnew : stage ≠ .kept)
    (hcompeting : stage = .requested ∨ stage = .granted → tab.place place = .requested ∨
      tab.place place = .granted)
    (hreturned : stage = .returned → tab.isAborted = true) :
    (tab.setPlace place stage).Sound maxTabs where
  held := by
    intro hheld
    obtain ⟨other, hother, hkept⟩ := h.held hheld
    refine ⟨other, hother, ?_⟩
    rw [place_setPlace, if_neg]
    · exact hkept
    · rintro rfl
      exact hold hkept
  kept := by
    intro other hkept
    rw [place_setPlace] at hkept
    split at hkept
    · exact absurd hkept hnew
    · exact h.kept other hkept
  unique := by
    intro other third hkept hkept'
    rw [place_setPlace] at hkept hkept'
    split at hkept
    · exact absurd hkept hnew
    · split at hkept'
      · exact absurd hkept' hnew
      · exact h.unique other third hkept hkept'
  unstopped := h.unstopped
  gateLeft := h.gateLeft
  competing := by
    intro other hother haborted
    rw [place_setPlace] at hother
    split at hother
    · exact h.competing place (hcompeting hother) haborted
    · exact h.competing other hother haborted
  returned := by
    intro other hother
    rw [place_setPlace] at hother
    split at hother
    · exact hreturned hother
    · exact h.returned other hother
  taking := h.taking
  refused := h.refused
  beyond := by
    intro other hle
    rw [place_setPlace, if_neg (by omega)]
    exact h.beyond other hle
  unstarted := h.unstarted

/-- The gate in another stage, for a tab that does not compete. -/
theorem setGate (h : tab.Sound maxTabs) {gate : GateStage}
    (hheld : tab.isHeld = true → gate = .left false ∨ gate = .idle)
    (hsettled : tab.isAborted = false → ∀ place, (tab.place place).isSettled = true)
    (htaking : gate ≠ .taking)
    (hrefused : gate = .refused → tab.isStopped = false)
    (hstarted : tab.isStarted = false → gate = .idle) :
    { tab with gate := gate }.Sound maxTabs where
  held := h.held
  kept := h.kept
  unique := h.unique
  unstopped := h.unstopped
  gateLeft := hheld
  competing := by
    intro place hplace haborted
    have hsettled := hsettled haborted place
    obtain hplace | hplace := hplace
    · rw [show tab.place place = .requested from hplace] at hsettled
      cases hsettled
    · rw [show tab.place place = .granted from hplace] at hsettled
      cases hsettled
  returned := h.returned
  taking := fun heq => absurd heq htaking
  refused := hrefused
  beyond := h.beyond
  unstarted := fun hfalse => ⟨hstarted hfalse, (h.unstarted hfalse).2⟩

theorem stop (h : tab.Sound maxTabs) : tab.stop.Sound maxTabs := by
  unfold SlotTab.stop
  split
  · exact h
  · have hnot : ∀ place, (if tab.place place = .kept then PlaceStage.returned
        else tab.place place) ≠ .kept := by
      intro place
      split
      · exact PlaceStage.noConfusion
      · assumption
    constructor
    · exact fun hheld => by cases hheld
    · exact fun place hkept => absurd hkept (hnot place)
    · exact fun place _ hkept => absurd hkept (hnot place)
    · exact fun hheld => by cases hheld
    · exact fun hheld => by cases hheld
    · exact fun _ _ haborted => by cases haborted
    · exact fun _ _ => rfl
    · intro htaking
      simp only [leaveGate] at htaking
      grind
    · intro hrefused
      simp only [leaveGate] at hrefused
      grind
    · intro place hle
      simp only [h.beyond place hle]
      rfl
    · intro hstarted
      have hidle : tab.gate = .idle :=
        (h.unstarted (by simpa [leaveGate, apply_ite SlotTab.isStarted] using hstarted)).1
      simp [leaveGate, hidle]

theorem keepPlace (h : tab.Sound maxTabs) (hgranted : tab.place place = .granted)
    (haborted : tab.isAborted = false) :
    (tab.keepPlace place).Sound maxTabs := by
  have htaking : tab.gate = .taking := h.competing place (.inr hgranted) haborted
  obtain ⟨hheld, hstopped⟩ := isAborted_eq_false.mp haborted
  have hlt : place < maxTabs := h.lt (by simp [hgranted])
  have hnot : ∀ other, tab.place other ≠ .kept := by
    intro other hkept
    rw [h.kept other hkept] at hheld
    cases hheld
  rw [keepPlace_eq htaking]
  constructor
  · exact fun _ => ⟨place, hlt, by simp [place_setPlace]⟩
  · exact fun _ _ => rfl
  · intro other third hkept hkept'
    rw [show _ = _ from place_setPlace tab place other .kept] at hkept
    rw [show _ = _ from place_setPlace tab place third .kept] at hkept'
    split at hkept
    · next heq =>
      split at hkept'
      · next heq' => rw [heq, heq']
      · exact absurd hkept' (hnot third)
    · exact absurd hkept (hnot other)
  · exact fun _ => hstopped
  · exact fun _ => .inl rfl
  · exact fun _ _ haborted => by cases haborted
  · exact fun _ _ => rfl
  · exact fun htaking => by cases htaking
  · exact fun hrefused => by cases hrefused
  · intro other hle
    rw [show _ = _ from place_setPlace tab place other .kept, if_neg (by omega)]
    exact h.beyond other hle
  · intro hstarted
    rw [(h.unstarted hstarted).1] at htaking
    cases htaking

theorem takePlace (h : tab.Sound maxTabs) (hgranted : tab.gate = .granted)
    (hstopped : tab.isStopped = false) :
    (tab.takePlace maxTabs).Sound maxTabs := by
  have hheld : tab.isHeld = false := by
    by_contra hheld
    obtain hleft | hidle := h.gateLeft (by simpa using hheld)
    · rw [hgranted] at hleft
      cases hleft
    · rw [hgranted] at hidle
      cases hidle
  have hsettled := h.settled (by simp [hgranted]) (isAborted_eq_false.mpr ⟨hheld, hstopped⟩)
  have hnot : ∀ place, (tab.takePlace maxTabs).place place ≠ .kept ∧
      (tab.takePlace maxTabs).place place ≠ .returned := by
    intro place
    have hplace := hsettled place
    simp only [SlotTab.takePlace]
    split
    · exact ⟨PlaceStage.noConfusion, PlaceStage.noConfusion⟩
    · constructor
      · intro hkept
        rw [hkept] at hplace
        cases hplace
      · intro hreturned
        rw [hreturned] at hplace
        cases hplace
  constructor
  · intro hheld'
    rw [show tab.isHeld = true from hheld'] at hheld
    cases hheld
  · exact fun place hkept => absurd hkept (hnot place).1
  · exact fun place _ hkept => absurd hkept (hnot place).1
  · exact fun _ => hstopped
  · intro hheld'
    rw [show tab.isHeld = true from hheld'] at hheld
    cases hheld
  · exact fun _ _ _ => rfl
  · exact fun place hreturned => absurd hreturned (hnot place).2
  · exact fun _ => hstopped
  · exact fun hrefused => by cases hrefused
  · intro place hle
    simp only [SlotTab.takePlace]
    rw [if_neg (by omega)]
    exact h.beyond place hle
  · intro hstarted
    rw [(h.unstarted hstarted).1] at hgranted
    cases hgranted

/-- The end of a request for a place. -/
theorem settle (h : tab.Sound maxTabs) :
    (tab.settle maxTabs).Sound maxTabs ∧ (tab.settle maxTabs).Waits maxTabs := by
  unfold SlotTab.settle
  split
  · next hall =>
    obtain ⟨hall, hheld⟩ := Bool.and_eq_true_iff.mp hall
    have hheld : tab.isHeld = false := by simpa using hheld
    have hsettled : ∀ place, (tab.place place).isSettled = true := by
      intro place
      by_cases hlt : place < maxTabs
      · exact List.all_eq_true.mp hall place (List.mem_range.mpr hlt)
      · rw [h.beyond place (by omega)]
        rfl
    unfold leaveGate
    split
    · next htaking =>
      refine ⟨h.setGate (fun hheld' => ?_) (fun _ => hsettled) GateStage.noConfusion
        GateStage.noConfusion fun hstarted => ?_,
        waits_of_ne GateStage.noConfusion⟩
      · rw [hheld'] at hheld
        cases hheld
      · rw [(h.unstarted hstarted).1] at htaking
        cases htaking
    · next hne => exact ⟨h, waits_of_ne hne⟩
  · next hall =>
    refine ⟨h, fun htaking hpos => ?_⟩
    by_contra hnone
    push Not at hnone
    refine hall (Bool.and_eq_true_iff.mpr ⟨List.all_eq_true.mpr fun place hplace => ?_, ?_⟩)
    · simpa using hnone place (List.mem_range.mp hplace)
    · rw [h.not_held_of_taking htaking]
      rfl

end Sound

theorem sound_idle {tab : SlotTab} (hheld : tab.isHeld = false) (hgate : tab.gate = .idle)
    (hplace : ∀ place, tab.place place = .idle) :
    tab.Sound maxTabs := by
  constructor <;> simp [hheld, hgate, hplace]

/-! ### what a change of the slot leaves alone -/

@[simp] theorem use_leaveGate (tab : SlotTab) (hasFailed : Bool) :
    (tab.leaveGate hasFailed).gate.use = tab.gate.use := by
  unfold leaveGate
  split
  · next htaking =>
    rw [htaking]
    rfl
  · rfl

@[simp] theorem place_leaveGate (tab : SlotTab) (hasFailed : Bool) :
    (tab.leaveGate hasFailed).place = tab.place := by
  unfold leaveGate
  split <;> rfl

@[simp] theorem isAlive_leaveGate (tab : SlotTab) (hasFailed : Bool) :
    (tab.leaveGate hasFailed).isAlive = tab.isAlive := by
  unfold leaveGate
  split <;> rfl

theorem settle_eq (maxTabs : ℕ) (tab : SlotTab) :
    tab.settle maxTabs = tab ∨ tab.gate = .taking ∧ ∃ hasFailed, tab.settle maxTabs =
      { tab with gate := .left hasFailed } := by
  unfold settle leaveGate
  split
  · split
    · next htaking => exact .inr ⟨htaking, _, rfl⟩
    · exact .inl rfl
  · exact .inl rfl

@[simp] theorem use_settle (maxTabs : ℕ) (tab : SlotTab) :
    (tab.settle maxTabs).gate.use = tab.gate.use := by
  unfold settle
  split
  · exact use_leaveGate ..
  · rfl

@[simp] theorem place_settle (maxTabs : ℕ) (tab : SlotTab) :
    (tab.settle maxTabs).place = tab.place := by
  unfold settle
  split
  · exact place_leaveGate ..
  · rfl

@[simp] theorem isAlive_settle (maxTabs : ℕ) (tab : SlotTab) :
    (tab.settle maxTabs).isAlive = tab.isAlive := by
  unfold settle
  split
  · exact isAlive_leaveGate ..
  · rfl

@[simp] theorem use_stop (tab : SlotTab) : tab.stop.gate.use = tab.gate.use := by
  unfold stop
  split
  · rfl
  · dsimp only
    split
    · next hrefused =>
      rw [hrefused]
      rfl
    · exact use_leaveGate ..

@[simp] theorem use_place_stop (tab : SlotTab) (place : ℕ) :
    (tab.stop.place place).use = (tab.place place).use := by
  unfold stop
  split
  · rfl
  · dsimp only
    split
    · next hkept =>
      rw [hkept]
      rfl
    · rfl

@[simp] theorem isAlive_stop (tab : SlotTab) : tab.stop.isAlive = tab.isAlive := by
  unfold stop
  split
  · rfl
  · exact isAlive_leaveGate ..

@[simp] theorem use_keepPlace (tab : SlotTab) (place : ℕ) :
    (tab.keepPlace place).gate.use = tab.gate.use :=
  use_leaveGate (tab.setPlace place .kept) false

theorem place_keepPlace (tab : SlotTab) (place other : ℕ) :
    (tab.keepPlace place).place other = if other = place then .kept else tab.place other := by
  rw [← place_setPlace, keepPlace]
  exact congrFun (place_leaveGate (tab.setPlace place .kept) false) other

@[simp] theorem isAlive_keepPlace (tab : SlotTab) (place : ℕ) :
    (tab.keepPlace place).isAlive = tab.isAlive :=
  isAlive_leaveGate (tab.setPlace place .kept) false

theorem stop_gate_ne_taking (tab : SlotTab) (h : tab.Sound maxTabs) : tab.stop.gate ≠ .taking := by
  intro htaking
  have hstopped := h.stop.taking htaking
  unfold stop at hstopped htaking
  split at hstopped
  · next hwas =>
    rw [hwas] at hstopped
    cases hstopped
  · cases hstopped

/-- What is left of the slot of a tab that has had its place: it does not ask for another. -/
structure Over (tab : SlotTab) : Prop where
  held : tab.isAlive = true → tab.isStopped = false → tab.isHeld = true
  gate : tab.gate = .left false ∨ tab.gate = .idle
  started : tab.isAlive = true → tab.isStarted = true

theorem Over.ne_taking (h : tab.Over) : tab.gate ≠ .taking := by
  obtain hleft | hidle := h.gate
  · rw [hleft]
    exact GateStage.noConfusion
  · rw [hidle]
    exact GateStage.noConfusion

theorem Over.setPlace (h : tab.Over) : (tab.setPlace place stage).Over :=
  ⟨h.held, h.gate, h.started⟩

theorem Over.settle (h : tab.Over) : (tab.settle maxTabs).Over := by
  obtain heq | ⟨htaking, -⟩ := settle_eq maxTabs tab
  · rw [heq]
    exact h
  · exact absurd htaking h.ne_taking

theorem Over.stop (h : tab.Over) : tab.stop.Over := by
  unfold SlotTab.stop
  split
  · exact h
  · have hleave : tab.leaveGate false = tab := if_neg h.ne_taking
    have hrefused : tab.gate ≠ .refused := by
      obtain hleft | hidle := h.gate
      · rw [hleft]
        exact GateStage.noConfusion
      · rw [hidle]
        exact GateStage.noConfusion
    rw [hleave, if_neg hrefused]
    exact ⟨fun _ hstopped => (by cases hstopped), h.gate, h.started⟩

theorem Over.keepPlace (htaking : tab.gate = .taking)
    (hstarted : tab.isAlive = true → tab.isStarted = true) :
    (tab.keepPlace place).Over := by
  rw [keepPlace_eq htaking]
  exact ⟨fun _ _ => rfl, .inl rfl, hstarted⟩

end SlotTab

namespace TabLimit

variable [DecidableEq τ]

/-- What holds of the tabs in every run. -/
structure Limited (maxTabs : ℕ) (s : TabLimit τ) : Prop where
  gate : s.gate.Tracks fun t => (s.tab t).gate.use
  place : ∀ place, (s.place place).Tracks fun t => ((s.tab t).place place).use
  sound : ∀ t, (s.tab t).Sound maxTabs
  waits : ∀ t, (s.tab t).Waits maxTabs
  dead : ∀ t, (s.tab t).isAlive = false →
    (s.tab t).gate = .idle ∧ ∀ place, (s.tab t).place place = .idle
  ended : ∀ t ∈ s.acquired, (s.tab t).Over
  once : s.acquired.Nodup
  order : s.acquired.Pairwise fun t u => s.grantOf t < s.grantOf u
  newest : ∀ t, (s.tab t).gate.use = .held → ∀ u, u ≠ t → s.grantOf u < s.grantOf t
  counted : ∀ t, s.grantOf t ≤ s.grants

variable {maxTabs place : ℕ} {s s' : TabLimit τ} {t : τ} {tab : SlotTab} {event : SlotEvent τ}

omit [DecidableEq τ] in
theorem limited_init (maxTabs : ℕ) :
    Limited maxTabs (⟨.free, fun _ => .free, fun _ => .fresh, 0, fun _ => 0, []⟩ : TabLimit τ) where
  gate := WebLock.tracks_free
  place := fun _ => WebLock.tracks_free
  sound := fun _ => SlotTab.sound_idle rfl rfl fun _ => rfl
  waits := fun _ => SlotTab.waits_of_ne GateStage.noConfusion
  dead := fun _ hdead => by cases hdead
  ended := fun _ hacquired => by cases hacquired
  once := List.nodup_nil
  order := List.Pairwise.nil
  newest := fun _ hheld => by cases hheld
  counted := fun _ => Nat.le_refl 0

/-- The uses of a lock after one tab's has changed. -/
theorem use_update (f : SlotTab → WebLock.Use) (s : TabLimit τ) (t : τ) (tab : SlotTab) :
    (fun u => f (Function.update s.tab t tab u)) = Function.update (fun u => f (s.tab u)) t
    (f tab) := by
  funext u
  rw [Function.update_apply, Function.update_apply]
  split <;> rfl

/-- A tab whose slot changes, and with it what it has of the locks. -/
theorem Limited.change {gate : WebLock τ} {places : ℕ → WebLock τ} (h : Limited maxTabs s)
    (hgate : gate.Tracks (Function.update (fun u => (s.tab u).gate.use) t tab.gate.use))
    (hplace : ∀ place, (places place).Tracks
      (Function.update (fun u => ((s.tab u).place place).use) t (tab.place place).use))
    (hsound : tab.Sound maxTabs) (hwaits : tab.Waits maxTabs)
    (hdead : tab.isAlive = false → tab.gate = .idle ∧ ∀ place, tab.place place = .idle)
    (hover : (s.tab t).Over → tab.Over)
    (hheld : tab.gate.use = .held → (s.tab t).gate.use = .held) :
    Limited maxTabs { s with
    gate := gate
    place := places
    tab := Function.update s.tab t tab } where
  gate := by
    show gate.Tracks fun u => (Function.update s.tab t tab u).gate.use
    rw [use_update fun tab => tab.gate.use]
    exact hgate
  place := by
    intro place
    show (places place).Tracks fun u => ((Function.update s.tab t tab u).place place).use
    rw [use_update fun tab => (tab.place place).use]
    exact hplace place
  sound := by
    intro u
    show (Function.update s.tab t tab u).Sound maxTabs
    rw [Function.update_apply]
    split
    · exact hsound
    · exact h.sound u
  waits := by
    intro u
    show (Function.update s.tab t tab u).Waits maxTabs
    rw [Function.update_apply]
    split
    · exact hwaits
    · exact h.waits u
  dead := by
    intro u
    show (Function.update s.tab t tab u).isAlive = false →
      (Function.update s.tab t tab u).gate = .idle ∧
      ∀ place, (Function.update s.tab t tab u).place place = .idle
    rw [Function.update_apply]
    split
    · exact hdead
    · exact h.dead u
  ended := by
    intro u hu
    show (Function.update s.tab t tab u).Over
    rw [Function.update_apply]
    split
    · next heq => exact hover (heq ▸ h.ended u hu)
    · exact h.ended u hu
  once := h.once
  order := h.order
  newest := by
    intro u
    show (Function.update s.tab t tab u).gate.use = .held → _
    rw [Function.update_apply]
    split
    · next heq => exact fun hu => heq ▸ h.newest t (hheld hu)
    · exact h.newest u
  counted := h.counted

theorem Limited.sameGate (h : Limited maxTabs s) (huse : tab.gate.use = (s.tab t).gate.use) :
    s.gate.Tracks (Function.update (fun u => (s.tab u).gate.use) t tab.gate.use) := by
  rw [huse, Function.update_eq_self t fun u => (s.tab u).gate.use]
  exact h.gate

theorem Limited.samePlace (h : Limited maxTabs s)
    (huse : (tab.place place).use = ((s.tab t).place place).use) :
    (s.place place).Tracks
    (Function.update (fun u => ((s.tab u).place place).use) t (tab.place place).use) := by
  rw [huse, Function.update_eq_self t fun u => ((s.tab u).place place).use]
  exact h.place place

/-! ### every event -/

omit [DecidableEq τ] in
theorem Limited.not_over (hgate : (s.tab t).gate ≠ .idle) (hleft : (s.tab t).gate ≠ .left false) :
    ¬(s.tab t).Over := by
  intro hover
  obtain hgate' | hgate' := hover.gate
  · exact hleft hgate'
  · exact hgate hgate'

omit [DecidableEq τ] in
theorem Limited.alive (h : Limited maxTabs s)
    (hbusy : (s.tab t).gate ≠ .idle ∨ ∃ place, (s.tab t).place place ≠ .idle) :
    (s.tab t).isAlive = true := by
  by_contra hdead
  obtain ⟨hgate, hplace⟩ := h.dead t (by simpa using hdead)
  obtain hbusy | ⟨place, hbusy⟩ := hbusy
  · exact hbusy hgate
  · exact hbusy (hplace place)

/-- The gate is requested for a tab that has no place and does not compete for one. -/
theorem Limited.requestGate (h : Limited maxTabs s) (hsound : tab.Sound maxTabs)
    (hheld : tab.isHeld = false)
    (hstarted : tab.isStarted = true) (hstopped : tab.isStopped = false)
    (huse : (s.tab t).gate.use = .none)
    (hgate : tab.gate = (s.tab t).gate) (hplace : tab.place = (s.tab t).place)
    (halive : tab.isAlive = true)
    (hover : ¬(s.tab t).Over) : Limited maxTabs (s.requestGate t tab) := by
  have haborted : tab.isAborted = false := SlotTab.isAborted_eq_false.mpr ⟨hheld, hstopped⟩
  have htaking : tab.gate ≠ .taking := by
    intro htaking
    rw [← hgate, htaking] at huse
    cases huse
  refine h.change (h.gate.request huse) (fun place => h.samePlace (by rw [hplace])) ?_ ?_ ?_
    (fun hwas => absurd hwas hover) ?_
  · refine hsound.setGate (fun hfalse => ?_) (fun _ => hsound.settled htaking haborted)
        GateStage.noConfusion
      GateStage.noConfusion fun hfalse => ?_
    · rw [hheld] at hfalse
      cases hfalse
    · rw [hstarted] at hfalse
      cases hfalse
  · exact SlotTab.waits_of_ne GateStage.noConfusion
  · intro hdead
    rw [show tab.isAlive = false from hdead] at halive
    cases halive
  · exact fun hfalse => by cases hfalse

theorem Limited.start (h : Limited maxTabs s) (halive : (s.tab t).isAlive = true)
    (hstarted : (s.tab t).isStarted = false) :
    Limited maxTabs (if (s.tab t).isStopped then s.setTab t { s.tab t with isStarted := true }
      else s.requestGate t { s.tab t with isStarted := true }) := by
  have hs := h.sound t
  have hover : ¬(s.tab t).Over := by
    intro hover
    rw [hover.started halive] at hstarted
    cases hstarted
  have hsound : { s.tab t with isStarted := true }.Sound maxTabs :=
    { hs with unstarted := fun hfalse => by cases hfalse }
  obtain ⟨hidle, hheld⟩ := hs.unstarted hstarted
  split
  · refine h.change (h.sameGate rfl) (fun place => h.samePlace rfl) hsound ?_ ?_ (fun hwas =>
      absurd hwas hover) fun hfalse => hfalse
    · refine SlotTab.waits_of_ne ?_
      rw [show ({ s.tab t with isStarted := true } : SlotTab).gate = .idle from hidle]
      exact GateStage.noConfusion
    · exact h.dead t
  · next hstopped =>
    refine h.requestGate hsound hheld rfl (by simpa using hstopped) ?_ rfl rfl halive hover
    rw [hidle]
    rfl

theorem Limited.stop (h : Limited maxTabs s) (halive : (s.tab t).isAlive = true) :
    Limited maxTabs (s.setTab t (s.tab t).stop) := by
  refine h.change (h.sameGate (SlotTab.use_stop _)) (fun place =>
      h.samePlace (SlotTab.use_place_stop _ place)) (h.sound t).stop
    (SlotTab.waits_of_ne (SlotTab.stop_gate_ne_taking _ (h.sound t))) ?_ SlotTab.Over.stop ?_
  · intro hdead
    rw [SlotTab.isAlive_stop, halive] at hdead
    cases hdead
  · rw [SlotTab.use_stop]
    exact id

theorem Limited.grantGate (h : Limited maxTabs s) {lock : WebLock τ}
    (hgate : (s.tab t).gate = .requested)
    (hgrant : s.gate.grant t = some lock) :
    Limited maxTabs { s.setTab t { s.tab t with gate := .granted } with
      gate := lock, grants := s.grants + 1, grantOf :=
        Function.update s.grantOf t (s.grants + 1) } := by
  have hs := h.sound t
  have hover : ¬(s.tab t).Over := Limited.not_over (by simp [hgate]) (by simp [hgate])
  have hheld : (s.tab t).isHeld = false := by
    by_contra hheld
    obtain hleft | hidle := hs.gateLeft (by simpa using hheld)
    · rw [hgate] at hleft
      cases hleft
    · rw [hgate] at hidle
      cases hidle
  -- The grant changes the order of nobody who has acquired a place already.
  have hnot : ∀ u ∈ s.acquired, u ≠ t := by
    rintro u hu rfl
    exact hover (h.ended u hu)
  have hsound : { s.tab t with gate := .granted }.Sound maxTabs := by
    refine hs.setGate (fun hfalse => ?_) (fun haborted => hs.settled (by simp [hgate]) haborted)
        GateStage.noConfusion
      GateStage.noConfusion fun hfalse => ?_
    · rw [hheld] at hfalse
      cases hfalse
    · rw [(hs.unstarted hfalse).1] at hgate
      cases hgate
  have hgate' := h.gate.grant hgrant
  have halone : ∀ u, u ≠ t → (s.tab u).gate.use ≠ .held := by
    intro u hne hu
    have htwo := hgate'.unique
        (show Function.update _ t _ u = _ by rw [Function.update_of_ne hne]; exact hu)
      (show Function.update _ t _ t = _ from Function.update_self ..)
    exact hne htwo
  refine ⟨?_, ?_, ?_, ?_, ?_, ?_, h.once, ?_, ?_, ?_⟩
  · show lock.Tracks fun u => (Function.update s.tab t _ u).gate.use
    rw [use_update fun tab => tab.gate.use]
    exact hgate'
  · intro place
    show (s.place place).Tracks fun u => ((Function.update s.tab t _ u).place place).use
    rw [use_update fun tab => (tab.place place).use]
    exact h.samePlace rfl
  · intro u
    show (Function.update s.tab t _ u).Sound maxTabs
    rw [Function.update_apply]
    split
    · exact hsound
    · exact h.sound u
  · intro u
    show (Function.update s.tab t _ u).Waits maxTabs
    rw [Function.update_apply]
    split
    · exact SlotTab.waits_of_ne GateStage.noConfusion
    · exact h.waits u
  · intro u
    show (Function.update s.tab t _ u).isAlive = false →
      (Function.update s.tab t _ u).gate = .idle ∧
      ∀ place, (Function.update s.tab t _ u).place place = .idle
    rw [Function.update_apply]
    split
    · intro hdead
      have halive : (s.tab t).isAlive = true := h.alive (.inl (by simp [hgate]))
      rw [show (s.tab t).isAlive = false from hdead] at halive
      cases halive
    · exact h.dead u
  · intro u hu
    show (Function.update s.tab t _ u).Over
    rw [Function.update_of_ne (hnot u hu)]
    exact h.ended u hu
  · show s.acquired.Pairwise fun u v =>
      Function.update s.grantOf t (s.grants + 1) u < Function.update s.grantOf t (s.grants + 1) v
    refine h.order.imp_of_mem fun {u v} hu hv hlt => ?_
    rw [Function.update_of_ne (hnot u hu), Function.update_of_ne (hnot v hv)]
    exact hlt
  · intro u
    show (Function.update s.tab t _ u).gate.use = .held → ∀ v, v ≠ u →
      Function.update s.grantOf t (s.grants + 1) v < Function.update s.grantOf t (s.grants + 1) u
    intro hu v hne
    obtain rfl | hne' := eq_or_ne u t
    · rw [Function.update_self, Function.update_of_ne hne]
      exact Nat.lt_succ_of_le (h.counted v)
    · rw [Function.update_of_ne hne'] at hu
      exact absurd hu (halone u hne')
  · intro u
    show Function.update s.grantOf t (s.grants + 1) u ≤ s.grants + 1
    rw [Function.update_apply]
    split
    · exact Nat.le_refl _
    · exact Nat.le_succ_of_le (h.counted u)

omit [DecidableEq τ] in
theorem Limited.not_held_of_gate (h : Limited maxTabs s) (hidle : (s.tab t).gate ≠ .idle)
    (hleft : (s.tab t).gate ≠ .left false) :
    (s.tab t).isHeld = false := by
  by_contra hheld
  obtain hgate | hgate := (h.sound t).gateLeft (by simpa using hheld)
  · exact hleft hgate
  · exact hidle hgate

/-- The gate in a stage in which the tab has nothing of it, or still holds it. -/
theorem Limited.setGate (h : Limited maxTabs s) {gate : GateStage} {lock : WebLock τ}
    (hlock : lock.Tracks (Function.update (fun u => (s.tab u).gate.use) t gate.use))
    (hbusy : (s.tab t).gate ≠ .idle) (htaking : (s.tab t).gate ≠ .taking)
    (hgate : gate = .idle ∨ gate = .left false ∨ gate = .refused ∧ (s.tab t).isStopped = false ∧
      (s.tab t).gate ≠ .left false)
    (huse : gate.use = .held → (s.tab t).gate.use = .held) :
    Limited maxTabs { s.setTab t { s.tab t with gate := gate } with gate := lock } := by
  have hs := h.sound t
  have halive : (s.tab t).isAlive = true := h.alive (.inl hbusy)
  have hnew : gate ≠ .taking := by
    obtain rfl | rfl | ⟨rfl, -⟩ := hgate
    all_goals exact GateStage.noConfusion
  refine h.change hlock (fun place => h.samePlace rfl) ?_ (SlotTab.waits_of_ne hnew) ?_ ?_ huse
  · refine hs.setGate (fun hheld => ?_) (fun haborted => hs.settled htaking haborted) hnew ?_
      fun hstarted => ?_
    · obtain rfl | rfl | ⟨rfl, -, hleft⟩ := hgate
      · exact .inr rfl
      · exact .inl rfl
      · rw [h.not_held_of_gate hbusy hleft] at hheld
        cases hheld
    · obtain rfl | rfl | ⟨rfl, hstopped, -⟩ := hgate
      · exact GateStage.noConfusion
      · exact GateStage.noConfusion
      · exact fun _ => hstopped
    · exact absurd (hs.unstarted hstarted).1 hbusy
  · intro hdead
    rw [show (s.tab t).isAlive = false from hdead] at halive
    cases halive
  · intro hover
    refine ⟨hover.held, ?_, hover.started⟩
    obtain rfl | rfl | ⟨rfl, -, hleft⟩ := hgate
    · exact .inr rfl
    · exact .inl rfl
    · exact absurd hover (Limited.not_over hbusy hleft)

theorem Limited.enterGate (h : Limited maxTabs s) (hgate : (s.tab t).gate = .granted) :
    Limited maxTabs (s.enterGate maxTabs t) := by
  have hs := h.sound t
  have hheld : (s.tab t).isHeld = false := h.not_held_of_gate (by simp [hgate]) (by simp [hgate])
  unfold TabLimit.enterGate
  split
  · have hsame : s.gate.Tracks
        (Function.update (fun u => (s.tab u).gate.use) t (GateStage.left false).use) := by
      rw [show (GateStage.left false).use = (s.tab t).gate.use by rw [hgate]; rfl,
        Function.update_eq_self t fun u => (s.tab u).gate.use]
      exact h.gate
    refine h.setGate hsame (by simp [hgate]) (by simp [hgate]) (.inr (.inl rfl)) fun _ => ?_
    rw [hgate]
    rfl
  · next hstopped =>
    have hstopped : (s.tab t).isStopped = false := by simpa using hstopped
    have hsettled := hs.settled (by simp [hgate]) (SlotTab.isAborted_eq_false.mpr ⟨hheld, hstopped⟩)
    refine h.change (h.sameGate ?_) (fun place => ?_) (hs.takePlace hgate hstopped) ?_ ?_ ?_ ?_
    · rw [hgate]
      rfl
    · have hnone : ((s.tab t).place place).use = .none := by
        have hplace := hsettled place
        cases hstage : (s.tab t).place place with
        | idle => rfl
        | refused => rfl
        | requested => rw [hstage] at hplace; cases hplace
        | granted => rw [hstage] at hplace; cases hplace
        | kept => rw [hstage] at hplace; cases hplace
        | returned => rw [hstage] at hplace; cases hplace
      by_cases hlt : place < maxTabs
      · simp only [SlotTab.takePlace, if_pos hlt]
        exact (h.place place).request hnone
      · simp only [SlotTab.takePlace, if_neg hlt]
        exact h.samePlace rfl
    · exact fun _ hpos => ⟨0, hpos, by simp [SlotTab.takePlace, hpos, PlaceStage.isSettled]⟩
    · intro hdead
      have halive : (s.tab t).isAlive = true := h.alive (.inl (by simp [hgate]))
      rw [show (s.tab t).isAlive = false from hdead] at halive
      cases halive
    · exact fun hover => absurd hover (Limited.not_over (by simp [hgate]) (by simp [hgate]))
    · rw [hgate]
      exact fun _ => rfl

theorem Limited.grantPlace (h : Limited maxTabs s) {lock : WebLock τ}
    (hplace : (s.tab t).place place = .requested)
    (hgrant : (s.place place).grant t = some lock) :
    Limited maxTabs ((s.setTab t ((s.tab t).setPlace place .granted)).setPlaceLock place lock) := by
  have hs := h.sound t
  have hlt : place < maxTabs := hs.lt (by simp [hplace])
  refine h.change (h.sameGate rfl) (fun other => ?_) ?_ ?_ ?_ SlotTab.Over.setPlace fun huse => huse
  · rw [SlotTab.place_setPlace, Function.update_apply]
    split
    · next heq =>
      rw [heq]
      exact (h.place place).grant hgrant
    · next hne =>
      rw [Function.update_eq_self t fun u => ((s.tab u).place other).use]
      exact h.place other
  · refine hs.setPlace hlt (by simp [hplace]) PlaceStage.noConfusion (fun _ => .inl hplace)
      fun hreturned => by cases hreturned
  · exact fun _ _ => ⟨place, hlt, by rw [SlotTab.place_setPlace, if_pos rfl]; rfl⟩
  · intro hdead
    have halive : (s.tab t).isAlive = true := h.alive (.inr ⟨place, by simp [hplace]⟩)
    rw [show (s.tab t).isAlive = false from hdead] at halive
    cases halive

/-- A request for a place that ends: it was withdrawn or refused, or its place was let go. -/
theorem Limited.endPlace (h : Limited maxTabs s) {stage : PlaceStage} {lock : WebLock τ}
    (hlock : lock.Tracks (Function.update (fun u => ((s.tab u).place place).use) t .none))
    (hstage : stage = .idle ∨ stage = .refused)
    (hplace : (s.tab t).place place = .requested ∨ (s.tab t).place place = .returned) :
    Limited maxTabs ((s.setTab t (((s.tab t).setPlace place stage).settle maxTabs)).setPlaceLock
      place lock) := by
  have hs := h.sound t
  have hbusy : (s.tab t).place place ≠ .idle := by
    obtain hplace | hplace := hplace
    all_goals simp [hplace]
  have hset : ((s.tab t).setPlace place stage).Sound maxTabs := by
    refine hs.setPlace (hs.lt hbusy) ?_ ?_ (fun hstage' => ?_) fun hstage' => ?_
    · obtain hplace | hplace := hplace
      all_goals simp [hplace]
    · obtain rfl | rfl := hstage
      all_goals exact PlaceStage.noConfusion
    · obtain rfl | rfl := hstage
      all_goals simp at hstage'
    · obtain rfl | rfl := hstage
      all_goals simp at hstage'
  refine h.change (h.sameGate (SlotTab.use_settle ..)) (fun other => ?_) hset.settle.1
      hset.settle.2 ?_
    (fun hover => hover.setPlace.settle) ?_
  · rw [SlotTab.place_settle, SlotTab.place_setPlace, Function.update_apply]
    split
    · next heq =>
      rw [heq]
      obtain rfl | rfl := hstage
      all_goals exact hlock
    · next hne =>
      rw [Function.update_eq_self t fun u => ((s.tab u).place other).use]
      exact h.place other
  · intro hdead
    rw [SlotTab.isAlive_settle] at hdead
    have halive := h.alive (.inr ⟨place, hbusy⟩)
    rw [show (s.tab t).isAlive = false from hdead] at halive
    cases halive
  · rw [SlotTab.use_settle]
    exact id

theorem Limited.crash (h : Limited maxTabs s) (t : τ) :
    Limited maxTabs { s.setTab t .crashed with
      gate := s.gate.drop fun other => decide (other = t)
      place := fun place => (s.place place).drop fun other => decide (other = t) } :=
  h.change (h.gate.drop t) (fun place => (h.place place).drop t) (SlotTab.sound_idle rfl rfl
      fun _ => rfl)
    (SlotTab.waits_of_ne GateStage.noConfusion) (fun _ => ⟨rfl, fun _ => rfl⟩)
    (fun _ => ⟨fun halive => (by cases halive), .inr rfl, fun halive => (by cases halive)⟩)
      fun huse => by cases huse

omit [DecidableEq τ] in
/-- The tab that has kept a place is told so, after all who were granted the gate before it. -/
theorem Limited.acquire (h : Limited maxTabs s) (hover : (s.tab t).Over) (hnew : t ∉ s.acquired)
    (horder : ∀ u ∈ s.acquired, s.grantOf u < s.grantOf t) : Limited maxTabs
      { s with acquired := s.acquired ++ [t] } where
  gate := h.gate
  place := h.place
  sound := h.sound
  waits := h.waits
  dead := h.dead
  ended := by
    intro u hu
    obtain hu | hu := List.mem_append.mp hu
    · exact h.ended u hu
    · rw [List.mem_singleton.mp hu]
      exact hover
  once := by
    show (s.acquired ++ [t]).Nodup
    rw [List.nodup_append]
    refine ⟨h.once, List.nodup_singleton t, fun u hu v hv heq => ?_⟩
    obtain rfl := List.mem_singleton.mp hv
    exact hnew (heq ▸ hu)
  order := by
    show (s.acquired ++ [t]).Pairwise fun u v => s.grantOf u < s.grantOf v
    rw [List.pairwise_append]
    refine ⟨h.order, List.pairwise_singleton _ t, fun u hu v hv => ?_⟩
    rw [List.mem_singleton.mp hv]
    exact horder u hu
  newest := h.newest
  counted := h.counted

theorem Limited.enterPlace (h : Limited maxTabs s) (hplace : (s.tab t).place place = .granted)
    (stops : Bool) :
    Limited maxTabs (s.enterPlace t place stops) := by
  have hs := h.sound t
  have halive : (s.tab t).isAlive = true := h.alive (.inr ⟨place, by simp [hplace]⟩)
  have hlt : place < maxTabs := hs.lt (by simp [hplace])
  unfold TabLimit.enterPlace
  split
  · next haborted =>
    refine h.change (h.sameGate rfl) (fun other => h.samePlace ?_) ?_ ?_ ?_ SlotTab.Over.setPlace
      fun huse => huse
    · rw [SlotTab.place_setPlace]
      split
      · next heq =>
        rw [heq, hplace]
        rfl
      · rfl
    · exact hs.setPlace hlt (by simp [hplace]) PlaceStage.noConfusion
        (fun hstage => by simp at hstage) fun _ => haborted
    · exact fun _ _ => ⟨place, hlt, by rw [SlotTab.place_setPlace, if_pos rfl]; rfl⟩
    · intro hdead
      rw [show (s.tab t).isAlive = false from hdead] at halive
      cases halive
  · next haborted =>
    have haborted : (s.tab t).isAborted = false := by simpa using haborted
    have htaking : (s.tab t).gate = .taking := hs.competing place (.inr hplace) haborted
    have hstarted : (s.tab t).isStarted = true := by
      by_contra hunstarted
      rw [(hs.unstarted (by simpa using hunstarted)).1] at htaking
      cases htaking
    have hkept := hs.keepPlace hplace haborted
    have hover : ((s.tab t).keepPlace place).Over :=
      SlotTab.Over.keepPlace htaking fun _ => hstarted
    have hnew : t ∉ s.acquired := fun hmem => (h.ended t hmem).ne_taking htaking
    have horder : ∀ u ∈ s.acquired, s.grantOf u < s.grantOf t := by
      intro u hu
      refine h.newest t (by rw [htaking]; rfl) u fun heq => hnew ?_
      rw [← heq]
      exact hu
    have hplaces : ∀ other,
        (((s.tab t).keepPlace place).place other).use = ((s.tab t).place other).use := by
      intro other
      rw [SlotTab.place_keepPlace]
      split
      · next heq =>
        rw [heq, hplace]
        rfl
      · rfl
    have hleft : ((s.tab t).keepPlace place).gate ≠ .taking := hover.ne_taking
    -- `stop()` from inside `onAcquired` finds the place kept.
    have hchanged : ∀ tab : SlotTab, tab.Sound maxTabs → tab.Over → tab.isAlive = true →
        tab.gate.use = (s.tab t).gate.use →
        (∀ other, (tab.place other).use = ((s.tab t).place other).use) →
        Limited maxTabs { s.setTab t tab with acquired := s.acquired ++ [t] } := by
      intro tab hsound hover halive' hgate hplaces
      have hset : Limited maxTabs (s.setTab t tab) := by
        refine h.change (h.sameGate hgate) (fun other => h.samePlace (hplaces other)) hsound
            (SlotTab.waits_of_ne hover.ne_taking)
          (fun hdead => ?_) (fun _ => hover) fun huse => hgate ▸ huse
        rw [halive'] at hdead
        cases hdead
      refine hset.acquire ?_ hnew horder
      show (Function.update s.tab t tab t).Over
      rw [Function.update_self]
      exact hover
    split
    · refine hchanged _ hkept.stop hover.stop ?_ ?_ fun other => ?_
      · rw [SlotTab.isAlive_stop, SlotTab.isAlive_keepPlace]
        exact halive
      · rw [SlotTab.use_stop, SlotTab.use_keepPlace]
      · rw [SlotTab.use_place_stop, hplaces]
    · exact hchanged _ hkept hover (by rw [SlotTab.isAlive_keepPlace]; exact halive)
        (SlotTab.use_keepPlace ..) hplaces

/-- **Every event keeps the limit.** -/
theorem Limited.step (h : Limited maxTabs s) (hstep : s.step maxTabs event = some s') :
    Limited maxTabs s' := by
  have hqueued : ∀ {t}, (s.tab t).gate = .requested → (s.tab t).gate.use = .queued := by
    intro t hgate
    rw [hgate]
    rfl
  have hplaceQueued : ∀ {t place}, (s.tab t).place place = .requested →
      ((s.tab t).place place).use = .queued := by
    intro t place hplace
    rw [hplace]
    rfl
  cases event with
  | start t =>
    simp only [TabLimit.step, Option.ite_none_right_eq_some] at hstep
    obtain ⟨hstart, hstep⟩ := hstep
    obtain ⟨halive, hstarted⟩ := Bool.and_eq_true_iff.mp hstart
    have hlimited := h.start halive (by simpa using hstarted)
    split at hstep
    · next hstopped =>
      obtain rfl := Option.some.inj hstep
      rwa [if_pos hstopped] at hlimited
    · next hstopped =>
      obtain rfl := Option.some.inj hstep
      rwa [if_neg hstopped] at hlimited
  | stop t =>
    obtain ⟨halive, hstep⟩ := Option.ite_none_right_eq_some.mp hstep
    obtain rfl := Option.some.inj hstep
    exact h.stop halive
  | gateGranted t =>
    obtain ⟨hgate, hstep⟩ := Option.ite_none_right_eq_some.mp hstep
    obtain ⟨lock, hgrant, rfl⟩ := Option.map_eq_some_iff.mp hstep
    exact h.grantGate hgate hgrant
  | gateEntered t =>
    obtain ⟨hgate, hstep⟩ := Option.ite_none_right_eq_some.mp hstep
    obtain rfl := Option.some.inj hstep
    exact h.enterGate hgate
  | gateWithdrawn t =>
    obtain ⟨hgate, hstep⟩ := Option.ite_none_right_eq_some.mp hstep
    obtain ⟨hgate, _⟩ := Bool.and_eq_true_iff.mp hgate
    have hgate : (s.tab t).gate = .requested := by simpa using hgate
    obtain rfl := Option.some.inj hstep
    exact h.setGate (h.gate.withdraw (hqueued hgate)) (by simp [hgate]) (by simp [hgate]) (.inl rfl)
      fun huse => by cases huse
  | gateRefused t =>
    obtain ⟨hgate, hstep⟩ := Option.ite_none_right_eq_some.mp hstep
    obtain rfl := Option.some.inj hstep
    have hwithdrawn := h.gate.withdraw (hqueued hgate)
    by_cases hstopped : (s.tab t).isStopped = true
    · rw [if_pos hstopped]
      exact h.setGate hwithdrawn (by simp [hgate]) (by simp [hgate]) (.inl rfl) fun huse =>
        by cases huse
    · rw [if_neg hstopped]
      exact h.setGate hwithdrawn (by simp [hgate]) (by simp [hgate])
          (.inr (.inr ⟨rfl, by simpa using hstopped, by simp [hgate]⟩))
        fun huse => by cases huse
  | gateRetried t =>
    obtain ⟨hgate, hstep⟩ := Option.ite_none_right_eq_some.mp hstep
    obtain rfl := Option.some.inj hstep
    have hs := h.sound t
    have hstarted : (s.tab t).isStarted = true := by
      by_contra hunstarted
      rw [(hs.unstarted (by simpa using hunstarted)).1] at hgate
      cases hgate
    exact h.requestGate hs (h.not_held_of_gate (by simp [hgate]) (by simp [hgate])) hstarted
        (hs.refused hgate)
      (by rw [hgate]; rfl) rfl rfl (h.alive (.inl (by simp [hgate])))
        (Limited.not_over (by simp [hgate]) (by simp [hgate]))
  | gateLetGo t =>
    simp only [TabLimit.step] at hstep
    split at hstep
    · next hasFailed hgate =>
      obtain rfl := Option.some.inj hstep
      have hheld : (s.tab t).gate.use = .held := by
        rw [hgate]
        rfl
      have hletGo := h.gate.letGo hheld
      by_cases hretries : (hasFailed && !(s.tab t).isStopped) = true
      · rw [if_pos hretries]
        obtain ⟨hfailed, hstopped⟩ := Bool.and_eq_true_iff.mp hretries
        exact h.setGate hletGo (by simp [hgate]) (by simp [hgate])
          (.inr (.inr ⟨rfl, by simpa using hstopped, by simp [hgate, hfailed]⟩)) fun huse =>
            by cases huse
      · rw [if_neg hretries]
        exact h.setGate hletGo (by simp [hgate]) (by simp [hgate]) (.inl rfl) fun huse =>
          by cases huse
    · cases hstep
  | placeGranted t place =>
    obtain ⟨hplace, hstep⟩ := Option.ite_none_right_eq_some.mp hstep
    obtain ⟨lock, hgrant, rfl⟩ := Option.map_eq_some_iff.mp hstep
    exact h.grantPlace hplace hgrant
  | placeEntered t place stops =>
    obtain ⟨hplace, hstep⟩ := Option.ite_none_right_eq_some.mp hstep
    obtain rfl := Option.some.inj hstep
    exact h.enterPlace hplace stops
  | placeWithdrawn t place =>
    obtain ⟨hplace, hstep⟩ := Option.ite_none_right_eq_some.mp hstep
    obtain ⟨hplace, _⟩ := Bool.and_eq_true_iff.mp hplace
    have hplace : (s.tab t).place place = .requested := by simpa using hplace
    obtain rfl := Option.some.inj hstep
    exact h.endPlace ((h.place place).withdraw (hplaceQueued hplace)) (.inl rfl) (.inl hplace)
  | placeRefused t place =>
    obtain ⟨hplace, hstep⟩ := Option.ite_none_right_eq_some.mp hstep
    obtain rfl := Option.some.inj hstep
    exact h.endPlace ((h.place place).withdraw (hplaceQueued hplace)) (.inr rfl) (.inl hplace)
  | placeLetGo t place =>
    obtain ⟨hplace, hstep⟩ := Option.ite_none_right_eq_some.mp hstep
    obtain rfl := Option.some.inj hstep
    exact h.endPlace ((h.place place).letGo (by rw [hplace]; rfl)) (.inl rfl) (.inr hplace)
  | crash t =>
    obtain ⟨_, hstep⟩ := Option.ite_none_right_eq_some.mp hstep
    obtain rfl := Option.some.inj hstep
    exact h.crash t

end TabLimit

end SerialBroker
