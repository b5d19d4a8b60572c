import Mathlib.Data.Fintype.Basic
import SerialBroker.Lib.TransitionSystem
import SerialBroker.Storage.ConfigurationStore

/-!
# The stored index converges

Each tab sets up one configuration of its own with `remember`: it saves it at once, requests the
hold on it, and saves it again when the hold is granted. Nobody forgets anything, so every hold is
only ever waited for and not refused. A tab's second save repairs what a stale write of another tab
took from the index, unless that write is still to come when the second save finds the name listed.
-/

namespace SerialBroker

variable {τ ν : Type*}

/-- How far a tab has come with its `setup()`. -/
inductive SetupPhase (ν : Type*) where
  | notSetUp
  | saving (call : StoreCall ν)
  | awaitingHold
  | savingAgain (call : StoreCall ν)
  | done
  deriving DecidableEq

def SetupPhase.call : SetupPhase ν → Option (StoreCall ν)
  | .saving call => some call
  | .savingAgain call => some call
  | .notSetUp => none
  | .awaitingHold => none
  | .done => none

/-- The storage, and the tabs that share it. -/
structure RememberingTabs (τ ν : Type*) where
  storage : KeyValueStorage ν
  phase : τ → SetupPhase ν

inductive RememberingEvent (τ : Type*) where
  | setup (tab : τ)
  /-- The tab's call of the store does its next storage operation. -/
  | operation (tab : τ)
  | holdGranted (tab : τ)
  deriving DecidableEq

namespace RememberingTabs

variable [DecidableEq τ] [DecidableEq ν]

def enter (s : RememberingTabs τ ν) (tab : τ) (phase : SetupPhase ν) : RememberingTabs τ ν :=
  { s with phase := Function.update s.phase tab phase }

/-- A storage operation of the tab, and where it is after it: with the rest of the call, or with
what follows it. -/
def operate (s : RememberingTabs τ ν) (tab : τ) (call : StoreCall ν)
    (within : StoreCall ν → SetupPhase ν)
    (after : SetupPhase ν) : RememberingTabs τ ν :=
  ⟨(call.next s.storage).1,
    Function.update s.phase tab (((call.next s.storage).2.map within).getD after)⟩

/-- What the event makes of the tabs, where it can happen; `name` is the name each tab sets up. -/
def step (name : τ → ν) (s : RememberingTabs τ ν) :
    RememberingEvent τ → Option (RememberingTabs τ ν)
  | .setup tab =>
    match s.phase tab with
    | .notSetUp => some (s.enter tab (.saving (.save (name tab))))
    | _ => none
  | .operation tab =>
    match s.phase tab with
    | .saving call => some (s.operate tab call .saving .awaitingHold)
    | .savingAgain call => some (s.operate tab call .savingAgain .done)
    | _ => none
  | .holdGranted tab =>
    match s.phase tab with
    | .awaitingHold => some (s.enter tab (.savingAgain (.save (name tab))))
    | _ => none

/-- The tabs with these names over this storage, none of them set up yet. -/
def system (name : τ → ν) (storage : KeyValueStorage ν) :
    TransitionSystem (RememberingTabs τ ν) (RememberingEvent τ) where
  init := ⟨storage, fun _ => .notSetUp⟩
  step := step name

/-- The tab's next storage operation is the last of its second save. -/
def finishes (s : RememberingTabs τ ν) (tab : τ) : Bool :=
  match s.phase tab with
  | .savingAgain call => (call.next s.storage).2.isNone
  | _ => false

/-- The tab has read an index without the name, or one it could not read, and has not written it
yet. -/
def isStaleWriterOf (s : RememberingTabs τ ν) (tab : τ) (name : ν) : Bool :=
  (s.phase tab).call.any fun call => !call.keeps name

/-- No tab finishes its second save while another tab is about to write the index without its
name. -/
def finishesUnthreatened (name : τ → ν) (s : RememberingTabs τ ν) (event : RememberingEvent τ) :
    Prop :=
  ∀ tab, event = .operation tab → s.finishes tab = true → ∀ other, other ≠ tab →
    s.isStaleWriterOf other (name tab) = false

instance [Fintype τ] (name : τ → ν) (s : RememberingTabs τ ν) (event : RememberingEvent τ) :
    Decidable (s.finishesUnthreatened name event) :=
  inferInstanceAs (Decidable (∀ tab, event = .operation tab → s.finishes tab = true →
    ∀ other, other ≠ tab →
    s.isStaleWriterOf other (name tab) = false))

/-! ### what every run keeps -/

/-- The entry of the tab's name has been written. -/
def hasSaved : SetupPhase ν → Prop
  | .notSetUp => False
  | .saving call => ∀ written, call ≠ .writeEntry written
  | .awaitingHold => True
  | .savingAgain _ => True
  | .done => True

/-- What holds of the tabs of any run that started with this storage. -/
structure Converging (name : τ → ν) (initial : KeyValueStorage ν) (s : RememberingTabs τ ν) :
    Prop where
  saves : ∀ tab call, (s.phase tab).call = some call → call.IsSaveOf (name tab)
  grown : ∀ stored, initial.hasEntry stored = true → s.storage.hasEntry stored = true
  saved : ∀ tab, hasSaved (s.phase tab) → s.storage.hasEntry (name tab) = true
  listed : ∀ listed, listed ∈ s.storage.index.names → s.storage.hasEntry listed = true ∨
    listed ∈ initial.index.names
  unwritten : ∀ tab call, (s.phase tab).call = some call → ∀ listed ∈ call.unwritten,
    s.storage.hasEntry listed = true ∨ listed ∈ initial.index.names
  settled : ∀ tab, s.phase tab = .done → name tab ∈ s.storage.index.names ∧
    ∀ other call, (s.phase other).call = some call → call.keeps (name tab) = true

variable {name : τ → ν} {initial : KeyValueStorage ν} {s s' : RememberingTabs τ ν} {tab : τ}
  {event : RememberingEvent τ}
  {call : StoreCall ν} {phase after : SetupPhase ν} {within : StoreCall ν → SetupPhase ν}

omit [DecidableEq τ] in
theorem converging_init (name : τ → ν) (initial : KeyValueStorage ν) :
    Converging name initial ⟨initial, fun _ => .notSetUp⟩ where
  saves := by
    intro tab call hcall
    cases hcall
  grown := fun stored h => h
  saved := fun tab h => h.elim
  listed := fun listed h => .inr h
  unwritten := by
    intro tab call hcall
    cases hcall
  settled := by
    intro tab hdone
    cases hdone

omit [DecidableEq ν] in
theorem phase_enter (tab other : τ) :
    (s.enter tab phase).phase other = if other = tab then phase else s.phase other :=
  Function.update_apply ..

/-- A tab that starts to save, again or for the first time. -/
theorem Converging.enter (h : Converging name initial s)
    (hcall : phase.call = some (.save (name tab)))
    (hphase : phase = .saving (.save (name tab)) ∨ hasSaved (s.phase tab)) :
    Converging name initial (s.enter tab phase) where
  saves := by
    intro other call hother
    rw [phase_enter] at hother
    split at hother
    · next heq =>
      obtain rfl := Option.some.inj (hcall.symm.trans hother)
      rw [heq]
      exact StoreCall.isSaveOf_save (name tab)
    · exact h.saves other call hother
  grown := h.grown
  saved := by
    intro other hsaved
    rw [phase_enter] at hsaved
    split at hsaved
    · next heq =>
      obtain rfl | hphase := hphase
      · exact absurd rfl (hsaved (name tab))
      · exact heq ▸ h.saved tab hphase
    · exact h.saved other hsaved
  listed := h.listed
  unwritten := by
    intro other call hother listed hlisted
    rw [phase_enter] at hother
    split at hother
    · obtain rfl := Option.some.inj (hcall.symm.trans hother)
      cases hlisted
    · exact h.unwritten other call hother listed hlisted
  settled := by
    intro other hdone
    rw [phase_enter] at hdone
    split at hdone
    · rw [hdone] at hcall
      cases hcall
    · obtain ⟨hlisted, hkeeps⟩ := h.settled other hdone
      refine ⟨hlisted, fun third call hthird => ?_⟩
      rw [phase_enter] at hthird
      split at hthird
      · obtain rfl := Option.some.inj (hcall.symm.trans hthird)
        rfl
      · exact hkeeps third call hthird

theorem phase_operate_self (s : RememberingTabs τ ν) (tab : τ) (call : StoreCall ν)
    (within : StoreCall ν → SetupPhase ν)
    (after : SetupPhase ν) :
    (s.operate tab call within after).phase tab = ((call.next s.storage).2.map within).getD after :=
  Function.update_self ..

theorem phase_operate_of_ne {other : τ} (hne : other ≠ tab) :
    (s.operate tab call within after).phase other = s.phase other :=
  Function.update_of_ne hne ..

theorem call_operate {rest : StoreCall ν} (hwithin : ∀ rest, (within rest).call = some rest)
    (hafter : after.call = none)
    (other : τ) (hother : ((s.operate tab call within after).phase other).call = some rest) :
    (other = tab ∧ (call.next s.storage).2 = some rest) ∨
      (other ≠ tab ∧ (s.phase other).call = some rest) := by
  obtain rfl | hne := eq_or_ne other tab
  · refine .inl ⟨rfl, ?_⟩
    rw [phase_operate_self] at hother
    cases hrest : (call.next s.storage).2 with
    | none =>
      rw [hrest] at hother
      exact absurd (hafter.symm.trans hother) (by simp)
    | some left =>
      rw [hrest] at hother
      exact (hwithin left).symm.trans hother
  · rw [phase_operate_of_ne hne] at hother
    exact .inr ⟨hne, hother⟩

/-- A tab that does one storage operation of a save. -/
theorem Converging.operate (h : Converging name initial s) (hcall : (s.phase tab).call = some call)
    (hwithin : ∀ rest, (within rest).call = some rest) (hafter : after.call = none)
    (hfirst : call = .writeEntry (name tab) ∨ hasSaved (s.phase tab))
    (hfinish : after = .done → (call.next s.storage).2 = none →
      ∀ other, other ≠ tab → s.isStaleWriterOf other (name tab) = false) :
    Converging name initial (s.operate tab call within after) := by
  have hsave : call.IsSaveOf (name tab) := h.saves tab call hcall
  have hentry : (call.next s.storage).1.hasEntry (name tab) = true :=
    StoreCall.hasEntry_of_next hsave (hfirst.imp id (h.saved tab))
  have hnames : ∀ listed, listed ∈ (call.next s.storage).1.index.names ∨
      (∃ rest, (call.next s.storage).2 = some rest ∧ listed ∈ rest.unwritten) →
      (call.next s.storage).1.hasEntry listed = true ∨ listed ∈ initial.index.names := by
    intro listed hlisted
    obtain hlisted | hlisted | rfl := StoreCall.names_next hsave hlisted
    · exact (h.listed listed hlisted).imp (StoreCall.hasEntry_next hsave) id
    · exact (h.unwritten tab call hcall listed hlisted).imp (StoreCall.hasEntry_next hsave) id
    · exact .inl hentry
  refine ⟨?_, ?_, ?_, fun listed hlisted => hnames listed (.inl hlisted), ?_, ?_⟩
  · intro other rest hother
    obtain ⟨rfl, hrest⟩ | ⟨-, hother⟩ := call_operate hwithin hafter other hother
    · exact StoreCall.isSaveOf_next hsave hrest
    · exact h.saves other rest hother
  · exact fun stored hstored => StoreCall.hasEntry_next hsave (h.grown stored hstored)
  · intro other hsaved
    obtain rfl | hne := eq_or_ne other tab
    · exact hentry
    · rw [phase_operate_of_ne hne] at hsaved
      exact StoreCall.hasEntry_next hsave (h.saved other hsaved)
  · intro other rest hother listed hlisted
    obtain ⟨-, hrest⟩ | ⟨-, hother⟩ := call_operate hwithin hafter other hother
    · exact hnames listed (.inr ⟨rest, hrest, hlisted⟩)
    · exact (h.unwritten other rest hother listed hlisted).imp (StoreCall.hasEntry_next hsave) id
  · intro settled hdone
    obtain rfl | hne := eq_or_ne settled tab
    · -- The tab itself is done: its save has returned, and nobody is about to write an index
      -- without the name.
      rw [phase_operate_self] at hdone
      cases hrest : (call.next s.storage).2 with
      | some rest =>
        rw [hrest] at hdone
        have hnone := congrArg SetupPhase.call hdone
        exact absurd ((hwithin rest).symm.trans hnone) (by simp [SetupPhase.call])
      | none =>
        rw [hrest] at hdone
        have hafterDone : after = .done := hdone
        refine ⟨StoreCall.listed_of_returns hsave hrest, fun other left hother => ?_⟩
        obtain ⟨-, hleft⟩ | ⟨hne, hother⟩ := call_operate hwithin hafter other hother
        · rw [hrest] at hleft
          cases hleft
        · have hkeeps := hfinish hafterDone hrest other hne
          rw [isStaleWriterOf, hother] at hkeeps
          simpa using hkeeps
    · rw [phase_operate_of_ne hne] at hdone
      obtain ⟨hlisted, hkeeps⟩ := h.settled settled hdone
      obtain ⟨hlisted', hrest⟩ := StoreCall.keeps_next hsave (hkeeps tab call hcall) hlisted
      refine ⟨hlisted', fun other rest hother => ?_⟩
      obtain ⟨-, hother⟩ | ⟨-, hother⟩ := call_operate hwithin hafter other hother
      · exact hrest rest hother
      · exact hkeeps other rest hother

/-- What the event says has happened, and what it has made of the tabs. -/
theorem step_cases (hstep : step name s event = some s') :
    (∃ tab phase, s' = s.enter tab phase ∧ phase.call = some (.save (name tab)) ∧
      (phase = .saving (.save (name tab)) ∨ hasSaved (s.phase tab))) ∨
    ∃ tab call, event = .operation tab ∧
      ((s.phase tab = .saving call ∧ s' = s.operate tab call .saving .awaitingHold) ∨
        (s.phase tab = .savingAgain call ∧ s' = s.operate tab call .savingAgain .done)) := by
  cases event with
  | setup tab =>
    simp only [step] at hstep
    split at hstep
    · obtain rfl := Option.some.inj hstep
      exact .inl ⟨tab, _, rfl, rfl, .inl rfl⟩
    · cases hstep
  | operation tab =>
    simp only [step] at hstep
    split at hstep
    · next call hphase =>
      obtain rfl := Option.some.inj hstep
      exact .inr ⟨tab, call, rfl, .inl ⟨hphase, rfl⟩⟩
    · next call hphase =>
      obtain rfl := Option.some.inj hstep
      exact .inr ⟨tab, call, rfl, .inr ⟨hphase, rfl⟩⟩
    · cases hstep
  | holdGranted tab =>
    simp only [step] at hstep
    split at hstep
    · next hphase =>
      obtain rfl := Option.some.inj hstep
      refine .inl ⟨tab, _, rfl, rfl, .inr ?_⟩
      rw [hphase]
      trivial
    · cases hstep

theorem Converging.step (h : Converging name initial s) (hcond : s.finishesUnthreatened name event)
    (hstep : step name s event = some s') : Converging name initial s' := by
  obtain ⟨tab, phase, rfl, hcall, hphase⟩ | ⟨tab, call, rfl, ⟨hphase, rfl⟩ | ⟨hphase, rfl⟩⟩ :=
    step_cases hstep
  · exact h.enter hcall hphase
  · have hcall : (s.phase tab).call = some call := by rw [hphase]; rfl
    refine h.operate hcall (fun rest => rfl) rfl ?_ fun hdone => by cases hdone
    rw [hphase]
    obtain rfl | hne := eq_or_ne call (.writeEntry (name tab))
    · exact .inl rfl
    · refine .inr fun written heq => hne ?_
      subst heq
      exact congrArg _ (h.saves tab _ hcall)
  · have hcall : (s.phase tab).call = some call := by rw [hphase]; rfl
    refine h.operate hcall (fun rest => rfl) rfl (.inr ?_) fun _ hreturns => hcond tab rfl ?_
    · rw [hphase]
      trivial
    · rw [finishes, hphase]
      exact Option.isNone_iff_eq_none.mpr hreturns

/-- **The index converges.** Where no tab finishes its second save while another is about to write
the index without its name, the tabs that are all done have every one of their names listed, each
with its entry; and a listed name without an entry was listed without one before any tab was set
up. -/
theorem index_converges {events : List (RememberingEvent τ)}
    (hcond : (system name initial).Always (finishesUnthreatened name) events)
    (hrun : (system name initial).run events = some s)
    (hdone : ∀ tab, s.phase tab = .done) :
    (∀ tab, name tab ∈ s.storage.index.names ∧ s.storage.hasEntry (name tab) = true) ∧
      ∀ listed ∈ s.storage.index.names, s.storage.hasEntry listed = true ∨
        (listed ∈ initial.index.names ∧ initial.hasEntry listed = false) := by
  have hinv : Converging name initial s :=
      TransitionSystem.run_invariant (converging_init name initial)
    (fun t event t' ht hcond hstep => ht.step hcond hstep) hcond hrun
  refine ⟨fun tab => ⟨(hinv.settled tab (hdone tab)).1, hinv.saved tab ?_⟩,
    fun listed hlisted => ?_⟩
  · rw [hdone tab]
    trivial
  · obtain hentry | hinitial := hinv.listed listed hlisted
    · exact .inl hentry
    · cases hentry : initial.hasEntry listed with
      | true => exact .inl (hinv.grown listed hentry)
      | false => exact .inr ⟨hinitial, rfl⟩

/-- The second tab overwrites the first one's name, and the first one's second save puts it back. -/
def overwrittenInTime : List (RememberingEvent (Fin 2)) :=
  [.setup 1, .operation 1, .operation 1, .setup 0, .operation 0, .operation 0, .operation 0,
    .operation 1,
    .holdGranted 0, .operation 0, .operation 0, .operation 0, .holdGranted 1, .operation 1,
    .operation 1]

theorem index_converges_overwrittenInTime :
    ∃ s, (system id ⟨.absent, fun _ => false⟩).run overwrittenInTime = some s ∧
      (∀ tab : Fin 2, tab ∈ s.storage.index.names ∧ s.storage.hasEntry tab = true) ∧
      ∀ listed ∈ s.storage.index.names, s.storage.hasEntry listed = true ∨
        (listed ∈ (IndexValue.absent : IndexValue (Fin 2)).names ∧ false = false) := by
  obtain ⟨s, hrun, hdone⟩ := (Option.any_eq_true _ _).mp
    (show ((system id ⟨.absent, fun _ => false⟩).run overwrittenInTime).any (fun s =>
        decide (∀ tab, s.phase tab = .done))
      = true by decide)
  have hcheck : (system (id : Fin 2 → Fin 2) ⟨.absent, fun _ => false⟩).Always
      (fun t event => decide (t.finishesUnthreatened id event) = true) overwrittenInTime :=
    TransitionSystem.always_of_alwaysFrom _ (by decide)
  exact ⟨s, hrun, index_converges (hcheck.mono fun t event h => of_decide_eq_true h) hrun
    (of_decide_eq_true hdone)⟩

/-- The second tab reads the index before the first one saves for the first time, and writes it
after the first one has found itself listed in its second save. -/
def overwrittenTooLate : List (RememberingEvent (Fin 2)) :=
  [.setup 1, .operation 1, .operation 1, .setup 0, .operation 0, .operation 0, .operation 0,
    .holdGranted 0,
    .operation 0, .operation 0, .operation 1, .holdGranted 1, .operation 1, .operation 1]

/-- Both tabs are done, and the first one's name is lost from the index. -/
theorem not_index_converges :
    ∃ s, (system id ⟨.absent, fun _ => false⟩).run overwrittenTooLate = some s ∧
    (∀ tab : Fin 2, s.phase tab = .done) ∧ (0 : Fin 2) ∉ s.storage.index.names := by
  obtain ⟨s, hrun, hlost⟩ := (Option.any_eq_true _ _).mp
    (show ((system id ⟨.absent, fun _ => false⟩).run overwrittenTooLate).any (fun s =>
      decide ((∀ tab : Fin 2, s.phase tab = .done) ∧
        (0 : Fin 2) ∉ s.storage.index.names)) = true by decide)
  exact ⟨s, hrun, of_decide_eq_true hlost⟩

end RememberingTabs

end SerialBroker
