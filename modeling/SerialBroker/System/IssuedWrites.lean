import SerialBroker.System.ServedWrites

/-!
# What a tab does to the writes it has issued

Every move of the tab that issued a write takes it a few steps of `Entrusting` further: it addresses
it, offers it, says yes or no to a port that asks, and hears its outcome, from another tab's port or
from its own.
-/

namespace SerialBroker

open Entrusting.State (Step Steps)

/-- The writes a tab waits on are those it has issued, and no two have the same id. -/
structure Tab.WritesIssued (t : Tab) : Prop where
  ids : KeyedList.Distinct PendingWrite.requestId t.writes
  payloads : ∀ w ∈ t.writes, t.issued[w.requestId]? = some w.payload

namespace Tab

open SerialBroker.System (served)

variable {t t' t₀ : Tab} {config : TabConfig} {discipline : Discipline} {requestId : RequestId}
  {outcome : WriteOutcome} {h : Holder}
  {key : WriteKey} {message : ProtocolMessage} {w : PendingWrite} {deeds : List Action}

theorem init_writesIssued : Tab.init.WritesIssued :=
  ⟨List.nodup_nil, fun _ h => absurd h List.not_mem_nil⟩

theorem WritesIssued.settle (hw : t.WritesIssued) (requestId : RequestId) (outcome : WriteOutcome) :
    (t.settle requestId outcome).WritesIssued := by
  unfold Tab.settle
  split
  · exact hw
  · exact ⟨hw.ids.erase, fun w hmem => hw.payloads w (KeyedList.mem_erase.mp hmem).1⟩

theorem WritesIssued.modifyWrite (hw : t.WritesIssued) (requestId : RequestId)
    {f : PendingWrite → PendingWrite}
    (hsame : ∀ w, (f w).requestId = w.requestId ∧ (f w).payload = w.payload) :
    (t.modifyWrite requestId f).WritesIssued := by
  refine ⟨hw.ids.adjust fun w _ _ => (hsame w).1, fun w hmem => ?_⟩
  obtain ⟨w₀, hmem₀, rfl⟩ := KeyedList.mem_adjust.mp hmem
  split
  · rw [(hsame w₀).1, (hsame w₀).2]
    exact hw.payloads w₀ hmem₀
  · exact hw.payloads w₀ hmem₀

theorem WritesIssued.of_same (hw : t.WritesIssued) (hwrites : t'.writes = t.writes)
    (hissued : t'.issued = t.issued) : t'.WritesIssued :=
  ⟨hwrites ▸ hw.ids, fun w hmem => hissued ▸ hw.payloads w (hwrites ▸ hmem)⟩

theorem WritesIssued.pending (hw : t.WritesIssued) (hmem : w ∈ t.writes) :
    t.pending? w.requestId = some w := hw.ids.lookup hmem

theorem pending_modifyWrite {f : PendingWrite → PendingWrite}
    (hf : ∀ w, (f w).requestId = w.requestId) (requestId requestId' : RequestId) :
    (t.modifyWrite requestId' f).pending? requestId =
      if requestId = requestId' then (t.pending? requestId).map f else t.pending? requestId :=
      KeyedList.lookup_adjust hf

theorem pending_modifyWrite_ne {f : PendingWrite → PendingWrite}
    (hf : ∀ w, (f w).requestId = w.requestId) {requestId' : RequestId}
    (hne : requestId ≠ requestId') :
    (t.modifyWrite requestId' f).pending? requestId = t.pending? requestId := by
  rw [pending_modifyWrite hf, if_neg hne]

theorem pending_settle (t : Tab) (requestId requestId' : RequestId) (outcome : WriteOutcome) :
    (t.settle requestId' outcome).pending? requestId =
    if requestId = requestId' then none else t.pending? requestId := by
  cases hpending : t.pending? requestId' with
  | none =>
    simp only [settle, hpending]
    split
    · next heq => rw [heq, hpending]
    · rfl
  | some w =>
    simp only [settle, hpending]
    exact KeyedList.lookup_erase

theorem startElection_writes (t : Tab) :
    t.startElection.writes = t.writes ∧ t.startElection.issued = t.issued := by
  unfold startElection
  split
  · exact ⟨rfl, rfl⟩
  · split <;> exact ⟨rfl, rfl⟩

theorem takeApproval_writes (t : Tab) (key : WriteKey) (term : TermId) (approved : Bool) :
    (t.takeApproval key term approved).writes = t.writes ∧
      (t.takeApproval key term approved).issued = t.issued := by
  unfold takeApproval
  split
  · exact ⟨rfl, rfl⟩
  split
  · exact ⟨rfl, rfl⟩
  split
  · exact ⟨rfl, rfl⟩
  · exact ⟨rfl, rfl⟩

theorem approve_issued (t : Tab) (requestId : RequestId) (term : TermId) :
    (t.approve requestId term).1 = t ∧ (t.approve requestId term).2 = false ∨
    ∃ w, t.pending? requestId = some w ∧ w.addressedTerm = some term ∧
      t.approve requestId term = (t.modifyWrite requestId fun w =>
        { w with startedTerm := w.startedTerm.or (some term) }, true) := by
  unfold approve
  split
  · exact Or.inl ⟨rfl, rfl⟩
  · next w hpending =>
    split
    · exact Or.inl ⟨rfl, rfl⟩
    · next hterm => exact Or.inr ⟨w, hpending, not_not.mp hterm, rfl⟩

theorem pending_approve (t : Tab) (requestId' : RequestId) (term : TermId) :
    (t.approve requestId' term).1.pending? requestId =
    if requestId = requestId' ∧ (t.approve requestId' term).2 = true then
      (t.pending? requestId).map fun w => { w with startedTerm := w.startedTerm.or (some term) }
    else t.pending? requestId := by
  obtain ⟨heq, hrefused⟩ | ⟨w, -, -, heq⟩ := approve_issued t requestId' term
  · rw [heq, hrefused, if_neg (by simp)]
  · have hmarked : (t.modifyWrite requestId' fun w =>
        { w with startedTerm := w.startedTerm.or (some term) }).pending? requestId =
        if requestId = requestId' then (t.pending? requestId).map fun w =>
          { w with startedTerm := w.startedTerm.or (some term) }
        else t.pending? requestId := by
      refine pending_modifyWrite ?_ requestId requestId'
      exact fun _ => rfl
    rw [heq]
    dsimp only
    rw [hmarked]
    simp

/-- **The writes a tab waits on are those it has issued.** -/
theorem Move.writesIssued (hm : Move config discipline t t') (hw : t.WritesIssued) :
    t'.WritesIssued := by
  have hheard : ∀ {message : ProtocolMessage} {t₀ : Tab}, t.Hears message t₀ → t₀.WritesIssued :=
      fun hears =>
    hw.of_same hears.kept.2.1 hears.kept.2.2
  cases hm with
  | rest _ deeds hrest => exact hw.of_same hrest.writes hrest.issued
  | requests => exact hw.of_same (startElection_writes t).1 (startElection_writes t).2
  | stops => exact hw.of_same (stopElection_same t).2.2.2.2.2.1 (stopElection_same t).2.2.2.2.2.2.1
  | withdraws stack hstack =>
    have hsame := stopElection_same { t with stack, terms := t.terms.dispose.1 }
    exact hw.of_same hsame.2.2.2.2.2.1 hsame.2.2.2.2.2.2.1
  | issues payload =>
    have hfresh : ∀ w ∈ t.writes, w.requestId ≠ t.issued.length := fun w hmem heq => by
      have hpayload := hw.payloads w hmem
      rw [heq, List.getElem?_eq_none (Nat.le_refl _)] at hpayload
      cases hpayload
    refine ⟨hw.ids.concat hfresh, fun w hmem => ?_⟩
    obtain hmem | hmem := List.mem_append.mp hmem
    · have hpayload := hw.payloads w hmem
      exact List.getElem?_append_left (List.getElem?_eq_some_iff.mp hpayload).1 ▸ hpayload
    · rw [List.mem_singleton.mp hmem]
      exact List.getElem?_concat_length
  | settles | recalls => exact hw.settle _ _
  | marks requestId f hsame => exact hw.modifyWrite _ fun w => ⟨(hsame w).1, (hsame w).2.1⟩
  | hearsReady message t₀ hears requestId term question hbody =>
    have happroved : (t₀.approve requestId term).1.WritesIssued := by
      obtain ⟨heq, -⟩ | ⟨w, -, -, heq⟩ := approve_issued t₀ requestId term
      · rw [heq]
        exact hheard hears
      · rw [heq]
        exact (hheard hears).modifyWrite _ fun _ => ⟨rfl, rfl⟩
    exact happroved.of_same rfl rfl
  | hearsApproval message t₀ hears requestId term approved question =>
    have hsame := takeApproval_writes t₀ ⟨message.sender, requestId⟩ term approved
    exact (hheard hears).of_same hsame.1 hsame.2
  | hearsRequest message t₀ hears | hearsAgain message t₀ hears =>
    exact (hheard hears).of_same rfl rfl
  | hearsUnconnected message t₀ hears => exact (hheard hears).modifyWrite _ fun _ => ⟨rfl, rfl⟩
  | hearsResult message t₀ hears => exact (hheard hears).settle _ _
  | beginsOwn h hholder job rest hwaiting hrunning horigin connection hconnection w =>
    have hmarked : (t.modifyWrite w.requestId fun w =>
        { w with startedTerm := w.startedTerm.or (some h.term) }).WritesIssued :=
      hw.modifyWrite _ fun _ => ⟨rfl, rfl⟩
    exact hmarked.of_same rfl rfl
  | answersOwn h hholder ended hended hallows horigin _ ht' => exact ht' ▸ hw.of_same rfl rfl
  | handsBackOwn h hholder ended =>
    refine WritesIssued.modifyWrite ?_ _ fun _ => ⟨rfl, rfl⟩
    exact hw.of_same rfl rfl
  | settlesOwn h hholder ended =>
    refine WritesIssued.settle ?_ _ _
    exact hw.of_same rfl rfl
  | saysGoodbye h =>
    have hsame := stopElection_same (((t.setHolder { h with
      stage := .stopped }).act (.requestGoodbye h.term)).send config .all (.ownerReleased h.term))
    exact hw.of_same hsame.2.2.2.2.2.1 hsame.2.2.2.2.2.2.1
  | asks | admits | connects | endsFirst | asksToBegin | expiresAsked | begins | turnsBack
  | takesChunk | failsChunk | endsStall | expiresQueued
  | answersPeer | givesUp | tearsDown => exact hw.of_same rfl rfl

end Tab

namespace System

variable {settings : ClientId → TabSettings} {discipline : Discipline} {s : System} {t' : Tab}
  {key : WriteKey} {deeds : List Action}

/-- What neither offers nor approves nor settles a write. -/
def IsUnsaid (requestId : RequestId) (deeds : List Action) : Prop :=
  ∀ deed ∈ deeds, deed.outcome? requestId = none ∧ ∀ message, deed = .send message →
    message.body.letter? requestId = none

theorem lettersBy_unsaid (hdeeds : IsUnsaid key.requestId deeds) (other : ClientId) :
    lettersBy key other deeds = [] := by
  refine List.filterMap_eq_nil_iff.mpr fun message hmem => ?_
  exact (hdeeds _ (mem_sentTo (List.mem_filter.mp hmem).1).1).2 message rfl

/-- A message of the issuer's to one tab. -/
theorem lettersBy_single (receiver other : ClientId) (body : MessageBody) :
    lettersBy key other [.send ⟨key.origin, .client receiver, body⟩] =
    if other = receiver then (body.letter? key.requestId).toList else [] := by
  by_cases hother : other = receiver
  · subst hother
    cases hletter : body.letter? key.requestId <;>
      simp [lettersBy, sentTo, MessageTarget.reaches, lettersIn, heardFrom, hletter]
  · simp [lettersBy, sentTo, MessageTarget.reaches, lettersIn, heardFrom, hother]

theorem settled_unsaid (hdeeds : IsUnsaid key.requestId deeds) :
    (deeds.filterMap fun deed => deed.outcome? key.requestId) = [] :=
  List.filterMap_eq_nil_iff.mpr fun deed hmem => (hdeeds deed hmem).1

/-- What the issuer does to a write, and then what its port does, come to what it has done at
all. -/
theorem handled_steps {v₁ : WriteState} (hbefore : Steps writeRules (s.view key) v₁)
    (hsame : v₁.desks = (s.view key).desks ∧ v₁.begun = (s.view key).begun ∧
      v₁.parts = (s.view key).parts)
    (htask : v₁.task = t'.issued[key.requestId]?)
    (hpending : v₁.pending = (t'.pending? key.requestId).map PendingWrite.marks)
    (hletters : ∀ other, v₁.letters other = (s.view key).letters other ++
      lettersBy key other t'.outbox)
    (hsettled : v₁.settled = (s.view key).settled ++ t'.outbox.filterMap fun deed =>
      deed.outcome? key.requestId)
    (hreports : ∀ other, (reportsIn other key.requestId
      (t'.applying ++ s.channel other key.origin)).Sublist (v₁.reports other))
    (hserved : Steps writeRules v₁ (served v₁ key.origin t' key)) :
    Steps writeRules (s.view key) (handled s (s.view key) t' key) := by
  obtain ⟨hdesks, hbegun, hparts⟩ := hsame
  have hloses : Step writeRules (served v₁ key.origin t' key) { served v₁ key.origin t' key with
      reports := fun other =>
        reportsIn other key.requestId (t'.applying ++ s.channel other key.origin)
      letters := v₁.letters } := by
    refine .loses _ _ (fun other => (hreports other).trans ?_) fun _ => List.Sublist.refl _
    simp only [served, Function.update_apply]
    split
    · next heq =>
      rw [heq]
      exact List.sublist_append_left _ _
    · exact List.Sublist.refl _
  refine (hbefore.trans hserved).trans (.single ?_)
  have hsame : handled s (s.view key) t' key = { served v₁ key.origin t' key with
      reports := fun other =>
        reportsIn other key.requestId (t'.applying ++ s.channel other key.origin)
      letters := v₁.letters } := by
    refine Entrusting.State.ext htask.symm hpending.symm ?_ rfl (funext fun other =>
      (hletters other).symm) ?_ ?_ hsettled.symm
    · simp only [handled, served, hdesks]
    · simp only [handled, served, hbegun]
    · simp only [handled, served, hparts]
  rw [hsame]
  exact hloses

/-- A tab begins a write of its own. -/
theorem beginsOwn_steps (hs : s.Grounded) (hw : (s.tabs key.origin).WritesIssued)
    (hlive : s.isCrashed key.origin = false)
    (hports : ∀ h, (s.tabs key.origin).holder = some h → h.Sound key.origin)
    (hown : Tab.BeginsOwn (config settings key.origin) key (s.tabs key.origin) t') :
    Steps writeRules (s.view key) (handled s (s.view key) t' key) := by
  obtain ⟨h, job, rest, connection, w, hholder, hwaiting, hrunning, rfl, -, hmem, hid,
    hterm, ht'⟩ := hown
  have hmoved := Holder.moved_beginFirst (hports h hholder) hwaiting hrunning connection
  obtain ⟨-, hjob, hdesk⟩ := (hmoved.desk job.key).resolve_right fun hnot => hnot.1 rfl
  have hpending : (s.tabs job.key.origin).pending? job.key.requestId = some w :=
    hid ▸ hw.pending hmem
  have hdesks : (s.view job.key).desks job.key.origin = some (h.desk job.key) :=
    congrArg (Option.map _) hholder
  have hwaits : (s.view job.key).pending = some w.marks := by
    simp only [view, hlive, Bool.false_eq_true, if_false, hpending, Option.map_some]
  have hpending' : t'.pending? job.key.requestId =
      some { w with startedTerm := w.startedTerm.or (some h.term) } := by
    have hmarked := Tab.pending_modifyWrite (t := s.tabs job.key.origin)
      (f := fun w => { w with startedTerm := w.startedTerm.or (some h.term) }) (fun _ => rfl)
          job.key.requestId w.requestId
    rw [if_pos hid.symm, hpending] at hmarked
    rw [ht']
    exact hmarked
  have hbox : t'.outbox = [.began job.key h.term] := by
    rw [ht']
    show (s.tabs job.key.origin).outbox ++ [_] = _
    rw [hs.outbox]
    rfl
  have hholder' : t'.holder =
      some (({ h with waiting := rest } : Holder).writeChunk job connection 0) := ht' ▸ rfl
  have hkept : t'.issued = (s.tabs job.key.origin).issued ∧
    t'.applying = (s.tabs job.key.origin).applying := ht' ▸ ⟨rfl, rfl⟩
  have hunsaid : IsUnsaid job.key.requestId t'.outbox := fun deed hdeed => by
    rw [hbox, List.mem_singleton] at hdeed
    subst hdeed
    exact ⟨rfl, fun _ heq => by cases heq⟩
  have hstep := Step.beginsOwn (R := writeRules) w.marks hwaits job.key.origin _ hdesks hterm
    hs.reports_own job.payload hjob
  refine .single (Eq.subst (motive := fun v' => Step writeRules (s.view job.key) v') ?_ hstep)
  refine Entrusting.State.ext ?_ ?_ ?_ (funext fun other => ?_) (funext fun other => ?_) ?_ ?_ ?_
  · exact congrArg (fun issued => issued[job.key.requestId]?) hkept.1.symm
  · rw [handled, hpending']
    rfl
  · simp only [handled, served, hholder', Option.map_some, hdesk]
    rfl
  · simp only [handled, hkept.2]
    rfl
  · simp only [handled, lettersBy_unsaid hunsaid, List.append_nil]
    rfl
  · simp only [handled, served, hbox]
    simp [Action.begunTerm?, Holder.desk]
  · simp only [handled, served, hbox]
    simp [Action.part?, Entrusting.State.setDesk]
  · simp only [handled, settled_unsaid hunsaid, List.append_nil]
    rfl

/-- A move of the tab that issued a write, other than the beginning of it at its own port. -/
structure Issuing (settings : ClientId → TabSettings) (discipline : Discipline) (s : System)
    (key : WriteKey) (t' : Tab) : Prop where
  grounded : s.Grounded
  writes : (s.tabs key.origin).WritesIssued
  live : s.isCrashed key.origin = false
  ports : ∀ h, (s.tabs key.origin).holder = some h → h.Sound key.origin
  takes : ∀ holder message, discipline.takes holder message → answersAsked holder message = true
  forgets : discipline.forgets key → (s.view key).pending = none ∧ (s.view key).task ≠ none
  move : (s.tabs key.origin).Move (config settings key.origin) discipline t'
  notOwn : ¬ Tab.BeginsOwn (config settings key.origin) key (s.tabs key.origin) t'

namespace Issuing

variable {w : PendingWrite} {t₀ : Tab} {outcome : WriteOutcome} {f : PendingWrite → PendingWrite}

theorem pending (hi : Issuing settings discipline s key t') :
    (s.view key).pending = ((s.tabs key.origin).pending? key.requestId).map PendingWrite.marks := by
  simp only [view, hi.live, Bool.false_eq_true, if_false]

theorem waits (hi : Issuing settings discipline s key t') (hmem : w ∈ (s.tabs key.origin).writes)
    (hid : w.requestId = key.requestId) :
    (s.view key).pending = some w.marks := by
  rw [hi.pending, ← hid, hi.writes.pending hmem]
  rfl

theorem reports (hi : Issuing settings discipline s key t') (other : ClientId) :
    (reportsIn other key.requestId (t'.applying ++ s.channel other key.origin)).Sublist
    ((s.view key).reports other) :=
  reportsIn_sublist (hi.move.applying.append_right _)

/-- What the issuer has done to the write is what it has done at all. -/
theorem finish (hi : Issuing settings discipline s key t') {v₁ : WriteState}
    (hbefore : Steps writeRules (s.view key) v₁)
    (hsame : v₁.desks = (s.view key).desks ∧ v₁.begun = (s.view key).begun ∧
      v₁.parts = (s.view key).parts)
    (htask : v₁.task = t'.issued[key.requestId]?)
    (hissued : ∃ more, t'.issued = (s.tabs key.origin).issued ++ more)
    (hpending : v₁.pending = (t'.pending? key.requestId).map PendingWrite.marks)
    (hletters : ∀ other, v₁.letters other = (s.view key).letters other ++
      lettersBy key other t'.outbox)
    (hsettled : v₁.settled = (s.view key).settled ++ t'.outbox.filterMap fun deed =>
      deed.outcome? key.requestId)
    (hreports : ∀ other, (reportsIn other key.requestId
      (t'.applying ++ s.channel other key.origin)).Sublist (v₁.reports other)) :
    Steps writeRules (s.view key) (handled s (s.view key) t' key) := by
  obtain ⟨more, hmore⟩ := hissued
  have hforeign : lettersIn key (s.tabs key.origin).applying = [] := by
    have hnone : lettersIn key ((s.tabs key.origin).applying ++
      s.channel key.origin key.origin) = [] := hi.grounded.letters_own
    rw [lettersIn_append] at hnone
    exact (List.append_eq_nil_iff.mp hnone).1
  refine handled_steps hbefore hsame htask hpending hletters hsettled hreports ?_
  have hserves := hi.move.serves key v₁ (hi.grounded.outbox key.origin) hi.ports
      (hi.grounded.applying key.origin) hi.takes
    (fun hforgotten => hbefore.over (hi.forgets hforgotten)) (by rw [hsame.1]; rfl)
    (fun _ hmem => by rw [hforeign] at hmem; exact absurd hmem List.not_mem_nil)
        fun _ w hmem hid => by
      have hpayload := hi.writes.payloads w hmem
      rw [hid] at hpayload
      rw [htask, hmore, List.getElem?_append_left (List.getElem?_eq_some_iff.mp hpayload).1,
        hpayload]
  exact hserves.resolve_right hi.notOwn

/-- What does nothing to the write. -/
theorem quiet (hi : Issuing settings discipline s key t')
    (hissued : t'.issued = (s.tabs key.origin).issued)
    (hpending : t'.pending? key.requestId = (s.tabs key.origin).pending? key.requestId)
    (hunsaid : IsUnsaid key.requestId t'.outbox) :
    Steps writeRules (s.view key) (handled s (s.view key) t' key) := by
  refine hi.finish .refl ⟨rfl, rfl, rfl⟩ ?_ ⟨[], by rw [hissued, List.append_nil]⟩ ?_
    (fun other => ?_) ?_ hi.reports
  · rw [hissued]
    rfl
  · rw [hpending]
    exact hi.pending
  · rw [lettersBy_unsaid hunsaid, List.append_nil]
  · rw [settled_unsaid hunsaid, List.append_nil]

/-- A write is settled, this one or another. -/
theorem settle (hi : Issuing settings discipline s key t') (t₀ : Tab)
    (hkept : t₀.writes = (s.tabs key.origin).writes ∧
      t₀.issued = (s.tabs key.origin).issued ∧ t₀.outbox = [])
      (ht' : t' = t₀.settle w.requestId outcome)
    (hmem : w ∈ (s.tabs key.origin).writes)
    (hstep : w.requestId = key.requestId →
      Step writeRules (s.view key) ((s.view key).settle outcome)) :
    Steps writeRules (s.view key) (handled s (s.view key) t' key) := by
  obtain ⟨hwrites, hissued, hbox⟩ := hkept
  have hpending₀ : t₀.pending? w.requestId = some w := by
    rw [Tab.pending?, hwrites]
    exact hi.writes.pending hmem
  have hbox' : t'.outbox = [.settled w.requestId outcome] := by
    rw [ht', Tab.settle, hpending₀]
    show t₀.outbox ++ [_] = _
    rw [hbox]
    rfl
  have hissued' : t'.issued = (s.tabs key.origin).issued := by
    rw [ht', Tab.settle, hpending₀]
    exact hissued
  have hpending' := Tab.pending_settle t₀ key.requestId w.requestId outcome
  rw [← ht'] at hpending'
  by_cases hid : w.requestId = key.requestId
  · refine hi.finish (.single (hstep hid)) ⟨rfl, rfl, rfl⟩ ?_
      ⟨[], by rw [hissued', List.append_nil]⟩ ?_ (fun other => ?_) ?_ hi.reports
    · rw [hissued']
      rfl
    · rw [hpending', if_pos hid.symm]
      rfl
    · rw [hbox']
      exact (List.append_nil _).symm
    · rw [hbox']
      simp [Action.outcome?, hid, Entrusting.State.settle]
  · refine hi.quiet hissued' ?_ fun deed hdeed => ?_
    · rw [hpending', if_neg fun heq => hid heq.symm, Tab.pending?, hwrites]
      rfl
    · rw [hbox', List.mem_singleton] at hdeed
      subst hdeed
      exact ⟨if_neg hid, fun _ heq => by cases heq⟩

/-- The marks of a write change, of this one or another. -/
theorem modify (hi : Issuing settings discipline s key t') (t₀ : Tab)
    (f : PendingWrite → PendingWrite) (hkept : t₀.writes = (s.tabs key.origin).writes ∧
      t'.issued = (s.tabs key.origin).issued ∧ t'.outbox = []) {requestId : RequestId}
      (ht' : t'.writes = (t₀.modifyWrite requestId f).writes)
    (hf : ∀ w, (f w).requestId = w.requestId)
    (hsteps : ∀ w, (s.tabs key.origin).pending? key.requestId = some w → requestId = key.requestId →
      Steps writeRules (s.view key) { s.view key with pending := some (f w).marks }) :
    Steps writeRules (s.view key) (handled s (s.view key) t' key) := by
  obtain ⟨hwrites, hissued, hbox⟩ := hkept
  have hunsaid : IsUnsaid key.requestId t'.outbox :=
    hbox ▸ fun _ hdeed => absurd hdeed List.not_mem_nil
  have hsame : ∀ t : Tab, t.writes = (s.tabs key.origin).writes →
      t.pending? key.requestId = (s.tabs key.origin).pending? key.requestId :=
    fun t heq => by rw [Tab.pending?, heq]; rfl
  have hpending' : t'.pending? key.requestId = if key.requestId = requestId then
    ((s.tabs key.origin).pending? key.requestId).map f
      else (s.tabs key.origin).pending? key.requestId := by
    rw [← hsame t₀ hwrites, ← Tab.pending_modifyWrite hf key.requestId requestId, Tab.pending?, ht']
    rfl
  by_cases hid : requestId = key.requestId
  · rw [if_pos hid.symm] at hpending'
    cases hpending : (s.tabs key.origin).pending? key.requestId with
    | none =>
      refine hi.quiet hissued ?_ hunsaid
      rw [hpending', hpending]
      rfl
    | some w =>
      refine hi.finish (hsteps w hpending hid) ⟨rfl, rfl, rfl⟩ ?_
        ⟨[], by rw [hissued, List.append_nil]⟩ ?_ (fun other => ?_) ?_ hi.reports
      · rw [hissued]
        rfl
      · rw [hpending', hpending]
        rfl
      · rw [lettersBy_unsaid hunsaid, List.append_nil]
      · rw [settled_unsaid hunsaid, List.append_nil]
  · refine hi.quiet hissued ?_ hunsaid
    rw [hpending', if_neg fun heq => hid heq.symm]

/-- A write is issued, this one or another. -/
theorem issue (hi : Issuing settings discipline s key t') (payload : Payload)
    (ht' : t' = { s.tabs key.origin with
      writes := (s.tabs key.origin).writes ++
          [PendingWrite.mk (s.tabs key.origin).issued.length payload none none false]
      issued := (s.tabs key.origin).issued ++ [payload] }) :
        Steps writeRules (s.view key) (handled s (s.view key) t' key) := by
  have hissued : t'.issued = (s.tabs key.origin).issued ++ [payload] := ht' ▸ rfl
  have hbox : t'.outbox = [] := ht' ▸ hi.grounded.outbox key.origin
  have hunsaid : IsUnsaid key.requestId t'.outbox :=
    hbox ▸ fun _ hdeed => absurd hdeed List.not_mem_nil
  have hpending : t'.pending? key.requestId = ((s.tabs key.origin).pending? key.requestId).or
      (if (s.tabs key.origin).issued.length = key.requestId then
         some ⟨(s.tabs key.origin).issued.length, payload, none, none, false⟩
       else none) := by
    rw [ht']
    exact KeyedList.lookup_concat
  have hend : ∀ {v₁ : WriteState}, Steps writeRules (s.view key) v₁ → v₁ =
      { s.view key with task := v₁.task, pending := v₁.pending } →
      v₁.task = t'.issued[key.requestId]? →
        v₁.pending = (t'.pending? key.requestId).map PendingWrite.marks →
      Steps writeRules (s.view key) (handled s (s.view key) t' key) :=
        fun {v₁} hbefore hsame htask hpending₁ => by
    refine hi.finish hbefore (hsame ▸ ⟨rfl, rfl, rfl⟩) htask ⟨[payload], hissued⟩ hpending₁
      (fun other => ?_) ?_ fun other => ?_
    · rw [lettersBy_unsaid hunsaid, List.append_nil, hsame]
    · rw [settled_unsaid hunsaid, List.append_nil, hsame]
    · rw [hsame]
      exact hi.reports other
  by_cases hid : (s.tabs key.origin).issued.length = key.requestId
  · have hnone : (s.view key).task = none := by
      show (s.tabs key.origin).issued[key.requestId]? = none
      rw [← hid]
      exact List.getElem?_eq_none (Nat.le_refl _)
    have hunknown : (s.tabs key.origin).pending? key.requestId = none := by
      refine KeyedList.lookup_eq_none.mpr fun w hmem heq => ?_
      have hpayload := hi.writes.payloads w hmem
      rw [heq, ← hid, List.getElem?_eq_none (Nat.le_refl _)] at hpayload
      cases hpayload
    refine hend (.single (.issues payload hnone)) rfl ?_ ?_
    · rw [hissued, ← hid]
      exact List.getElem?_concat_length.symm
    · rw [hpending, hunknown, if_pos hid]
      rfl
  · refine hend .refl rfl ?_ ?_
    · show (s.tabs key.origin).issued[key.requestId]? = _
      rw [hissued, List.getElem?_append]
      split
      · rfl
      · next hlast =>
        rw [List.getElem?_eq_none (Nat.not_lt.mp hlast), List.getElem?_eq_none]
        simp only [List.length_singleton]
        omega
    · rw [hpending, if_neg hid, Option.or_none]
      exact hi.pending

/-- A write is offered to every other tab, this one or another. -/
theorem offer (hi : Issuing settings discipline s key t') (hmem : w ∈ (s.tabs key.origin).writes)
    {term : TermId}
    (ht' : t' = (s.tabs key.origin).send (config settings key.origin) .all
      (.writeRequest w.requestId w.payload term)) :
    Steps writeRules (s.view key) (handled s (s.view key) t' key) := by
  have hbox : t'.outbox = [.send ⟨key.origin, .all, .writeRequest w.requestId w.payload term⟩] := by
    rw [ht']
    show (s.tabs key.origin).outbox ++ [_] = _
    rw [hi.grounded.outbox]
    rfl
  have hkept : t'.issued = (s.tabs key.origin).issued ∧
    t'.pending? key.requestId = (s.tabs key.origin).pending? key.requestId := ht' ▸ ⟨rfl, rfl⟩
  by_cases hid : w.requestId = key.requestId
  · have htask : (s.view key).task = some w.payload := by
      show (s.tabs key.origin).issued[key.requestId]? = _
      rw [← hid]
      exact hi.writes.payloads w hmem
    refine hi.finish (.single (.offers w.payload htask (fun other =>
        (s.view key).letters other ++ lettersBy key other t'.outbox) fun other => ?_))
      ⟨rfl, rfl, rfl⟩ ?_ ⟨[], by rw [hkept.1, List.append_nil]⟩ ?_ (fun other => rfl) ?_ hi.reports
    · by_cases hother : other = key.origin
      · refine Or.inl ?_
        simp [hbox, lettersBy, sentTo, MessageTarget.reaches, lettersIn, heardFrom, hother]
      · refine Or.inr ?_
        simp [hbox, lettersBy, sentTo, MessageTarget.reaches, lettersIn, heardFrom, hother,
          MessageBody.letter?, hid]
    · rw [hkept.1]
      rfl
    · rw [hkept.2]
      exact hi.pending
    · rw [hbox]
      exact (List.append_nil _).symm
  · refine hi.quiet hkept.1 hkept.2 fun deed hdeed => ?_
    rw [hbox, List.mem_singleton] at hdeed
    subst hdeed
    refine ⟨rfl, fun message heq => ?_⟩
    obtain rfl := Action.send.inj heq
    exact if_neg hid

/-- What a port says of the write is what the issuer hears first. -/
theorem reports_eq {message : ProtocolMessage} (hears : (s.tabs key.origin).Hears message t₀)
    (hwrite : message.body.isOfWrite = true) {report : Entrusting.Report TermId WriteOutcome}
    (hreport : message.body.report? key.requestId = some report) :
    (s.view key).reports message.sender =
      report :: reportsIn message.sender key.requestId
      (t₀.applying ++ s.channel message.sender key.origin) := by
  show reportsIn message.sender key.requestId ((s.tabs key.origin).applying ++
    s.channel message.sender key.origin) = _
  rw [hears.applying hwrite, List.cons_append]
  simp [reportsIn, heardFrom, hreport]

/-- The answer to a port that asks about this write or another. -/
theorem answer (hi : Issuing settings discipline s key t') {message : ProtocolMessage}
    (hears : (s.tabs key.origin).Hears message t₀)
    {requestId : RequestId} {term : TermId} {question : QuestionId}
    (hbody : message.body = .writeReady requestId term question)
    (ht' : t' = (t₀.approve requestId term).1.send (config settings key.origin)
      (.client message.sender)
      (.writeApproval requestId term (t₀.approve requestId term).2 question)) :
    Steps writeRules (s.view key) (handled s (s.view key) t' key) := by
  have hbox : t'.outbox = [.send ⟨key.origin, .client message.sender,
      .writeApproval requestId term (t₀.approve requestId term).2 question⟩] := by
    rw [ht']
    show (t₀.approve requestId term).1.outbox ++ [_] = _
    rw [(Tab.approve_deeds t₀ requestId term).1, hears.election.2, hi.grounded.outbox]
    rfl
  have hwrites : t'.writes = (t₀.approve requestId term).1.writes ∧
      t'.issued = (s.tabs key.origin).issued ∧ t'.applying = t₀.applying := by
    refine ⟨ht' ▸ rfl, ?_, ?_⟩
    · rw [ht', ← hears.kept.2.2]
      obtain ⟨heq, -⟩ | ⟨w, -, -, heq⟩ := Tab.approve_issued t₀ requestId term
      · rw [heq]
        rfl
      · rw [heq]
        rfl
    · rw [ht', ← Tab.approve_applying t₀ requestId term]
      rfl
  have hpending : t'.pending? key.requestId = (t₀.approve requestId term).1.pending?
      key.requestId := by
    rw [Tab.pending?, hwrites.1]
    rfl
  have hpending₀ : t₀.pending? key.requestId = (s.tabs key.origin).pending? key.requestId := by
    rw [Tab.pending?, hears.kept.2.1]
    rfl
  by_cases hid : requestId = key.requestId
  · have hreport := reports_eq hears (by rw [hbody]; rfl)
        (show message.body.report? key.requestId = some (.question term question) by
      rw [hbody]
      exact if_pos hid)
    have hletters : ∀ b other, (t₀.approve requestId term).2 = b →
        Function.update (s.view key).letters message.sender ((s.view key).letters message.sender ++
          [.answer term question b]) other =
          (s.view key).letters other ++ lettersBy key other t'.outbox := fun b other hb => by
      rw [hbox, lettersBy_single, Function.update_apply]
      by_cases hother : other = message.sender
      · rw [if_pos hother, if_pos hother, hother, hb]
        simp [MessageBody.letter?, hid]
      · rw [if_neg hother, if_neg hother, List.append_nil]
    have hsettled : (t'.outbox.filterMap fun deed => deed.outcome? key.requestId) = [] := by
      rw [hbox]
      rfl
    have htask : (s.view key).task = t'.issued[key.requestId]? := by
      rw [hwrites.2.1]
      rfl
    obtain ⟨heq, hrefused⟩ | ⟨w, hlookup, hterm, heq⟩ := Tab.approve_issued t₀ requestId term
    · refine hi.finish (.single (.refuses message.sender term question
          (hreport ▸ List.mem_cons_self))) ⟨rfl, rfl, rfl⟩ htask
        ⟨[], by rw [hwrites.2.1, List.append_nil]⟩ ?_ (fun other => hletters false other hrefused)
          ?_ hi.reports
      · rw [hpending, heq, hpending₀]
        exact hi.pending
      · rw [hsettled, List.append_nil]
    · rw [hid, hpending₀] at hlookup
      have hwaits : (s.view key).pending = some w.marks := by
        rw [hi.pending, hlookup]
        rfl
      refine hi.finish (.single (.approves w.marks hwaits message.sender term hterm question _
          hreport)) ⟨rfl, rfl, rfl⟩ htask
        ⟨[], by rw [hwrites.2.1, List.append_nil]⟩ ?_ (fun other =>
          hletters true other (by rw [heq])) ?_ fun other => ?_
      · rw [hpending, Tab.pending_approve, if_pos ⟨hid.symm, by rw [heq]⟩, hpending₀, hlookup]
        rfl
      · rw [hsettled, List.append_nil]
      · simp only [Function.update_apply, hwrites.2.2]
        split
        · next hother => rw [hother]
        · exact hwrites.2.2 ▸ hi.reports other
  · refine hi.quiet hwrites.2.1 ?_ fun deed hdeed => ?_
    · rw [hpending, Tab.pending_approve, if_neg fun heq => hid heq.1.symm, hpending₀]
    · rw [hbox, List.mem_singleton] at hdeed
      subst hdeed
      refine ⟨rfl, fun m heq => ?_⟩
      obtain rfl := Action.send.inj heq
      exact if_neg hid

theorem key_eq {key' : WriteKey} (horigin : key'.origin = key.origin)
    (hid : key'.requestId = key.requestId) : key' = key := by
  obtain ⟨origin, requestId⟩ := key'
  exact WriteKey.mk.injEq .. ▸ ⟨horigin, hid⟩

/-- A result of the write is heard in the term it is addressed to. -/
theorem tells_of_hears {message : ProtocolMessage} (hears : (s.tabs key.origin).Hears message t₀)
    {ok : Bool} {error : Option SerialBrokerError}
    {term : TermId} (hbody : message.body = .writeResult key.requestId ok error (some term))
    (hresult : outcome = if ok then none else error) :
    (s.view key).Tells term outcome := by
  refine ⟨message.sender, Or.inl ?_⟩
  rw [reports_eq hears (by rw [hbody]; rfl)
      (show message.body.report? key.requestId = some (.result term outcome) by
    rw [hbody, hresult]
    exact if_pos rfl)]
  exact List.mem_cons_self

/-- A result of a write at the tab's own port is seen there. -/
theorem tells_of_ended (hi : Issuing settings discipline s key t') {h : Holder}
    (hholder : (s.tabs key.origin).holder = some h)
    {ended : EndedJob} (hended : ended ∈ h.ended) (hkey : ended.job.key = key) :
    (s.view key).Tells h.term ended.outcome := by
  subst hkey
  exact ⟨ended.job.key.origin,
    Or.inr ⟨h.desk ended.job.key, ended.job.payload, congrArg (Option.map _) hholder, rfl,
    Holder.job_desk_of_ended (hi.ports h hholder) hended⟩⟩

theorem isUnsaid_of_all (h : ∀ deed ∈ t'.outbox, deed.isPlain = true ∨
      deed.isOwnerLockCall = true) : IsUnsaid key.requestId t'.outbox := by
  intro deed hdeed
  obtain hplain | hlock := h deed hdeed
  · cases deed with
    | send message =>
      refine ⟨rfl, fun m heq => ?_⟩
      obtain rfl := Action.send.inj heq
      have hbody : message.body.isPlain = true := hplain
      cases hm : message.body <;> simp_all [MessageBody.isPlain, MessageBody.letter?]
    | check | watch | abortWatch => exact ⟨rfl, fun _ heq => by cases heq⟩
    | requestOwnerLock | withdrawOwnerRequest | requestTermLock | requestGoodbye | began
    | chunkTaken | settled => cases hplain
  · cases deed with
    | requestOwnerLock | withdrawOwnerRequest => exact ⟨rfl, fun _ heq => by cases heq⟩
    | send | requestTermLock | requestGoodbye | check | watch | abortWatch | began | chunkTaken
    | settled => cases hlock

/-- What is done at the tab's own port does nothing to the write but there. -/
theorem quiet_one (hi : Issuing settings discipline s key t') (deed : Action)
    (hissued : t'.issued = (s.tabs key.origin).issued)
    (hwrites : t'.writes = (s.tabs key.origin).writes)
    (hbox : t'.outbox = (s.tabs key.origin).outbox ++ [deed])
    (houtcome : deed.outcome? key.requestId = none)
    (hletter : ∀ message, deed = .send message → message.body.letter? key.requestId = none) :
    Steps writeRules (s.view key) (handled s (s.view key) t' key) := by
  refine hi.quiet hissued (by rw [Tab.pending?, hwrites]; rfl) fun deed' hdeed => ?_
  rw [hbox, hi.grounded.outbox, List.nil_append, List.mem_singleton] at hdeed
  exact hdeed ▸ ⟨houtcome, hletter⟩

theorem quiet_none (hi : Issuing settings discipline s key t')
    (hissued : t'.issued = (s.tabs key.origin).issued)
    (hwrites : t'.writes = (s.tabs key.origin).writes)
    (hbox : t'.outbox = (s.tabs key.origin).outbox) :
    Steps writeRules (s.view key) (handled s (s.view key) t' key) := by
  refine hi.quiet hissued (by rw [Tab.pending?, hwrites]; rfl) fun deed hdeed => ?_
  rw [hbox, hi.grounded.outbox] at hdeed
  exact absurd hdeed List.not_mem_nil

/-- **What the issuer does to a write is a sequence of its steps.** -/
theorem steps (hi : Issuing settings discipline s key t') :
    Steps writeRules (s.view key) (handled s (s.view key) t' key) := by
  have houtbox := hi.grounded.outbox key.origin
  have hletter : ∀ {message m : ProtocolMessage}, message.body.letter? key.requestId = none →
      Action.send message = .send m →
      m.body.letter? key.requestId = none := fun hnone heq => Action.send.inj heq ▸ hnone
  have hlocks : ∀ {t₁ : Tab}, (∀ deed ∈ t₁.outbox, deed ∈ (s.tabs key.origin).outbox ∨
      deed.isOwnerLockCall = true) →
      ∀ deed ∈ t₁.outbox, deed.isPlain = true ∨ deed.isOwnerLockCall = true :=
        fun hdeeds deed hdeed => by
    refine Or.inr ((hdeeds deed hdeed).resolve_left fun hbefore => ?_)
    rw [houtbox] at hbefore
    cases hbefore
  have hm := hi.move
  cases hm with
  | rest _ deeds hrest =>
    refine hi.quiet hrest.issued (by rw [Tab.pending?, hrest.writes]; rfl)
      (isUnsaid_of_all fun deed hdeed => Or.inl ?_)
    rw [hrest.outbox, houtbox, List.nil_append] at hdeed
    exact (hrest.plain deed hdeed).1
  | requests =>
    obtain ⟨hwrites, hissued⟩ := Tab.startElection_writes (s.tabs key.origin)
    refine hi.quiet hissued (by rw [Tab.pending?, hwrites]; rfl)
      (isUnsaid_of_all (hlocks fun deed hdeed => ?_))
    obtain hbefore | rfl := (Tab.startElection_applying _).2 deed hdeed
    · exact Or.inl hbefore
    · exact Or.inr rfl
  | stops =>
    obtain ⟨-, -, -, -, -, hwrites, hissued, -⟩ := Tab.stopElection_same (s.tabs key.origin)
    refine hi.quiet hissued (by rw [Tab.pending?, hwrites]; rfl)
      (isUnsaid_of_all (hlocks fun deed hdeed => ?_))
    obtain hbefore | rfl := (Tab.stopElection_applying _).2 deed hdeed
    · exact Or.inl hbefore
    · exact Or.inr rfl
  | withdraws stack hstack =>
    obtain ⟨-, -, -, -, -, hwrites, hissued, -⟩ :=
      Tab.stopElection_same { s.tabs key.origin with
        stack
        terms := (s.tabs key.origin).terms.dispose.1 }
    refine hi.quiet hissued (by rw [Tab.pending?, hwrites]; rfl)
      (isUnsaid_of_all (hlocks fun deed hdeed => ?_))
    obtain hbefore | rfl := (Tab.stopElection_applying _).2 deed hdeed
    · exact Or.inl hbefore
    · exact Or.inr rfl
  | issues payload => exact hi.issue payload rfl
  | settles w hw outcome hrejected hstarted =>
    exact hi.settle _ ⟨rfl, rfl, houtbox⟩ rfl hw fun hid =>
      .rejects w.marks (hi.waits hw hid) outcome hrejected hstarted
  | marks requestId f hsame haddress =>
    refine hi.modify (s.tabs key.origin) f ⟨rfl, rfl, houtbox⟩ rfl (fun w => (hsame w).1)
      fun w hpending hid => ?_
    have hwaits : (s.view key).pending = some w.marks := by
      rw [hi.pending, hpending]
      rfl
    have hmarks : (f w).marks = { w.marks with addressed := (f w).addressedTerm } := by
      rw [PendingWrite.marks, (hsame w).2.2]
      rfl
    rw [hmarks]
    obtain heq | hnone := haddress w (hid ▸ hpending)
    · rw [heq, show ({ w.marks with
        addressed := w.addressedTerm } : Entrusting.Marks TermId) = w.marks from rfl, ← hwaits]
    · exact .single (.addresses w.marks hwaits hnone _)
  | asks w hw term => exact hi.offer hw rfl
  | admits w hw h hserving accepted hnew => exact hi.quiet_none rfl rfl rfl
  | recalls w hw hstarted h hserving outcome hfinished =>
    obtain ⟨hholder, -⟩ := Tab.holder_of_serving? hserving
    refine hi.settle _ ⟨rfl, rfl, houtbox⟩ rfl hw fun hid => ?_
    refine .recalls w.marks (hi.waits hw hid) hstarted key.origin (h.desk key)
      (congrArg (Option.map _) hholder) outcome ?_
    have hkey : (⟨key.origin, w.requestId⟩ : WriteKey) = key := by rw [hid]
    have hlookup : KeyedList.lookup FinishedWrite.key ⟨key.origin, w.requestId⟩
      h.accepted.finished = some ⟨_, outcome⟩ := hfinished
    rw [Holder.desk, ← hkey, hlookup]
    rfl
  | hearsRequest message t₀ hears =>
    exact hi.quiet_none hears.kept.2.2 hears.kept.2.1 hears.election.2
  | hearsAgain message t₀ hears requestId payload h hbody hserving outcome =>
    exact hi.quiet_one (.send ⟨key.origin, .client message.sender,
        .writeResult requestId outcome.isNone outcome (some h.term)⟩)
      hears.kept.2.2 hears.kept.2.1 (hears.election.2 ▸ rfl) rfl fun m heq => hletter rfl heq
  | hearsReady message t₀ hears requestId term question hbody => exact hi.answer hears hbody rfl
  | hearsApproval message t₀ hears requestId term approved question hbody =>
    obtain ⟨hwrites, hissued⟩ :=
      Tab.takeApproval_writes t₀ ⟨message.sender, requestId⟩ term approved
    exact hi.quiet_none (hissued.trans hears.kept.2.2) (hwrites.trans hears.kept.2.1)
      ((Tab.takeApproval_deeds t₀ _ _ _).1.trans hears.election.2)
  | hearsUnconnected message t₀ hears w hw term hterm ok error hbody outcome hresult houtcome =>
    refine hi.modify t₀ Tab.handBack ⟨hears.kept.2.1, hears.kept.2.2,
        hears.election.2.trans houtbox⟩ rfl (fun _ => rfl)
      fun w' hpending hid => ?_
    have hlookup := hi.writes.pending hw
    rw [hid, hpending] at hlookup
    obtain rfl := Option.some.inj hlookup
    exact .single (.takesBack w'.marks (hi.waits hw hid) term hterm outcome
      (tells_of_hears hears (hid ▸ hbody) hresult) houtcome)
  | hearsResult message t₀ hears w hw term hterm ok error hbody outcome hresult =>
    exact hi.settle _ ⟨hears.kept.2.1, hears.kept.2.2, hears.election.2.trans houtbox⟩ rfl
        hw fun hid =>
      .hears w.marks (hi.waits hw hid) term hterm outcome
        (tells_of_hears hears (hid ▸ hbody) hresult)
  | beginsOwn h hholder job rest hwaiting hrunning horigin connection hconnection w hw hid hterm =>
    have hother : key.requestId ≠ w.requestId :=
        fun heq => hi.notOwn ⟨h, job, rest, connection, w, hholder, hwaiting, hrunning, by
      obtain ⟨origin, requestId⟩ := key
      have hjob : job.key = ⟨job.key.origin, job.key.requestId⟩ := rfl
      rw [hjob, horigin, ← hid, ← heq]
      rfl, rfl, hw, heq.symm, hterm, rfl⟩
    refine hi.quiet rfl ?_ fun deed hdeed => ?_
    · refine Tab.pending_modifyWrite_ne (t := s.tabs key.origin) ?_ hother
      exact fun _ => rfl
    · have hdeed : deed ∈ (s.tabs key.origin).outbox ++ [.began job.key h.term] := hdeed
      rw [houtbox, List.nil_append, List.mem_singleton] at hdeed
      subst hdeed
      exact ⟨rfl, fun _ heq => by cases heq⟩
  | asksToBegin h hholder job =>
    exact hi.quiet_one (.send ⟨key.origin, .client job.key.origin,
        .writeReady job.key.requestId h.term h.nextQuestion⟩) rfl rfl rfl rfl
      fun m heq => hletter rfl heq
  | begins h hholder job =>
    exact hi.quiet_one (.began job.key h.term) rfl rfl rfl rfl fun _ heq => by cases heq
  | takesChunk h hholder job connection offset =>
    exact hi.quiet_one _ rfl rfl rfl rfl fun _ heq => by cases heq
  | answersPeer h hholder ended =>
    exact hi.quiet_one (.send ⟨key.origin, .client ended.job.key.origin,
        .writeResult ended.job.key.requestId ended.outcome.isNone
      ended.outcome (some h.term)⟩) rfl rfl rfl rfl fun m heq => hletter rfl heq
  | answersOwn h hholder ended hended hallows horigin _ ht' =>
    exact hi.quiet_none (ht' ▸ rfl) (ht' ▸ rfl) (ht' ▸ rfl)
  | handsBackOwn h hholder ended hended hallows horigin w hw hid hterm houtcome =>
    refine hi.modify (s.tabs key.origin) Tab.handBack ⟨rfl, rfl, houtbox⟩ rfl (fun _ => rfl)
      fun w' hpending hown => ?_
    have hlookup := hi.writes.pending hw
    rw [hown, hpending] at hlookup
    obtain rfl := Option.some.inj hlookup
    have hkey : ended.job.key = key := key_eq horigin (hid.symm.trans hown)
    exact .single (.takesBack w'.marks (hi.waits hw hown) h.term hterm ended.outcome
      (hi.tells_of_ended hholder hended hkey) houtcome)
  | settlesOwn h hholder ended hended hallows horigin w hw hid hterm =>
    refine hi.settle ((s.tabs key.origin).setHolder _) ⟨rfl, rfl, houtbox⟩ rfl hw fun hown => ?_
    exact .hears w.marks (hi.waits hw hown) h.term hterm ended.outcome
      (hi.tells_of_ended hholder hended (key_eq horigin (hid.symm.trans hown)))
  | saysGoodbye h hholder =>
    obtain ⟨-, -, -, -, -, hwrites, hissued, -⟩ := Tab.stopElection_same
      ((((s.tabs key.origin).setHolder { h with
          stage := .stopped }).act (.requestGoodbye h.term)).send (config settings key.origin) .all
        (.ownerReleased h.term))
    refine hi.quiet hissued (by rw [Tab.pending?, hwrites]; rfl) fun deed hdeed => ?_
    obtain hdeed | rfl :=
        (Tab.stopElection_applying
        ((((s.tabs key.origin).setHolder { h with stage := .stopped }).act
      (.requestGoodbye h.term)).send (config settings key.origin) .all
        (.ownerReleased h.term))).2 deed hdeed
    · have hdeed : deed ∈ ((s.tabs key.origin).outbox ++ [Action.requestGoodbye h.term]) ++
        [.send ⟨key.origin, .all, .ownerReleased h.term⟩] := hdeed
      rw [houtbox, List.nil_append] at hdeed
      obtain hdeed | hdeed := List.mem_append.mp hdeed
      · rw [List.mem_singleton.mp hdeed]
        exact ⟨rfl, fun _ heq => by cases heq⟩
      · rw [List.mem_singleton.mp hdeed]
        exact ⟨rfl, fun m heq => hletter rfl heq⟩
    · exact ⟨rfl, fun _ heq => by cases heq⟩
  | connects | endsFirst | expiresAsked | turnsBack | failsChunk | endsStall | expiresQueued
  | givesUp | tearsDown => exact hi.quiet_none rfl rfl rfl

end Issuing

end System

end SerialBroker
