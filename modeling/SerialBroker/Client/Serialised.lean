import SerialBroker.Client.NameCalls

/-!
# One session of a name at a time

What the calls for one name come to in every run: at most one session is active, and once every call
has settled the registered session hears its configuration. `setup()` waits for the release it
found, and does not look again for one that began while it waited; `SetsUpAlone` says of a step that
no session is active where that would matter.

The invariant `Sound` looks at the calls that still have something to take down: a release that has
not closed its session, and a `dispose()` that has not cleared the sessions. Every other call comes
and goes without touching it.
-/

namespace SerialBroker

/-- The session that the call has yet to release completely. -/
def ClientCall.releases : ClientCall → Option SessionId
  | .finishRelease session _ .lettingGo => some session
  | .finishRelease session _ .closing => some session
  | _ => none

/-- The call has yet to clear the sessions. -/
def ClientCall.clears : ClientCall → Bool
  | .dispose .others => true
  | .dispose (.closing _) => true
  | .dispose .clearing => true
  | _ => false

/-- The call has something to take down. -/
def ClientCall.isVital (call : ClientCall) : Prop := call.releases ≠ none ∨ call.clears = true

theorem ClientCall.isVital_of_releases {call : ClientCall} {id : SessionId}
    (h : call.releases = some id) : call.isVital :=
  Or.inl (by rw [h]; exact nofun)

theorem ClientCall.not_isVital {call : ClientCall} (hreleases : call.releases = none)
    (hclears : call.clears = false) : ¬ call.isVital := by
  rintro (h | h)
  · exact h hreleases
  · rw [hclears] at h
    cases h

namespace SerialBrokerClient

/-- The pending call of the id. -/
def callOf (c : SerialBrokerClient) (id : CallId) : Option ClientCall :=
  (KeyedList.lookup PendingCall.id id c.calls).map PendingCall.call

variable {c c' : SerialBrokerClient} {id n m : CallId} {i j : SessionId} {call : ClientCall}
  {x y : NamedSession}

@[simp] theorem callOf_setCall :
    (c.setCall id call).callOf n = if id = n then some call else c.callOf n := by
  unfold callOf setCall
  rw [KeyedList.lookup_put]
  split <;> rfl

@[simp] theorem callOf_endCall : (c.endCall id).callOf n = if n = id then none else c.callOf n := by
  unfold callOf endCall
  rw [KeyedList.lookup_erase]
  split <;> rfl

theorem isPending_of_callOf (h : c.callOf n = some call) : c.isPending n = true := by
  obtain ⟨pending, hlookup, -⟩ := Option.map_eq_some_iff.mp h
  exact List.any_eq_true.mpr ⟨pending, KeyedList.mem_of_lookup hlookup,
    decide_eq_true (KeyedList.key_of_lookup hlookup)⟩

theorem session?_modifySession {f : NamedSession → NamedSession} (hf : ∀ x, (f x).id = x.id) :
    (c.modifySession i f).session? j = if j = i then (c.session? j).map f else c.session? j :=
  KeyedList.lookup_adjust hf

/-! ### the invariant -/

/-- What holds of the sessions in every state. -/
structure Tidy (c : SerialBrokerClient) : Prop where
  distinct : KeyedList.Distinct NamedSession.id c.sessions
  numbered : ∀ x ∈ c.sessions, x.id < c.sessions.length
  fresh : ∀ n, c.nextCall ≤ n → c.callOf n = none
  one : ∀ i j x y, c.session? i = some x → c.session? j = some y → x.isActive = true →
    y.isActive = true → i = j
  /-- While a session is being remembered nothing is active, and nothing else can be set up. -/
  remembering : ∀ i rest, c.remembering = i :: rest →
    rest = [] ∧ (∀ j x, c.session? j = some x → x.isActive = false) ∧
    (∀ j, c.registered = some j → j = i) ∧
      (c.registered ≠ none ∨ c.releasing ≠ none ∨ c.isDisposed = true)
  /-- After `dispose()` a session stays registered only until it is cleared. -/
  disposing : c.isDisposed = true → c.registered ≠ none →
    ∃ n call, c.callOf n = some call ∧ call.clears = true

/-- What holds of the registered session and of those being released, until `dispose()`. -/
structure Live (c : SerialBrokerClient) : Prop where
  joined : ∀ i x, c.session? i = some x → x.isJoined = true → x.isStarted = true
  registered : ∀ i, c.registered = some i → ∃ x, c.session? i = some x ∧ x.isReleased = false ∧
    x.isOver = false ∧
    (c.remembering = [] → x.isStarted = true ∧ (x.isJoined = true ∨ x.isLimited = true)) ∧
      (x.isJoined = true → c.isAttached = true)
  /-- What a release has yet to close is not registered any more, and no other release has it. -/
  releases : ∀ n call i, c.callOf n = some call → call.releases = some i → c.registered ≠ some i ∧
    (∃ x, c.session? i = some x ∧ x.isOver = false ∧
      (∀ options, call = .finishRelease i options .lettingGo → x.isReleased = false)) ∧
    ∀ m call', c.callOf m = some call' → call'.releases = some i → m = n
  usable : ∀ n stage, c.callOf n ≠ some (.dispose stage)

/-- An active session is registered, or the release that `setup()` would wait for has it. -/
def KeepsActive (c : SerialBrokerClient) : Prop :=
  ∀ i x, c.session? i = some x → x.isActive = true → c.registered = some i ∨
    (c.registered = none ∧ ∃ n call, c.releasing = some n ∧ c.callOf n = some call ∧
      call.releases = some i)

/-- The invariant of every run whose `setup()`s find nothing active. -/
structure Sound (c : SerialBrokerClient) : Prop extends Tidy c where
  live : c.isDisposed = false → c.Live
  active : c.isDisposed = false → c.KeepsActive

theorem sound_init : Sound init where
  distinct := List.nodup_nil
  numbered := nofun
  fresh _ _ := rfl
  one := nofun
  remembering := nofun
  disposing := nofun
  live _ := ⟨nofun, nofun, nofun, nofun⟩
  active _ := nofun

/-! ### calls that take nothing down -/

theorem Tidy.lt_nextCall (hc : c.Tidy) (h : c.callOf n = some call) : n < c.nextCall := by
  by_contra hlt
  rw [hc.fresh n (Nat.le_of_not_lt hlt)] at h
  cases h

theorem Tidy.setCall (hc : c.Tidy) (hid : id < c.nextCall)
    (hclears : ∀ old, c.callOf id = some old → old.clears = true → call.clears = true ∨
      c.registered = none) :
    (c.setCall id call).Tidy := by
  refine ⟨hc.distinct, hc.numbered, fun n hn => ?_, hc.one, hc.remembering,
    fun hdisposed hregistered => ?_⟩
  · have hne : id ≠ n := by
      rintro rfl
      exact absurd hid (Nat.not_lt.mpr hn)
    rw [callOf_setCall, if_neg hne]
    exact hc.fresh n hn
  · obtain ⟨n, old, hn, hclear⟩ := hc.disposing hdisposed hregistered
    by_cases hidn : id = n
    · subst hidn
      exact ⟨id, call, by simp, (hclears old hn hclear).resolve_right hregistered⟩
    · exact ⟨n, old, by simp [hidn, hn], hclear⟩

/-- A call that has no more to release than the one in whose place it comes. -/
theorem Live.setCall (hl : c.Live) (hnew : ∀ i, call.releases = some i →
    (∃ old, c.callOf id = some old ∧ old.releases = some i) ∧
      ∀ options, call ≠ .finishRelease i options .lettingGo)
    (husable : ∀ stage, call ≠ .dispose stage) : (c.setCall id call).Live := by
  have hback : ∀ n new i, (c.setCall id call).callOf n = some new → new.releases = some i →
      ∃ old, c.callOf n = some old ∧ old.releases = some i ∧
        ∀ options, new = .finishRelease i options .lettingGo →
          old = .finishRelease i options .lettingGo := by
    intro n new i hn hreleases
    rw [callOf_setCall] at hn
    split at hn
    · next hidn =>
      cases hn
      obtain ⟨⟨old, hold, hi⟩, hletting⟩ := hnew i hreleases
      exact ⟨old, hidn ▸ hold, hi, fun options h => absurd h (hletting options)⟩
    · exact ⟨new, hn, hreleases, fun _ h => h⟩
  refine ⟨hl.joined, hl.registered, fun n new i hn hreleases => ?_, fun n stage hn => ?_⟩
  · obtain ⟨old, hn', hreleases', hletting⟩ := hback n new i hn hreleases
    obtain ⟨hregistered, ⟨x, hx, hover, hreleased⟩, honce⟩ := hl.releases n old i hn' hreleases'
    refine ⟨hregistered, ⟨x, hx, hover, fun options h => hreleased options (hletting options h)⟩,
      fun m new' hm hreleases'' => ?_⟩
    obtain ⟨old', hm', hold', -⟩ := hback m new' i hm hreleases''
    exact honce m old' hm' hold'
  · rw [callOf_setCall] at hn
    split at hn
    · exact husable stage (Option.some.inj hn)
    · exact hl.usable n stage hn

theorem KeepsActive.setCall (ha : c.KeepsActive)
    (hold : ∀ old i, c.callOf id = some old → old.releases = some i → call.releases = some i) :
    (c.setCall id call).KeepsActive := by
  intro i x hx hactive
  refine (ha i x hx hactive).imp_right fun ⟨hnone, n, old, hreleasing, hn, hreleases⟩ =>
    ⟨hnone, n, ?_⟩
  by_cases hidn : id = n
  · subst hidn
    exact ⟨call, hreleasing, by simp, hold old i hn hreleases⟩
  · exact ⟨old, hreleasing, by simp [hidn, hn], hreleases⟩

theorem Tidy.endCall (hc : c.Tidy) (hclears : ∀ old, c.callOf id = some old → old.clears = false) :
    (c.endCall id).Tidy := by
  refine ⟨hc.distinct, hc.numbered, fun n hn => ?_, hc.one, hc.remembering,
    fun hdisposed hregistered => ?_⟩
  · rw [callOf_endCall, hc.fresh n hn]
    exact ite_self _
  · obtain ⟨n, old, hn, hclear⟩ := hc.disposing hdisposed hregistered
    have hne : n ≠ id := by
      rintro rfl
      rw [hclears old hn] at hclear
      cases hclear
    exact ⟨n, old, by simp [hne, hn], hclear⟩

theorem Live.endCall (hl : c.Live) : (c.endCall id).Live := by
  have hback : ∀ n old, (c.endCall id).callOf n = some old → c.callOf n = some old := by
    intro n old hn
    rw [callOf_endCall] at hn
    split at hn
    · cases hn
    · exact hn
  refine ⟨hl.joined, hl.registered, fun n old i hn hreleases => ?_, fun n stage hn =>
    hl.usable n stage (hback n _ hn)⟩
  obtain ⟨hregistered, hx, honce⟩ := hl.releases n old i (hback n old hn) hreleases
  exact ⟨hregistered, hx, fun m old' hm => honce m old' (hback m old' hm)⟩

theorem KeepsActive.endCall (ha : c.KeepsActive)
    (hold : ∀ old, c.callOf id = some old → old.releases = none) :
    (c.endCall id).KeepsActive := by
  intro i x hx hactive
  refine (ha i x hx hactive).imp_right fun ⟨hnone, n, old, hreleasing, hn, hreleases⟩ =>
    ⟨hnone, n, old, hreleasing, ?_, hreleases⟩
  have hne : n ≠ id := by
    rintro rfl
    rw [hold old hn] at hreleases
    cases hreleases
  simp [hne, hn]

/-- A call that takes nothing down comes into the place of another, or of none. -/
theorem Sound.setCall (hc : c.Sound) (hid : id < c.nextCall)
    (hold : ∀ old, c.callOf id = some old → ¬ old.isVital)
    (hnew : ¬ call.isVital) (husable : ∀ stage, call ≠ .dispose stage) :
    (c.setCall id call).Sound where
  toTidy := hc.toTidy.setCall hid fun old h hclears => absurd (Or.inr hclears) (hold old h)
  live h := (hc.live h).setCall (fun _ hreleases =>
    absurd (ClientCall.isVital_of_releases hreleases) hnew) husable
  active h := (hc.active h).setCall fun old _ h hreleases =>
    absurd (ClientCall.isVital_of_releases hreleases) (hold old h)

theorem Sound.endCall (hc : c.Sound) (hold : ∀ old, c.callOf id = some old → ¬ old.isVital) :
    (c.endCall id).Sound where
  toTidy := hc.toTidy.endCall fun old h => Bool.eq_false_iff.mpr fun hclears =>
    hold old h (Or.inr hclears)
  live h := (hc.live h).endCall
  active h := (hc.active h).endCall fun old h => by_contra fun hreleases =>
    hold old h (Or.inl hreleases)

theorem Sound.begun (hc : c.Sound) : Sound { c with nextCall := c.nextCall + 1 } where
  toTidy := { hc with fresh := fun n hn => hc.fresh n (Nat.le_of_succ_le hn) }
  live h := ⟨(hc.live h).joined, (hc.live h).registered, (hc.live h).releases, (hc.live h).usable⟩
  active h := hc.active h

theorem Sound.marked (hc : c.Sound) (isSetUpDuringRelease : Bool) : Sound
    { c with isSetUpDuringRelease } where
  toTidy := { hc with }
  live h := ⟨(hc.live h).joined, (hc.live h).registered, (hc.live h).releases, (hc.live h).usable⟩
  active h := hc.active h

/-! ### what happens to a session -/

/-- A session changes, and none becomes active. -/
theorem Tidy.adjusted (hc : c.Tidy) {f : NamedSession → NamedSession} (hf : ∀ x, (f x).id = x.id)
    (hactive : ∀ x, c.session? i = some x → (f x).isActive = true → x.isActive = true)
    (isAttached : Bool) :
    Tidy { c.modifySession i f with isAttached } := by
  have hback : ∀ j x', (c.modifySession i f).session? j = some x' → x'.isActive = true →
      ∃ x, c.session? j = some x ∧ x.isActive = true := by
    intro j x' hx' hactive'
    rw [session?_modifySession hf] at hx'
    split at hx'
    · next hj =>
      obtain ⟨x, hx, rfl⟩ := Option.map_eq_some_iff.mp hx'
      exact ⟨x, hx, hactive x (hj ▸ hx) hactive'⟩
    · exact ⟨x', hx', hactive'⟩
  refine ⟨hc.distinct.adjust fun x _ _ => hf x, ?_, hc.fresh, ?_, ?_, hc.disposing⟩
  · intro x' hx'
    obtain ⟨x, hx, rfl⟩ := KeyedList.mem_adjust.mp hx'
    have hlength : (c.modifySession i f).sessions.length = c.sessions.length :=
      KeyedList.length_adjust
    rw [hlength]
    split
    · rw [hf]
      exact hc.numbered x hx
    · exact hc.numbered x hx
  · intro j k x' y' hx' hy' hxa hya
    obtain ⟨x, hx, hxa⟩ := hback j x' hx' hxa
    obtain ⟨y, hy, hya⟩ := hback k y' hy' hya
    exact hc.one j k x y hx hy hxa hya
  · intro k rest hremembering
    obtain ⟨hrest, hidle, hsame, hbusy⟩ := hc.remembering k rest hremembering
    refine ⟨hrest, fun j x' hx' => Bool.eq_false_iff.mpr fun hactive' => ?_, hsame, hbusy⟩
    obtain ⟨x, hx, hxa⟩ := hback j x' hx' hactive'
    rw [hidle j x hx] at hxa
    cases hxa

/-- A session that no release has yet to close changes. -/
theorem Live.adjusted (hl : c.Live) (isAttached : Bool) {f : NamedSession → NamedSession}
    (hf : ∀ x, (f x).id = x.id)
    (hjoined : ∀ x, c.session? i = some x → (f x).isJoined = true → (f x).isStarted = true)
    (hregistered : c.registered = some i → ∀ x, c.session? i = some x → x.isReleased = false →
      x.isOver = false →
      (f x).isReleased = false ∧ (f x).isOver = false ∧
        ((f x).isJoined = true → isAttached = true) ∧
        (c.remembering = [] →
          (f x).isStarted = true ∧ ((f x).isJoined = true ∨ (f x).isLimited = true)))
    (hattached : ∀ j, c.registered = some j → j ≠ i → c.isAttached = true → isAttached = true)
    (hreleases : ∀ n call x, c.callOf n = some call → call.releases = some i →
      c.session? i = some x → x.isOver = false →
      (f x).isOver = false ∧ ∀ options, call = .finishRelease i options .lettingGo →
      x.isReleased = false → (f x).isReleased = false) :
    Live { c.modifySession i f with isAttached } := by
  have hsession : ∀ j, ({ c.modifySession i f with isAttached } : SerialBrokerClient).session? j =
      if j = i then (c.session? j).map f else c.session? j := fun j => session?_modifySession hf
  refine ⟨?_, ?_, ?_, hl.usable⟩
  · intro j x' hx' hjoined'
    rw [hsession] at hx'
    split at hx'
    · next hj =>
      obtain ⟨x, hx, rfl⟩ := Option.map_eq_some_iff.mp hx'
      exact hjoined x (hj ▸ hx) hjoined'
    · exact hl.joined j x' hx' hjoined'
  · intro j hj
    obtain ⟨x, hx, hreleased, hover, hstarted, hattached'⟩ := hl.registered j hj
    rw [hsession]
    split
    · next hji =>
      subst hji
      obtain ⟨hreleased, hover, hattached, hstarted⟩ := hregistered hj x hx hreleased hover
      exact ⟨f x, by rw [hx]; rfl, hreleased, hover, hstarted, hattached⟩
    · next hji =>
        exact ⟨x, hx, hreleased, hover, hstarted, fun h => hattached j hj hji (hattached' h)⟩
  · intro n call j hn hreleases'
    obtain ⟨hregistered', ⟨x, hx, hover, hreleased⟩, honce⟩ := hl.releases n call j hn hreleases'
    refine ⟨hregistered', ?_, honce⟩
    rw [hsession]
    split
    · next hji =>
      subst hji
      obtain ⟨hover', hreleased'⟩ := hreleases n call x hn hreleases' hx hover
      exact ⟨f x, by rw [hx]; rfl, hover', fun options h =>
        hreleased' options h (hreleased options h)⟩
    · exact ⟨x, hx, hover, hreleased⟩

theorem KeepsActive.adjusted (ha : c.KeepsActive) (isAttached : Bool)
    {f : NamedSession → NamedSession} (hf : ∀ x, (f x).id = x.id)
    (hactive : ∀ x, c.session? i = some x → (f x).isActive = true →
      x.isActive = true ∨ c.registered = some i) :
    KeepsActive { c.modifySession i f with isAttached } := by
  intro j x' hx' hactive'
  have hx'' : (c.modifySession i f).session? j = some x' := hx'
  rw [session?_modifySession hf] at hx''
  split at hx''
  · next hj =>
    subst hj
    obtain ⟨x, hx, rfl⟩ := Option.map_eq_some_iff.mp hx''
    rcases hactive x hx hactive' with hactive | hregistered
    · exact ha j x hx hactive
    · exact Or.inl hregistered
  · exact ha j x' hx'' hactive'

/-- Letting a session go, once it is registered no more or the client is disposed. -/
theorem Tidy.releaseSession (hc : c.Tidy) : (c.releaseSession i).Tidy :=
  hc.adjusted (f := fun x =>
    { x with isReleased := true }) (fun _ => rfl) (fun _ _ h => h) c.isAttached

theorem releasedSession_eq (hx : c.session? i = some x) : c.releasedSession i =
    { c.modifySession i fun x => { x with isOver := true } with
    isAttached := c.isAttached && !x.isJoined } := by
  unfold SerialBrokerClient.releasedSession
  rw [hx]

theorem releasedSession_setCall :
    (c.releasedSession i).setCall id call = (c.setCall id call).releasedSession i := by
  cases hx : c.session? i with
  | none =>
    unfold SerialBrokerClient.releasedSession
    rw [hx, show (c.setCall id call).session? i = none from hx]
  | some x =>
    rw [releasedSession_eq hx, releasedSession_eq (c := c.setCall id call) hx]
    rfl

theorem releasedSession_isDisposed : (c.releasedSession i).isDisposed = c.isDisposed := by
  unfold SerialBrokerClient.releasedSession
  split <;> rfl

theorem Tidy.releasedSession (hc : c.Tidy) : (c.releasedSession i).Tidy := by
  unfold SerialBrokerClient.releasedSession
  split
  · exact hc
  · next x _ =>
    refine hc.adjusted (f := fun x =>
      { x with isOver := true }) (fun _ => rfl) (fun x _ h => ?_) (c.isAttached && !x.isJoined)
    simp [NamedSession.isActive] at h

theorem join_cases : c.join i = c ∨ c.join i = { c.modifySession i fun x =>
      { x with isJoined := true } with isAttached := true } := by
  unfold SerialBrokerClient.join
  split
  · exact Or.inl rfl
  · split
    · exact Or.inl rfl
    · exact Or.inr rfl

@[simp] theorem join_registered : (c.join i).registered = c.registered := by
  rcases join_cases (c := c) (i := i) with h | h
  · rw [h]
  · rw [h]
    rfl

@[simp] theorem join_isDisposed : (c.join i).isDisposed = c.isDisposed := by
  rcases join_cases (c := c) (i := i) with h | h
  · rw [h]
  · rw [h]
    rfl

theorem Tidy.join (hc : c.Tidy) : (c.join i).Tidy := by
  rcases join_cases (c := c) (i := i) with h | h
  · rw [h]
    exact hc
  · rw [h]
    exact hc.adjusted (f := fun x =>
      { x with isJoined := true }) (fun _ => rfl) (fun _ _ h => h) true

theorem Live.join (hl : c.Live) (hstarted : ∀ x, c.session? i = some x → x.isStarted = true) :
    (c.join i).Live := by
  rcases join_cases (c := c) (i := i) with h | h
  · rw [h]
    exact hl
  · rw [h]
    refine hl.adjusted true (f := fun x => { x with
        isJoined := true }) (fun _ => rfl) (fun x hx _ => hstarted x hx) ?_ (fun _ _ _ _ => rfl)
      fun _ _ _ _ _ _ hover => ⟨hover, fun _ _ h => h⟩
    exact fun _ x hx hreleased hover =>
      ⟨hreleased, hover, fun _ => rfl, fun _ => ⟨hstarted x hx, Or.inl rfl⟩⟩

theorem KeepsActive.join (ha : c.KeepsActive) : (c.join i).KeepsActive := by
  rcases join_cases (c := c) (i := i) with h | h
  · rw [h]
    exact ha
  · rw [h]
    exact ha.adjusted true (f := fun x => { x with isJoined := true }) (fun _ => rfl) fun _ _ h =>
      Or.inl h

theorem Sound.join (hc : c.Sound) (hstarted : ∀ x, c.session? i = some x → x.isStarted = true) :
    (c.join i).Sound where
  toTidy := hc.toTidy.join
  live h := by
    refine (hc.live ?_).join hstarted
    rwa [join_isDisposed] at h
  active h := by
    refine (hc.active ?_).join
    rwa [join_isDisposed] at h

/-! ### the calls -/

/-- A new session, when no session is active. -/
theorem Sound.setUp {setupCall : SetupCall} (hc : c.Sound) (hdisposed : c.isDisposed = false)
    (hremembering : c.remembering ≠ [] → c.registered ≠ none)
    (halone : c.registered = none → setupCall.isSupported = true → ∀ i x, c.session? i = some x →
      x.isActive = false) :
    (c.setUp setupCall).Sound := by
  unfold SerialBrokerClient.setUp
  split
  · exact hc
  · next hgo =>
    obtain ⟨hregistered, hsupported⟩ := not_or.mp hgo
    have hnone : c.registered = none := by simpa using hregistered
    have hidle := halone hnone (by simpa using hsupported)
    have hquiet : c.remembering = [] := by_contra fun h => hremembering h hnone
    set new := NamedSession.mk c.sessions.length setupCall.isLimited false false false
      false with hnew
    have hfound : KeyedList.lookup NamedSession.id c.sessions.length (c.sessions ++
        [new]) = some new := by
      rw [KeyedList.lookup_concat, KeyedList.lookup_eq_none.mpr fun x hx =>
        Nat.ne_of_lt (hc.numbered x hx)]
      exact if_pos rfl
    have hback : ∀ j x, KeyedList.lookup NamedSession.id j (c.sessions ++ [new]) = some x →
        c.session? j = some x ∨ x = new := by
      intro j x hx
      rw [KeyedList.lookup_concat] at hx
      rcases Option.or_eq_some_iff.mp hx with hx | ⟨-, hx⟩
      · exact Or.inl hx
      · split at hx
        · exact Or.inr (Option.some.inj hx).symm
        · cases hx
    have hidle' : ∀ j x, KeyedList.lookup NamedSession.id j (c.sessions ++ [new]) = some x →
        x.isActive = false := by
      intro j x hx
      rcases hback j x hx with hx | rfl
      · exact hidle j x hx
      · rfl
    refine ⟨⟨?_, ?_, hc.fresh, ?_, ?_, ?_⟩, fun hlive => ⟨?_, ?_, ?_, (hc.live hlive).usable⟩,
      fun hlive => ?_⟩
    · exact hc.distinct.concat fun x hx => Nat.ne_of_lt (hc.numbered x hx)
    · intro x hx
      rw [List.length_append, List.length_singleton]
      rcases List.mem_append.mp hx with hx | hx
      · exact Nat.lt_succ_of_lt (hc.numbered x hx)
      · rw [List.mem_singleton.mp hx]
        exact Nat.lt_succ_self _
    · intro i j x y hx _ hxa _
      rw [hidle' i x hx] at hxa
      cases hxa
    · intro i rest hremembering'
      obtain ⟨rfl, rfl⟩ := List.cons.inj hremembering'
      refine ⟨hquiet, hidle', fun j hj => (Option.some.inj hj).symm, Or.inl nofun⟩
    · intro hdisposed'
      rw [show c.isDisposed = true from hdisposed'] at hdisposed
      cases hdisposed
    · intro j x hx hjoined
      rcases hback j x hx with hx | rfl
      · exact (hc.live hdisposed).joined j x hx hjoined
      · cases hjoined
    · intro j hj
      obtain rfl := Option.some.inj hj
      exact ⟨new, hfound, rfl, rfl, nofun, nofun⟩
    · intro n call i hn hreleases
      obtain ⟨-, ⟨x, hx, hover, hreleased⟩, honce⟩ :=
        (hc.live hdisposed).releases n call i hn hreleases
      have hlt := hc.numbered x (KeyedList.mem_of_lookup hx)
      rw [KeyedList.key_of_lookup hx] at hlt
      refine ⟨fun h => Nat.ne_of_gt hlt (Option.some.inj h), ⟨x, ?_, hover, hreleased⟩, honce⟩
      exact (KeyedList.lookup_concat).trans
        (by rw [show KeyedList.lookup NamedSession.id i c.sessions = some x from hx]; rfl)
    · intro i x hx hactive
      rw [hidle' i x hx] at hactive
      cases hactive

/-- The setting up is over: what was being remembered is ready, or is registered no more. -/
theorem Live.ready (hl : c.Live) (hready : ∀ i x, c.registered = some i → c.session? i = some x →
    x.isStarted = true ∧ (x.isJoined = true ∨ x.isLimited = true)) :
    Live { c with remembering := [] } where
  joined := hl.joined
  registered i hi := by
    obtain ⟨x, hx, hreleased, hover, -, hattached⟩ := hl.registered i hi
    exact ⟨x, hx, hreleased, hover, fun _ => hready i x hi hx, hattached⟩
  releases := hl.releases
  usable := hl.usable

/-- `start()` of a session that the environment knows. -/
theorem start_eq (hx : c.session? i = some x) :
    c.start i = if x.isLimited then c.modifySession i fun x => { x with isStarted := true }
      else (c.modifySession i fun x => { x with isStarted := true }).join i := by
  unfold SerialBrokerClient.start
  rw [hx]

theorem start_remembering (rest : List SessionId) :
    ({ c with remembering := rest } : SerialBrokerClient).start i =
      { c.start i with remembering := rest } := by
  unfold SerialBrokerClient.start SerialBrokerClient.join
  simp only [show ({ c with
    remembering := rest } : SerialBrokerClient).session? i = c.session? i from rfl]
  cases hx : c.session? i with
  | none => rfl
  | some x =>
    dsimp only
    split
    · rfl
    · simp only [modifySession, session?]
      cases KeyedList.lookup NamedSession.id i (KeyedList.adjust NamedSession.id i (fun x =>
        { x with isStarted := true }) c.sessions) with
      | none => rfl
      | some x =>
        dsimp only
        split <;> rfl

/-- What is being remembered starts, alone. -/
theorem Tidy.start (hc : c.Tidy) (hidle : ∀ j x, c.session? j = some x → x.isActive = false)
    (hremembering : c.remembering = []) :
    (c.start i).Tidy := by
  have hstarted : (c.modifySession i fun x => { x with isStarted := true }).Tidy := by
    have honly : ∀ j x', (c.modifySession i fun x =>
        { x with isStarted := true }).session? j = some x' → x'.isActive = true → j = i := by
      intro j x' hx' hactive
      by_contra hne
      rw [session?_modifySession (f := fun x => { x with isStarted := true }) fun _ => rfl,
        if_neg hne] at hx'
      rw [hidle j x' hx'] at hactive
      cases hactive
    refine ⟨hc.distinct.adjust fun _ _ _ => rfl, ?_, hc.fresh, ?_, ?_, hc.disposing⟩
    · intro x' hx'
      obtain ⟨x, hx, rfl⟩ := KeyedList.mem_adjust.mp hx'
      have hlength : (c.modifySession i fun x =>
          { x with isStarted := true }).sessions.length = c.sessions.length :=
        KeyedList.length_adjust
      rw [hlength]
      split <;> exact hc.numbered x hx
    · intro j k x' y' hx' hy' hxa hya
      rw [honly j x' hx' hxa, honly k y' hy' hya]
    · intro k rest hk
      rw [show c.remembering = k :: rest from hk] at hremembering
      cases hremembering
  cases hx : c.session? i with
  | none =>
    unfold SerialBrokerClient.start
    rw [hx]
    exact hc
  | some x =>
    rw [start_eq hx]
    split
    · exact hstarted
    · exact hstarted.join

theorem Live.start (hl : c.Live) (hremembering : c.remembering ≠ []) : (c.start i).Live := by
  cases hx : c.session? i with
  | none =>
    unfold SerialBrokerClient.start
    rw [hx]
    exact hl
  | some x =>
    have hstarted : (c.modifySession i fun x => { x with isStarted := true }).Live := by
      refine hl.adjusted c.isAttached (f := fun x =>
          { x with isStarted := true }) (fun _ => rfl) (fun _ _ _ => rfl) ?_
        (fun _ _ _ h => h) fun _ _ _ _ _ _ hover => ⟨hover, fun _ _ h => h⟩
      intro hregistered x hx hreleased hover
      obtain ⟨y, hy, -, -, -, hattached⟩ := hl.registered i hregistered
      rw [hx] at hy
      cases hy
      exact ⟨hreleased, hover, hattached, fun h => absurd h hremembering⟩
    rw [start_eq hx]
    split
    · exact hstarted
    · refine hstarted.join fun x hx => ?_
      rw [session?_modifySession (f := fun x => { x with isStarted := true }) fun _ => rfl,
        if_pos rfl] at hx
      obtain ⟨x, -, rfl⟩ := Option.map_eq_some_iff.mp hx
      rfl

theorem KeepsActive.start (ha : c.KeepsActive) (hregistered : c.registered = some i) :
    (c.start i).KeepsActive := by
  cases hx : c.session? i with
  | none =>
    unfold SerialBrokerClient.start
    rw [hx]
    exact ha
  | some x =>
    have hstarted : (c.modifySession i fun x => { x with isStarted := true }).KeepsActive :=
      ha.adjusted c.isAttached (f := fun x => { x with isStarted := true }) (fun _ => rfl)
        fun _ _ _ => Or.inr hregistered
    rw [start_eq hx]
    split
    · exact hstarted
    · exact hstarted.join

/-- A session that is registered and not let go is ready once it has started. -/
theorem ready_start (hx : c.session? i = some x) (hreleased : x.isReleased = false)
    (h : (c.start i).session? i = some y) :
    y.isStarted = true ∧ (y.isJoined = true ∨ y.isLimited = true) := by
  have hstarted : (c.modifySession i fun x =>
      { x with isStarted := true }).session? i = some { x with isStarted := true } := by
    rw [session?_modifySession (f := fun x => { x with isStarted := true }) fun _ => rfl,
      if_pos rfl, hx]
    rfl
  rw [start_eq hx] at h
  split at h
  · next hlimited =>
    rw [hstarted] at h
    cases h
    exact ⟨rfl, Or.inr hlimited⟩
  · unfold SerialBrokerClient.join at h
    rw [hstarted] at h
    dsimp only at h
    split at h
    · next hjoined =>
      rw [hstarted] at h
      cases h
      exact ⟨rfl, Or.inl (hjoined.resolve_left (by rw [hreleased]; exact nofun))⟩
    · rw [show ∀ (d : SerialBrokerClient) b, ({ d with
        isAttached := b } : SerialBrokerClient).session? i = d.session? i from fun _ _ => rfl,
        session?_modifySession (f := fun x => { x with isJoined := true }) fun _ => rfl, if_pos rfl,
        hstarted] at h
      cases h
      exact ⟨rfl, Or.inl rfl⟩

theorem start_registered :
    (c.start i).registered = c.registered ∧ (c.start i).isDisposed = c.isDisposed := by
  cases hx : c.session? i with
  | none =>
    unfold SerialBrokerClient.start
    rw [hx]
    exact ⟨rfl, rfl⟩
  | some x =>
    rw [start_eq hx]
    split
    · exact ⟨rfl, rfl⟩
    · exact ⟨join_registered, join_isDisposed⟩

theorem Sound.remembered (hc : c.Sound) (h : c.remembered = some c') : c'.Sound := by
  unfold SerialBrokerClient.remembered at h
  split at h
  · cases h
  · next i rest hremembering =>
    obtain ⟨rfl, hidle, hsame, -⟩ := hc.remembering i rest hremembering
    cases h
    have hquiet : Tidy { c with remembering := [] } :=
      ⟨hc.distinct, hc.numbered, hc.fresh, hc.one, nofun, hc.disposing⟩
    split
    · next hregistered =>
      refine ⟨hquiet.start hidle rfl, fun hlive => ?_, fun hlive => ?_⟩
      · rw [start_registered.2] at hlive
        have hl := hc.live hlive
        obtain ⟨x, hx, hreleased, -⟩ := hl.registered i hregistered
        rw [start_remembering]
        refine (hl.start (by rw [hremembering]; exact nofun)).ready fun j y hj hy => ?_
        rw [start_registered.1] at hj
        obtain rfl : i = j := Option.some.inj (hregistered.symm.trans hj)
        exact ready_start hx hreleased hy
      · rw [start_registered.2] at hlive
        exact KeepsActive.start (hc.active hlive) hregistered
    · next hregistered =>
      have hnone : c.registered = none := by
        cases hr : c.registered with
        | none => rfl
        | some j => exact absurd (hr.trans (congrArg some (hsame j hr))) hregistered
      refine ⟨hquiet, fun hlive => (hc.live hlive).ready fun j x hj => ?_, hc.active⟩
      rw [hnone] at hj
      cases hj

/-- A call that takes nothing down can give its place to another. -/
def IsFree (c : SerialBrokerClient) (id : CallId) : Prop :=
  id < c.nextCall ∧ ∀ call, c.callOf id = some call → ¬ call.isVital

theorem Sound.release (hc : c.Sound) (hid : c.IsFree id) (hregistered : c.registered = some i)
    (options : ReleaseOptions) :
    Sound { ((({ c with registered := none, nextCall := c.nextCall + 1 }).setCall c.nextCall
      (.finishRelease i options .lettingGo)).setCall id
      (.release c.nextCall)) with releasing := some c.nextCall } := by
  have hne : id ≠ c.nextCall := Nat.ne_of_lt hid.1
  set d : SerialBrokerClient := { ((({ c with
    registered := none
    nextCall := c.nextCall + 1 }).setCall c.nextCall
      (.finishRelease i options .lettingGo)).setCall id
        (.release c.nextCall)) with releasing := some c.nextCall } with hd
  have hcalls : ∀ n, d.callOf n = if id = n then some (.release c.nextCall) else
      if c.nextCall = n then some (.finishRelease i options .lettingGo) else c.callOf n := by
    intro n
    exact callOf_setCall.trans (by rw [callOf_setCall]; rfl)
  have hvital : ∀ n call, call.isVital → (d.callOf n = some call ↔
      (n = c.nextCall ∧ call = .finishRelease i options .lettingGo) ∨ c.callOf n = some call) := by
    intro n call hvital
    rw [hcalls]
    split
    · next hidn =>
      subst hidn
      refine iff_of_false ?_ ?_
      · intro h
        cases h
        exact ClientCall.not_isVital rfl rfl hvital
      · rintro (⟨h, -⟩ | h)
        · exact hne h
        · exact hid.2 call h hvital
    · split
      · next hn =>
        subst hn
        rw [hc.fresh _ (Nat.le_refl _)]
        simp [eq_comm]
      · next hn => simp [show ¬ n = c.nextCall from fun h => hn h.symm]
  refine ⟨⟨hc.distinct, hc.numbered, fun n hn => ?_, hc.one, fun k rest hk => ?_, nofun⟩,
    fun hlive => ⟨(hc.live hlive).joined, nofun, ?_, ?_⟩, ?_⟩
  · have hlt : c.nextCall < n := hn
    rw [hcalls, if_neg (Nat.ne_of_lt (Nat.lt_trans hid.1 hlt)), if_neg (Nat.ne_of_lt hlt)]
    exact hc.fresh n (Nat.le_of_lt hlt)
  · obtain ⟨hrest, hidle, -, -⟩ := hc.remembering k rest hk
    exact ⟨hrest, hidle, nofun, Or.inr (Or.inl nofun)⟩
  · intro n call j hn hreleases
    have hl := hc.live hlive
    obtain ⟨x, hx, hreleased, hover, -, -⟩ := hl.registered i hregistered
    have honce : ∀ m call', c.callOf m = some call' → call'.releases ≠ some i :=
      fun m call' hm h => (hl.releases m call' i hm h).1 hregistered
    refine ⟨nofun, ?_, fun m call' hm hreleases' => ?_⟩
    · rcases (hvital n call (ClientCall.isVital_of_releases hreleases)).mp hn with ⟨-, rfl⟩ | hn
      · cases hreleases
        exact ⟨x, hx, hover, fun _ _ => hreleased⟩
      · exact (hl.releases n call j hn hreleases).2.1
    · rcases (hvital n call (ClientCall.isVital_of_releases hreleases)).mp hn with ⟨rfl, rfl⟩ | hn
      · cases hreleases
        rcases (hvital m call' (ClientCall.isVital_of_releases hreleases')).mp hm with ⟨rfl, -⟩ | hm
        · rfl
        · exact absurd hreleases' (honce m call' hm)
      · rcases (hvital m call' (ClientCall.isVital_of_releases hreleases')).mp hm with ⟨-, rfl⟩ | hm
        · cases hreleases'
          exact absurd hreleases (honce n call hn)
        · exact (hl.releases n call j hn hreleases).2.2 m call' hm hreleases'
  · intro n stage hn
    rw [hcalls] at hn
    split at hn
    · cases hn
    · split at hn
      · cases hn
      · exact (hc.live hlive).usable n stage hn
  · intro hlive j x hx hactive
    have hj : j = i := by
      rcases hc.active hlive j x hx hactive with h | ⟨h, -⟩
      · exact Option.some.inj (h.symm.trans hregistered)
      · rw [hregistered] at h
        cases h
    subst hj
    exact Or.inr ⟨rfl, c.nextCall, _, rfl, (hvital _ _ (ClientCall.isVital_of_releases rfl)).mpr
      (Or.inl ⟨rfl, rfl⟩), rfl⟩

theorem Sound.releaseAs (hc : c.Sound) (hid : c.IsFree id) (options : ReleaseOptions) :
    (c.releaseAs id options).Sound := by
  unfold SerialBrokerClient.releaseAs
  split
  · split
    · exact hc.setCall hid.1 hid.2 (ClientCall.not_isVital rfl rfl) nofun
    · exact hc.setCall hid.1 hid.2 (ClientCall.not_isVital rfl rfl) nofun
  · next i hregistered => exact hc.release hid hregistered options

theorem releaseAs_nextCall (options : ReleaseOptions) :
    c.nextCall ≤ (c.releaseAs id options).nextCall := by
  unfold SerialBrokerClient.releaseAs
  split
  · exact Nat.le_refl _
  · exact Nat.le_succ _

theorem callOf_releaseAs (hn : n < c.nextCall) (hne : n ≠ id) (options : ReleaseOptions) :
    (c.releaseAs id options).callOf n = c.callOf n := by
  unfold SerialBrokerClient.releaseAs
  split
  · rw [callOf_setCall, if_neg hne.symm]
  · exact callOf_setCall.trans (by
      rw [if_neg hne.symm, callOf_setCall, if_neg (Nat.ne_of_gt hn)]
      rfl)

/-- A call that has just begun is free. -/
theorem Tidy.isFree_begun (hc : c.Tidy) : IsFree { c with nextCall := c.nextCall + 1 } c.nextCall :=
  ⟨Nat.lt_succ_self _, fun call h => by
    rw [show callOf { c with nextCall := c.nextCall + 1 } c.nextCall = c.callOf c.nextCall from rfl,
      hc.fresh _ (Nat.le_refl _)] at h
    cases h⟩

theorem Sound.releaseNext (hc : c.Sound) (hid : c.IsFree id) (options : ReleaseOptions) :
    (c.releaseNext id options).Sound := by
  have hne : id ≠ c.nextCall := Nat.ne_of_lt hid.1
  have hrelease := hc.begun.releaseAs hc.toTidy.isFree_begun options
  refine hrelease.setCall ?_ (fun old hold => ?_) (ClientCall.not_isVital rfl rfl) nofun
  · exact Nat.lt_of_lt_of_le (Nat.lt_succ_of_lt hid.1) (releaseAs_nextCall (c := { c with
      nextCall := c.nextCall + 1 }) options)
  · rw [callOf_releaseAs (Nat.lt_succ_of_lt hid.1) hne] at hold
    exact hid.2 old hold

theorem Sound.releaseAll (hc : c.Sound) (options : ReleaseOptions) (isFirst : Bool) :
    (c.releaseAll options isFirst).Sound := by
  have hfree := hc.toTidy.isFree_begun
  unfold SerialBrokerClient.releaseAll SerialBrokerClient.begin
  dsimp only
  split
  · exact hc.begun.setCall hfree.1 hfree.2 (ClientCall.not_isVital rfl rfl) nofun
  · split
    · exact hc.begun.releaseNext hfree options
    · exact hc.begun.setCall hfree.1 hfree.2 (ClientCall.not_isVital rfl rfl) nofun

theorem Sound.setup (hc : c.Sound) (setupCall : SetupCall) : (c.setup setupCall).Sound := by
  unfold SerialBrokerClient.setup
  split
  · exact hc
  · next hdisposed =>
    have hdisposed' : c.isDisposed = false := Bool.eq_false_iff.mpr hdisposed
    split
    · next hreleasing =>
      refine hc.setUp hdisposed' (fun hremembering hnone => ?_) fun hnone _ i x hx =>
        Bool.eq_false_iff.mpr fun hactive => ?_
      · obtain ⟨i, rest, hk⟩ := List.exists_cons_of_ne_nil hremembering
        rcases (hc.remembering i rest hk).2.2.2 with h | h | h
        · exact h hnone
        · exact h hreleasing
        · exact hdisposed h
      · rcases hc.active hdisposed' i x hx hactive with h | ⟨-, n, -, h, -⟩
        · rw [hnone] at h
          cases h
        · rw [hreleasing] at h
          cases h
    · next releasing hreleasing =>
      have hmarked := hc.marked true
      exact hmarked.begun.setCall hmarked.toTidy.isFree_begun.1 hmarked.toTidy.isFree_begun.2
        (ClientCall.not_isVital rfl rfl) nofun

/-! ### taking down -/

/-- What `dispose()` still needs, once it has been called: the sessions are taken down in any
case. -/
theorem Sound.of_disposed (hc : c.Tidy) (hdisposed : c.isDisposed = true) : c.Sound where
  toTidy := hc
  live h := by
    rw [hdisposed] at h
    cases h
  active h := by
    rw [hdisposed] at h
    cases h

/-- `dispose()` goes on as a call that clears. -/
theorem Tidy.disposeNext (hc : c.Tidy) (hid : id < c.nextCall) : (c.disposeNext id).Tidy := by
  unfold SerialBrokerClient.disposeNext
  split
  · exact hc.setCall hid fun _ _ _ => Or.inl rfl
  · split
    · exact hc.setCall hid fun _ _ _ => Or.inl rfl
    · exact hc.releaseSession.setCall hid fun _ _ _ => Or.inl rfl

@[simp] theorem disposeNext_isDisposed : (c.disposeNext id).isDisposed = c.isDisposed := by
  unfold SerialBrokerClient.disposeNext
  split
  · rfl
  · split <;> rfl

/-- `dispose()` begins as a call that clears. -/
theorem Tidy.dispose (hc : c.Tidy) (call : ClientCall) (hclears : call.clears = true) :
    Tidy (({ c with isDisposed := true, nextCall := c.nextCall + 1 }).setCall c.nextCall call) := by
  refine ⟨hc.distinct, hc.numbered, fun n hn => ?_, hc.one, fun i rest hi => ?_, fun _ _ =>
    ⟨c.nextCall, call, by simp, hclears⟩⟩
  · have hlt : c.nextCall < n := hn
    rw [callOf_setCall, if_neg (Nat.ne_of_lt hlt)]
    exact hc.fresh n (Nat.le_of_lt hlt)
  · obtain ⟨hrest, hidle, hsame, -⟩ := hc.remembering i rest hi
    exact ⟨hrest, hidle, hsame, Or.inr (Or.inr rfl)⟩

theorem Sound.dispose (hc : c.Sound) (isFirst : Bool) : (c.dispose isFirst).Sound := by
  unfold SerialBrokerClient.dispose SerialBrokerClient.begin
  split
  · exact hc
  · dsimp only
    split
    · refine Sound.of_disposed ?_ disposeNext_isDisposed
      unfold SerialBrokerClient.disposeNext
      split
      · exact hc.toTidy.dispose _ rfl
      · next i _ =>
        split
        · exact hc.toTidy.dispose _ rfl
        · exact (hc.toTidy.dispose (.dispose (.closing i)) rfl).releaseSession
    · exact Sound.of_disposed (hc.toTidy.dispose _ rfl) rfl

/-- A release goes on: it lets its session go, and closes it. -/
theorem Sound.finishRelease (hc : c.Sound) {options : ReleaseOptions} {stage : FinishStage}
    (hcall : c.callOf id = some (.finishRelease i options stage)) :
    (c.finishRelease id i options stage).Sound := by
  have hid := hc.toTidy.lt_nextCall hcall
  have hnotclears : ∀ new old, c.callOf id = some old → old.clears = true →
      ClientCall.clears new = true ∨ c.registered = none := by
    intro new old hold hclears
    rw [hcall] at hold
    cases hold
    cases stage <;> cases hclears
  cases stage with
  | lettingGo =>
    unfold SerialBrokerClient.finishRelease
    dsimp only
    split
    · next hreleased =>
      cases hdisposed : c.isDisposed with
      | true => exact Sound.of_disposed (hc.toTidy.setCall hid (hnotclears _)) hdisposed
      | false =>
        obtain ⟨-, ⟨x, hx, -, hkept⟩, -⟩ := (hc.live hdisposed).releases id _ i hcall rfl
        unfold isReleasedSession at hreleased
        rw [hx, Option.all_some, hkept options rfl] at hreleased
        cases hreleased
    · refine ⟨(hc.toTidy.setCall hid
        (hnotclears (.finishRelease i options .closing))).releaseSession, fun hlive => ?_,
        fun hlive => ?_⟩
      · have hl := hc.live hlive
        obtain ⟨hregistered, -, honce⟩ := hl.releases id _ i hcall rfl
        have hclosing : (c.setCall id (.finishRelease i options .closing)).Live := by
          refine hl.setCall (fun j hj => ?_) nofun
          cases hj
          exact ⟨⟨_, hcall, rfl⟩, nofun⟩
        refine hclosing.adjusted c.isAttached (f := fun x =>
            { x with isReleased := true }) (fun _ => rfl)
          (fun x hx h => hl.joined i x hx h) (fun h => absurd h hregistered) (fun _ _ _ h => h)
            fun n call x hn hreleases _ hover => ?_
        refine ⟨hover, fun options' h => ?_⟩
        rw [callOf_setCall] at hn
        split at hn
        · cases hn
          cases h
        · next hne => exact absurd (honce n call hn hreleases).symm hne
      · refine KeepsActive.adjusted ((hc.active hlive).setCall
            fun old j hold hreleases => ?_) c.isAttached
          (f := fun x => { x with isReleased := true }) (fun _ => rfl) fun _ _ h => Or.inl h
        rw [hcall] at hold
        cases hold
        exact hreleases
  | closing =>
    rw [show c.finishRelease id i options .closing = (c.setCall id
        (.finishRelease i options .closed)).releasedSession i from
      releasedSession_setCall]
    have htidy := (hc.toTidy.setCall hid
      (hnotclears (.finishRelease i options .closed))).releasedSession (i := i)
    cases hdisposed : c.isDisposed with
    | true => exact Sound.of_disposed htidy (releasedSession_isDisposed.trans hdisposed)
    | false =>
      have hl := hc.live hdisposed
      obtain ⟨hregistered, ⟨x, hx, hover, -⟩, honce⟩ := hl.releases id _ i hcall rfl
      have hcalls : ∀ n call j, (c.setCall id (.finishRelease i options .closed)).callOf
          n = some call → call.releases = some j →
          j ≠ i := by
        rintro n call j hn hreleases rfl
        rw [callOf_setCall] at hn
        split at hn
        · cases hn
          cases hreleases
        · next hne => exact absurd (honce n call hn hreleases).symm hne
      rw [releasedSession_eq (c := c.setCall id (.finishRelease i options .closed)) hx] at htidy ⊢
      refine ⟨htidy, fun _ => ?_, fun _ j x' hx' hactive' => ?_⟩
      · have hclosed : (c.setCall id (.finishRelease i options .closed)).Live :=
          hl.setCall nofun nofun
        refine hclosed.adjusted _ (f := fun x =>
            { x with isOver := true }) (fun _ => rfl) (fun x hx h => hl.joined i x hx h)
          (fun h => absurd h hregistered) (fun j hj _ hattached => ?_) fun n call _ hn hreleases =>
            absurd rfl (hcalls n call i hn hreleases)
        -- a session that is on the bus while its release goes on is active, so that no other is
        -- registered
        have hnotJoined : x.isJoined = false := by
          refine Bool.eq_false_iff.mpr fun hjoined => ?_
          have hactive : x.isActive = true := by
            simp [NamedSession.isActive, hl.joined i x hx hjoined, hover]
          rcases hc.active hdisposed i x hx hactive with h | ⟨h, -⟩
          · exact hregistered h
          · rw [show c.registered = some j from hj] at h
            cases h
        rw [hnotJoined, show (c.setCall id (.finishRelease i options .closed)).isAttached = true
          from hattached]
        rfl
      · have hx'' : (c.modifySession i fun x => { x with isOver := true }).session? j = some x' :=
          hx'
        rw [session?_modifySession (f := fun x => { x with isOver := true }) fun _ => rfl] at hx''
        split at hx''
        · obtain ⟨y, -, rfl⟩ := Option.map_eq_some_iff.mp hx''
          simp [NamedSession.isActive] at hactive'
        · next hji =>
          refine (hc.active hdisposed j x' hx'' hactive').imp_right ?_
          rintro ⟨hnone, n, call, hreleasing, hn, hreleases⟩
          refine ⟨hnone, n, call, hreleasing, ?_, hreleases⟩
          have hne : id ≠ n := by
            rintro rfl
            rw [hcall] at hn
            cases hn
            exact hji (Option.some.inj hreleases).symm
          exact callOf_setCall.trans ((if_neg hne).trans hn)
  | closed =>
    unfold SerialBrokerClient.finishRelease
    have hidle : ∀ old, c.callOf id = some old → ¬ old.isVital := by
      intro old hold
      rw [hcall] at hold
      cases hold
      exact ClientCall.not_isVital rfl rfl
    dsimp only
    split
    · exact hc.setCall hid hidle (ClientCall.not_isVital rfl rfl) nofun
    · exact hc.endCall hidle
  | forgettingDevice =>
    refine hc.endCall fun old hold => ?_
    rw [hcall] at hold
    cases hold
    exact ClientCall.not_isVital rfl rfl

/-- `dispose()` goes on: it clears once nothing is to be taken down. -/
theorem Sound.disposeOn (hc : c.Sound) {stage : DisposeStage}
    (hcall : c.callOf id = some (.dispose stage))
    (h : c.disposeOn id stage = some c') : c'.Sound := by
  have hid := hc.toTidy.lt_nextCall hcall
  have hdisposed : c.isDisposed = true := by
    by_contra hlive
    exact (hc.live (Bool.eq_false_iff.mpr hlive)).usable id stage hcall
  cases stage with
  | others =>
    cases h
    exact Sound.of_disposed (hc.toTidy.disposeNext hid) (disposeNext_isDisposed.trans hdisposed)
  | closing i =>
    cases h
    rw [releasedSession_setCall]
    exact Sound.of_disposed (hc.toTidy.setCall hid fun _ _ _ => Or.inl rfl).releasedSession
      (releasedSession_isDisposed.trans hdisposed)
  | clearing =>
    cases h
    have hcleared : Tidy { c with registered := none } := by
      refine ⟨hc.distinct, hc.numbered, hc.fresh, hc.one, fun i rest hi => ?_, fun _ h =>
        absurd rfl h⟩
      obtain ⟨hrest, hidle, -, -⟩ := hc.remembering i rest hi
      exact ⟨hrest, hidle, nofun, Or.inr (Or.inr hdisposed)⟩
    exact Sound.of_disposed (hcleared.setCall hid fun _ _ _ => Or.inr rfl) hdisposed
  | holds =>
    cases h
    refine Sound.of_disposed (hc.toTidy.setCall hid fun old hold hclears => ?_) hdisposed
    rw [hcall] at hold
    cases hold
    cases hclears
  | awaiting releasing =>
    unfold SerialBrokerClient.disposeOn at h
    dsimp only at h
    split at h
    · cases h
    · cases h
      refine Sound.of_disposed ?_ hdisposed
      have hended : (c.endCall id).Tidy := hc.toTidy.endCall fun old hold => by
        rw [hcall] at hold
        cases hold
        rfl
      exact ⟨hended.distinct, hended.numbered, hended.fresh, hended.one, hended.remembering,
        hended.disposing⟩

/-! ### the runs -/

/-- A `setup()` that waited for a release goes on, and would set up a new session: no session is
active. -/
def setsUpAlone (c : SerialBrokerClient) : ClientEvent → Bool
  | .goOn id =>
    match c.callOf id with
    | some (.setup setupCall _) =>
      c.registered.isSome || c.isDisposed || !setupCall.isSupported || c.sessions.all
        fun x => !x.isActive
    | _ => true
  | _ => true

theorem Sound.goOn (hc : c.Sound) (halone : c.setsUpAlone (.goOn id) = true)
    (hremembering : c.remembering = [])
    (h : c.goOn id = some c') : c'.Sound := by
  obtain ⟨⟨id', call⟩, hlookup, h⟩ := Option.bind_eq_some_iff.mp h
  have hcall : c.callOf id = some call := by
    unfold callOf
    rw [hlookup]
    rfl
  have hid := hc.toTidy.lt_nextCall hcall
  have hidle : ¬ call.isVital → ∀ old, c.callOf id = some old → ¬ old.isVital := by
    intro hidle old hold
    rw [hcall] at hold
    cases hold
    exact hidle
  cases call with
  | setup setupCall releasing =>
    simp only at h
    split at h
    · cases h
    · cases h
      have hended :
          ({ c.endCall id with isSetUpDuringRelease := false } : SerialBrokerClient).Sound :=
        (hc.endCall (hidle (ClientCall.not_isVital rfl rfl))).marked false
      split
      · exact hended
      · next hdisposed =>
        refine hended.setUp (Bool.eq_false_iff.mpr hdisposed) (fun h => absurd hremembering h)
          fun hnone hsupported i x hx => ?_
        have hsession : x ∈ c.sessions := KeyedList.mem_of_lookup hx
        have hregistered : c.registered = none := hnone
        have hlive : c.isDisposed = false := Bool.eq_false_iff.mpr hdisposed
        simp only [setsUpAlone, hcall, hregistered, hlive, hsupported, Option.isSome_none,
          Bool.not_true, Bool.or_false, Bool.false_or,
          List.all_eq_true, Bool.not_eq_true'] at halone
        exact halone x hsession
  | finishRelease i options stage =>
    cases h
    exact hc.finishRelease hcall
  | release releasing =>
    simp only at h
    split at h
    · cases h
    · next hover =>
      cases h
      have hended := hc.endCall (hidle (ClientCall.not_isVital rfl rfl))
      refine ⟨⟨hended.distinct, hended.numbered, hended.fresh, hended.one,
        fun i rest hi => ?_, hended.disposing⟩, fun hlive => ?_, fun hlive => ?_⟩
      · rw [show c.remembering = i :: rest from hi] at hremembering
        cases hremembering
      · have hl := hended.live hlive
        exact ⟨hl.joined, hl.registered, hl.releases, hl.usable⟩
      · intro i x hx hactive
        refine (hended.active hlive i x hx hactive).imp_right ?_
        rintro ⟨hnone, n, call, hreleasing, hn, hreleases⟩
        have hreleasing' : c.releasing = some n := hreleasing
        refine ⟨hnone, n, call, (if_neg fun hsame => ?_).trans hreleasing', hn, hreleases⟩
        obtain rfl : n = releasing := Option.some.inj (hreleasing'.symm.trans hsame)
        rw [callOf_endCall] at hn
        split at hn
        · cases hn
        · exact hover (isPending_of_callOf hn)
  | releaseAgain options releasing =>
    simp only at h
    split at h
    · cases h
    · cases h
      exact hc.releaseAs ⟨hid, hidle (ClientCall.not_isVital rfl rfl)⟩ options
  | forgetAsAsked options releasing =>
    simp only at h
    split at h
    · cases h
    · cases h
      exact hc.endCall (hidle (ClientCall.not_isVital rfl rfl))
  | releaseAll options =>
    cases h
    exact hc.releaseNext ⟨hid, hidle (ClientCall.not_isVital rfl rfl)⟩ options
  | releasedAll release =>
    simp only at h
    split at h
    · cases h
    · cases h
      exact hc.setCall hid (hidle (ClientCall.not_isVital rfl rfl))
        (ClientCall.not_isVital rfl rfl) nofun
  | awaitAll releasing =>
    simp only at h
    split at h
    · cases h
    · cases h
      exact hc.endCall (hidle (ClientCall.not_isVital rfl rfl))
  | dispose stage => exact hc.disposeOn hcall h

theorem Sound.step (hc : c.Sound) {e : ClientEvent} (halone : c.setsUpAlone e = true)
    (h : c.step e = some c') : c'.Sound := by
  cases e with
  | setup setupCall =>
    cases h
    exact hc.setup setupCall
  | release options =>
    cases h
    exact hc.begun.releaseAs hc.toTidy.isFree_begun options
  | releaseAll options isFirst =>
    cases h
    exact hc.releaseAll options isFirst
  | dispose isFirst =>
    cases h
    exact hc.dispose isFirst
  | remembered => exact hc.remembered h
  | goOn id =>
    simp only [SerialBrokerClient.step] at h
    split at h
    · next hremembering => exact hc.goOn halone hremembering h
    · cases h
  | placeGranted i =>
    simp only [SerialBrokerClient.step] at h
    split at h
    · next hgranted =>
      cases h
      refine hc.join fun x hx => ?_
      have hstarted := hgranted.2
      rw [hx, Option.any_some, decide_eq_true_iff] at hstarted
      exact hstarted.1
    · cases h

def setupCall : ClientEvent := .setup ⟨false, true⟩
end SerialBrokerClient
end SerialBroker
