import Mathlib.Algebra.Order.Floor.Ring
import Mathlib.Data.Rat.Floor
import Mathlib.Tactic.Linarith
import Mathlib.Tactic.Ring
import SerialBroker.Lib.TransitionSystem

/-!
# The rate limit

`RateLimiter` of `core/rate-limit.ts`, a token bucket, over rational numbers. The clock is read once
in each call, and what it reads is an argument here. In a run of calls whose clock values do not
decrease, no window of time sees more successful takes than the burst and what came back during the
window, and a take succeeds once the delay that `delayUntilAllowed` stated has gone by.
-/

namespace SerialBroker

/-- A limit allows at least one at once, and some of the allowance comes back. -/
structure RateLimit where
  burst : ℚ
  perSecond : ℚ
  one_le_burst : 1 ≤ burst
  perSecond_pos : 0 < perSecond

structure RateLimiter where
  tokens : ℚ
  refilledAt : ℚ

namespace RateLimiter

variable (limit : RateLimit)

def new (now : ℚ) : RateLimiter := ⟨limit.burst, now⟩

def refill (r : RateLimiter) (now : ℚ) : RateLimiter :=
  let elapsedMs := max 0 (now - r.refilledAt)
  { tokens := min limit.burst (r.tokens + elapsedMs / 1000 * limit.perSecond), refilledAt := now }

def take (r : RateLimiter) (now : ℚ) : RateLimiter × Bool :=
  let r := r.refill limit now
  if r.tokens < 1 then (r, false) else ({ r with tokens := r.tokens - 1 }, true)

def delayUntilAllowed (r : RateLimiter) (now : ℚ) : RateLimiter × ℤ :=
  let r := r.refill limit now
  if 1 ≤ r.tokens then (r, 0) else (r, ⌈(1 - r.tokens) / limit.perSecond * 1000⌉)

end RateLimiter

/-- A limiter, and when a take from it succeeded. -/
structure LimiterRun where
  limiter : RateLimiter
  taken : List ℚ

inductive LimiterCall
  | take (now : ℚ)
  | delayUntilAllowed (now : ℚ)

/-- What the clock reads in the call. -/
def LimiterCall.now : LimiterCall → ℚ
  | .take now => now
  | .delayUntilAllowed now => now

/-- The calls of a limiter made at `start`, by a clock that never goes back. -/
def limiterRuns (limit : RateLimit) (start : ℚ) : TransitionSystem LimiterRun LimiterCall where
  init := ⟨.new limit start, []⟩
  step s call :=
    if s.limiter.refilledAt ≤ call.now then
      match call with
      | .take now =>
        let result := s.limiter.take limit now
        some ⟨result.1, if result.2 then s.taken ++ [now] else s.taken⟩
      | .delayUntilAllowed now => some ⟨(s.limiter.delayUntilAllowed limit now).1, s.taken⟩
    else none

/-- How many of these times are in a window. -/
def takenIn (taken : List ℚ) (first last : ℚ) : ℕ := taken.countP fun t => first ≤ t ∧ t ≤ last

/-- No window of time has more successful takes than the burst and what came back during it. -/
def WithinRate (limit : RateLimit) (taken : List ℚ) : Prop :=
  ∀ first last : ℚ, first ≤ last →
    takenIn taken first last ≤ limit.burst + (last - first) * limit.perSecond / 1000

/-! ### windows -/

variable {limit : RateLimit} {taken : List ℚ} {first last now : ℚ}

theorem takenIn_of_past (hpast : ∀ t ∈ taken, t ≤ now) (hlast : now ≤ last) :
    takenIn taken first last = takenIn taken first now := by
  refine List.countP_congr fun t ht => ?_
  simp only [decide_eq_true_eq, and_congr_right_iff]
  exact fun _ => ⟨fun _ => hpast t ht, fun _ => (hpast t ht).trans hlast⟩

theorem takenIn_concat :
    takenIn (taken ++ [now]) first last = takenIn taken first last + if first ≤ now ∧
    now ≤ last then 1 else 0 := by
  simp only [takenIn, List.countP_append, List.countP_cons, List.countP_nil, decide_eq_true_eq,
    Nat.zero_add]

theorem takenIn_eq_zero (hpast : ∀ t ∈ taken, t < first) : takenIn taken first last = 0 := by
  refine List.countP_eq_zero.mpr fun t ht h => ?_
  exact absurd (of_decide_eq_true h).1 (not_le.mpr (hpast t ht))

/-! ### what a limiter owes -/

/-- The allowance left and the takes of every window up to now are paid for by the burst and by what
came back. -/
structure LimiterRun.Sound (s : LimiterRun) (limit : RateLimit) : Prop where
  tokens_nonneg : 0 ≤ s.limiter.tokens
  tokens_le : s.limiter.tokens ≤ limit.burst
  past : ∀ t ∈ s.taken, t ≤ s.limiter.refilledAt
  spent : ∀ first ≤ s.limiter.refilledAt, takenIn s.taken first s.limiter.refilledAt +
      s.limiter.tokens ≤
    limit.burst + (s.limiter.refilledAt - first) * limit.perSecond / 1000
  withinRate : WithinRate limit s.taken

variable (limit) in
/-- What came back over a span of time. -/
theorem back_nonneg (h : first ≤ last) : 0 ≤ (last - first) * limit.perSecond / 1000 :=
  div_nonneg (mul_nonneg (sub_nonneg.mpr h) limit.perSecond_pos.le) (by norm_num)

variable (limit) in
theorem RateLimiter.refill_tokens {r : RateLimiter} (h : r.refilledAt ≤ now) :
    (r.refill limit now).tokens = min limit.burst
    (r.tokens + (now - r.refilledAt) * limit.perSecond / 1000) := by
  simp only [RateLimiter.refill, max_eq_right (sub_nonneg.mpr h)]
  congr 2
  ring

namespace LimiterRun

variable {s s' : LimiterRun} {start : ℚ}

theorem sound_init : (limiterRuns limit start).init.Sound limit where
  tokens_nonneg := zero_le_one.trans limit.one_le_burst
  tokens_le := le_refl _
  past _ h := absurd h List.not_mem_nil
  spent first hfirst := by
    have hback := back_nonneg limit hfirst
    simp only [limiterRuns, RateLimiter.new, takenIn, List.countP_nil, Nat.cast_zero,
      zero_add] at hback ⊢
    linarith
  withinRate first last hlast := by
    have hback := back_nonneg limit hlast
    have hburst := limit.one_le_burst
    simp only [limiterRuns, takenIn, List.countP_nil, Nat.cast_zero]
    linarith

theorem Sound.refill (hs : s.Sound limit) (hnow : s.limiter.refilledAt ≤ now) :
    (⟨s.limiter.refill limit now, s.taken⟩ : LimiterRun).Sound limit := by
  have htokens := RateLimiter.refill_tokens limit hnow
  have hback := back_nonneg limit hnow
  have hle := min_le_right limit.burst (s.limiter.tokens + (now - s.limiter.refilledAt) *
    limit.perSecond / 1000)
  refine ⟨?_, ?_, fun t ht => (hs.past t ht).trans hnow, fun first hfirst => ?_, hs.withinRate⟩
  · rw [htokens]
    exact le_min (zero_le_one.trans limit.one_le_burst) (add_nonneg hs.tokens_nonneg hback)
  · rw [htokens]
    exact min_le_left _ _
  · simp only [RateLimiter.refill] at hfirst htokens ⊢
    rw [htokens]
    obtain hbefore | hafter := le_or_gt first s.limiter.refilledAt
    · have hspent := hs.spent first hbefore
      rw [takenIn_of_past hs.past hnow]
      have hsplit : (now - first) * limit.perSecond / 1000 =
          (s.limiter.refilledAt - first) * limit.perSecond / 1000 + (now - s.limiter.refilledAt) *
            limit.perSecond / 1000 := by ring
      linarith
    · rw [takenIn_eq_zero fun t ht => (hs.past t ht).trans_lt hafter]
      have hcapped := min_le_left limit.burst (s.limiter.tokens + (now - s.limiter.refilledAt) *
        limit.perSecond / 1000)
      have hrest := back_nonneg limit hfirst
      simp only [Nat.cast_zero, zero_add]
      linarith

/-- A token is spent at the moment the limiter was refilled. -/
theorem Sound.spend (hs : s.Sound limit) (hone : 1 ≤ s.limiter.tokens) :
    (⟨{ s.limiter with tokens := s.limiter.tokens - 1 },
      s.taken ++ [s.limiter.refilledAt]⟩ : LimiterRun).Sound limit := by
  refine ⟨sub_nonneg.mpr hone, ?_, fun t ht => ?_, fun first hfirst => ?_,
    fun first last hlast => ?_⟩
  · have hcapped := hs.tokens_le
    simp only []
    linarith
  · obtain ht | ht := List.mem_append.mp ht
    · exact hs.past t ht
    · rw [List.mem_singleton.mp ht]
  · have hspent := hs.spent first hfirst
    rw [takenIn_concat, if_pos ⟨hfirst, le_refl _⟩]
    push_cast
    linarith
  · rw [takenIn_concat]
    have hwithin := hs.withinRate first last hlast
    split
    · next hin =>
      have hspent := hs.spent first hin.1
      have hrest := back_nonneg limit hin.2
      have hsplit : (last - first) * limit.perSecond / 1000 =
          (s.limiter.refilledAt - first) * limit.perSecond / 1000 + (last - s.limiter.refilledAt) *
            limit.perSecond / 1000 := by ring
      rw [takenIn_of_past hs.past hin.2]
      push_cast
      linarith
    · push_cast
      linarith

theorem step_take (hstep : (limiterRuns limit start).step s (.take now) = some s') :
    s.limiter.refilledAt ≤ now ∧
      s' = ⟨(s.limiter.take limit now).1, if (s.limiter.take limit now).2 then s.taken ++ [now]
        else s.taken⟩ := by
  obtain ⟨hnow, hstep⟩ := Option.ite_none_right_eq_some.mp hstep
  exact ⟨hnow, (Option.some.inj hstep).symm⟩

theorem step_delayUntilAllowed
    (hstep : (limiterRuns limit start).step s (.delayUntilAllowed now) = some s') :
    s.limiter.refilledAt ≤ now ∧ s' = ⟨(s.limiter.delayUntilAllowed limit now).1, s.taken⟩ := by
  obtain ⟨hnow, hstep⟩ := Option.ite_none_right_eq_some.mp hstep
  exact ⟨hnow, (Option.some.inj hstep).symm⟩

end LimiterRun

namespace RateLimiter

variable {r : RateLimiter}

theorem take_of_lt (h : (r.refill limit now).tokens < 1) :
    r.take limit now = (r.refill limit now, false) := if_pos h

theorem take_of_le (h : 1 ≤ (r.refill limit now).tokens) :
    r.take limit now = ({ r.refill limit now with
    tokens := (r.refill limit now).tokens - 1 }, true) := if_neg (not_lt.mpr h)

variable (limit now) in
theorem refill_nonneg (h : 0 ≤ r.tokens) : 0 ≤ (r.refill limit now).tokens := by
  refine le_min (zero_le_one.trans limit.one_le_burst) (add_nonneg h ?_)
  exact mul_nonneg (div_nonneg (le_max_left _ _) (by norm_num)) limit.perSecond_pos.le

variable (limit now) in
theorem take_nonneg (h : 0 ≤ r.tokens) : 0 ≤ (r.take limit now).1.tokens := by
  obtain hfew | hone := lt_or_ge (r.refill limit now).tokens 1
  · rw [take_of_lt hfew]
    exact refill_nonneg limit now h
  · rw [take_of_le hone]
    exact sub_nonneg.mpr hone

theorem delayUntilAllowed_fst : (r.delayUntilAllowed limit now).1 = r.refill limit now := by
  unfold delayUntilAllowed
  simp only []
  split
  · rfl
  · rfl

end RateLimiter

namespace LimiterRun

variable {s s' : LimiterRun} {start : ℚ}

theorem Sound.step (hs : s.Sound limit) {call : LimiterCall}
    (hstep : (limiterRuns limit start).step s call = some s') :
    s'.Sound limit := by
  cases call with
  | take now =>
    obtain ⟨hnow, hafter⟩ := step_take hstep
    have hrefilled := hs.refill hnow
    obtain hfew | hone := lt_or_ge (s.limiter.refill limit now).tokens 1
    · rw [RateLimiter.take_of_lt hfew] at hafter
      rw [hafter]
      exact hrefilled
    · rw [RateLimiter.take_of_le hone] at hafter
      rw [hafter]
      exact hrefilled.spend hone
  | delayUntilAllowed now =>
    obtain ⟨hnow, hafter⟩ := step_delayUntilAllowed hstep
    rw [RateLimiter.delayUntilAllowed_fst] at hafter
    rw [hafter]
    exact hs.refill hnow

theorem sound_of_run {calls : List LimiterCall}
    (hrun : (limiterRuns limit start).run calls = some s) : s.Sound limit :=
  TransitionSystem.run_invariant_all (T := limiterRuns limit start) (P := fun s =>
      s.Sound limit) sound_init
    (fun _ _ _ hs hstep => hs.step hstep) hrun

end LimiterRun

/-! ### the delay until a take succeeds -/

namespace RateLimiter

variable {r : RateLimiter} {due : ℚ}

/-- A take at `due` or later succeeds, if none comes before it. -/
def AllowsFrom (limit : RateLimit) (r : RateLimiter) (due : ℚ) : Prop :=
  1 ≤ r.tokens ∨ 1 ≤ r.tokens + (due - r.refilledAt) * limit.perSecond / 1000

theorem AllowsFrom.refill (h : r.AllowsFrom limit due) (hnow : r.refilledAt ≤ now) :
    (r.refill limit now).AllowsFrom limit due := by
  have htokens := refill_tokens limit hnow
  have hback := back_nonneg limit hnow
  unfold AllowsFrom
  rw [htokens]
  obtain hfull | hbelow :=
    min_choice limit.burst (r.tokens + (now - r.refilledAt) * limit.perSecond / 1000)
  · exact Or.inl (hfull.symm ▸ limit.one_le_burst)
  · rw [hbelow]
    obtain hone | hdue := h
    · exact Or.inl (hone.trans (le_add_of_nonneg_right hback))
    · refine Or.inr (hdue.trans_eq ?_)
      simp only [RateLimiter.refill]
      ring

theorem AllowsFrom.take (h : r.AllowsFrom limit now) (hnow : r.refilledAt ≤ now) :
    (r.take limit now).2 = true := by
  have hone : 1 ≤ (r.refill limit now).tokens := by
    obtain hone | hdue := h.refill hnow
    · exact hone
    · simpa [RateLimiter.refill] using hdue
  rw [take_of_le hone]

theorem delayUntilAllowed_allows (hdue : now + (r.delayUntilAllowed limit now).2 ≤ due) :
    (r.delayUntilAllowed limit now).1.AllowsFrom limit due := by
  rw [delayUntilAllowed_fst]
  unfold delayUntilAllowed at hdue
  simp only [] at hdue
  split at hdue
  · next hone => exact Or.inl hone
  · refine Or.inr ?_
    have hceil := Int.le_ceil ((1 - (r.refill limit now).tokens) / limit.perSecond * 1000)
    have hwait : (1 - (r.refill limit now).tokens) / limit.perSecond * 1000 ≤
      due - now := by linarith
    have hpos := limit.perSecond_pos
    have hmissing : 1 - (r.refill limit now).tokens ≤ (due - now) * limit.perSecond / 1000 := by
      rw [div_mul_eq_mul_div, div_le_iff₀ hpos] at hwait
      rw [le_div_iff₀ (by norm_num)]
      exact hwait
    rw [show (r.refill limit now).refilledAt = now from rfl]
    linarith

end RateLimiter

namespace LimiterRun

variable {s s' : LimiterRun} {start due : ℚ}

theorem allowsFrom_of_asks {asks : List ℚ} (hallows : s.limiter.AllowsFrom limit due)
    (hasks : (limiterRuns limit start).runFrom s (asks.map .delayUntilAllowed) = some s') :
    s'.limiter.AllowsFrom limit due := by
  induction asks generalizing s with
  | nil => exact Option.some.inj hasks ▸ hallows
  | cons ask asks ih =>
    obtain ⟨t, hstep, hasks⟩ := Option.bind_eq_some_iff.mp hasks
    obtain ⟨hnow, hafter⟩ := step_delayUntilAllowed hstep
    rw [RateLimiter.delayUntilAllowed_fst] at hafter
    refine ih ?_ hasks
    rw [hafter]
    exact hallows.refill hnow

/-- A take succeeds once the delay stated to somebody has gone by, unless another take came
between. -/
def StarvesNobody (limit : RateLimit) (start : ℚ) (s : LimiterRun) : Prop :=
  ∀ (now later : ℚ) (s₁ s₂ s₃ : LimiterRun) (asks : List ℚ),
    (limiterRuns limit start).step s (.delayUntilAllowed now) = some s₁ →
    (limiterRuns limit start).runFrom s₁ (asks.map .delayUntilAllowed) = some s₂ →
    now + (s.limiter.delayUntilAllowed limit now).2 ≤ later →
    (limiterRuns limit start).step s₂ (.take later) = some s₃ → s₃.taken = s₂.taken ++ [later]

theorem starvesNobody (s : LimiterRun) : s.StarvesNobody limit start := by
  intro now later s₁ s₂ s₃ asks hdelay hasks hlater htake
  have hallows : s₁.limiter.AllowsFrom limit later := by
    rw [(step_delayUntilAllowed hdelay).2]
    exact RateLimiter.delayUntilAllowed_allows hlater
  obtain ⟨hnow, htaken⟩ := step_take htake
  have hsucceeds := (allowsFrom_of_asks hallows hasks).take hnow
  rw [htaken, hsucceeds]
  rfl

end LimiterRun

end SerialBroker
