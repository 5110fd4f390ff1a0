import FlowProbe.Time.WindowClock
import Mathlib.Data.List.Chain

/-! The runs of a window's clock.

Ticks move a clock: events that it observes, polls, which open the next window if the present
one is over, and restarts, which open it at once. Polls alone keep their distance: whatever the
times that are observed, also those that jump back, a window that was opened at a time closes an
interval later or not at all, so the closings are an interval apart (`isChain_closings`).

A restart opens a window at the latest event, and before the first event that is time zero. So
the first event opens the window only if no restart came before it, and otherwise ends the window
of time zero unless it is within an interval of it (`isDue_first_iff`). -/
namespace FlowProbe.WindowClock

/-- Opens the next window if the present one is over. -/
def poll (c : WindowClock) : WindowClock := if c.isDue then c.restart else c

inductive Tick where
  | observe (time : Nanos)
  | poll
  | restart
  deriving DecidableEq, Repr

/-- The time that a tick brings. -/
def Tick.time? : Tick → Option Nanos
  | .observe time => some time
  | .poll | .restart => none

def step (c : WindowClock) : Tick → WindowClock
  | .observe time => c.observe time
  | .poll => c.poll
  | .restart => c.restart

def run (c : WindowClock) : List Tick → WindowClock
  | [] => c
  | tick :: rest => run (c.step tick) rest

/-- When a tick closes a window because it is over. -/
def closing? (c : WindowClock) : Tick → Option Nanos
  | .poll => if c.isDue then some c.latest else none
  | .observe _ | .restart => none

/-- When the windows of a run are closed because they are over. -/
def closings (c : WindowClock) : List Tick → List Nanos
  | [] => []
  | tick :: rest => (c.closing? tick).toList ++ closings (c.step tick) rest

/-- Whether `b` is an interval behind `a` or more. -/
def Apart (interval a b : Nanos) : Prop := a.toNat + interval.toNat ≤ b.toNat

instance (interval a b : Nanos) : Decidable (Apart interval a b) :=
  inferInstanceAs (Decidable (a.toNat + interval.toNat ≤ b.toNat))

theorem Apart.lt {interval a b : Nanos} (hpos : 0 < interval) (h : Apart interval a b) : a < b := by
  rw [UInt64.lt_iff_toNat_lt, UInt64.toNat_zero] at hpos
  rw [UInt64.lt_iff_toNat_lt]
  exact Nat.lt_of_lt_of_le (Nat.lt_add_of_pos_right hpos) h

/-- Times that are apart from one to the next increase. -/
theorem pairwise_lt_of_isChain {interval : Nanos} (hpos : 0 < interval) {times : List Nanos}
    (h : times.IsChain (Apart interval)) : times.Pairwise (· < ·) := by
  have : @Trans Nanos Nanos Nanos (· < ·) (· < ·) (· < ·) := ⟨UInt64.lt_trans⟩
  exact (h.imp fun _ _ h => h.lt hpos).pairwise

/-! ### When a window is over -/

theorem isDue_iff {c : WindowClock} : c.isDue = true ↔
    ∃ start, c.opened = some start ∧ c.interval.toNat ≤ c.latest.toNat - start.toNat := by
  rw [isDue]
  cases c.opened with
  | none => simp
  | some start =>
    simp only [decide_eq_true_eq, UInt64.le_iff_toNat_le, Nanos.toNat_elapsed, Option.some.injEq,
      exists_eq_left']

/-- An interval that is not empty cannot have passed while the time went back. -/
theorem apart_of_isDue {c : WindowClock} (hpos : 0 < c.interval) (hdue : c.isDue = true)
    {start : Nanos} (hopened : c.opened = some start) : Apart c.interval start c.latest := by
  obtain ⟨start', hstart, hpassed⟩ := isDue_iff.1 hdue
  rw [hopened, Option.some.injEq] at hstart
  subst hstart
  rw [UInt64.lt_iff_toNat_lt, UInt64.toNat_zero] at hpos
  rw [Apart]
  omega

/-- Closing a window that is over moves the clock. -/
theorem restart_ne_of_isDue {c : WindowClock} (hpos : 0 < c.interval) (hdue : c.isDue = true) :
    c.restart ≠ c := by
  obtain ⟨start, hopened, -⟩ := isDue_iff.1 hdue
  have hlt := (apart_of_isDue hpos hdue hopened).lt hpos
  intro hsame
  have hlatest : c.restart.opened = some c.latest := rfl
  rw [hsame, hopened, Option.some.injEq] at hlatest
  exact UInt64.ne_of_lt hlt hlatest

theorem isDue_of_opened {c : WindowClock} (h : c.opened = none) : c.isDue = false := by
  rw [isDue, h]

theorem isDue_restart_of_pos {c : WindowClock} (hpos : 0 < c.interval) :
    c.restart.isDue = false := by
  rw [isDue_restart, decide_eq_false_iff_not]
  rintro hzero
  exact absurd (hzero ▸ hpos) (by decide)

theorem poll_of_isDue {c : WindowClock} (h : c.isDue = false) : c.poll = c := by
  rw [poll, h]
  rfl

/-- No window is over right after a poll. -/
theorem isDue_poll {c : WindowClock} (hpos : 0 < c.interval) : c.poll.isDue = false := by
  cases hdue : c.isDue with
  | true =>
    rw [poll, if_pos hdue]
    exact isDue_restart_of_pos hpos
  | false => rw [poll_of_isDue hdue, hdue]

@[simp] theorem interval_poll (c : WindowClock) : c.poll.interval = c.interval := by
  rw [poll]
  split <;> rfl

@[simp] theorem interval_step (c : WindowClock) (tick : Tick) :
    (c.step tick).interval = c.interval := by
  cases tick with
  | observe | restart => rfl
  | poll => exact c.interval_poll

@[simp] theorem interval_run (c : WindowClock) (ticks : List Tick) :
    (c.run ticks).interval = c.interval := by
  induction ticks generalizing c with
  | nil => rfl
  | cons tick rest ih => rw [run, ih, interval_step]

/-! ### Closings -/

/-- Without restarts, the opening of the present window and the closings from it on are an
interval apart. -/
theorem isChain_closings_opened {c : WindowClock} (hpos : 0 < c.interval) {start : Nanos}
    (hopened : c.opened = some start) {ticks : List Tick} (h : .restart ∉ ticks) :
    (start :: c.closings ticks).IsChain (Apart c.interval) := by
  induction ticks generalizing c start with
  | nil => exact .singleton start
  | cons tick rest ih =>
    rw [List.mem_cons, not_or] at h
    have hnext (next : Nanos) (hnext : (c.step tick).opened = some next) :
        (next :: (c.step tick).closings rest).IsChain (Apart c.interval) := by
      have hrest := ih (by rwa [interval_step]) hnext h.2
      rwa [interval_step] at hrest
    rw [closings]
    cases tick with
    | observe time => exact hnext start (by rw [step, observe, hopened]; rfl)
    | restart => exact absurd rfl h.1
    | poll =>
      rw [closing?]
      cases hdue : c.isDue with
      | false =>
        refine hnext start ?_
        rw [step, poll_of_isDue hdue]
        exact hopened
      | true =>
        -- the window closes at the latest event, where the next one opens
        refine List.isChain_cons_cons.2 ⟨apart_of_isDue hpos hdue hopened, hnext c.latest ?_⟩
        rw [step, poll, if_pos hdue]
        rfl

/-- Without restarts, the first time observed by a clock without a window and the closings are an
interval apart, and without a time there is no closing. -/
theorem isChain_closings {c : WindowClock} (hpos : 0 < c.interval) (hopened : c.opened = none)
    {ticks : List Tick} (h : .restart ∉ ticks) :
    ((ticks.filterMap Tick.time?).head?.toList ++ c.closings ticks).IsChain (Apart c.interval) ∧
      (ticks.filterMap Tick.time? = [] → c.closings ticks = []) := by
  induction ticks with
  | nil => exact ⟨.nil, fun _ => rfl⟩
  | cons tick rest ih =>
    rw [List.mem_cons, not_or] at h
    cases tick with
    | observe time =>
      have hstart : (c.observe time).opened = some time := by rw [observe, hopened]; rfl
      exact ⟨isChain_closings_opened (c := c.observe time) hpos hstart h.2, nofun⟩
    | restart => exact absurd rfl h.1
    | poll =>
      have hdue := isDue_of_opened hopened
      have hclosings : c.closings (.poll :: rest) = c.closings rest := by
        rw [closings, closing?, hdue, step, poll_of_isDue hdue]
        rfl
      rw [hclosings]
      exact ih h.2

/-- Where no time comes in, a clock that is not due closes no window. -/
theorem closings_of_unobserved {c : WindowClock} (hpos : 0 < c.interval) (hdue : c.isDue = false)
    {ticks : List Tick} (h : ticks.filterMap Tick.time? = []) : c.closings ticks = [] := by
  induction ticks generalizing c with
  | nil => rfl
  | cons tick rest ih =>
    cases tick with
    | observe time => cases h
    | poll =>
      rw [closings, closing?, hdue, step, poll_of_isDue hdue]
      exact ih hpos hdue h
    | restart => exact ih (c := c.restart) hpos (isDue_restart_of_pos hpos) h

/-! ### The first event -/

/-- Before its first event, a clock whose window is open stays as it is. -/
theorem run_restart_of_unobserved {c : WindowClock} (hpos : 0 < c.interval) {ticks : List Tick}
    (h : ticks.filterMap Tick.time? = []) : c.restart.run ticks = c.restart := by
  induction ticks with
  | nil => rfl
  | cons tick rest ih =>
    cases tick with
    | observe time => cases h
    | poll =>
      rw [run, step, poll_of_isDue (isDue_restart_of_pos hpos)]
      exact ih h
    | restart => exact ih h

/-- Before its first event, a restart is all that opens a window. -/
theorem run_of_unobserved {c : WindowClock} (hpos : 0 < c.interval) (hopened : c.opened = none)
    {ticks : List Tick} (h : ticks.filterMap Tick.time? = []) :
    c.run ticks = if .restart ∈ ticks then c.restart else c := by
  induction ticks with
  | nil => rfl
  | cons tick rest ih =>
    cases tick with
    | observe time => cases h
    | poll =>
      rw [run, step, poll_of_isDue (isDue_of_opened hopened), ih h]
      simp
    | restart =>
      have hrest : rest.filterMap Tick.time? = [] := h
      rw [run, step, run_restart_of_unobserved hpos hrest]
      simp

/-- A new clock's first event ends a window exactly if a restart came before it and its time is
an interval or more. -/
theorem isDue_first_iff {interval : Nanos} (hpos : 0 < interval) {ticks : List Tick}
    (h : ticks.filterMap Tick.time? = []) (time : Nanos) :
    (((mk interval none 0).run ticks).observe time).isDue = true ↔
      .restart ∈ ticks ∧ interval ≤ time := by
  rw [run_of_unobserved hpos rfl h, isDue_iff]
  have hpos' : 0 < interval.toNat := by simpa [UInt64.lt_iff_toNat_lt] using hpos
  split
  · next hrestart =>
    simp [hrestart, observe, restart, UInt64.le_iff_toNat_le]
  · next hrestart =>
    simp only [hrestart, false_and, iff_false, not_exists, not_and, observe]
    rintro start ⟨⟩
    omega

end FlowProbe.WindowClock
