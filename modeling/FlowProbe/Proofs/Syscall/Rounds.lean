import FlowProbe.Proofs.Syscall.Sweep
import Mathlib.Data.Nat.Find

/-! Sweeping in rounds.

A map has no order that anyone may rely on, so a sweep comes to the overdue calls in any order.
Where its output has room for all of them it takes them as they come; only where there are too
many it puts them in order and takes the first ones. Either way the calls that go are the first
in order (`perm_taken`), so the calls that are left are the same for every order, and so are the
records, each in an order of its own (`Same.sweepInto`). A round is such a sweep with room for a
call at least. Every round that takes any leaves fewer, what the rounds took and what is overdue
after them are what was overdue before them (`perm_gone`), and so they come to an end where one
sweep without a limit would have been (`sweeps_in_rounds`). -/
namespace FlowProbe.SyscallTracker

/-! ### The same calls in any order -/

/-- The same tracker, but for the order of its calls. -/
structure Same (t u : SyscallTracker) : Prop where
  threshold : t.threshold = u.threshold
  timeout : t.timeout = u.timeout
  calls : t.calls.Same u.calls

theorem equivalence_same : Equivalence Same where
  refl _ := ⟨rfl, rfl, .refl _⟩
  symm h := ⟨h.threshold.symm, h.timeout.symm, h.calls.symm⟩
  trans h h' := ⟨h.threshold.trans h'.threshold, h.timeout.trans h'.timeout,
    h.calls.trans h'.calls⟩

theorem same_reorder (t : SyscallTracker) (order : Keyed UInt32 Syscall) :
    (t.reorder order).Same t :=
  ⟨rfl, rfl, t.perm_reorder order⟩

section Same

variable {t u : SyscallTracker} (h : t.Same u) (now : Nanos)
include h

theorem Same.perm_overdue : (t.overdue now).Perm (u.overdue now) := by
  simp only [overdue, isOverdue, h.timeout]
  exact (List.Perm.filter _ h.calls).map _

theorem Same.timedOut_eq : t.timedOut now = u.timedOut now := by
  refine List.Perm.eq_of_pairwise (fun _ _ _ _ h h' => (h.asymm h').elim)
    (pairwise_timedOut _ now) (pairwise_timedOut _ now) ?_
  exact ((t.perm_timedOut now).trans (h.perm_overdue now)).trans (u.perm_timedOut now).symm

/-- What a sweep takes does not hang on the order in which it comes to the calls. -/
theorem Same.perm_taken (limit : Nat) : (t.taken now limit).Perm (u.taken now limit) :=
  (t.perm_taken now limit).trans (h.timedOut_eq now ▸ (u.perm_taken now limit).symm)

omit now in
theorem Same.evict {evicted evicted' : List TimedOut} (hperm : evicted.Perm evicted') :
    (t.evict evicted).Same (u.evict evicted') := by
  rw [evict_perm hperm, evict_eq, evict_eq]
  exact ⟨h.threshold, h.timeout, h.calls.filter _⟩

/-- The order of the calls shows in the order of the records alone. -/
theorem Same.sweepInto (out : Buffer) :
    (t.sweepInto now out).state.Same (u.sweepInto now out).state ∧
      (t.sweepInto now out).count = (u.sweepInto now out).count ∧
      (t.sweepInto now out).out.records.Perm (u.sweepInto now out).out.records := by
  have htaken := h.perm_taken now out.remaining
  refine ⟨h.evict htaken, htaken.length_eq, ?_⟩
  rw [records_sweepInto, records_sweepInto]
  exact (htaken.map _).append_left _

end Same

/-! ### One sweep -/

/-- A sweep without a limit leaves the calls that are not overdue. -/
theorem state_sweep (t : SyscallTracker) (now : Nanos) :
    (t.sweep now).1 =
      { t with calls := t.calls.filter fun _ call => !t.isOverdue now call } := by
  have hcalls : (t.calls.filter fun tid _ => tid ∉ (t.overdue now).map TimedOut.tid) =
      t.calls.filter fun _ call => !t.isOverdue now call := by
    refine Keyed.ext ?_
    rw [Keyed.entries_filter, Keyed.entries_filter]
    refine List.filter_congr fun e he => ?_
    rw [decide_not, Bool.not_inj_iff, Bool.eq_iff_iff, decide_eq_true_eq]
    exact tid_mem_overdue_iff he
  rw [sweep_eq, evict_eq, hcalls]

/-- A limit that all tracked calls are within is none. -/
theorem taken_of_size {t : SyscallTracker} {now : Nanos} {limit : Nat} (h : t.size ≤ limit) :
    t.taken now limit = t.overdue now := by
  refine taken_of_le (Nat.le_trans ?_ h)
  rw [overdue, List.length_map]
  exact List.length_filter_le _ _

/-- What a sweep does that has an output and takes the calls `evicted`. -/
structure TakesFirst (t : SyscallTracker) (now : Nanos) (out : Buffer) (evicted : List TimedOut)
    (w : Written SyscallTracker) : Prop where
  /-- It takes as many overdue calls as there is room for. -/
  length : evicted.length = min out.remaining (t.overdue now).length
  /-- It takes the first ones in order. -/
  first : ∃ left, (evicted ++ left).Perm (t.overdue now) ∧ ∀ e ∈ evicted, ∀ l ∈ left, e.Earlier l
  /-- Only where it has no room for all of them it puts them in order. -/
  sorted : if out.remaining < (t.overdue now).length then evicted.Pairwise TimedOut.Earlier
    else evicted = t.overdue now
  count : w.count = evicted.length
  /-- Each of them has its record, and none was refused. -/
  records : w.out.records = out.records ++ evicted.map (TimedOut.record now)
  /-- Among the new records a call that is evicted has one, and no other call has any. -/
  once : ∀ e, (evicted.map (TimedOut.record now)).count (e.record now) =
    if e ∈ evicted then 1 else 0
  /-- All other calls are tracked as before. -/
  state : w.state = { t with calls := t.calls.filter fun tid _ => tid ∉ evicted.map TimedOut.tid }

section Taken

variable (t : SyscallTracker) (now : Nanos) (limit : Nat)

/-- What a sweep takes comes before all that it leaves. -/
theorem earlier_of_taken {e l : TimedOut} (he : e ∈ t.taken now limit)
    (hl : l ∈ (t.evict (t.taken now limit)).overdue now) : e.Earlier l := by
  have hsorted := t.pairwise_timedOut now
  rw [← List.take_append_drop limit (t.timedOut now), List.pairwise_append] at hsorted
  exact hsorted.2.2 e ((t.perm_taken now limit).subset he) l
    ((t.perm_overdue_evict_taken now limit).subset hl)

theorem sorted_taken :
    if limit < (t.overdue now).length then (t.taken now limit).Pairwise TimedOut.Earlier
    else t.taken now limit = t.overdue now := by
  split
  · next hmore =>
    rw [taken_of_lt hmore]
    exact (t.pairwise_timedOut now).sublist (List.take_sublist _ _)
  · next hall => exact taken_of_le (Nat.le_of_not_lt hall)

end Taken

theorem takesFirst_sweepInto (t : SyscallTracker) (now : Nanos) (out : Buffer) :
    TakesFirst t now out (t.taken now out.remaining) (t.sweepInto now out) where
  length := t.length_taken now out.remaining
  first := ⟨_, t.perm_taken_append now out.remaining,
    fun _ he _ hl => t.earlier_of_taken now out.remaining he hl⟩
  sorted := t.sorted_taken now out.remaining
  count := rfl
  records := t.records_sweepInto now out
  once := TimedOut.count_record (t.nodup_taken now out.remaining) now
  state := t.evict_eq (t.taken now out.remaining)

/-! ### Rounds -/

/-- A sweep with room for a call at least, which comes to the calls in an order of its own. -/
structure Round where
  walk : Keyed UInt32 Syscall
  out : Buffer
  room : 0 < out.remaining

def round (t : SyscallTracker) (now : Nanos) (r : Round) : Written SyscallTracker :=
  (t.reorder r.walk).sweepInto now r.out

/-- What a round takes. -/
def takenBy (t : SyscallTracker) (now : Nanos) (r : Round) : List TimedOut :=
  (t.reorder r.walk).taken now r.out.remaining

section Round

variable (t : SyscallTracker) (now : Nanos) (r : Round)

/-- What a round takes and what is overdue after it were overdue before it. -/
theorem perm_takenBy_append :
    (t.takenBy now r ++ (t.round now r).state.overdue now).Perm (t.overdue now) :=
  ((t.reorder r.walk).perm_taken_append now r.out.remaining).trans
    ((t.same_reorder r.walk).perm_overdue now)

theorem same_round : (t.round now r).state.Same (t.evict (t.takenBy now r)) :=
  (t.same_reorder r.walk).evict (.refl _)

theorem count_round : (t.round now r).count = min r.out.remaining (t.overdue now).length := by
  rw [round, count_sweepInto, ((t.same_reorder r.walk).perm_overdue now).length_eq]

theorem length_overdue_round :
    ((t.round now r).state.overdue now).length = (t.overdue now).length - r.out.remaining := by
  have hparts := (t.perm_takenBy_append now r).length_eq
  have hcount : (t.takenBy now r).length = _ := t.count_round now r
  rw [List.length_append, hcount] at hparts
  omega

variable {t now r} in
/-- A round takes nothing only where nothing is overdue. -/
theorem count_round_eq_zero_iff : (t.round now r).count = 0 ↔ t.overdue now = [] := by
  have hroom := r.room
  rw [count_round, ← List.length_eq_zero_iff]
  omega

end Round

section Rounds

variable (t : SyscallTracker) (now : Nanos) (supply : Nat → Round)

/-- The tracker after the first `n` rounds of a supply. -/
def after : Nat → SyscallTracker
  | 0 => t
  | n + 1 => ((after n).round now (supply n)).state

/-- What the first `n` rounds take. -/
def gone (n : Nat) : List TimedOut :=
  (List.range n).flatMap fun i => (t.after now supply i).takenBy now (supply i)

theorem gone_succ (n : Nat) :
    t.gone now supply (n + 1) =
      t.gone now supply n ++ (t.after now supply n).takenBy now (supply n) := by
  rw [gone, List.range_succ, List.flatMap_append, List.flatMap_singleton, gone]

/-- What the rounds took and what is overdue after them were overdue before them. -/
theorem perm_gone (n : Nat) :
    (t.gone now supply n ++ (t.after now supply n).overdue now).Perm (t.overdue now) := by
  induction n with
  | zero => exact .refl _
  | succ n ih =>
    rw [gone_succ, List.append_assoc]
    exact ((perm_takenBy_append ..).append_left _).trans ih

theorem evict_append (evicted more : List TimedOut) :
    t.evict (evicted ++ more) = (t.evict evicted).evict more :=
  List.foldl_append

theorem same_after (n : Nat) : (t.after now supply n).Same (t.evict (t.gone now supply n)) := by
  induction n with
  | zero => exact equivalence_same.refl t
  | succ n ih =>
    rw [gone_succ, evict_append]
    exact equivalence_same.trans (same_round ..) (ih.evict (.refl _))

theorem length_overdue_after_le (n : Nat) :
    ((t.after now supply n).overdue now).length ≤ (t.overdue now).length - n := by
  induction n with
  | zero => exact Nat.le_refl _
  | succ n ih =>
    have hless := length_overdue_round (t.after now supply n) now (supply n)
    have hroom := (supply n).room
    rw [after]
    omega

variable {t now supply} in
theorem overdue_after_subset {m n : Nat} (h : m ≤ n) :
    (t.after now supply n).overdue now ⊆ (t.after now supply m).overdue now := by
  induction h with
  | refl => exact List.Subset.refl _
  | step _ ih =>
    intro e he
    exact ih ((perm_takenBy_append ..).subset (List.mem_append_right _ he))

/-- What a round takes comes before all that a later one takes. -/
theorem earlier_of_takenBy {i j : Nat} (hij : i < j) {a b : TimedOut}
    (ha : a ∈ (t.after now supply i).takenBy now (supply i))
    (hb : b ∈ (t.after now supply j).takenBy now (supply j)) : a.Earlier b := by
  have hlater : b ∈ (t.after now supply j).overdue now :=
    (perm_takenBy_append ..).subset (List.mem_append_left _ hb)
  exact earlier_of_taken _ now _ ha (overdue_after_subset hij hlater)

/-- `n` rounds of a supply take something, and the one behind them takes nothing. -/
structure Drained (n : Nat) : Prop where
  goesOn : ∀ i < n, ((t.after now supply i).round now (supply i)).count ≠ 0
  ends : ((t.after now supply n).round now (supply n)).count = 0
  /-- The rounds take what one sweep without a limit takes. -/
  gone : (t.gone now supply n).Perm (t.sweep now).2
  /-- They leave what it leaves. -/
  state : (t.after now supply n).Same (t.sweep now).1
  /-- What a round takes comes before all that a later one takes. -/
  order : ∀ i j, i < j → ∀ a ∈ (t.after now supply i).takenBy now (supply i),
    ∀ b ∈ (t.after now supply j).takenBy now (supply j), a.Earlier b

theorem exists_drained : ∃ n ≤ (t.overdue now).length, Drained t now supply n := by
  have hend : ((t.after now supply (t.overdue now).length).round now
      (supply (t.overdue now).length)).count = 0 := by
    have hless := t.length_overdue_after_le now supply (t.overdue now).length
    rw [count_round_eq_zero_iff, ← List.length_eq_zero_iff]
    omega
  have hex : ∃ n, ((t.after now supply n).round now (supply n)).count = 0 := ⟨_, hend⟩
  have hgone : (t.gone now supply (Nat.find hex)).Perm (t.overdue now) := by
    have hparts := t.perm_gone now supply (Nat.find hex)
    rwa [count_round_eq_zero_iff.1 (Nat.find_spec hex), List.append_nil] at hparts
  refine ⟨Nat.find hex, Nat.find_min' hex hend, ?_⟩
  exact
    { goesOn := fun i hi => Nat.find_min hex hi
      ends := Nat.find_spec hex
      gone := by rwa [sweep_eq]
      state := by
        rw [sweep_eq, ← evict_perm hgone]
        exact t.same_after now supply _
      order := fun i j hij a ha b hb => t.earlier_of_takenBy now supply hij ha hb }

end Rounds

/-- What sweeps at one time come to, in whatever order they come to the calls. -/
structure SweepsInRounds (t : SyscallTracker) (now : Nanos) : Prop where
  /-- A sweep without an output takes the overdue calls and leaves all others. -/
  whole : t.sweep now =
      ({ t with calls := t.calls.filter fun _ call => !t.isOverdue now call }, t.overdue now) ∧
    ∀ limit, t.size ≤ limit → t.sweepLimited now limit = t.sweep now
  /-- A sweep with an output takes the first overdue calls that there is room for. -/
  part : ∀ out, TakesFirst t now out (t.taken now out.remaining) (t.sweepInto now out)
  /-- The order of the calls shows in the order of what is taken, of the records and of what is
  left alone. -/
  agrees : ∀ walk,
    ((t.reorder walk).sweep now).2.Perm (t.sweep now).2 ∧
      ((t.reorder walk).sweep now).1.Same (t.sweep now).1 ∧
      ∀ out, ((t.reorder walk).sweepInto now out).state.Same (t.sweepInto now out).state ∧
        ((t.reorder walk).sweepInto now out).count = (t.sweepInto now out).count ∧
        ((t.reorder walk).sweepInto now out).out.records.Perm (t.sweepInto now out).out.records
  /-- Rounds come to an end, and to the same as a sweep without an output. -/
  rounds : ∀ supply, ∃ n ≤ (t.overdue now).length, Drained t now supply n

/-- **Sweeping in rounds is sweeping at once.** A sweep takes exactly the calls past the timeout
and leaves all others; one with an output takes the first of them, in order of their starts and
then of their threads, as many as there is room for, and each gets its record. Whatever outputs
with room the rounds have and in whatever order they come to the calls, after at most as many
rounds as calls are overdue one takes nothing, and by then the rounds have taken the calls that
one sweep takes, older calls in earlier rounds. -/
theorem sweeps_in_rounds (t : SyscallTracker) (now : Nanos) : SweepsInRounds t now where
  whole := by
    refine ⟨?_, fun limit hlimit => ?_⟩
    · rw [← state_sweep, sweep_eq]
    · rw [sweepLimited, taken_of_size hlimit, sweep_eq]
  part out := t.takesFirst_sweepInto now out
  agrees walk := by
    have hsame := t.same_reorder walk
    refine ⟨?_, ?_, hsame.sweepInto now⟩
    · rw [sweep_eq, sweep_eq]
      exact hsame.perm_overdue now
    · rw [sweep_eq, sweep_eq]
      exact hsame.evict (hsame.perm_overdue now)
  rounds supply := t.exists_drained now supply

/-- Three overdue calls and outputs for two records: the first round takes those that began
together, in the order of their threads, and the second the one that began last. -/
example :
    let t : SyscallTracker :=
      { threshold := 1, timeout := 10
        calls := ⟨[(7, { start := 5 }), (3, { start := 2 }), (1, { start := 2 })], by decide⟩ }
    let supply : Nat → Round := fun _ => ⟨.empty, { capacity := 2 }, by decide⟩
    let gone (n : Nat) : List TimedOut := (t.after 20 supply n).takenBy 20 (supply n)
    ((gone 0).map TimedOut.tid, (gone 1).map TimedOut.tid, gone 2) = ([1, 3], [7], []) := by
  cbv

end FlowProbe.SyscallTracker
