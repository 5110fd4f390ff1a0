import FlowProbe.Proofs.Session.Accounts
import FlowProbe.Proofs.Syscall.Fate

/-! The system calls of a replay.

A session calls its tracker for the events of system calls, in their order, and for sweeps in
between, each of which may come to the calls in another order. A `Traced` way from one tracker to
another is a run with these calls, of which every record is a line, in the order of the run and
with nothing in between but lines of the monitor. Ways follow each other (`Traced.append`), so a
whole replay is one run of the tracker (`exists_traced_replayed`), and what is said of the calls
of a run holds for its lines (`syscalls_reported_once`). -/
namespace FlowProbe

/-- The call of the tracker that an event makes. -/
def Event.acts : Event → List SyscallTracker.Call
  | .syscallEnter tid pid kind time => [.enter tid pid kind time]
  | .syscallExit tid time => [.exit tid time]
  | .segment _ | .reported _ | .focusPod .. => []

namespace SyscallTracker

/-- A sweep with an output, or another order: what a replay does without an event that asks for
it. -/
def Call.isInterim : Call → Bool
  | .sweepInto .. | .reorder _ => true
  | .enter .. | .exit .. | .erase _ | .sweep _ => false

def isLine (r : Record) : Bool := r.name == slowName || r.name == TimedOut.recordName

theorem take_eq_run (t : SyscallTracker) (e : Event) : t.take e = t.run e.acts := by
  cases e <;> rfl

theorem slow_eq_records (t : SyscallTracker) (e : Event) : t.slow e = t.records e.acts := by
  cases e with
  | syscallExit tid time => exact (List.append_nil _).symm
  | segment | reported | focusPod | syscallEnter => rfl

theorem length_slow_le (t : SyscallTracker) (e : Event) : (t.slow e).length ≤ 1 := by
  cases e with
  | syscallExit tid time => exact Option.length_toList_le
  | segment | reported | focusPod | syscallEnter => exact Nat.zero_le 1

end SyscallTracker

namespace Session
open SyscallTracker (isLine)

def Call.acts : Call → List SyscallTracker.Call
  | .apply e _ => e.acts
  | .applyRing .. | .reorder _ => []

/-- The calls of the tracker that the events of a run make. -/
def actsOf (calls : List Call) : List SyscallTracker.Call := calls.flatMap Call.acts

/-- From `t` a tracker comes to `u` through `trail`: through `acts`, and sweeps in any order. Its
records are the lines for system calls among `lines`. -/
structure Traced (t : SyscallTracker) (acts : List SyscallTracker.Call) (lines : List Record)
    (u : SyscallTracker) (trail : List SyscallTracker.Call) : Prop where
  state : u = t.run trail
  acts : (trail.filter fun call => !call.isInterim) = acts
  lines : lines.filter isLine = t.records trail

theorem Traced.nothing (t : SyscallTracker) : Traced t [] [] t [] := ⟨rfl, rfl, rfl⟩

theorem Traced.append {t u v : SyscallTracker} {acts acts' trail trail' : List SyscallTracker.Call}
    {lines lines' : List Record} (h : Traced t acts lines u trail)
    (h' : Traced u acts' lines' v trail') :
    Traced t (acts ++ acts') (lines ++ lines') v (trail ++ trail') := by
  refine ⟨?_, ?_, ?_⟩
  · rw [h'.state, h.state, SyscallTracker.run_append]
  · rw [List.filter_append, h.acts, h'.acts]
  · rw [List.filter_append, h.lines, h'.lines, SyscallTracker.records_append, h.state]

theorem traced_reorder (t : SyscallTracker) (order : Keyed UInt32 Syscall) :
    Traced t [] [] (t.reorder order) [.reorder order] :=
  ⟨rfl, rfl, rfl⟩

/-! ### Lines for system calls and others -/

theorem filter_isLine_self {name : String} {rs : List Record} (h : ∀ r ∈ rs, r.name = name)
    (hname : name = SyscallTracker.slowName ∨ name = TimedOut.recordName) :
    rs.filter isLine = rs := by
  refine List.filter_eq_self.2 fun r hr => ?_
  rw [isLine, h r hr, Bool.or_eq_true, beq_iff_eq, beq_iff_eq]
  exact hname

theorem filter_isLine_other {name : String} {rs : List Record} (h : ∀ r ∈ rs, r.name = name)
    (hslow : name ≠ SyscallTracker.slowName) (hoverdue : name ≠ TimedOut.recordName) :
    rs.filter isLine = [] := by
  refine List.filter_eq_nil_iff.2 fun r hr => ?_
  rw [isLine, h r hr]
  simp [hslow, hoverdue]

/-- The analyzers of the monitor write no lines for system calls. -/
theorem filter_isLine_writes {m : Monitor} {out : Buffer} {b : Monitor.Blocks}
    {w : Written Monitor} (h : m.Writes out b w) :
    w.out.records.filter isLine = out.records.filter isLine := by
  rw [h.records, List.filter_append, Monitor.Blocks.all]
  simp only [List.filter_append]
  rw [filter_isLine_other h.nameHandshakes (by decide) (by decide),
    filter_isLine_other h.nameAckDelays (by decide) (by decide),
    filter_isLine_other h.namePackets (by decide) (by decide),
    filter_isLine_other h.namePaths (by decide) (by decide)]
  simp only [List.append_nil]

/-! ### Calls -/

/-- An output has room for the record of a slow call: nothing waits in it. -/
theorem traced_taken {s : Session} (h : 1 ≤ s.capacity) (e : Event) :
    Traced s.syscalls e.acts (s.taken e).out.records (s.taken e).syscalls e.acts := by
  have hall := List.take_of_length_le (Nat.le_trans (s.syscalls.length_slow_le e) h)
  refine ⟨s.syscalls.take_eq_run e, ?_, ?_⟩
  · cases e <;> rfl
  · rw [filter_isLine_self (s.name_taken e) (.inl rfl), records_taken, hall]
    exact s.syscalls.slow_eq_records e

theorem traced_polled {s : Session} (h : 1 ≤ s.capacity) (e : Event) (order : Orders) :
    Traced s.syscalls e.acts (s.polled e order).out.records (s.polled e order).syscalls
      (e.acts ++ [.reorder order.calls]) := by
  have htraced := (traced_taken h e).append (traced_reorder (s.taken e).syscalls order.calls)
  rw [List.append_nil, List.append_nil] at htraced
  have hpoll := filter_isLine_writes
    (((s.monitor.take e).reorder order).writes_poll (s.taken e).out)
  exact ⟨htraced.state, htraced.acts, hpoll.trans htraced.lines⟩

/-- A sweep of the session is one of the tracker, or nothing. -/
theorem exists_traced_sweep (w : Work) : ∃ swept trail,
    w.sweep.out.records = w.out.records ++ swept ∧
      Traced w.syscalls [] swept w.sweep.syscalls trail := by
  rw [Work.sweep]
  split
  · refine ⟨_, [.sweepInto w.sweepClock.latest w.out],
      w.syscalls.records_sweepInto w.sweepClock.latest w.out, rfl, rfl, ?_⟩
    rw [filter_isLine_self (name_evicted _ _) (.inr rfl), ← SyscallTracker.written_sweepInto]
    exact (List.append_nil _).symm
  · exact ⟨[], [], (List.append_nil _).symm, .nothing w.syscalls⟩

theorem exists_traced_step {s : Session} (h : 1 ≤ s.capacity) (call : Call) :
    ∃ trail, Traced s.syscalls call.acts (s.written call) (s.step call).syscalls trail := by
  cases call with
  | apply e order =>
    obtain ⟨swept, trail, hrecords, hsweep⟩ := exists_traced_sweep (s.polled e order)
    have htraced := (traced_polled h e order).append hsweep
    rw [List.append_nil, ← hrecords] at htraced
    rw [written, step, perform_apply_eq]
    exact ⟨_, htraced⟩
  | applyRing r order =>
    have hlines := filter_isLine_writes
      (((s.monitor.ingestAll r.items).reorder order).writes_poll s.out)
    rw [s.idle] at hlines
    exact ⟨[.reorder order.calls], rfl, rfl, hlines⟩
  | reorder order => exact ⟨_, traced_reorder s.syscalls order.calls⟩

theorem exists_traced_run {s : Session} (h : 1 ≤ s.capacity) (calls : List Call) :
    ∃ trail, Traced s.syscalls (actsOf calls) (s.lines calls) (s.run calls).syscalls trail := by
  induction calls generalizing s with
  | nil => exact ⟨[], .nothing s.syscalls⟩
  | cons call rest ih =>
    obtain ⟨trail, htraced⟩ := exists_traced_step h call
    obtain ⟨trail', hrest⟩ := ih ((s.capacity_step call).symm ▸ h)
    exact ⟨trail ++ trail', htraced.append hrest⟩

/-! ### The end of a capture -/

theorem traced_flushRound (s : Session) :
    Traced s.syscalls [] s.flushRound.2 s.flushRound.1.syscalls [] := by
  have hlines := filter_isLine_writes (s.monitor.writes_flushAll s.out)
  rw [s.idle] at hlines
  exact ⟨rfl, rfl, hlines⟩

theorem traced_flushAll (s : Session) :
    Traced s.syscalls [] s.flushAll.2 s.flushAll.1.syscalls [] := by
  have hround := s.traced_flushRound
  rw [flushAll]
  split
  · exact hround
  · next hmore =>
    have hless := Monitor.pending_flushAll_lt (fun h => hmore (.inl h)) fun h => hmore (.inr h)
    exact hround.append (traced_flushAll s.flushRound.1)
termination_by s.monitor.pending

theorem traced_sweepRound (s : Session) :
    Traced s.syscalls [] s.sweepRound.2 s.sweepRound.1.syscalls
      [.sweepInto s.sweepClock.latest s.out] := by
  refine ⟨rfl, rfl, ?_⟩
  have hwritten := s.syscalls.written_sweepInto s.sweepClock.latest s.out
  rw [remaining_out, ← records_sweepRound] at hwritten
  rw [filter_isLine_self (fun r hr => name_evicted _ _ r (s.records_sweepRound ▸ hr)) (.inr rfl),
    ← hwritten]
  exact (List.append_nil _).symm

theorem exists_traced_sweepAll (s : Session) :
    ∃ trail, Traced s.syscalls [] s.sweepAll.2 s.sweepAll.1.syscalls trail := by
  have hround := s.traced_sweepRound
  rw [sweepAll]
  split
  · exact ⟨[], .nothing s.syscalls⟩
  · next hmore =>
    have hless := SyscallTracker.size_sweepInto_lt hmore
    obtain ⟨trail, hrest⟩ := exists_traced_sweepAll s.sweepRound.1
    exact ⟨_, hround.append hrest⟩
termination_by s.syscalls.size

/-! ### A whole replay -/

theorem exists_traced_replayed {s : Session} (h : 1 ≤ s.capacity) (calls : List Call) :
    ∃ trail, Traced s.syscalls (actsOf calls) (s.replayed calls)
      (s.run calls).finish.1.syscalls trail := by
  obtain ⟨trail, hrun⟩ := exists_traced_run h calls
  obtain ⟨trail', hsweeps⟩ := (s.run calls).flushAll.1.exists_traced_sweepAll
  have htraced := hrun.append ((s.run calls).traced_flushAll.append hsweeps)
  rw [List.append_nil, List.append_nil] at htraced
  exact ⟨_, htraced⟩

/-- **Every system call is reported at most once, and none is lost.** In every run of a tracker
each call that is begun has one story: it is still tracked, or it was overwritten, exited, erased
or evicted, once. The run gives rise to one record for each call that exited at the threshold or
later or that was evicted into an output, and to no others. In a replay with an output for one
record or more, in whatever orders the maps come up, these records are lines, each of them once:
wherever a step is, there is room for the record of a slow call once room was made for it. -/
theorem syscalls_reported_once :
    (∀ (t : SyscallTracker) (calls : List SyscallTracker.Call), t.Told calls) ∧
    (∀ w : Work, 1 ≤ w.capacity → ∀ slow, w.makeRoom.1.out.push slow ≠ none) ∧
    ∀ s : Session, 1 ≤ s.capacity → ∀ calls : List Call, ∃ trail,
      Traced s.syscalls (actsOf calls) (s.replayed calls) (s.run calls).finish.1.syscalls trail ∧
        ((s.replayed calls).filter isLine).Perm ((s.syscalls.stories trail).filterMap
          (SyscallTracker.Story.record? s.syscalls.threshold)) := by
  refine ⟨SyscallTracker.told_run, fun w h slow => w.push_makeRoom_ne_none h slow,
    fun s h calls => ?_⟩
  obtain ⟨trail, htraced⟩ := exists_traced_replayed h calls
  exact ⟨trail, htraced, htraced.lines ▸ s.syscalls.perm_records trail⟩

/-- One thread begins a call over another and ends it late; that of the other thread stays. -/
theorem syscalls_reported_once_two :
    let t : SyscallTracker := { threshold := 5, timeout := 50 }
    let calls : List SyscallTracker.Call :=
      [.enter 1 8 3 10, .enter 1 8 4 11, .enter 2 8 3 12, .exit 1 16]
    let s : Session :=
      { monitor := .make {} 5 10
        syscalls := t
        sweepClock := { interval := 5 }, out := { capacity := 1 } }
    let events : List Call := [.apply (.syscallEnter 1 8 4 11), .apply (.syscallExit 1 16)]
    (t.records calls).Perm [SyscallTracker.slowRecord 1 ⟨11, 4, 8⟩ 5 16] ∧
      (t.run calls).calls.entries = [(2, ⟨12, 3, 8⟩)] ∧ 1 ≤ s.capacity ∧
      ∃ trail, Traced s.syscalls (actsOf events) (s.replayed events)
        (s.run events).finish.1.syscalls trail := by
  intro t calls s events
  have hcapacity : 1 ≤ s.capacity := by decide
  have hrecords := (syscalls_reported_once.1 t calls).records
  have hopen := (syscalls_reported_once.1 t calls).isOpen
  obtain ⟨trail, htraced, -⟩ := syscalls_reported_once.2.2 s hcapacity events
  refine ⟨hrecords.trans (.of_eq ?_), (List.singleton_perm.1 ?_).symm, hcapacity, trail, htraced⟩
  · decide
  · exact hopen

end Session

end FlowProbe
