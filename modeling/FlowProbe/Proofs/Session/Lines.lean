import FlowProbe.Proofs.Session.Run
import FlowProbe.Proofs.Syscall.Sweep
import FlowProbe.Proofs.Window.Backlog

/-! Where the lines of a call come from.

A call writes at most six kinds of lines, one behind the other, and the kinds have names of
their own. So the lines of a name are those of one source (`named_handshakes` and the others).
What comes from the windows is a front part of each backlog, and what stays in the windows is
the rest: the lines are a `Cut`, of the monitor as the poll of the call finds it (`cut_step`). -/
namespace FlowProbe.Session

/-- The lines of a call, by their source. -/
structure Lines where
  slow : List Record
  handshakes : List Record
  ackDelays : List Record
  packets : List Record
  paths : List Record
  overdue : List Record
  name_slow : ∀ r ∈ slow, r.name = SyscallTracker.slowName
  name_handshakes : ∀ r ∈ handshakes, r.name = Handshakes.recordName
  name_ackDelays : ∀ r ∈ ackDelays, r.name = AckDelays.recordName
  name_packets : ∀ r ∈ packets, r.name = PacketCounts.recordName
  name_paths : ∀ r ∈ paths, r.name = Sighting.recordName
  name_overdue : ∀ r ∈ overdue, r.name = TimedOut.recordName

namespace Lines

variable (l : Lines)

/-- The lines in the order in which they are written. -/
def all : List Record :=
  l.slow ++ l.handshakes ++ l.ackDelays ++ l.packets ++ l.paths ++ l.overdue

theorem named_all (name : String) :
    Record.named name l.all =
      (if SyscallTracker.slowName = name then l.slow else []) ++
      (if Handshakes.recordName = name then l.handshakes else []) ++
      (if AckDelays.recordName = name then l.ackDelays else []) ++
      (if PacketCounts.recordName = name then l.packets else []) ++
      (if Sighting.recordName = name then l.paths else []) ++
      (if TimedOut.recordName = name then l.overdue else []) := by
  simp only [all, Record.named_append, Record.named_of_name l.name_slow,
    Record.named_of_name l.name_handshakes, Record.named_of_name l.name_ackDelays,
    Record.named_of_name l.name_packets, Record.named_of_name l.name_paths,
    Record.named_of_name l.name_overdue]

theorem named_slow : Record.named SyscallTracker.slowName l.all = l.slow := by
  simp +decide only [named_all, if_true, if_false, List.append_nil]

theorem named_handshakes : Record.named Handshakes.recordName l.all = l.handshakes := by
  simp +decide only [named_all, if_true, if_false, List.append_nil, List.nil_append]

theorem named_ackDelays : Record.named AckDelays.recordName l.all = l.ackDelays := by
  simp +decide only [named_all, if_true, if_false, List.append_nil, List.nil_append]

theorem named_packets : Record.named PacketCounts.recordName l.all = l.packets := by
  simp +decide only [named_all, if_true, if_false, List.append_nil, List.nil_append]

theorem named_paths : Record.named Sighting.recordName l.all = l.paths := by
  simp +decide only [named_all, if_true, if_false, List.append_nil, List.nil_append]

theorem named_overdue : Record.named TimedOut.recordName l.all = l.overdue := by
  simp +decide only [named_all, if_true, if_false, List.append_nil, List.nil_append]

end Lines

/-- Lines cut off the front of what waits in the windows of `m`; the rest is in those of `m'`. -/
structure Cut (m : Monitor) (l : Lines) (m' : Monitor) : Prop where
  handshakes : ∃ n, l.handshakes = (Windowed.backlog m.table m.handshakes).take n ∧
    m'.handshakes.window.aggregates.entries = m.handshakes.window.aggregates.entries.drop n
  ackDelays : ∃ n, l.ackDelays = (Windowed.backlog m.table m.ackDelays).take n ∧
    m'.ackDelays.window.aggregates.entries = m.ackDelays.window.aggregates.entries.drop n
  packets : ∃ n, l.packets = (Windowed.backlog m.table m.packets).take n ∧
    m'.packets.window.aggregates.entries = m.packets.window.aggregates.entries.drop n

theorem name_delivered (delivered : List (UInt32 × Sighting)) (now : Nanos) :
    ∀ r ∈ delivered.map fun e => e.2.record now, r.name = Sighting.recordName := by
  intro r hr
  obtain ⟨e, -, rfl⟩ := List.mem_map.1 hr
  rfl

theorem name_evicted (evicted : List TimedOut) (now : Nanos) :
    ∀ r ∈ evicted.map (TimedOut.record now), r.name = TimedOut.recordName := by
  intro r hr
  obtain ⟨e, -, rfl⟩ := List.mem_map.1 hr
  rfl

/-- A poll between lines for slow calls and lines for overdue ones. -/
theorem cut_poll (m : Monitor) (out : Buffer) (swept : List Record)
    (hslow : ∀ r ∈ out.records, r.name = SyscallTracker.slowName)
    (hswept : ∀ r ∈ swept, r.name = TimedOut.recordName) :
    ∃ l : Lines, (m.poll out).out.records ++ swept = l.all ∧ Cut m l (m.poll out).state := by
  obtain ⟨i, hi, hi'⟩ := Windowed.poll_cut m.table m.handshakes out
  obtain ⟨j, hj, hj'⟩ := Windowed.poll_cut m.table m.ackDelays
    (Windowed.poll m.table m.handshakes out).out
  obtain ⟨k, hk, hk'⟩ := Windowed.poll_cut m.table m.packets
    (Windowed.poll m.table m.ackDelays (Windowed.poll m.table m.handshakes out).out).out
  let w := m.writeWindows out Windowed.poll
  obtain ⟨delivered, hpaths⟩ := m.paths.exists_delivers m.latest w.out
  let l : Lines :=
    { slow := out.records
      handshakes := (Windowed.backlog m.table m.handshakes).take i
      ackDelays := (Windowed.backlog m.table m.ackDelays).take j
      packets := (Windowed.backlog m.table m.packets).take k
      paths := delivered.map fun e => e.2.record m.latest
      overdue := swept
      name_slow := hslow
      name_handshakes := fun r hr => Windowed.name_backlog _ _ r (List.mem_of_mem_take hr)
      name_ackDelays := fun r hr => Windowed.name_backlog _ _ r (List.mem_of_mem_take hr)
      name_packets := fun r hr => Windowed.name_backlog _ _ r (List.mem_of_mem_take hr)
      name_paths := name_delivered delivered m.latest
      name_overdue := hswept }
  refine ⟨l, ?_, ⟨i, rfl, hi'⟩, ⟨j, rfl, hj'⟩, ⟨k, rfl, hk'⟩⟩
  have hrecords : (m.poll out).out.records = w.out.records ++ l.paths := hpaths.records
  have hwindows : w.out.records = _ := hk
  rw [hrecords, hwindows, hj, hi]
  rfl

/-- Nothing is cut off. -/
theorem cut_nothing (m : Monitor) : ∃ l : Lines, [] = l.all ∧ Cut m l m := by
  let l : Lines := ⟨[], [], [], [], [], [], nofun, nofun, nofun, nofun, nofun, nofun⟩
  exact ⟨l, rfl, ⟨0, rfl, rfl⟩, ⟨0, rfl, rfl⟩, ⟨0, rfl, rfl⟩⟩

/-! ### The lines of a call -/

theorem name_exit {t : SyscallTracker} {tid : UInt32} {now : Nanos} {r : Record}
    (h : (t.exit tid now).2 = some r) : r.name = SyscallTracker.slowName := by
  rw [SyscallTracker.exit] at h
  split at h
  · cases h
  · rw [Option.ite_none_left_eq_some, Option.some.injEq] at h
    obtain ⟨-, rfl⟩ := h
    rfl

theorem name_slow (t : SyscallTracker) (e : Event) :
    ∀ r ∈ t.slow e, r.name = SyscallTracker.slowName := by
  cases e with
  | syscallExit tid time => exact fun r hr => name_exit (Option.mem_toList.1 hr)
  | _ => exact nofun

theorem name_taken (s : Session) (e : Event) :
    ∀ r ∈ (s.taken e).out.records, r.name = SyscallTracker.slowName := by
  rw [records_taken]
  exact fun r hr => name_slow s.syscalls e r (List.mem_of_mem_take hr)

theorem records_sweep (w : Work) :
    ∃ swept, w.sweep.out.records = w.out.records ++ swept ∧
      ∀ r ∈ swept, r.name = TimedOut.recordName := by
  rw [Work.sweep]
  split
  · exact ⟨_, w.syscalls.records_sweepInto w.sweepClock.latest w.out, name_evicted _ _⟩
  · exact ⟨[], (List.append_nil _).symm, List.forall_mem_nil _⟩

/-- What a call hands out is cut off what waits as its poll finds it. -/
theorem cut_step (s : Session) (call : Call) :
    ∃ l : Lines, s.written call = l.all ∧
      Cut (call.intake s.monitor) l (s.step call).monitor := by
  cases call with
  | apply e order =>
    obtain ⟨swept, hswept, hname⟩ := records_sweep (s.polled e order)
    obtain ⟨l, hall, hcut⟩ :=
      cut_poll ((s.monitor.take e).reorder order) (s.taken e).out swept (s.name_taken e) hname
    refine ⟨l, ?_, ?_⟩
    · rw [written, perform_apply_eq, ← hall]
      exact hswept
    · rw [monitor_apply]
      exact hcut
  | applyRing r order =>
    have hnothing : ∀ r ∈ s.out.records, r.name = SyscallTracker.slowName := by
      rw [s.idle]
      exact List.forall_mem_nil _
    obtain ⟨l, hall, hcut⟩ := cut_poll ((s.monitor.ingestAll r.items).reorder order) s.out []
      hnothing (List.forall_mem_nil _)
    exact ⟨l, (List.append_nil _).symm.trans hall, hcut⟩
  | reorder order => exact cut_nothing (s.monitor.reorder order)

end FlowProbe.Session
