import FlowProbe.Proofs.Session.Lines

/-! What the end of a capture hands out.

`finish` runs two loops. `flushRounds` and `sweepRounds` are the same loops with a number of
rounds to spend, and say how many rounds are enough (`flushRounds_eq`, `sweepRounds_eq`). The
rounds of the first write the backlog of the windows, and the path tracker gets the room that
the last of them leaves (`exists_drained`); those of the second write the overdue calls
(`sweepAll_writes`). So nothing is left in the windows and no call that is overdue
(`finish_drains`), but tracked paths are left behind when the last round has no room for them
(`paths_written_iff`). -/
namespace FlowProbe.Session

/-! ### Flushing in rounds -/

/-- One round of `flushAll`. -/
def flushRound (s : Session) : Session × List Record :=
  let f := s.monitor.flushAll s.out
  { s.toWork with monitor := f.state, out := f.out }.emit

/-- `flushAll` in no more than so many rounds, if these reach its end. -/
def flushRounds : Nat → Session → Option (Session × List Record)
  | 0, _ => none
  | n + 1, s =>
    let f := s.monitor.flushAll s.out
    if f.count = 0 ∨ f.state.pending = 0 then some s.flushRound
    else (flushRounds n s.flushRound.1).map fun last => (last.1, s.flushRound.2 ++ last.2)

theorem pending_flushRound (s : Session) :
    s.flushRound.1.monitor.pending = s.monitor.pending - s.capacity := by
  rw [← remaining_out]
  exact s.monitor.pending_flushAll s.out

theorem capacity_flushRound (s : Session) : s.flushRound.1.capacity = s.capacity :=
  (s.monitor.writes_flushAll s.out).appends.capacity

section Flush

variable {s : Session} (h : 1 ≤ s.capacity)
include h

/-- The loop goes on as long as the windows hold more than an output does. -/
theorem flush_ends_iff :
    ((s.monitor.flushAll s.out).count = 0 ∨ (s.monitor.flushAll s.out).state.pending = 0) ↔
      s.monitor.pending ≤ s.capacity := by
  have hpending := s.monitor.pending_flushAll s.out
  have hcount := s.monitor.min_le_count_flushAll s.out
  rw [remaining_out] at hpending hcount
  omega

theorem flushAll_of_le (hle : s.monitor.pending ≤ s.capacity) : s.flushAll = s.flushRound := by
  rw [flushAll, dif_pos ((flush_ends_iff h).2 hle)]
  rfl

theorem flushAll_of_lt (hlt : s.capacity < s.monitor.pending) :
    s.flushAll =
      (s.flushRound.1.flushAll.1, s.flushRound.2 ++ s.flushRound.1.flushAll.2) := by
  rw [flushAll, dif_neg fun hend => Nat.not_le_of_lt hlt ((flush_ends_iff h).1 hend)]
  rfl

/-- As many rounds are enough as outputs could hold what the windows hold. -/
theorem flushRounds_eq {n : Nat} (hn : s.monitor.pending ≤ s.capacity * (n + 1)) :
    s.flushRounds (n + 1) = some s.flushAll := by
  induction n generalizing s with
  | zero =>
    have hle : s.monitor.pending ≤ s.capacity := by omega
    rw [flushRounds, if_pos ((flush_ends_iff h).2 hle), flushAll_of_le h hle]
  | succ n ih =>
    rw [flushRounds]
    by_cases hle : s.monitor.pending ≤ s.capacity
    · rw [if_pos ((flush_ends_iff h).2 hle), flushAll_of_le h hle]
    · have hrest : s.flushRound.1.monitor.pending ≤ s.flushRound.1.capacity * (n + 1) := by
        rw [pending_flushRound, capacity_flushRound]
        rw [Nat.mul_succ] at hn
        omega
      have hround : 1 ≤ s.flushRound.1.capacity := s.capacity_flushRound.symm ▸ h
      rw [if_neg fun hend => hle ((flush_ends_iff h).1 hend), ih hround hrest,
        flushAll_of_lt h (Nat.lt_of_not_le hle)]
      rfl

end Flush

/-! ### Sweeping in rounds -/

/-- One round of `sweepAll`. -/
def sweepRound (s : Session) : Session × List Record :=
  let w := s.syscalls.sweepInto s.sweepClock.latest s.out
  { s.toWork with syscalls := w.state, out := w.out }.emit

/-- `sweepAll` in no more than so many rounds, if these reach its end. -/
def sweepRounds : Nat → Session → Option (Session × List Record)
  | 0, _ => none
  | n + 1, s =>
    if (s.syscalls.sweepInto s.sweepClock.latest s.out).count = 0 then some (s, [])
    else (sweepRounds n s.sweepRound.1).map fun last => (last.1, s.sweepRound.2 ++ last.2)

/-- The calls that a sweep at the latest event is after. -/
def overdue (s : Session) : List TimedOut := s.syscalls.overdue s.sweepClock.latest

theorem records_sweepRound (s : Session) :
    s.sweepRound.2 =
      (s.syscalls.taken s.sweepClock.latest s.capacity).map
        (TimedOut.record s.sweepClock.latest) := by
  have hrecords := s.syscalls.records_sweepInto s.sweepClock.latest s.out
  rw [s.idle, List.nil_append, remaining_out] at hrecords
  exact hrecords

theorem capacity_sweepRound (s : Session) : s.sweepRound.1.capacity = s.capacity :=
  s.syscalls.capacity_sweepInto s.sweepClock.latest s.out

/-- What a round takes and what is overdue after it were overdue before it. -/
theorem perm_overdue_sweepRound (s : Session) :
    (s.syscalls.taken s.sweepClock.latest s.capacity ++ s.sweepRound.1.overdue).Perm s.overdue := by
  rw [← remaining_out]
  exact s.syscalls.perm_taken_append s.sweepClock.latest s.out.remaining

theorem length_overdue_sweepRound (s : Session) :
    s.sweepRound.1.overdue.length = s.overdue.length - s.capacity := by
  have hparts := s.perm_overdue_sweepRound.length_eq
  have htaken : (s.syscalls.taken s.sweepClock.latest s.capacity).length =
      min s.capacity s.overdue.length := s.syscalls.length_taken s.sweepClock.latest s.capacity
  rw [List.length_append, htaken] at hparts
  omega

section Sweep

variable {s : Session} (h : 1 ≤ s.capacity)
include h

theorem sweep_ends_iff :
    (s.syscalls.sweepInto s.sweepClock.latest s.out).count = 0 ↔ s.overdue = [] := by
  rw [SyscallTracker.count_sweepInto, remaining_out, ← List.length_eq_zero_iff, overdue]
  omega

theorem sweepAll_of_nil (hnil : s.overdue = []) : s.sweepAll = (s, []) := by
  rw [sweepAll, dif_pos ((sweep_ends_iff h).2 hnil)]

theorem sweepAll_of_ne (hne : s.overdue ≠ []) :
    s.sweepAll =
      (s.sweepRound.1.sweepAll.1, s.sweepRound.2 ++ s.sweepRound.1.sweepAll.2) := by
  rw [sweepAll, dif_neg fun hend => hne ((sweep_ends_iff h).1 hend)]
  rfl

/-- As many rounds are enough as outputs could hold the overdue calls, and one to see that none
is left. -/
theorem sweepRounds_eq {n : Nat} (hn : s.overdue.length ≤ s.capacity * n) :
    s.sweepRounds (n + 1) = some s.sweepAll := by
  induction n generalizing s with
  | zero =>
    have hnil : s.overdue = [] := List.length_eq_zero_iff.1 (by omega)
    rw [sweepRounds, if_pos ((sweep_ends_iff h).2 hnil), sweepAll_of_nil h hnil]
  | succ n ih =>
    rw [sweepRounds]
    by_cases hnil : s.overdue = []
    · rw [if_pos ((sweep_ends_iff h).2 hnil), sweepAll_of_nil h hnil]
    · have hrest : s.sweepRound.1.overdue.length ≤ s.sweepRound.1.capacity * n := by
        rw [length_overdue_sweepRound, capacity_sweepRound]
        rw [Nat.mul_succ] at hn
        omega
      have hround : 1 ≤ s.sweepRound.1.capacity := s.capacity_sweepRound.symm ▸ h
      rw [if_neg fun hend => hnil ((sweep_ends_iff h).1 hend), ih hround hrest,
        sweepAll_of_ne h hnil]
      rfl

end Sweep

/-! ### What the rounds of a flush write -/

/-- What one round writes: a front part of the backlog, and behind it what the path tracker
delivers in the room that is left. -/
structure Rounded (s : Session) (delivered : List (UInt32 × Sighting))
    (r : Session × List Record) : Prop where
  records : r.2 = s.monitor.backlog.take s.capacity ++
    delivered.map fun e => e.2.record s.monitor.latest
  wanted : delivered.Subperm s.monitor.paths.wanted
  length : delivered.length =
    min (s.capacity - s.monitor.pending) s.monitor.paths.wanted.length
  /-- Where nothing ages, what is not delivered is still wanted. -/
  rest : s.Settled → (delivered ++ r.1.monitor.paths.wanted).Perm s.monitor.paths.wanted

theorem exists_rounded (s : Session) : ∃ delivered, s.Rounded delivered s.flushRound := by
  let w := s.monitor.writeWindows s.out Windowed.close
  have hroom : w.out.remaining = s.capacity - s.monitor.pending := by
    rw [← remaining_out]
    exact s.monitor.remaining_closeWindows s.out
  have hrecords : w.out.records = s.monitor.backlog.take s.capacity := by
    have hwindows := s.monitor.records_closeWindows s.out
    rwa [s.idle, List.nil_append, remaining_out] at hwindows
  obtain ⟨delivered, h⟩ := s.monitor.paths.exists_delivers s.monitor.latest w.out
  refine ⟨delivered, ?_, h.wanted, ?_, fun hsettled => hsettled.perm_wanted_poll h⟩
  · rw [← hrecords]
    exact h.records
  · rw [← hroom]
    exact h.length

theorem backlog_flushRound (s : Session) :
    s.flushRound.1.monitor.backlog = s.monitor.backlog.drop s.capacity := by
  rw [← remaining_out]
  exact s.monitor.backlog_closeWindows s.out

theorem settled_flushRound (s : Session) : s.flushRound.1.Settled :=
  PathTracker.settled_poll _ _ _

/-- The room that the windows leave to the path tracker in the last round. -/
def room (s : Session) : Nat :=
  if s.monitor.pending = 0 then s.capacity
  else s.capacity - 1 - (s.monitor.pending - 1) % s.capacity

theorem room_of_le {s : Session} (h : 1 ≤ s.capacity) (hle : s.monitor.pending ≤ s.capacity) :
    s.room = s.capacity - s.monitor.pending := by
  rw [room]
  split
  · omega
  · rw [Nat.mod_eq_of_lt (by omega)]
    omega

/-- A round that is not the last one does not change the room of the last one. -/
theorem room_flushRound {s : Session} (hlt : s.capacity < s.monitor.pending) :
    s.flushRound.1.room = s.room := by
  have hmod : (s.monitor.pending - s.capacity - 1) % s.capacity =
      (s.monitor.pending - 1) % s.capacity := by
    rw [Nat.sub_right_comm, ← Nat.mod_eq_sub_mod (by omega)]
  rw [room, room, if_neg (by rw [pending_flushRound]; omega), if_neg (by omega),
    pending_flushRound, capacity_flushRound, hmod]

/-- What all rounds write: the whole backlog, and behind it what the path tracker delivers in the
room of the last round. -/
structure Drained (s : Session) (delivered : List (UInt32 × Sighting))
    (r : Session × List Record) : Prop where
  records : r.2 = s.monitor.backlog ++ delivered.map fun e => e.2.record s.monitor.latest
  pending : r.1.monitor.pending = 0
  frame : r.1.syscalls = s.syscalls ∧ r.1.sweepClock = s.sweepClock ∧ r.1.capacity = s.capacity
  /-- Where nothing ages, no room is wasted. -/
  wanted : s.Settled → delivered.Subperm s.monitor.paths.wanted ∧
    delivered.length = min s.room s.monitor.paths.wanted.length

theorem exists_drained {s : Session} (h : 1 ≤ s.capacity) :
    ∃ delivered, s.Drained delivered s.flushAll := by
  obtain ⟨delivered, hround⟩ := s.exists_rounded
  have hlength := s.monitor.length_backlog
  by_cases hle : s.monitor.pending ≤ s.capacity
  · rw [flushAll_of_le h hle]
    refine ⟨delivered, ?_, ?_, ⟨rfl, rfl, s.capacity_flushRound⟩, fun _ => ⟨hround.wanted, ?_⟩⟩
    · rw [hround.records, List.take_of_length_le (by omega)]
    · rw [pending_flushRound]
      omega
    · rw [room_of_le h hle]
      exact hround.length
  · have hlt := Nat.lt_of_not_le hle
    -- the windows fill the output of this round, so the path tracker waits for a later one
    have hnone : delivered = [] := by
      rw [← List.length_eq_zero_iff, hround.length]
      omega
    have hdecreases : s.flushRound.1.monitor.pending < s.monitor.pending := by
      rw [pending_flushRound]
      omega
    have hround' : 1 ≤ s.flushRound.1.capacity := s.capacity_flushRound.symm ▸ h
    obtain ⟨delivered', hrest⟩ := exists_drained hround'
    obtain ⟨hsyscalls, hclock, hcapacity⟩ := hrest.frame
    rw [flushAll_of_lt h hlt]
    refine ⟨delivered', ?_, hrest.pending,
      ⟨hsyscalls, hclock, hcapacity.trans s.capacity_flushRound⟩, fun hsettled => ?_⟩
    · rw [hround.records, hrest.records, hnone, backlog_flushRound, List.map_nil,
        List.append_nil, ← List.append_assoc, List.take_append_drop]
      rfl
    · have hperm := hround.rest hsettled
      rw [hnone, List.nil_append] at hperm
      obtain ⟨hsubperm, hcount⟩ := hrest.wanted s.settled_flushRound
      rw [room_flushRound hlt, hperm.length_eq] at hcount
      exact ⟨hsubperm.trans hperm.subperm, hcount⟩
termination_by s.monitor.pending

/-! ### What the rounds of a sweep write -/

/-- All rounds together write every overdue call and leave the young ones. -/
theorem sweepAll_writes {s : Session} (h : 1 ≤ s.capacity) :
    s.sweepAll.2.Perm (s.overdue.map (TimedOut.record s.sweepClock.latest)) ∧
      s.sweepAll.1.syscalls.calls.entries = s.syscalls.young s.sweepClock.latest ∧
      s.sweepAll.1.monitor = s.monitor := by
  by_cases hnil : s.overdue = []
  · rw [sweepAll_of_nil h hnil, hnil]
    exact ⟨.nil, (SyscallTracker.young_eq_entries hnil).symm, rfl⟩
  · have hdecreases : s.sweepRound.1.syscalls.size < s.syscalls.size :=
      SyscallTracker.size_sweepInto_lt fun hend => hnil ((sweep_ends_iff h).1 hend)
    have hround : 1 ≤ s.sweepRound.1.capacity := s.capacity_sweepRound.symm ▸ h
    obtain ⟨hlines, hleft, hmonitor⟩ := sweepAll_writes hround
    rw [sweepAll_of_ne h hnil]
    refine ⟨?_, ?_, hmonitor⟩
    · have hparts := s.perm_overdue_sweepRound.map (TimedOut.record s.sweepClock.latest)
      rw [List.map_append] at hparts
      rw [records_sweepRound]
      exact (hlines.append_left _).trans hparts
    · refine hleft.trans ?_
      exact s.syscalls.young_sweepInto s.sweepClock.latest s.out
termination_by s.syscalls.size

/-! ### The end of a capture -/

/-- What `finish` hands out: the backlog, tracked paths and overdue calls. -/
structure Finished (s : Session) (delivered : List (UInt32 × Sighting)) (l : Lines)
    (last : Session) : Prop where
  slow : l.slow = []
  handshakes : l.handshakes = Windowed.backlog s.monitor.table s.monitor.handshakes
  ackDelays : l.ackDelays = Windowed.backlog s.monitor.table s.monitor.ackDelays
  packets : l.packets = Windowed.backlog s.monitor.table s.monitor.packets
  paths : l.paths = delivered.map fun e => e.2.record s.monitor.latest
  overdue : l.overdue.Perm (s.overdue.map (TimedOut.record s.sweepClock.latest))
  pending : last.monitor.pending = 0
  calls : last.syscalls.calls.entries = s.syscalls.young s.sweepClock.latest
  wanted : s.Settled → delivered.Subperm s.monitor.paths.wanted ∧
    delivered.length = min s.room s.monitor.paths.wanted.length

theorem exists_finished {s : Session} (h : 1 ≤ s.capacity) :
    ∃ delivered l, s.finish.2 = l.all ∧ s.Finished delivered l s.finish.1 := by
  obtain ⟨delivered, hflush⟩ := exists_drained h
  obtain ⟨hsyscalls, hclock, hcapacity⟩ := hflush.frame
  obtain ⟨hlines, hleft, hmonitor⟩ := sweepAll_writes (hcapacity.symm ▸ h)
  rw [overdue, hsyscalls, hclock] at hlines
  rw [hsyscalls, hclock] at hleft
  let l : Lines :=
    { slow := []
      handshakes := Windowed.backlog s.monitor.table s.monitor.handshakes
      ackDelays := Windowed.backlog s.monitor.table s.monitor.ackDelays
      packets := Windowed.backlog s.monitor.table s.monitor.packets
      paths := delivered.map fun e => e.2.record s.monitor.latest
      overdue := s.flushAll.1.sweepAll.2
      name_slow := nofun
      name_handshakes := Windowed.name_backlog _ _
      name_ackDelays := Windowed.name_backlog _ _
      name_packets := Windowed.name_backlog _ _
      name_paths := name_delivered delivered s.monitor.latest
      name_overdue := fun r hr => name_evicted _ _ r (hlines.subset hr) }
  refine ⟨delivered, l, ?_, rfl, rfl, rfl, rfl, rfl, hlines, ?_, hleft, hflush.wanted⟩
  · show s.flushAll.2 ++ s.flushAll.1.sweepAll.2 = l.all
    rw [hflush.records]
    rfl
  · show s.flushAll.1.sweepAll.1.monitor.pending = 0
    rw [hmonitor]
    exact hflush.pending

/-- Nothing stays behind in a window. -/
theorem Finished.cut {s last : Session} {delivered : List (UInt32 × Sighting)} {l : Lines}
    (h : s.Finished delivered l last) : Cut s.monitor l last.monitor := by
  obtain ⟨hhandshakes, hackDelays, hpackets⟩ := Monitor.entries_of_pending h.pending
  have hlines : ∀ rs : List Record, rs = rs.take rs.length := fun rs => List.take_length.symm
  refine ⟨⟨_, h.handshakes.trans (hlines _), ?_⟩, ⟨_, h.ackDelays.trans (hlines _), ?_⟩,
    ⟨_, h.packets.trans (hlines _), ?_⟩⟩
  · rw [hhandshakes, Windowed.length_backlog]
    exact (List.drop_length ..).symm
  · rw [hackDelays, Windowed.length_backlog]
    exact (List.drop_length ..).symm
  · rw [hpackets, Windowed.length_backlog]
    exact (List.drop_length ..).symm

/-- **The end of a capture drains the windows and the overdue calls.** Both loops of `finish` end,
after no more rounds than outputs could be filled and one or two on top. Then every aggregate
there was has been written once, under its analyzer's name, and none is left; every call that is
overdue at the latest event has been written once, and the others are tracked as before, with no
record: whatever call a record is of, it is there once if the call is overdue, and never
otherwise. -/
theorem finish_drains (s : Session) (h : 1 ≤ s.capacity) :
    let m := s.monitor
    let now := s.sweepClock.latest
    let overdue := s.syscalls.overdue now
    let lines (name : String) := Record.named name s.finish.2
    s.flushRounds (m.pending / s.capacity + 1) = some s.flushAll ∧
      s.flushAll.1.sweepRounds (overdue.length / s.capacity + 2) = some s.flushAll.1.sweepAll ∧
      lines Handshakes.recordName = m.handshakes.window.backlog (Handshakes.record m.table) ∧
      lines AckDelays.recordName = m.ackDelays.window.backlog AckDelays.record ∧
      lines PacketCounts.recordName = m.packets.window.backlog PacketCounts.record ∧
      s.finish.1.monitor.pending = 0 ∧
      (lines TimedOut.recordName).Perm (overdue.map (TimedOut.record now)) ∧
      (∀ o : TimedOut, s.finish.2.count (o.record now) = if o ∈ overdue then 1 else 0) ∧
      lines SyscallTracker.slowName = [] ∧
      s.finish.1.syscalls.calls.entries = s.syscalls.young now := by
  intro m now overdue lines
  obtain ⟨delivered, hflush⟩ := exists_drained h
  obtain ⟨hsyscalls, hclock, hcapacity⟩ := hflush.frame
  have hoverdue : s.flushAll.1.overdue.length = overdue.length := by
    rw [Session.overdue, hsyscalls, hclock]
  obtain ⟨delivered, l, hall, hfinish⟩ := exists_finished h
  have hlines : (lines TimedOut.recordName).Perm (overdue.map (TimedOut.record now)) := by
    simp only [lines]
    rw [hall, l.named_overdue]
    exact hfinish.overdue
  refine ⟨flushRounds_eq h ?_, sweepRounds_eq (hcapacity.symm ▸ h) ?_, ?_, ?_, ?_,
    hfinish.pending, hlines, fun o => ?_, ?_, hfinish.calls⟩
  · exact Nat.le_of_lt (Nat.lt_mul_div_succ _ h)
  · rw [hoverdue, hcapacity]
    exact Nat.le_of_lt (Nat.lt_mul_div_succ _ h)
  · show Record.named _ s.finish.2 = _
    rw [hall, l.named_handshakes, hfinish.handshakes]
    rfl
  · show Record.named _ s.finish.2 = _
    rw [hall, l.named_ackDelays, hfinish.ackDelays]
    rfl
  · show Record.named _ s.finish.2 = _
    rw [hall, l.named_packets, hfinish.packets]
    rfl
  · have hname : (o.record now).name = TimedOut.recordName := rfl
    rw [← Record.count_named, hname, hlines.count_eq]
    exact TimedOut.count_record (s.syscalls.nodup_overdue now) now o
  · show Record.named _ s.finish.2 = _
    rw [hall, l.named_slow, hfinish.slow]

/-- Through an output for one record go two flows and an overdue call; a later call stays. -/
theorem finish_drains_one :
    let seg (port : UInt16) : Segment :=
      { time := 20, flow := ⟨⟨1⟩, ⟨2⟩, port, 80, 7⟩, seq := 7, ack := 0, flags := 0 }
    let m := (Monitor.make { kinds := Keyed.empty.insert 7 .container } 5 10).ingestAll
      [seg 1000, seg 2000, seg 1000]
    let calls : SyscallTracker := { threshold := 1, timeout := 10 }
    let s : Session :=
      { monitor := m, syscalls := (calls.enter 1 8 3 4).enter 2 8 3 15
        sweepClock := { interval := 5, latest := 20 }, out := { capacity := 1 } }
    1 ≤ s.capacity ∧ s.flushRounds 3 = some s.flushAll ∧
      Record.named PacketCounts.recordName s.finish.2 =
        [PacketCounts.record 20 (seg 1000).flow ⟨2, .received⟩,
          PacketCounts.record 20 (seg 2000).flow ⟨1, .received⟩] ∧
      (Record.named TimedOut.recordName s.finish.2).Perm
        [TimedOut.record 20 ⟨1, ⟨4, 3, 8⟩, 16⟩] ∧
      s.finish.1.syscalls.calls.entries = [(2, ⟨15, 3, 8⟩)] := by
  intro seg m calls s
  have hcapacity : 1 ≤ s.capacity := by decide
  obtain ⟨hrounds, -, -, -, hpackets, -, hoverdue, -, -, hyoung⟩ := finish_drains s hcapacity
  have hpending : s.monitor.pending / s.capacity + 1 = 3 := by decide
  rw [hpending] at hrounds
  refine ⟨hcapacity, hrounds, hpackets.trans ?_, hoverdue.trans (.of_eq ?_), hyoung.trans ?_⟩
  · decide
  · decide
  · decide

/-! ### Tracked paths at the end -/

theorem exists_paths_finish {s : Session} (h : 1 ≤ s.capacity) (hsettled : s.Settled) :
    ∃ delivered : List (UInt32 × Sighting), delivered.Subperm s.monitor.paths.wanted ∧
      delivered.length = min s.room s.monitor.paths.wanted.length ∧
      Record.named Sighting.recordName s.finish.2 =
        delivered.map fun e => e.2.record s.monitor.latest := by
  obtain ⟨delivered, l, hall, hfinish⟩ := exists_finished h
  obtain ⟨hsubperm, hlength⟩ := hfinish.wanted hsettled
  refine ⟨delivered, hsubperm, hlength, ?_⟩
  rw [hall, l.named_paths, hfinish.paths]

/-- **Tracked paths are written at the end as far as the last round has room.** In every run what
is wanted from the path tracker is written by `finish` if and only if it fits into the room that
the windows leave in the last round of the flush; the loop does not go on for the tracker. -/
theorem paths_written_iff (settings : Settings) (s : Session)
    (h : ofSettings settings = .ok s) (hcapacity : 1 ≤ s.capacity) (calls : List Call) :
    let t := s.run calls
    (t.monitor.paths.wanted.map fun e => e.2.record t.monitor.latest).Subperm
        (Record.named Sighting.recordName t.finish.2) ↔
      t.monitor.paths.wanted.length ≤ t.room := by
  intro t
  have htcapacity : 1 ≤ t.capacity := (s.capacity_run calls).symm ▸ hcapacity
  obtain ⟨delivered, hsubperm, hlength, hlines⟩ :=
    exists_paths_finish htcapacity (settled_run h calls)
  rw [hlines]
  constructor
  · intro hwritten
    have hle := hwritten.length_le
    rw [List.length_map, List.length_map, hlength] at hle
    omega
  · intro hroom
    have hperm : delivered.Perm t.monitor.paths.wanted := by
      refine hsubperm.perm_of_length_le ?_
      omega
    exact (hperm.symm.map _).subperm

/-- Three segments come into the span of their pair at once. With an output for two records the
poll leaves one, and the end of the capture writes it. -/
theorem paths_written_one :
    let settings : Settings := { outputCapacity := 2, thresholdMs := 1, timeoutMs := 2 }
    let s : Session :=
      { monitor := .ofSettings settings {}
        syscalls := { threshold := settings.threshold, timeout := settings.timeout }
        sweepClock := { interval := settings.flushInterval }, out := { capacity := 2 } }
    let flow : Flow := ⟨⟨1⟩, ⟨2⟩, 1000, 80, 1⟩
    let segment (time : Nanos) : Call := .apply (.segment { time, flow, seq := 7 })
    let calls : List Call := [.apply (.focusPod ⟨1⟩ ⟨2⟩ ⟨1000, 2000⟩ .update), segment 10,
      segment 11, segment 12, .apply (.focusPod ⟨1⟩ ⟨2⟩ ⟨0, 1000⟩ .update)]
    let t := s.run calls
    (ofSettings settings = .ok s ∧ 1 ≤ s.capacity) ∧
      t.monitor.paths.wanted.map Prod.snd = [⟨flow, 7, 12⟩] ∧
      Sighting.record 12 ⟨flow, 7, 12⟩ ∈ t.finish.2 := by
  intro settings s flow segment calls t
  have hsession : ofSettings settings = .ok s := rfl
  have hcapacity : 1 ≤ s.capacity := by decide
  have hwanted : t.monitor.paths.wanted.map Prod.snd = [⟨flow, 7, 12⟩] := by decide
  have hroom : t.monitor.paths.wanted.length ≤ t.room := by decide
  have hmem : Sighting.record 12 ⟨flow, 7, 12⟩ ∈
      t.monitor.paths.wanted.map fun e => e.2.record t.monitor.latest := by decide
  refine ⟨⟨hsession, hcapacity⟩, hwanted, ?_⟩
  simp only [t] at hroom hmem ⊢
  have hwritten := (paths_written_iff settings s hsession hcapacity calls).2 hroom
  exact (List.mem_filter.1 (hwritten.subset hmem)).1

/-- Three segments come into the span of their pair at once. With an output for one record the
poll leaves two of them; the end of the capture writes one and leaves the other behind, since
its loop looks at the windows alone. -/
theorem paths_left_behind :
    let settings : Settings := { outputCapacity := 1, thresholdMs := 1, timeoutMs := 2 }
    let s : Session :=
      { monitor := .ofSettings settings {}
        syscalls := { threshold := settings.threshold, timeout := settings.timeout }
        sweepClock := { interval := settings.flushInterval }, out := { capacity := 1 } }
    let flow : Flow := ⟨⟨1⟩, ⟨2⟩, 1000, 80, 1⟩
    let segment (time : Nanos) : Call := .apply (.segment { time, flow, seq := 7 })
    let calls : List Call := [.apply (.focusPod ⟨1⟩ ⟨2⟩ ⟨1000, 2000⟩ .update), segment 10,
      segment 11, segment 12, .apply (.focusPod ⟨1⟩ ⟨2⟩ ⟨0, 1000⟩ .update)]
    let t := s.run calls
    ofSettings settings = .ok s ∧
      t.monitor.paths.wanted.map Prod.snd = [⟨flow, 7, 11⟩, ⟨flow, 7, 12⟩] ∧
      (Record.named Sighting.recordName t.finish.2).length = 1 := by
  intro settings s flow segment calls t
  have hsession : ofSettings settings = .ok s := rfl
  have hcapacity : 1 ≤ t.capacity := by decide
  have hwanted : t.monitor.paths.wanted.map Prod.snd = [⟨flow, 7, 11⟩, ⟨flow, 7, 12⟩] := by decide
  have hroom : min t.room t.monitor.paths.wanted.length = 1 := by decide
  obtain ⟨delivered, -, hlength, hlines⟩ := exists_paths_finish hcapacity (settled_run hsession calls)
  refine ⟨hsession, hwanted, ?_⟩
  rw [hlines, List.length_map, hlength, hroom]

end FlowProbe.Session
