import FlowProbe.Proofs.Monitor.Blocks
import FlowProbe.Proofs.Session.Finish
import FlowProbe.Proofs.Wire.Ring

/-! Every line is accounted for.

A session counts the lines that it hands out, and each analyzer counts those that are its own.
The counts are kept apart from each other: one output holds what four analyzers, a slow call and
a sweep write, and it is handed out at the end of a call. `Books` is what a way from one session
to another owes, and the books of two ways add up (`Books.append`). They balance for a call, for
a round at the end of a capture, and so for a whole replay (`output_accounted`). -/
namespace FlowProbe

/-! ### Taking traffic in -/

theorem Handshakes.emitted_ingest (t : InterfaceTable) (h : Handshakes) (s : Segment) :
    (h.ingest t s).window.counters.emitted = h.window.counters.emitted := by
  rw [ingest]
  cases t.isContainer s.flow.iface with
  | false => rfl
  | true =>
    cases s.has .syn <;> cases s.has .ack
    · rfl
    · simp only [if_true, onAck]
      split <;> rfl
    · rfl
    · simp only [if_true, onSynAck]
      split <;> rfl

theorem AckDelays.emitted_ingest (t : InterfaceTable) (a : AckDelays) (s : Segment) :
    (a.ingest t s).window.counters.emitted = a.window.counters.emitted := by
  rw [ingest]
  split
  · cases t.direction s.flow s.hint with
    | received =>
      simp only [onAck]
      split <;> rfl
    | sent => rfl
  · rfl

theorem PacketCounts.emitted_enter (t : InterfaceTable) (p : PacketCounts) (time : Nanos)
    (f : Flow) (hint : UInt8) (first : Nat) (next : Nat → Nat) :
    (p.enter t time f hint first next).window.counters.emitted = p.window.counters.emitted := by
  rw [enter]
  split <;> rfl

theorem PathTracker.emitted_ingest (table : InterfaceTable) (t : PathTracker) (s : Segment) :
    (t.ingest table s).counters.emitted = t.counters.emitted := by
  rw [ingest]
  split <;> rfl

namespace Monitor

/-- No analyzer emits anything on the way from `m` to `n`. -/
structure Silent (m n : Monitor) : Prop where
  handshakes : n.handshakes.window.counters.emitted = m.handshakes.window.counters.emitted
  ackDelays : n.ackDelays.window.counters.emitted = m.ackDelays.window.counters.emitted
  packets : n.packets.window.counters.emitted = m.packets.window.counters.emitted
  paths : n.paths.counters.emitted = m.paths.counters.emitted

theorem Silent.refl (m : Monitor) : Silent m m := ⟨rfl, rfl, rfl, rfl⟩

theorem Silent.trans {m n o : Monitor} (h : Silent m n) (h' : Silent n o) : Silent m o :=
  ⟨h'.handshakes.trans h.handshakes, h'.ackDelays.trans h.ackDelays, h'.packets.trans h.packets,
    h'.paths.trans h.paths⟩

theorem silent_ingest (m : Monitor) (s : Segment) : Silent m (m.ingest s) :=
  ⟨m.handshakes.emitted_ingest m.table s, m.ackDelays.emitted_ingest m.table s,
    m.packets.emitted_enter m.table s.time s.flow s.hint 1 (· + 1), m.paths.emitted_ingest m.table s⟩

theorem silent_ingestAll (m : Monitor) (segments : List Segment) :
    Silent m (m.ingestAll segments) := by
  induction segments generalizing m with
  | nil => exact .refl m
  | cons s rest ih => exact (m.silent_ingest s).trans (ih (m.ingest s))

theorem silent_take (m : Monitor) (e : Event) : Silent m (m.take e) := by
  cases e with
  | segment e => exact m.silent_ingest e.segment
  | reported e => exact ⟨rfl, rfl, m.packets.emitted_enter m.table _ _ _ _ _, rfl⟩
  | focusPod source dest span op => cases op <;> exact ⟨rfl, rfl, rfl, rfl⟩
  | syscallEnter => exact .refl m
  | syscallExit => exact .refl m

theorem silent_reorder (m : Monitor) (order : Orders) : Silent m (m.reorder order) :=
  ⟨rfl, rfl, rfl, rfl⟩

end Monitor

/-! ### The books of a session -/

namespace Session

/-- How many lines have the name. -/
def count (name : String) (lines : List Record) : Nat := (Record.named name lines).length

theorem count_append (name : String) (lines lines' : List Record) :
    count name (lines ++ lines') = count name lines + count name lines' := by
  rw [count, Record.named_append, List.length_append]
  rfl

/-- The books of a way from `s` to `u` that takes in `events` and hands out `lines`. -/
structure Books (s : Session) (events : Nat) (lines : List Record) (u : Session) : Prop where
  events : u.events = s.events + events
  records : u.records = s.records + lines.length
  handshakes : u.monitor.handshakes.window.counters.emitted =
    s.monitor.handshakes.window.counters.emitted + count Handshakes.recordName lines
  ackDelays : u.monitor.ackDelays.window.counters.emitted =
    s.monitor.ackDelays.window.counters.emitted + count AckDelays.recordName lines
  packets : u.monitor.packets.window.counters.emitted =
    s.monitor.packets.window.counters.emitted + count PacketCounts.recordName lines
  paths : u.monitor.paths.counters.emitted =
    s.monitor.paths.counters.emitted + count Sighting.recordName lines
  /-- There are no lines but of the four analyzers, of slow calls and of overdue ones. -/
  total : lines.length =
    count Handshakes.recordName lines + count AckDelays.recordName lines +
      count PacketCounts.recordName lines + count Sighting.recordName lines +
      count SyscallTracker.slowName lines + count TimedOut.recordName lines

theorem Books.nothing (s : Session) : Books s 0 [] s := ⟨rfl, rfl, rfl, rfl, rfl, rfl, rfl⟩

/-- The books of two ways add up to those of the whole way. -/
theorem Books.append {s t u : Session} {n k : Nat} {lines lines' : List Record}
    (h : Books s n lines t) (h' : Books t k lines' u) : Books s (n + k) (lines ++ lines') u := by
  refine ⟨?_, ?_, ?_, ?_, ?_, ?_, ?_⟩
  · rw [h'.events, h.events, Nat.add_assoc]
  · rw [h'.records, h.records, List.length_append, Nat.add_assoc]
  · rw [h'.handshakes, h.handshakes, count_append, Nat.add_assoc]
  · rw [h'.ackDelays, h.ackDelays, count_append, Nat.add_assoc]
  · rw [h'.packets, h.packets, count_append, Nat.add_assoc]
  · rw [h'.paths, h.paths, count_append, Nat.add_assoc]
  · have htotal := h.total
    have htotal' := h'.total
    simp only [List.length_append, count_append]
    omega

/-- The books balance where the lines are known by their sources. -/
theorem books_of_lines {s u : Session} {n : Nat} (l : Lines) (hevents : u.events = s.events + n)
    (hrecords : u.records = s.records + l.all.length)
    (hhandshakes : u.monitor.handshakes.window.counters.emitted =
      s.monitor.handshakes.window.counters.emitted + l.handshakes.length)
    (hackDelays : u.monitor.ackDelays.window.counters.emitted =
      s.monitor.ackDelays.window.counters.emitted + l.ackDelays.length)
    (hpackets : u.monitor.packets.window.counters.emitted =
      s.monitor.packets.window.counters.emitted + l.packets.length)
    (hpaths : u.monitor.paths.counters.emitted =
      s.monitor.paths.counters.emitted + l.paths.length) : Books s n l.all u := by
  refine ⟨hevents, hrecords, ?_, ?_, ?_, ?_, ?_⟩
  · rw [hhandshakes, count, l.named_handshakes]
  · rw [hackDelays, count, l.named_ackDelays]
  · rw [hpackets, count, l.named_packets]
  · rw [hpaths, count, l.named_paths]
  · have hlength : l.all.length = l.slow.length + l.handshakes.length + l.ackDelays.length +
        l.packets.length + l.paths.length + l.overdue.length := by
      simp only [Lines.all, List.length_append]
    simp only [count, l.named_handshakes, l.named_ackDelays, l.named_packets, l.named_paths,
      l.named_slow, l.named_overdue, hlength]
    omega

/-- What the monitor writes between lines for slow calls and lines for overdue ones. -/
theorem books_of_writes {s u : Session} {n : Nat} {m : Monitor} {out : Buffer}
    {b : Monitor.Blocks} {w : Written Monitor} (h : m.Writes out b w) (hm : s.monitor.Silent m)
    (hu : u.monitor = w.state) (hevents : u.events = s.events + n) (swept : List Record)
    (hrecords : u.records = s.records + (w.out.records ++ swept).length)
    (hslow : ∀ r ∈ out.records, r.name = SyscallTracker.slowName)
    (hswept : ∀ r ∈ swept, r.name = TimedOut.recordName) :
    Books s n (w.out.records ++ swept) u := by
  let l : Lines :=
    { slow := out.records
      handshakes := b.handshakes
      ackDelays := b.ackDelays
      packets := b.packets
      paths := b.paths
      overdue := swept
      name_slow := hslow
      name_handshakes := h.nameHandshakes
      name_ackDelays := h.nameAckDelays
      name_packets := h.namePackets
      name_paths := h.namePaths
      name_overdue := hswept }
  have hall : w.out.records ++ swept = l.all := by
    rw [h.records]
    simp only [l, Lines.all, Monitor.Blocks.all, List.append_assoc]
  rw [hall] at hrecords ⊢
  refine books_of_lines l hevents hrecords ?_ ?_ ?_ ?_
  · rw [hu, h.handshakes, hm.handshakes]
  · rw [hu, h.ackDelays, hm.ackDelays]
  · rw [hu, h.packets, hm.packets]
  · rw [hu, h.paths, hm.paths]

/-! ### Calls -/

/-- How many events a call takes in: one, or every slot of a ring that is between its
cursors. -/
def Call.events : Call → Nat
  | .apply .. => 1
  | .applyRing r _ => r.size
  | .reorder _ => 0

/-- How many events a run takes in. -/
def eventsOf : List Call → Nat
  | [] => 0
  | call :: rest => call.events + eventsOf rest

theorem counts_sweep (w : Work) : w.sweep.events = w.events ∧ w.sweep.records = w.records := by
  rw [Work.sweep]
  split <;> exact ⟨rfl, rfl⟩

theorem books_apply (s : Session) (e : Event) (order : Orders) :
    Books s 1 (s.written (.apply e order)) (s.step (.apply e order)) := by
  let m := (s.monitor.take e).reorder order
  obtain ⟨swept, hswept, hname⟩ := records_sweep (s.polled e order)
  obtain ⟨hevents, hrecords⟩ := counts_sweep (s.polled e order)
  have hmonitor := s.monitor_apply e order
  rw [step, perform_apply_eq] at hmonitor
  rw [written, step, perform_apply_eq]
  have hlines : (s.polled e order).sweep.emit.2 = (m.poll (s.taken e).out).out.records ++ swept :=
    hswept
  have hcount : (s.polled e order).sweep.emit.1.records =
      s.records + ((m.poll (s.taken e).out).out.records ++ swept).length := by
    rw [← hlines]
    exact congrArg (· + _) hrecords
  rw [hlines]
  exact books_of_writes (m.writes_poll (s.taken e).out)
    ((s.monitor.silent_take e).trans (Monitor.silent_reorder _ order)) hmonitor hevents swept hcount
    (s.name_taken e) hname

/-- The books of a way on which an empty output is written to and handed out. -/
theorem books_of_idle {s u : Session} {n : Nat} {m : Monitor} {b : Monitor.Blocks}
    {w : Written Monitor} (h : m.Writes s.out b w) (hm : s.monitor.Silent m)
    (hu : u.monitor = w.state) (hevents : u.events = s.events + n)
    (hrecords : u.records = s.records + w.out.size) : Books s n w.out.records u := by
  have hnothing : ∀ r ∈ s.out.records, r.name = SyscallTracker.slowName := by
    rw [s.idle]
    exact List.forall_mem_nil _
  have hlines := List.append_nil w.out.records
  rw [Buffer.size, ← hlines] at hrecords
  rw [← hlines]
  exact books_of_writes h hm hu hevents [] hrecords hnothing (List.forall_mem_nil _)

theorem books_step (s : Session) (call : Call) :
    Books s call.events (s.written call) (s.step call) := by
  cases call with
  | apply e order => exact s.books_apply e order
  | applyRing r order =>
    have hevents : (s.step (.applyRing r order)).events = s.events + r.size :=
      congrArg _ r.length_items
    exact books_of_idle (Monitor.writes_poll _ s.out)
      ((s.monitor.silent_ingestAll r.items).trans (Monitor.silent_reorder _ order))
      (s.monitor_applyRing r order) hevents rfl
  | reorder order => exact ⟨rfl, rfl, rfl, rfl, rfl, rfl, rfl⟩

theorem books_run (s : Session) (calls : List Call) :
    Books s (eventsOf calls) (s.lines calls) (s.run calls) := by
  induction calls generalizing s with
  | nil => exact .nothing s
  | cons call rest ih => exact (s.books_step call).append (ih (s.step call))

/-! ### The end of a capture -/

theorem books_flushRound (s : Session) : Books s 0 s.flushRound.2 s.flushRound.1 :=
  books_of_idle (s.monitor.writes_flushAll s.out) (.refl s.monitor) rfl rfl rfl

theorem books_sweepRound (s : Session) : Books s 0 s.sweepRound.2 s.sweepRound.1 := by
  let l : Lines :=
    { slow := [], handshakes := [], ackDelays := [], packets := [], paths := []
      overdue := s.sweepRound.2
      name_slow := nofun, name_handshakes := nofun, name_ackDelays := nofun
      name_packets := nofun, name_paths := nofun
      name_overdue := fun r hr => by
        rw [records_sweepRound] at hr
        exact name_evicted _ _ r hr }
  exact books_of_lines l rfl rfl rfl rfl rfl rfl

theorem books_flushAll (s : Session) : Books s 0 s.flushAll.2 s.flushAll.1 := by
  have hround := s.books_flushRound
  rw [flushAll]
  split
  · exact hround
  · next hmore =>
    have hless := Monitor.pending_flushAll_lt (fun h => hmore (.inl h)) fun h => hmore (.inr h)
    exact hround.append (books_flushAll s.flushRound.1)
termination_by s.monitor.pending

theorem books_sweepAll (s : Session) : Books s 0 s.sweepAll.2 s.sweepAll.1 := by
  have hround := s.books_sweepRound
  rw [sweepAll]
  split
  · exact .nothing s
  · next hmore =>
    have hless := SyscallTracker.size_sweepInto_lt hmore
    exact hround.append (books_sweepAll s.sweepRound.1)
termination_by s.syscalls.size

theorem books_finish (s : Session) : Books s 0 s.finish.2 s.finish.1 :=
  s.books_flushAll.append s.flushAll.1.books_sweepAll

/-! ### A whole replay -/

theorem books_replayed (s : Session) (calls : List Call) :
    Books s (eventsOf calls) (s.replayed calls) (s.run calls).finish.1 :=
  (s.books_run calls).append (s.run calls).books_finish

/-- What a session that took in `events` and handed out `lines` has counted, from its first
event on. -/
structure Accounted (events : Nat) (lines : List Record) (s : Session) : Prop where
  events : s.events = events
  records : s.records = lines.length
  handshakes : s.monitor.handshakes.window.counters.emitted = count Handshakes.recordName lines
  ackDelays : s.monitor.ackDelays.window.counters.emitted = count AckDelays.recordName lines
  packets : s.monitor.packets.window.counters.emitted = count PacketCounts.recordName lines
  paths : s.monitor.paths.counters.emitted = count Sighting.recordName lines
  total : s.records =
    s.monitor.handshakes.window.counters.emitted + s.monitor.ackDelays.window.counters.emitted +
      s.monitor.packets.window.counters.emitted + s.monitor.paths.counters.emitted +
      count SyscallTracker.slowName lines + count TimedOut.recordName lines

/-- A session opens with all its counts at zero. -/
theorem accounted_of_books {settings : Settings} {s : Session} (h : ofSettings settings = .ok s)
    {n : Nat} {lines : List Record} {u : Session} (hbooks : Books s n lines u) :
    Accounted n lines u := by
  rw [ofSettings] at h
  cases ht : settings.table with
  | error fault =>
    rw [ht] at h
    cases h
  | ok table =>
    rw [ht] at h
    cases h
    obtain ⟨hevents, hrecords, hhandshakes, hackDelays, hpackets, hpaths, htotal⟩ := hbooks
    replace hevents := hevents.trans (Nat.zero_add _)
    replace hrecords := hrecords.trans (Nat.zero_add _)
    replace hhandshakes := hhandshakes.trans (Nat.zero_add _)
    replace hackDelays := hackDelays.trans (Nat.zero_add _)
    replace hpackets := hpackets.trans (Nat.zero_add _)
    replace hpaths := hpaths.trans (Nat.zero_add _)
    refine ⟨hevents, hrecords, hhandshakes, hackDelays, hpackets, hpaths, ?_⟩
    rw [hrecords, hhandshakes, hackDelays, hpackets, hpaths, htotal]

theorem appends_sweepInto (t : SyscallTracker) (now : Nanos) (out : Buffer) :
    Appends out (t.sweepInto now out) := by
  refine appends_of_records (t.records_sweepInto now out) ?_ ?_
  · rw [List.length_map]
    rfl
  · exact t.remaining_sweepInto now out

/-- **Every line is accounted for.** Whatever an output holds and has room for, polls, full
flushes and sweeps leave what it holds in front, append no more than there is room for and say
how many. So in every replay the count of records is the number of lines, each analyzer's count
of what it emitted is the number of the lines with its name, the other lines are those of slow
and overdue calls, and the count of events is that of the events applied and the slots of the
rings. -/
theorem output_accounted :
    (∀ (m : Monitor) (out : Buffer), Appends out (m.poll out) ∧ Appends out (m.flushAll out)) ∧
    (∀ (t : SyscallTracker) (now : Nanos) (out : Buffer), Appends out (t.sweepInto now out)) ∧
    ∀ (settings : Settings) (s : Session), ofSettings settings = .ok s → ∀ calls : List Call,
      Accounted (eventsOf calls) (s.replayed calls) (s.run calls).finish.1 := by
  refine ⟨fun m out => ⟨?_, ?_⟩, appends_sweepInto, fun settings s h calls => ?_⟩
  · exact (m.writes_poll out).appends
  · exact (m.writes_flushAll out).appends
  · exact accounted_of_books h (s.books_replayed calls)

/-- One record at a time: a tracked segment, a ring around the end of its row and a slow call. -/
theorem output_accounted_one :
    let settings : Settings := { outputCapacity := 1, thresholdMs := 1, timeoutMs := 2 }
    let s : Session :=
      { monitor := .ofSettings settings {}
        syscalls := { threshold := settings.threshold, timeout := settings.timeout }
        sweepClock := { interval := settings.flushInterval }, out := { capacity := 1 } }
    let segment (time : Nanos) : Segment :=
      { time, flow := ⟨⟨1⟩, ⟨2⟩, 1000, 80, 1⟩, seq := 7, ack := 0, flags := 0 }
    let ring : Ring Segment := ⟨[segment 11, segment 0, segment 10], 2, 1, by decide, by decide⟩
    let calls : List Call := [.apply (.focusPod ⟨1⟩ ⟨2⟩ ⟨0, 90⟩ .update), .applyRing ring,
      .apply (.syscallEnter 1 2 3 4), .apply (.syscallExit 1 1000004)]
    let last := (s.run calls).finish.1
    ofSettings settings = .ok s ∧ last.events = 5 ∧ last.records = (s.replayed calls).length ∧
      last.monitor.paths.counters.emitted = count Sighting.recordName (s.replayed calls) := by
  intro settings s segment ring calls last
  have hsession : ofSettings settings = .ok s := rfl
  have h := output_accounted.2.2 settings s hsession calls
  exact ⟨hsession, h.events, h.records, h.paths⟩

end Session

end FlowProbe
