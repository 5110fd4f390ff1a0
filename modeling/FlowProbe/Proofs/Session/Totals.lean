import FlowProbe.Proofs.Session.Finish
import FlowProbe.Proofs.Window.Totals
import FlowProbe.Replay

/-! What a whole replay adds up to.

Four figures add up over the lines of a replay: handshakes, acknowledgment delays, the sum of
these delays, and packets. What an event adds to a figure is decided by what the monitor
remembers (`held_take`), a call moves what is held to its lines and neither makes nor loses any
of it (`tally_of_cut`), and the end of the capture writes the rest. So the lines of a replay
add up to what its events add (`tally_replayed`). Neither the output nor the order of a map has a
part in what a monitor remembers, so that depends on no capacity and on no order
(`totals_of_any_capacity`). A line shows a word, so this is said of replays in which no sum passes
the end of its word (`Bounded`). -/
namespace FlowProbe
open Session

/-- What adds up over the lines of the windows. -/
inductive Figure where
  | handshakes
  | delays
  | delaySum
  | packets
  deriving DecidableEq, Repr

namespace Figure

/-- The name of the lines that show the figure. -/
def name : Figure → String
  | .handshakes => Handshakes.recordName
  | .delays | .delaySum => AckDelays.recordName
  | .packets => PacketCounts.recordName

/-- The attribute that shows it. -/
def key : Figure → String
  | .handshakes | .delays => "data_counts"
  | .delaySum => "acktime_delta"
  | .packets => "packet_counts"

/-- What lines add up to for four ends. -/
def tally (q : Figure) (e : Ends) (rs : List Record) : Int := e.tally q.name q.key rs

/-- What waits in the windows of a monitor. -/
def held (q : Figure) (e : Ends) (m : Monitor) : Int :=
  match q with
  | .handshakes => e.total (fun r => r.count) m.handshakes.window.aggregates.entries
  | .delays => e.total (fun d => d.count) m.ackDelays.window.aggregates.entries
  | .delaySum => e.total Delays.sum m.ackDelays.window.aggregates.entries
  | .packets => e.total (fun p => p.total) m.packets.window.aggregates.entries

/-- In every aggregate the figure is within the word that shows it. -/
def Fits (q : Figure) (m : Monitor) : Prop :=
  match q with
  | .handshakes => ∀ p ∈ m.handshakes.window.aggregates.entries, p.2.count < UInt64.size
  | .delays => ∀ p ∈ m.ackDelays.window.aggregates.entries, p.2.count < UInt64.size
  | .delaySum => ∀ p ∈ m.ackDelays.window.aggregates.entries,
    -2 ^ 63 ≤ p.2.sum ∧ p.2.sum < 2 ^ 63
  | .packets => ∀ p ∈ m.packets.window.aggregates.entries, p.2.total < UInt64.size

instance (q : Figure) (m : Monitor) : Decidable (q.Fits m) :=
  match q with
  | .handshakes => inferInstanceAs
    (Decidable (∀ p ∈ m.handshakes.window.aggregates.entries, p.2.count < UInt64.size))
  | .delays => inferInstanceAs
    (Decidable (∀ p ∈ m.ackDelays.window.aggregates.entries, p.2.count < UInt64.size))
  | .delaySum => inferInstanceAs (Decidable (∀ p ∈ m.ackDelays.window.aggregates.entries,
    -2 ^ 63 ≤ p.2.sum ∧ p.2.sum < 2 ^ 63))
  | .packets => inferInstanceAs
    (Decidable (∀ p ∈ m.packets.window.aggregates.entries, p.2.total < UInt64.size))

/-! ### The share of an event -/

/-- What a segment adds to the figure of its own ends. -/
def share (q : Figure) (m : Monitor) (s : Segment) : Int :=
  match q with
  | .handshakes => if m.handshakes.completes m.table s then 1 else 0
  | .delays => ((m.ackDelays.sample? m.table s).map fun _ => 1).getD 0
  | .delaySum => ((m.ackDelays.sample? m.table s).map id).getD 0
  | .packets => if m.table.isContainer s.flow.iface then 1 else 0

theorem held_ingest (q : Figure) (e : Ends) (m : Monitor) (s : Segment) :
    q.held e (m.ingest s) = q.held e m + if s.flow.ends = e then q.share m s else 0 := by
  cases q with
  | handshakes => exact m.handshakes.total_ingest m.table s e
  | delays => exact AckDelays.total_ingest AckDelays.adds_count m.table m.ackDelays s e
  | delaySum => exact AckDelays.total_ingest AckDelays.adds_sum m.table m.ackDelays s e
  | packets => exact m.packets.total_ingest m.table s e

/-- What an event other than a report adds. -/
def gain (q : Figure) (e : Ends) (m : Monitor) : Event → Int
  | .segment event => if event.flow.ends = e then q.share m event.segment else 0
  | _ => 0

/-- Only the packets of a report are not a sum. -/
def Additive (q : Figure) (event : Event) : Prop := q = .packets → ∀ r, event ≠ .reported r

theorem held_take {q : Figure} {event : Event} (h : q.Additive event) (e : Ends) (m : Monitor) :
    q.held e (m.take event) = q.held e m + q.gain e m event := by
  cases event with
  | segment event => exact q.held_ingest e m event.segment
  | reported r =>
    have hreport : q.held e (m.take (.reported r)) = q.held e m := by
      cases q with
      | packets => exact absurd rfl (h rfl r)
      | _ => rfl
    rw [hreport]
    exact (Int.add_zero _).symm
  | focusPod source dest span op => cases q <;> exact (Int.add_zero _).symm
  | syscallEnter tid pid kind time => cases q <;> exact (Int.add_zero _).symm
  | syscallExit tid time => cases q <;> exact (Int.add_zero _).symm

/-! ### Orders of the maps -/

theorem held_reorder (q : Figure) (e : Ends) (m : Monitor) (order : Orders) :
    q.held e (m.reorder order) = q.held e m := by
  cases q with
  | handshakes =>
    have hperm := m.handshakes.window.perm_reorder order.handshakes
    exact e.total_perm (fun r => r.count) hperm
  | delays =>
    have hperm := m.ackDelays.window.perm_reorder order.ackDelays
    exact e.total_perm (fun d => d.count) hperm
  | delaySum => exact e.total_perm Delays.sum (m.ackDelays.window.perm_reorder order.ackDelays)
  | packets =>
    have hperm := m.packets.window.perm_reorder order.packets
    exact e.total_perm (fun p => p.total) hperm

theorem fits_reorder {q : Figure} {m : Monitor} (hfits : q.Fits m) (order : Orders) :
    q.Fits (m.reorder order) := by
  cases q with
  | handshakes =>
    exact fun p hp => hfits p ((m.handshakes.window.perm_reorder order.handshakes).subset hp)
  | delays =>
    exact fun p hp => hfits p ((m.ackDelays.window.perm_reorder order.ackDelays).subset hp)
  | delaySum =>
    exact fun p hp => hfits p ((m.ackDelays.window.perm_reorder order.ackDelays).subset hp)
  | packets =>
    exact fun p hp => hfits p ((m.packets.window.perm_reorder order.packets).subset hp)

/-! ### The lines of a call -/

theorem tally_of_cut {q : Figure} {m m' : Monitor} {l : Lines} (hfits : q.Fits m)
    (hcut : Cut m l m') (e : Ends) : q.tally e l.all + q.held e m' = q.held e m := by
  cases q with
  | handshakes =>
    obtain ⟨n, hlines, hrest⟩ := hcut.handshakes
    rw [tally, Ends.tally, name, l.named_handshakes, hlines, held, hrest]
    exact Windowed.sumOf_cut m.table m.handshakes e
      (fun time f r => Handshakes.shows_record m.table time f r e)
      (fun time f p hp => Handshakes.number_record m.table time f (hfits p hp)) n
  | delays =>
    obtain ⟨n, hlines, hrest⟩ := hcut.ackDelays
    rw [tally, Ends.tally, name, l.named_ackDelays, hlines, held, hrest]
    exact Windowed.sumOf_cut m.table m.ackDelays e
      (fun time f d => AckDelays.shows_record time f d e)
      (fun time f p hp => AckDelays.number_record time f (hfits p hp)) n
  | delaySum =>
    obtain ⟨n, hlines, hrest⟩ := hcut.ackDelays
    rw [tally, Ends.tally, name, l.named_ackDelays, hlines, held, hrest]
    exact Windowed.sumOf_cut m.table m.ackDelays e
      (fun time f d => AckDelays.shows_record time f d e)
      (fun time f p hp => AckDelays.delta_record time f (hfits p hp).1 (hfits p hp).2) n
  | packets =>
    obtain ⟨n, hlines, hrest⟩ := hcut.packets
    rw [tally, Ends.tally, name, l.named_packets, hlines, held, hrest]
    exact Windowed.sumOf_cut m.table m.packets e
      (fun time f p => PacketCounts.shows_record time f p e)
      (fun time f p hp => PacketCounts.number_record time f (hfits p hp)) n

/-- What stays in the windows fits as well. -/
theorem fits_of_cut {q : Figure} {m m' : Monitor} {l : Lines} (hfits : q.Fits m)
    (hcut : Cut m l m') : q.Fits m' := by
  cases q with
  | handshakes =>
    obtain ⟨n, -, hrest⟩ := hcut.handshakes
    exact fun p hp => hfits p (List.mem_of_mem_drop (hrest ▸ hp))
  | delays =>
    obtain ⟨n, -, hrest⟩ := hcut.ackDelays
    exact fun p hp => hfits p (List.mem_of_mem_drop (hrest ▸ hp))
  | delaySum =>
    obtain ⟨n, -, hrest⟩ := hcut.ackDelays
    exact fun p hp => hfits p (List.mem_of_mem_drop (hrest ▸ hp))
  | packets =>
    obtain ⟨n, -, hrest⟩ := hcut.packets
    exact fun p hp => hfits p (List.mem_of_mem_drop (hrest ▸ hp))

theorem tally_append (q : Figure) (e : Ends) (rs rs' : List Record) :
    q.tally e (rs ++ rs') = q.tally e rs + q.tally e rs' :=
  e.tally_append q.name q.key rs rs'

theorem held_of_pending {m : Monitor} (h : m.pending = 0) (q : Figure) (e : Ends) :
    q.held e m = 0 := by
  obtain ⟨hhandshakes, hackDelays, hpackets⟩ := Monitor.entries_of_pending h
  cases q with
  | handshakes =>
    rw [held, hhandshakes]
    rfl
  | delays =>
    rw [held, hackDelays]
    rfl
  | delaySum =>
    rw [held, hackDelays]
    rfl
  | packets =>
    rw [held, hpackets]
    rfl

/-- The lines that a session's end writes show what the windows held. -/
theorem tally_finish {q : Figure} {s : Session} (h : 1 ≤ s.capacity) (hfits : q.Fits s.monitor)
    (e : Ends) : q.tally e s.finish.2 = q.held e s.monitor := by
  obtain ⟨delivered, l, hall, hfinish⟩ := exists_finished h
  have hsum := tally_of_cut hfits hfinish.cut e
  rw [held_of_pending hfinish.pending, Int.add_zero] at hsum
  rw [hall, hsum]

end Figure

/-! ### A replay -/

/-- The segment of an event that is one. -/
def Event.segment? : Event → Option Segment
  | .segment e => some e.segment
  | _ => none

/-- Whether a segment of a container interface has these ends. -/
def Segment.isPacket (t : InterfaceTable) (e : Ends) (s : Segment) : Bool :=
  t.isContainer s.flow.iface && s.flow.ends = e

namespace Session

/-- The lines of a replay that takes in events and finishes. -/
def complete (s : Session) (events : List Event) : List Record :=
  (s.applyAll events).2 ++ (s.applyAll events).1.finish.2

theorem complete_eq (s : Session) (events : List Event) :
    s.complete events = s.replayed (played (fun _ => {}) events) := by
  rw [complete, applyAll_eq]
  rfl

/-- No sum passes the end of its word: the aggregates fit wherever a call finds them. -/
def Bounded (s : Session) : List Call → Prop
  | [] => True
  | call :: rest =>
    (∀ q : Figure, q.Fits (call.intake s.monitor)) ∧ (s.step call).Bounded rest

/-- What the events of a replay add to a figure. -/
def gained (q : Figure) (e : Ends) (s : Session) : List Event → Int
  | [] => 0
  | event :: events =>
    q.gain e s.monitor event + gained q e (s.step (.apply event)) events

theorem fits_run {q : Figure} {s : Session} (hfits : q.Fits s.monitor) {calls : List Call}
    (hbounded : s.Bounded calls) : q.Fits (s.run calls).monitor := by
  induction calls generalizing s with
  | nil => exact hfits
  | cons call rest ih =>
    obtain ⟨htaken, hrest⟩ := hbounded
    obtain ⟨l, -, hcut⟩ := s.cut_step call
    exact ih (Figure.fits_of_cut (htaken q) hcut) hrest

/-! ### What neither the output nor an order has a part in -/

theorem akin_take {m n : Monitor} (h : Monitor.Akin m n) (event : Event) :
    Monitor.Akin (m.take event) (n.take event) := by
  cases event with
  | segment event => exact Monitor.akin_ingest h event.segment
  | reported r => exact ⟨h.table, h.handshakes, h.ackDelays⟩
  | focusPod source dest span op => exact ⟨h.table, h.handshakes, h.ackDelays⟩
  | syscallEnter tid pid kind time => exact h
  | syscallExit tid time => exact h

theorem gain_of_akin {m n : Monitor} (h : Monitor.Akin m n) (q : Figure) (e : Ends)
    (event : Event) : q.gain e m event = q.gain e n event := by
  cases event with
  | segment event =>
    have hshare : q.share m event.segment = q.share n event.segment := by
      cases q with
      | handshakes =>
        rw [Figure.share, h.table, Handshakes.completes_of_memory h.handshakes]
        rfl
      | delays =>
        rw [Figure.share, h.table, AckDelays.sample?_of_memory h.ackDelays]
        rfl
      | delaySum =>
        rw [Figure.share, h.table, AckDelays.sample?_of_memory h.ackDelays]
        rfl
      | packets =>
        rw [Figure.share, h.table]
        rfl
    rw [Figure.gain, hshare]
    rfl
  | _ => rfl

theorem akin_step {s u : Session} (h : Monitor.Akin s.monitor u.monitor) (event : Event)
    (order order' : Orders) :
    Monitor.Akin (s.step (.apply event order)).monitor (u.step (.apply event order')).monitor := by
  have hreordered : Monitor.Akin ((s.monitor.take event).reorder order)
      ((u.monitor.take event).reorder order') := by
    obtain ⟨htable, hhandshakes, hackDelays⟩ := akin_take h event
    exact ⟨htable, hhandshakes, hackDelays⟩
  rw [monitor_apply, monitor_apply]
  exact Monitor.akin_poll hreordered _ _

/-- Sessions whose monitors are akin add the same to a figure. -/
theorem gained_of_akin {s u : Session} (h : Monitor.Akin s.monitor u.monitor) (q : Figure)
    (e : Ends) (events : List Event) : gained q e s events = gained q e u events := by
  induction events generalizing s u with
  | nil => rfl
  | cons event events ih =>
    rw [gained, gained, gain_of_akin h, ih (akin_step h event {} {})]

/-- What the events add is in the lines or in the windows. -/
theorem tally_played {q : Figure} {s : Session} {events : List Event} {orders : Nat → Orders}
    (hbounded : s.Bounded (played orders events))
    (hadditive : ∀ event ∈ events, q.Additive event) (e : Ends) :
    q.tally e (s.lines (played orders events)) +
        q.held e (s.run (played orders events)).monitor =
      q.held e s.monitor + gained q e s events := by
  induction events generalizing s orders with
  | nil =>
    have hnothing : q.tally e (s.lines (played orders [])) = 0 := rfl
    have hheld := q.held_reorder e s.monitor (orders 0)
    rw [hnothing, Int.zero_add, gained, Int.add_zero]
    exact hheld
  | cons event events ih =>
    obtain ⟨htaken, hrest⟩ := hbounded
    obtain ⟨l, hall, hcut⟩ := s.cut_step (.apply event (orders 0))
    have hcall := Figure.tally_of_cut (htaken q) hcut e
    rw [Call.intake, Figure.held_reorder,
      Figure.held_take (hadditive event List.mem_cons_self)] at hcall
    have hevents := ih hrest fun event h => hadditive event (List.mem_cons_of_mem _ h)
    rw [gained_of_akin (akin_step ⟨rfl, rfl, rfl⟩ event (orders 0) {})] at hevents
    rw [played, lines, run, Figure.tally_append, gained, hall]
    omega

theorem tally_replayed {q : Figure} {s : Session} (h : 1 ≤ s.capacity) {events : List Event}
    {orders : Nat → Orders} (hfits : q.Fits s.monitor)
    (hbounded : s.Bounded (played orders events))
    (hadditive : ∀ event ∈ events, q.Additive event) (e : Ends) :
    q.tally e (s.replayed (played orders events)) =
      q.held e s.monitor + gained q e s events := by
  have hend : 1 ≤ (s.run (played orders events)).capacity := (s.capacity_run _).symm ▸ h
  rw [replayed, Figure.tally_append, Figure.tally_finish hend (fits_run hfits hbounded),
    tally_played hbounded hadditive]

/-! ### Packets -/

theorem table_apply (s : Session) (event : Event) :
    (s.step (.apply event)).monitor.table = s.monitor.table := by
  rw [monitor_apply]
  cases event <;> rfl

theorem share_packets (e : Ends) (m : Monitor) (segment : Segment) :
    (if segment.flow.ends = e then Figure.packets.share m segment else 0) =
      if segment.isPacket m.table e then 1 else 0 := by
  rw [Figure.share, Segment.isPacket]
  by_cases hends : segment.flow.ends = e <;> simp [hends]

/-- The events of a replay add as many packets as there are segments. -/
theorem gained_packets (s : Session) (e : Ends) (events : List Event) :
    gained .packets e s events =
      (events.filterMap Event.segment?).countP (Segment.isPacket s.monitor.table e) := by
  induction events generalizing s with
  | nil => rfl
  | cons event events ih =>
    rw [gained, ih, table_apply]
    cases event with
    | segment event =>
      have hsegments : (Event.segment event :: events).filterMap Event.segment? =
          event.segment :: events.filterMap Event.segment? := rfl
      have hgain : Figure.packets.gain e s.monitor (.segment event) = _ :=
        share_packets e s.monitor event.segment
      rw [hgain, hsegments, List.countP_cons, Int.add_comm]
      cases event.segment.isPacket s.monitor.table e <;> rfl
    | _ => exact Int.zero_add _

theorem held_ingestAll (m : Monitor) (e : Ends) (segments : List Segment) :
    Figure.packets.held e (m.ingestAll segments) =
      Figure.packets.held e m + segments.countP (Segment.isPacket m.table e) := by
  induction segments generalizing m with
  | nil => exact (Int.add_zero _).symm
  | cons segment segments ih =>
    have hrest := ih (m.ingest segment)
    rw [Figure.held_ingest, share_packets, Int.add_assoc] at hrest
    refine hrest.trans (congrArg _ ?_)
    rw [List.countP_cons, Int.add_comm]
    cases segment.isPacket m.table e <;> rfl

/-- The lines of a ring count its segments. -/
theorem tally_ring {s : Session} (h : 1 ≤ s.capacity) {r : Ring Segment}
    (hfits : Figure.packets.Fits (s.monitor.ingestAll r.items)) (order order' : Orders) (e : Ends) :
    Figure.packets.tally e (s.replayed [.applyRing r order, .reorder order']) =
      Figure.packets.held e s.monitor + r.items.countP (Segment.isPacket s.monitor.table e) := by
  obtain ⟨l, hall, hcut⟩ := s.cut_step (.applyRing r order)
  have hfound := Figure.fits_reorder hfits order
  have hcall := Figure.tally_of_cut hfound hcut e
  rw [Figure.held_reorder, held_ingestAll] at hcall
  have hend : 1 ≤ ((s.step (.applyRing r order)).reorder order').capacity :=
    (s.capacity_step (.applyRing r order)).symm ▸ h
  have hleft := Figure.fits_reorder (Figure.fits_of_cut hfound hcut) order'
  have hfinish : Figure.packets.tally e ((s.step (.applyRing r order)).reorder order').finish.2 =
      Figure.packets.held e (s.step (.applyRing r order)).monitor :=
    (Figure.tally_finish hend hleft e).trans (Figure.packets.held_reorder e _ order')
  rw [← hall, ← hfinish] at hcall
  have hlines : s.lines [.applyRing r order, .reorder order'] = s.written (.applyRing r order) :=
    List.append_nil _
  rw [replayed, hlines, Figure.tally_append]
  exact hcall

/-- The session's own replay of a ring is that in the orders in which the pairs came in. -/
theorem replayRing_eq (s : Session) (r : Ring Segment) :
    (s.replayRing r).records = s.replayed [.applyRing r, .reorder {}] := by
  have hlines : s.lines [.applyRing r, .reorder {}] = s.written (.applyRing r) := List.append_nil _
  have hrun : s.run [.applyRing r, .reorder {}] = s.step (.applyRing r) := reorder_empty _
  rw [replayed, hlines, hrun, written, step, perform_applyRing]
  rfl

/-! ### Any two capacities -/

/-- A new session holds nothing. -/
theorem new_of_ofSettings {settings : Settings} {s : Session} (h : ofSettings settings = .ok s)
    (q : Figure) (e : Ends) : q.Fits s.monitor ∧ q.held e s.monitor = 0 := by
  obtain ⟨table, -, hmonitor, -⟩ := ofSettings_eq_ok h
  rw [hmonitor]
  cases q <;> exact ⟨nofun, rfl⟩

theorem capacity_of_ofSettings {settings : Settings} {c : UInt64} {s : Session}
    (h : ofSettings { settings with outputCapacity := c } = .ok s) (hc : 1 ≤ c) :
    1 ≤ s.capacity := by
  obtain ⟨table, -, -, hcapacity⟩ := ofSettings_eq_ok h
  rw [hcapacity]
  exact UInt64.le_iff_toNat_le.1 hc

theorem akin_of_ofSettings {settings : Settings} {c d : UInt64} {s u : Session}
    (hs : ofSettings { settings with outputCapacity := c } = .ok s)
    (hu : ofSettings { settings with outputCapacity := d } = .ok u) :
    Monitor.Akin s.monitor u.monitor := by
  obtain ⟨table, htable, hsmonitor, -⟩ := ofSettings_eq_ok hs
  obtain ⟨table', htable', humonitor, -⟩ := ofSettings_eq_ok hu
  have hsame : table = table' := Except.ok.inj (htable.symm.trans htable')
  rw [hsmonitor, humonitor, hsame]
  exact ⟨rfl, rfl, rfl⟩

/-- **Totals do not depend on the capacity of the output.** For any two capacities, any events and
whatever orders the maps come up in, the complete replays add up to the same handshakes,
acknowledgment delays and sums of delays for every four ends. Without reports they add up to the
same packets, which are the segments of container interfaces with these ends, and so does a replay
of the same segments as a ring. -/
theorem totals_of_any_capacity (settings : Settings) (c d : UInt64) (hc : 1 ≤ c) (hd : 1 ≤ d)
    (s u : Session) (hs : ofSettings { settings with outputCapacity := c } = .ok s)
    (hu : ofSettings { settings with outputCapacity := d } = .ok u) (events : List Event)
    (orders orders' : Nat → Orders) (hsbounded : s.Bounded (played orders events))
    (hubounded : u.Bounded (played orders' events)) (e : Ends) :
    let segments := events.filterMap Event.segment?
    let lines := s.replayed (played orders events)
    let lines' := u.replayed (played orders' events)
    e.tally Handshakes.recordName "data_counts" lines =
        e.tally Handshakes.recordName "data_counts" lines' ∧
      e.tally AckDelays.recordName "data_counts" lines =
        e.tally AckDelays.recordName "data_counts" lines' ∧
      e.tally AckDelays.recordName "acktime_delta" lines =
        e.tally AckDelays.recordName "acktime_delta" lines' ∧
      ((∀ r, .reported r ∉ events) →
        e.tally PacketCounts.recordName "packet_counts" lines =
            e.tally PacketCounts.recordName "packet_counts" lines' ∧
          e.tally PacketCounts.recordName "packet_counts" lines =
            segments.countP (Segment.isPacket s.monitor.table e) ∧
          ∀ r : Ring Segment, r.items = segments →
            Figure.packets.Fits (s.monitor.ingestRing r).1 →
              e.tally PacketCounts.recordName "packet_counts" (s.replayRing r).records =
                  e.tally PacketCounts.recordName "packet_counts" lines ∧
                ∀ order order' : Orders, e.tally PacketCounts.recordName "packet_counts"
                    (s.replayed [.applyRing r order, .reorder order']) =
                  e.tally PacketCounts.recordName "packet_counts" lines) := by
  intro segments lines lines'
  have hscapacity : 1 ≤ s.capacity := capacity_of_ofSettings hs hc
  have hucapacity : 1 ≤ u.capacity := capacity_of_ofSettings hu hd
  have hakin : Monitor.Akin s.monitor u.monitor := akin_of_ofSettings hs hu
  have hsum : ∀ q : Figure, (∀ event ∈ events, q.Additive event) →
      q.tally e lines = gained q e s events := by
    intro q hadditive
    obtain ⟨hfits, hnothing⟩ := new_of_ofSettings hs q e
    rw [tally_replayed hscapacity hfits hsbounded hadditive, hnothing, Int.zero_add]
  have hsame : ∀ q : Figure, (∀ event ∈ events, q.Additive event) →
      q.tally e lines = q.tally e lines' := by
    intro q hadditive
    obtain ⟨hfits, hnothing⟩ := new_of_ofSettings hu q e
    rw [hsum q hadditive, tally_replayed hucapacity hfits hubounded hadditive, hnothing,
      Int.zero_add, gained_of_akin hakin]
  refine ⟨hsame .handshakes fun _ _ => nofun, hsame .delays fun _ _ => nofun,
    hsame .delaySum fun _ _ => nofun, fun hreports => ?_⟩
  have hadditive : ∀ event ∈ events, Figure.packets.Additive event := by
    intro event hmem _ r hreport
    exact hreports r (hreport ▸ hmem)
  have hpackets := (hsum .packets hadditive).trans (gained_packets s e events)
  refine ⟨hsame .packets hadditive, hpackets, fun r hitems hfits => ?_⟩
  have hring : ∀ order order' : Orders,
      Figure.packets.tally e (s.replayed [.applyRing r order, .reorder order']) =
        Figure.packets.tally e lines := by
    intro order order'
    obtain ⟨-, hnothing⟩ := new_of_ofSettings hs .packets e
    have hitem := tally_ring hscapacity hfits order order' e
    rw [hnothing, hitems, Int.zero_add] at hitem
    exact hitem.trans hpackets.symm
  exact ⟨s.replayRing_eq r ▸ hring {} {}, hring⟩

/-- A handshake through an output for one record, with the maps in the orders in which the pairs
came in, and through one for eight, with the packets the other way round at the end. -/
theorem totals_of_one_and_eight :
    let settings : Settings :=
      { thresholdMs := 1, timeoutMs := 2, interfaces := { devices := [⟨"veth0", 7, []⟩] } }
    let table : InterfaceTable := { kinds := Keyed.empty.insert 7 .container }
    let session (capacity : Nat) : Session :=
      { monitor := .ofSettings settings table
        syscalls := { threshold := settings.threshold, timeout := settings.timeout }
        sweepClock := { interval := settings.flushInterval }, out := { capacity } }
    let flow : Flow := ⟨⟨1⟩, ⟨2⟩, 1000, 80, 7⟩
    let events : List Event :=
      [.segment { time := 10, flow, flags := [.syn] },
        .segment { time := 20, flow := flow.reverse, flags := [.syn, .ack] },
        .segment { time := 30, flow, flags := [.ack] }]
    let reversed : Orders :=
      { packets := ⟨[(flow.reverse, ⟨1, .received⟩), (flow, ⟨2, .received⟩)], by decide⟩ }
    let orders (n : Nat) : Orders := if n = 3 then reversed else {}
    let s := session 1
    let u := session 8
    (ofSettings { settings with outputCapacity := 1 } = .ok s ∧
        ofSettings { settings with outputCapacity := 8 } = .ok u ∧
        s.Bounded (played (fun _ => {}) events) ∧ u.Bounded (played orders events)) ∧
      (u.run (played orders events)).monitor.packets.window.aggregates.keys =
        [flow.reverse, flow] ∧
      flow.ends.tally Handshakes.recordName "data_counts" (s.complete events) =
        flow.ends.tally Handshakes.recordName "data_counts" (u.replayed (played orders events)) ∧
      flow.ends.tally PacketCounts.recordName "packet_counts" (s.complete events) = 2 := by
  intro settings table session flow events reversed orders s u
  have hs : ofSettings { settings with outputCapacity := 1 } = .ok s := rfl
  have hu : ofSettings { settings with outputCapacity := 8 } = .ok u := rfl
  have hsbounded : s.Bounded (played (fun _ => {}) events) := by
    refine ⟨fun q => ?_, fun q => ?_, fun q => ?_, fun q => ?_, trivial⟩ <;> cases q <;> decide
  have hubounded : u.Bounded (played orders events) := by
    refine ⟨fun q => ?_, fun q => ?_, fun q => ?_, fun q => ?_, trivial⟩ <;> cases q <;> decide
  obtain ⟨hhandshakes, -, -, hpackets⟩ := totals_of_any_capacity settings 1 8 (by decide)
    (by decide) s u hs hu events (fun _ => {}) orders hsbounded hubounded flow.ends
  have hreports : ∀ r, .reported r ∉ events := by
    simp [events]
  obtain ⟨-, hcount, -⟩ := hpackets hreports
  rw [← complete_eq] at hhandshakes hcount
  exact ⟨⟨hs, hu, hsbounded, hubounded⟩, by decide, hhandshakes, hcount⟩

end Session

end FlowProbe
