import FlowProbe.Proofs.Window.Folding
import FlowProbe.Proofs.Window.HandshakeFlow

/-! The account of the handshakes.

A handshake is told by its flow and by when its SYN came. A SYN opens one where the flow has none
under way, an ACK completes one that was answered, and a flush lets go of those whose SYN is too
old, whether or not it could write what it had to. `deed` says which of these a segment does, and
`does_ingest` what that does to the analyzer. So the handshakes that were opened are under way, or
completed, or evicted, one by one, and the aggregates count the completed ones, those that are held
and those that were written (`openings_accounted`). -/
namespace FlowProbe.Handshakes
open Windowed Folding

/-- A handshake that is completed: when its SYN came, when the answer did, and its ACK. -/
structure Trip where
  syn : Nanos
  stamp : Nanos
  ack : Segment
  deriving DecidableEq, Repr

/-- The sums of a flow with one more handshake. -/
def Trip.put (i : Trip) (trips : Option RoundTrips) : RoundTrips :=
  Track.completed Nanos.signed i.syn i.stamp i.ack trips

theorem Trip.count_put (i : Trip) (trips : Option RoundTrips) :
    (i.put trips).count = trips.elim 0 RoundTrips.count + 1 := by
  cases trips with
  | none => rfl
  | some r => rfl

/-! ### What a segment does -/

/-- What a segment can do to the handshakes. -/
inductive Deed where
  | nothing
  /-- A SYN of a flow that has no handshake under way opens one. -/
  | opens
  /-- An answer stamps the handshake of its reverse flow. -/
  | stamps
  /-- An answer finds no handshake. -/
  | strays
  /-- An ACK completes a handshake that is stamped. -/
  | completes (i : Trip)

def deed (t : InterfaceTable) (h : Handshakes) (s : Segment) : Deed :=
  if t.isContainer s.flow.iface then
    match s.has .syn, s.has .ack with
    | true, false =>
      match h.openings.find? s.flow with
      | none => .opens
      | some _ => .nothing
    | true, true =>
      match h.openings.find? s.flow.reverse with
      | none => .strays
      | some _ => .stamps
    | false, true =>
      match h.openings.find? s.flow with
      | some { synTime, stamp := some stamp } => .completes ⟨synTime, stamp, s⟩
      | some { stamp := none, .. } | none => .nothing
    | false, false => .nothing
  else .nothing

namespace Deed

variable (s : Segment)

/-- The handshake that is opened. -/
def opened : Deed → List (Flow × Nanos)
  | opens => [(s.flow, s.time)]
  | nothing | stamps | strays | completes _ => []

/-- The handshake that is completed. -/
def trip? : Deed → Option (Flow × Trip)
  | completes i => some (s.flow, i)
  | nothing | opens | stamps | strays => none

/-- The answer that finds no handshake. -/
def strayed : Deed → List Segment
  | strays => [s]
  | nothing | opens | stamps | completes _ => []

end Deed

/-- The handshakes under way, each told by its flow and by when its SYN came. -/
def underWay (h : Handshakes) : List (Flow × Nanos) :=
  h.openings.entries.map fun e => (e.1, e.2.synTime)

/-- How a segment leaves the analyzer. -/
structure Does (h : Handshakes) (s : Segment) (d : Deed) (after : Handshakes) : Prop where
  underWay : (after.underWay ++ (d.trip? s).toList.map fun p => (p.1, p.2.syn)).Perm
    (h.underWay ++ d.opened s)
  aggregates : after.window.aggregates =
    (d.trip? s).elim h.window.aggregates fun p =>
      h.window.aggregates.alter p.1 fun r => some (p.2.put r)
  unmatched : after.window.counters.unmatched =
    h.window.counters.unmatched + (d.strayed s).length
  interval : after.window.clock.interval = h.window.clock.interval

/-- The clock and the count of what is taken in have no part in it. -/
theorem Does.of_admitted {h after : Handshakes} {s : Segment} {d : Deed}
    (hd : (h.admitted s).Does s d after) : h.Does s d after :=
  ⟨hd.underWay, hd.aggregates, hd.unmatched, hd.interval⟩

theorem perm_underWay_alter (h : Handshakes) (k : Flow) (f : Option Opening → Option Opening) :
    ((h.openings.alter k f).entries.map (fun e => (e.1, e.2.synTime)) ++
        (Keyed.own k (h.openings.find? k)).map fun e => (e.1, e.2.synTime)).Perm
      (h.underWay ++ (Keyed.own k (f (h.openings.find? k))).map fun e => (e.1, e.2.synTime)) := by
  have hown := (h.openings.perm_alter_own k f).map fun e => (e.1, e.2.synTime)
  rwa [List.map_append, List.map_append] at hown

theorem does_onSyn (h : Handshakes) (s : Segment) :
    h.Does s (match h.openings.find? s.flow with | none => .opens | some _ => .nothing)
      (h.onSyn s) := by
  have hperm := h.perm_underWay_alter s.flow fun o => o <|> some { synTime := s.time }
  rw [onSyn]
  cases hfind : h.openings.find? s.flow with
  | none =>
    rw [hfind] at hperm
    exact ⟨hperm, rfl, rfl, rfl⟩
  | some o =>
    rw [hfind] at hperm
    have hsame := (List.perm_append_right_iff _).1 hperm
    exact ⟨hsame.append_right [], rfl, rfl, rfl⟩

theorem does_onSynAck (h : Handshakes) (s : Segment) :
    h.Does s (match h.openings.find? s.flow.reverse with | none => .strays | some _ => .stamps)
      (h.onSynAck s) := by
  rw [onSynAck]
  cases hfind : h.openings.find? s.flow.reverse with
  | none => exact ⟨.refl _, rfl, rfl, rfl⟩
  | some o =>
    have hperm := h.perm_underWay_alter s.flow.reverse fun _ => some { o with stamp := s.time }
    rw [hfind] at hperm
    have hsame := (List.perm_append_right_iff _).1 hperm
    exact ⟨hsame.append_right [], rfl, rfl, rfl⟩

theorem does_onAck (h : Handshakes) (s : Segment) :
    h.Does s
      (match h.openings.find? s.flow with
      | some { synTime, stamp := some stamp } => .completes ⟨synTime, stamp, s⟩
      | some { stamp := none, .. } | none => .nothing)
      (h.onAck s) := by
  have hperm := h.perm_underWay_alter s.flow fun _ => none
  rw [onAck]
  obtain hfind | ⟨⟨synTime, _ | stamp⟩, hfind⟩ :=
    Option.eq_none_or_eq_some (h.openings.find? s.flow)
  · rw [hfind]
    exact ⟨.refl _, rfl, rfl, rfl⟩
  · rw [hfind]
    exact ⟨.refl _, rfl, rfl, rfl⟩
  · rw [hfind] at hperm ⊢
    exact ⟨hperm, h.window.aggregates_gather s.flow rfl fun _ => rfl, rfl, rfl⟩

/-- A segment does what it can. -/
theorem does_ingest (t : InterfaceTable) (h : Handshakes) (s : Segment) :
    h.Does s (h.deed t s) (h.ingest t s) := by
  rw [ingest, deed]
  cases t.isContainer s.flow.iface with
  | false => exact ⟨.refl _, rfl, rfl, rfl⟩
  | true =>
    cases s.has .syn <;> cases s.has .ack
    · exact ⟨.refl _, rfl, rfl, rfl⟩
    · exact .of_admitted ((h.admitted s).does_onAck s)
    · exact .of_admitted ((h.admitted s).does_onSyn s)
    · exact .of_admitted ((h.admitted s).does_onSynAck s)

instance : Folding Handshakes where
  Item := Trip
  item? t h s := (h.deed t s).trip? s
  put := Trip.put
  count := RoundTrips.count
  countKey := "data_counts"
  aggregates_ingest t h s := (h.does_ingest t s).aggregates
  number_record := count_record

/-! ### What a flush lets go of -/

/-- The handshakes that are under way before and not after. -/
def gone (h after : Handshakes) : List (Flow × Nanos) :=
  (h.openings.entries.filter fun e => !after.openings.contains e.1).map
    fun e => (e.1, e.2.synTime)

/-- What is under way before is under way after or gone. -/
theorem perm_gone (t : InterfaceTable) (h : Handshakes) (out : Buffer) :
    ((Windowed.flush t h out).state.underWay ++ h.gone (Windowed.flush t h out).state).Perm
      h.underWay := by
  have hkept : (Windowed.flush t h out).state.openings =
      h.openings.filter fun _ o => isFresh h.window.clock o := rfl
  have hgone : (h.openings.entries.filter
        fun e => !(Windowed.flush t h out).state.openings.contains e.1) =
      h.openings.entries.filter fun e => !isFresh h.window.clock e.2 := by
    refine List.filter_congr fun e he => ?_
    rw [hkept, Keyed.contains, Keyed.find?_filter, Keyed.mem_entries_iff.1 he, Option.filter_some]
    cases isFresh h.window.clock e.2 <;> rfl
  rw [underWay, hkept, Keyed.entries_filter, gone, hgone, ← List.map_append]
  exact (List.filter_append_perm _ _).map _

theorem unmatched_flush (t : InterfaceTable) (h : Handshakes) (out : Buffer) :
    (Windowed.flush t h out).state.window.counters.unmatched =
      h.window.counters.unmatched + (h.gone (Windowed.flush t h out).state).length := by
  have hmissed : (Windowed.flush t h out).state.window.counters.unmatched =
      h.window.counters.unmatched +
        (h.inFlight - (Windowed.flush t h out).state.inFlight) := rfl
  have hlength := (h.perm_gone t out).length_eq
  rw [List.length_append, underWay, List.length_map, underWay, List.length_map] at hlength
  rw [hmissed, inFlight, inFlight, Keyed.size, Keyed.size]
  omega

/-- A call that flushes leaves the handshakes that are fresh. -/
theorem openings_of_flushes {h : Handshakes} {call : Call Handshakes}
    (hflush : flushes h call = true) :
    (step h call).openings = h.openings.filter fun _ o => isFresh h.window.clock o := by
  cases call with
  | flush t out => rfl
  | poll t out =>
    have hdue : (clock h).isDue = true := hflush
    rw [step_poll, if_pos hdue]
    rfl
  | ingest | restart | reorder => cases hflush

theorem interval_step (h : Handshakes) (call : Call Handshakes) :
    (step h call).window.clock.interval = h.window.clock.interval := by
  cases call with
  | ingest t s => exact (h.does_ingest t s).interval
  | flush t out => rfl
  | poll t out =>
    rw [step_poll]
    split <;> rfl
  | restart => rfl
  | reorder order => exact congrArg WindowClock.interval (Window.clock_reorder _ _)

/-! ### A run -/

/-- The handshakes that an act opens. -/
def opened : Act Handshakes → List (Flow × Nanos)
  | .ingest t h s => (h.deed t s).opened s
  | .flush .. => []

/-- The handshakes that an act completes. -/
def completed (a : Act Handshakes) : List (Flow × Nanos) := a.items.map fun p => (p.1, p.2.syn)

/-- The handshakes that an act lets go of. -/
def evicted : Act Handshakes → List (Flow × Nanos)
  | .ingest .. => []
  | .flush t h out => h.gone (Windowed.flush t h out).state

/-- The answers that found no handshake. -/
def strayed : Act Handshakes → List Segment
  | .ingest t h s => (h.deed t s).strayed s
  | .flush .. => []

theorem steady_underWay : Steady underWay := ⟨fun _ => rfl, fun _ _ => rfl⟩

theorem perm_act (a : Act Handshakes) :
    (underWay a.after ++ (completed a ++ evicted a)).Perm (underWay a.before ++ opened a) := by
  cases a with
  | ingest t h s =>
    rw [evicted, List.append_nil]
    exact (h.does_ingest t s).underWay
  | flush t h out =>
    rw [opened, List.append_nil]
    exact h.perm_gone t out

theorem unmatched_act (a : Act Handshakes) :
    (counters a.after).unmatched =
      (counters a.before).unmatched + ((strayed a).length + (evicted a).length) := by
  cases a with
  | ingest t h s => exact (h.does_ingest t s).unmatched
  | flush t h out =>
    rw [strayed, List.length_nil, Nat.zero_add]
    exact h.unmatched_flush t out

/-- **Every handshake is accounted for.** After any run of calls on a new analyzer, with any times
and any outputs, the handshakes that a SYN opened are those under way, those that were completed
and those that were evicted, one by one. The completed ones are counted by the aggregates that are
held and those that were written, and by the records as far as words can tell. The count of the
unmatched is that of the answers that found no handshake and of the evicted. And a call that
flushes leaves exactly the handshakes whose SYN is no more than an interval older than the latest
event, whatever its output had room for. -/
theorem openings_accounted (interval : Nanos) (calls : List (Call Handshakes)) :
    let new := ofInterval interval
    let h := run new calls
    let entered := (acts new calls).flatMap opened
    let resolved := (acts new calls).flatMap completed
    let lost := (acts new calls).flatMap evicted
    (h.underWay ++ (resolved ++ lost)).Perm entered ∧
      h.inFlight + heldCount h + ((history new calls).map fun e => e.aggregate.count).sum +
          lost.length =
        entered.length ∧
      InWords (h.inFlight + heldCount h +
          ((output new calls).map fun r => r.number "data_counts").sum + lost.length)
        entered.length ∧
      (counters h).unmatched = ((acts new calls).flatMap strayed).length + lost.length ∧
      ∀ call, flushes h call = true → ∀ k o,
        (step h call).openings.find? k = some o ↔
          h.openings.find? k = some o ∧
            h.window.clock.latest.toNat - o.synTime.toNat ≤ interval.toNat := by
  intro new h entered resolved lost
  have hperm : (h.underWay ++ (resolved ++ lost)).Perm entered :=
    perm_run steady_underWay fun a _ => perm_act a
  have hcount : heldCount h + ((history new calls).map fun e => e.aggregate.count).sum =
      resolved.length := by
    have hitems : resolved = (items new calls).map fun p => (p.1, p.2.syn) := by
      rw [items, List.map_flatMap]
      rfl
    rw [hitems, List.length_map]
    exact (counted_run fun p _ b => Trip.count_put p.2 b).trans (Nat.zero_add _)
  have hlength : h.inFlight + heldCount h +
      ((history new calls).map fun e => e.aggregate.count).sum + lost.length =
        entered.length := by
    rw [← hperm.length_eq, List.length_append, List.length_append, ← hcount, underWay,
      List.length_map, inFlight, Keyed.size]
    omega
  refine ⟨hperm, hlength, ?_, ?_, ?_⟩
  · rw [← hlength, ← Nat.cast_add]
    exact ((InWords.nat _).add (inWords_output new calls)).add (InWords.nat _)
  · rw [List.length_flatMap, List.length_flatMap, ← List.sum_map_add]
    exact (sum_run (steady_counter Counters.unmatched) fun a _ => unmatched_act a).trans
      (Nat.zero_add _)
  · intro call hflush k o
    have hinterval : h.window.clock.interval = interval :=
      run_invariant (P := fun h => h.window.clock.interval = interval)
        (fun h call hh => (h.interval_step call).trans hh) rfl calls
    rw [openings_of_flushes hflush, Keyed.find?_filter, Option.filter_eq_some_iff, isFresh,
      decide_eq_true_eq, UInt64.le_iff_toNat_le, Nanos.toNat_elapsed, hinterval]

end FlowProbe.Handshakes
