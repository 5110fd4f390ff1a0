import FlowProbe.Proofs.Window.Memory

/-! The handshakes of one flow.

Open handshakes and their sums are kept in two maps, and an answer is looked up under the
reverse of its own flow. Seen from one flow there is a machine of three phases: `closed`,
`opened` by a SYN and `stamped` by the answer to it. `Track` is that machine together with what
it has summed up, and it is moved by the segments of the flow and of its reverse alone.
`track_ingest` says that a segment moves the track of every flow by the machine's own rule or
not at all, and `track_of_flow_alone` that a run over all flows leaves each with what a run over
its own segments would leave. The rule takes what a span adds to a sum as a parameter: the
analyzer adds the span as a signed word, and as words the sums are those of the spans
themselves. -/
namespace FlowProbe.Handshakes

/-- Where the handshake of a flow stands. -/
inductive Phase where
  | closed
  | opened (syn : Nanos)
  | stamped (syn stamp : Nanos)
  deriving DecidableEq, Repr

namespace Phase

def ofOpening? : Option Opening → Phase
  | none => closed
  | some { synTime, stamp := none } => opened synTime
  | some { synTime, stamp := some stamp } => stamped synTime stamp

def opening? : Phase → Option Opening
  | closed => none
  | opened syn => some { synTime := syn }
  | stamped syn stamp => some { synTime := syn, stamp := some stamp }

@[simp] theorem opening?_ofOpening? (o : Option Opening) : (ofOpening? o).opening? = o := by
  obtain _ | ⟨synTime, _ | stamp⟩ := o <;> rfl

end Phase

/-- The handshake of a flow that is under way, and what the completed ones add up to. -/
structure Track where
  phase : Phase
  trips : Option RoundTrips
  deriving DecidableEq, Repr

namespace Track

/-- A SYN opens a handshake where none is open. -/
def onSyn (x : Track) (s : Segment) : Track :=
  match x.phase with
  | .closed => { x with phase := .opened s.time }
  | .opened _ | .stamped .. => x

/-- The answer to it stamps the handshake that is open, and may do so again. -/
def onSynAck (x : Track) (s : Segment) : Track :=
  match x.phase with
  | .closed => x
  | .opened syn | .stamped syn _ => { x with phase := .stamped syn s.time }

section Read

variable (read : Nanos → Int)

/-- The sums with one more handshake, whose two legs count as `read` reads them. -/
def completed (syn stamp : Nanos) (s : Segment) (trips : Option RoundTrips) : RoundTrips :=
  let synLeg := read (Nanos.elapsed syn stamp)
  let ackLeg := read (Nanos.elapsed stamp s.time)
  match trips with
  | none =>
    { count := 1, synSum := synLeg, ackSum := ackLeg, start := s.time, finish := s.time,
      hint := s.hint }
  | some r =>
    { r with
      count := r.count + 1
      synSum := r.synSum + synLeg
      ackSum := r.ackSum + ackLeg
      finish := s.time }

/-- An ACK completes and closes a handshake that is stamped. -/
def onAck (x : Track) (s : Segment) : Track :=
  match x.phase with
  | .stamped syn stamp =>
    { phase := .closed, trips := some (completed read syn stamp s x.trips) }
  | .closed | .opened _ => x

/-- What a segment does to the track of the flow `k`. -/
def step (k : Flow) (x : Track) (s : Segment) : Track :=
  match s.has .syn, s.has .ack with
  | true, false => if s.flow = k then x.onSyn s else x
  | true, true => if s.flow = k.reverse then x.onSynAck s else x
  | false, true => if s.flow = k then x.onAck read s else x
  | false, false => x

end Read

/-- A segment of another connection is nothing to a track. -/
theorem step_of_ne (read : Nanos → Int) {k : Flow} (x : Track) {s : Segment} (h : s.flow ≠ k)
    (hreverse : s.flow ≠ k.reverse) : x.step read k s = x := by
  rw [step]
  cases s.has .syn <;> cases s.has .ack <;> simp only [h, hreverse, if_false]

end Track

/-- What the analyzer holds of a flow. -/
def track (h : Handshakes) (k : Flow) : Track :=
  ⟨.ofOpening? (h.openings.find? k), h.window.aggregates.find? k⟩

/-! ### One segment -/

theorem track_onSyn (h : Handshakes) (s : Segment) (k : Flow) :
    (h.onSyn s).track k = if s.flow = k then (h.track k).onSyn s else h.track k := by
  simp only [track, onSyn, Keyed.find?_alter, eq_comm (a := s.flow)]
  split
  · next hk =>
    rw [← hk]
    obtain _ | ⟨synTime, _ | stamp⟩ := h.openings.find? k <;> rfl
  · rfl

theorem track_onSynAck (h : Handshakes) (s : Segment) (k : Flow) :
    (h.onSynAck s).track k =
      if s.flow = k.reverse then (h.track k).onSynAck s else h.track k := by
  have hflow : s.flow = k.reverse ↔ k = s.flow.reverse := by
    rw [← Flow.reverse_eq_iff, eq_comm]
  simp only [hflow, onSynAck]
  split
  · next o hfind =>
    simp only [track, Keyed.find?_insert]
    split
    · next hk =>
      rw [hk, hfind]
      obtain ⟨synTime, _ | stamp⟩ := o <;> rfl
    · rfl
  · next hfind =>
    split
    · next hk =>
      simp only [track, hk, hfind]
      rfl
    · rfl

theorem track_onAck (h : Handshakes) (s : Segment) (k : Flow) :
    (h.onAck s).track k =
      if s.flow = k then (h.track k).onAck Nanos.signed s else h.track k := by
  rw [onAck]
  split
  · next synTime stamp hfind =>
    simp only [track, legs, Window.gather, Keyed.find?_erase, Keyed.find?_alter,
      eq_comm (a := s.flow)]
    split
    · next hk =>
      rw [hk, hfind]
      cases h.window.aggregates.find? s.flow <;> rfl
    · rfl
  · next hopen =>
    -- no entry, or one without a stamp
    split
    · next hk =>
      rw [← hk]
      simp only [track]
      obtain hfind | ⟨⟨synTime, _ | stamp⟩, hfind⟩ := Option.eq_none_or_eq_some (h.openings.find? s.flow)
      · rw [hfind]
        rfl
      · rw [hfind]
        rfl
      · exact absurd hfind (hopen synTime stamp)
    · rfl

/-- A segment that is admitted moves the track of every flow by the machine's rule. -/
theorem track_admitted (t : InterfaceTable) (h : Handshakes) (s : Segment) (k : Flow)
    (hcontainer : t.isContainer s.flow.iface = true) :
    (h.ingest t s).track k = (h.track k).step Nanos.signed k s := by
  rw [ingest, Track.step, if_pos hcontainer]
  cases s.has .syn <;> cases s.has .ack
  · rfl
  · exact (h.admitted s).track_onAck s k
  · exact (h.admitted s).track_onSyn s k
  · exact (h.admitted s).track_onSynAck s k

/-- Whether a segment is of a container interface, and of a flow or its reverse. -/
def concerns (t : InterfaceTable) (k : Flow) (s : Segment) : Bool :=
  t.isContainer s.flow.iface && (s.flow = k || s.flow = k.reverse)

/-- A segment moves the track of a flow that it concerns, and no other. -/
theorem track_ingest (t : InterfaceTable) (h : Handshakes) (s : Segment) (k : Flow) :
    (h.ingest t s).track k =
      if concerns t k s then (h.track k).step Nanos.signed k s else h.track k := by
  by_cases hcontainer : t.isContainer s.flow.iface = true
  · rw [h.track_admitted t s k hcontainer, concerns, hcontainer, Bool.true_and]
    split
    · rfl
    · next hflow =>
      rw [Bool.or_eq_true, decide_eq_true_eq, decide_eq_true_eq, not_or] at hflow
      exact Track.step_of_ne _ _ hflow.1 hflow.2
  · rw [ingest, if_neg hcontainer, concerns, Bool.eq_false_iff.2 hcontainer, Bool.false_and]
    rfl

/-! ### The words of the sums -/

/-- The sums of a flow, the two legs as the signed words that carry them. -/
def words (r : RoundTrips) : Nat × Int64 × Int64 × Nanos × Nanos × UInt8 :=
  (r.count, .ofInt r.synSum, .ofInt r.ackSum, r.start, r.finish, r.hint)

/-- Two tracks in the same phase whose sums are the same words. -/
structure Alike (x y : Track) : Prop where
  phase : x.phase = y.phase
  trips : x.trips.map words = y.trips.map words

/-- A handshake that is completed keeps tracks alike, whether its legs are read as signed words
or as they are. -/
theorem words_completed {trips trips' : Option RoundTrips}
    (h : trips.map words = trips'.map words) (syn stamp : Nanos) (s : Segment) :
    words (Track.completed Nanos.signed syn stamp s trips) =
      words (Track.completed (fun d => d.toNat) syn stamp s trips') := by
  cases trips with
  | none =>
    cases trips' with
    | none => simp only [Track.completed, words, Nanos.ofInt_signed]
    | some r' => cases h
  | some r =>
    cases trips' with
    | none => cases h
    | some r' =>
      simp only [Option.map_some, Option.some.injEq, words, Prod.mk.injEq] at h
      obtain ⟨hcount, hsyn, hack, hstart, -, hhint⟩ := h
      simp only [Track.completed, words, Int64.ofInt_add, Nanos.ofInt_signed, hcount, hsyn, hack,
        hstart, hhint]

namespace Alike

variable {x y : Track} (h : Alike x y) (s : Segment)
include h

theorem onSyn : Alike (x.onSyn s) (y.onSyn s) := by
  rw [Track.onSyn, Track.onSyn, ← h.phase]
  cases x.phase with
  | closed => exact ⟨rfl, h.trips⟩
  | opened | stamped => exact h

theorem onSynAck : Alike (x.onSynAck s) (y.onSynAck s) := by
  rw [Track.onSynAck, Track.onSynAck, ← h.phase]
  cases x.phase with
  | closed => exact h
  | opened | stamped => exact ⟨rfl, h.trips⟩

theorem onAck : Alike (x.onAck Nanos.signed s) (y.onAck (fun d => d.toNat) s) := by
  rw [Track.onAck, Track.onAck, ← h.phase]
  cases x.phase with
  | closed | opened => exact h
  | stamped syn stamp => exact ⟨rfl, congrArg some (words_completed h.trips syn stamp s)⟩

theorem step (k : Flow) :
    Alike (x.step Nanos.signed k s) (y.step (fun d => d.toNat) k s) := by
  rw [Track.step, Track.step]
  cases s.has .syn <;> cases s.has .ack <;> dsimp only
  · exact h
  · split
    · exact h.onAck s
    · exact h
  · split
    · exact h.onSyn s
    · exact h
  · split
    · exact h.onSynAck s
    · exact h

end Alike

/-! ### A run -/

/-- **Every flow runs alone.** After any segments of any flows, the open handshake and the sums
of a flow are those of its machine run on the container segments of the flow and of its reverse
alone: the handshake and the words of the sums with every leg as it is, stopping at zero, and
the sums themselves with every leg as the signed word that it is added as. -/
theorem track_of_flow_alone (t : InterfaceTable) (h : Handshakes) (segments : List Segment)
    (k : Flow) :
    let after := segments.foldl (ingest t) h
    let alone (read : Nanos → Int) :=
      (segments.filter (concerns t k)).foldl (Track.step read k) (h.track k)
    after.openings.find? k = (alone fun d => d.toNat).phase.opening? ∧
      (after.window.aggregates.find? k).map words =
        (alone fun d => d.toNat).trips.map words ∧
      after.window.aggregates.find? k = (alone Nanos.signed).trips := by
  intro after alone
  have hafter : after.track k = alone Nanos.signed := by
    simp only [alone, List.foldl_filter]
    exact (List.foldl_hom (fun h => track h k) fun h s => (h.track_ingest t s k).symm).symm
  have halike : Alike (alone Nanos.signed) (alone fun d => d.toNat) :=
    List.foldl_rel ⟨rfl, rfl⟩ fun s _ x y hxy => hxy.step s k
  have hopening : after.openings.find? k = (after.track k).phase.opening? :=
    (Phase.opening?_ofOpening? _).symm
  have htrips : after.window.aggregates.find? k = (after.track k).trips := rfl
  rw [hopening, htrips, hafter, halike.phase, halike.trips]
  exact ⟨rfl, rfl, rfl⟩

end FlowProbe.Handshakes
