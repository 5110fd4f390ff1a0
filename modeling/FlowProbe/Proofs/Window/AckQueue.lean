import FlowProbe.Proofs.Path.Filing
import FlowProbe.Proofs.Window.Memory
import FlowProbe.Proofs.Window.Run
import Mathlib.Algebra.BigOperators.Group.Finset.Piecewise

/-! The queue of one flow.

The segments of a flow wait under the flow, their samples are kept under its reverse, and which
of the two a segment moves depends on the way it travels. Seen from one flow there is a single
queue: what leaves goes to its end, and an acknowledgment that comes in takes a part from its
front. A `Lane` is that queue with the samples it has given and the number of acknowledgments
that took nothing. `lane_ingest` says that a segment moves the lane of every flow by the lane's
own rule or not at all, and `lane_of_flow_alone` that a run over all flows leaves each with what
a run over its own segments would leave, the misses of all of them adding up to the analyzer's.
The samples are added as signed words, which `Lane.step` leaves to a parameter. -/
namespace FlowProbe.AckDelays

open PathIndex (listed Tidy)

/-- The segments of a flow that wait, the samples of its reverse, and how many acknowledgments
found nothing that they cover. -/
structure Lane where
  queue : List Waiting
  delays : Option Delays
  missed : Nat
  deriving DecidableEq, Repr

namespace Lane

/-- A segment that leaves waits behind the others. -/
def append (x : Lane) (s : Segment) : Lane :=
  { x with queue := x.queue ++ [⟨s.seq, s.ack, s.time⟩] }

section Read

variable (read : Nanos → Int)

/-- The samples with one more, whose delay counts as `read` reads it. -/
def sampled (sent : Nanos) (s : Segment) (delays : Option Delays) : Delays :=
  let delay := read (Nanos.elapsed sent s.time)
  match delays with
  | none => { count := 1, sum := delay, start := s.time, finish := s.time }
  | some d => { d with count := d.count + 1, sum := d.sum + delay, finish := s.time }

/-- An acknowledgment takes out what it covers in front of the queue. The last of it gives one
sample; an acknowledgment that covers nothing there is a miss. -/
def acknowledge (x : Lane) (s : Segment) : Lane :=
  let covered := x.queue.takeWhile fun w => w.seq ≤ s.ack && w.ack ≤ s.seq
  match covered.getLast? with
  | none => { x with missed := x.missed + 1 }
  | some last =>
    { x with
      queue := x.queue.drop covered.length
      delays := some (sampled read last.time s x.delays) }

/-- What a segment does to the lane of the flow `k`. -/
def step (t : InterfaceTable) (k : Flow) (x : Lane) (s : Segment) : Lane :=
  match t.direction s.flow s.hint with
  | .sent => if s.flow = k then x.append s else x
  | .received => if s.flow = k.reverse then x.acknowledge read s else x

end Read

/-- A segment of another connection is nothing to a lane. -/
theorem step_of_ne (read : Nanos → Int) (t : InterfaceTable) {k : Flow} (x : Lane) {s : Segment}
    (h : s.flow ≠ k) (hreverse : s.flow ≠ k.reverse) : x.step read t k s = x := by
  rw [step]
  cases t.direction s.flow s.hint with
  | sent => exact if_neg h
  | received => exact if_neg hreverse

end Lane

/-- What the analyzer holds of a flow, with a number of misses. -/
def lane (a : AckDelays) (k : Flow) (missed : Nat) : Lane :=
  ⟨listed a.queues k, a.window.aggregates.find? k.reverse, missed⟩

/-- Whether a segment is of a container interface and has an ACK and no SYN. -/
def admits (t : InterfaceTable) (s : Segment) : Bool :=
  t.isContainer s.flow.iface && s.has .ack && !s.has .syn

/-- Whether a segment is admitted, and of a flow or its reverse. -/
def concerns (t : InterfaceTable) (k : Flow) (s : Segment) : Bool :=
  admits t s && (s.flow = k || s.flow = k.reverse)

/-! ### One segment -/

/-- What leaves waits behind what waits already. -/
theorem listed_enqueue (a : AckDelays) (s : Segment) (k : Flow) :
    listed (a.enqueue s).queues k =
      if k = s.flow then listed a.queues s.flow ++ [⟨s.seq, s.ack, s.time⟩]
      else listed a.queues k :=
  PathIndex.listed_push a.queues s.flow _ k

theorem lane_enqueue (a : AckDelays) (s : Segment) (k : Flow) (n : Nat) :
    (a.enqueue s).lane k n = if s.flow = k then (a.lane k n).append s else a.lane k n := by
  simp only [lane, listed_enqueue, eq_comm (a := k)]
  split
  · next hk =>
    rw [hk]
    rfl
  · rfl

/-- The segments that an acknowledgment covers in front of the queue of its reverse flow. -/
def covered (a : AckDelays) (s : Segment) : List Waiting :=
  (listed a.queues s.flow.reverse).takeWhile (covers s)

/-- Counts an acknowledgment that covers nothing. -/
def misses (a : AckDelays) (s : Segment) : Nat := if a.covered s = [] then 1 else 0

theorem misses_of_nil {a : AckDelays} {s : Segment} (h : a.covered s = []) : a.misses s = 1 :=
  if_pos h

theorem misses_of_last {a : AckDelays} {s : Segment} {last : Waiting}
    (h : (a.covered s).getLast? = some last) : a.misses s = 0 := by
  refine if_neg fun hnil => ?_
  rw [hnil] at h
  cases h

theorem onAck_of_nil {a : AckDelays} {s : Segment} (h : a.covered s = []) :
    a.onAck s = { a with window := a.window.miss 1 } := by
  have hlast : (((a.queues.find? s.flow.reverse).getD []).takeWhile (covers s)).getLast? = none :=
    List.getLast?_eq_none_iff.2 h
  rw [onAck, hlast]

theorem onAck_of_last {a : AckDelays} {s : Segment} {last : Waiting}
    (h : (a.covered s).getLast? = some last) :
    a.onAck s =
      { queues := a.queues.alter s.flow.reverse fun q => q.bind (dequeue s)
        window := { a.window with
          aggregates := a.window.aggregates.alter s.flow fun d =>
            some (Lane.sampled Nanos.signed last.time s d) } } := by
  have hlast : (((a.queues.find? s.flow.reverse).getD []).takeWhile (covers s)).getLast? =
      some last := h
  simp only [onAck, hlast, Window.gather]
  congr 3
  funext d
  cases d <;> rfl

theorem getD_dequeue (s : Segment) (queue : List Waiting) :
    (dequeue s queue).getD [] = queue.drop (queue.takeWhile (covers s)).length := by
  have hdrop : (queue.takeWhile (covers s) ++ queue.dropWhile (covers s)).drop
      (queue.takeWhile (covers s)).length = queue.dropWhile (covers s) := List.drop_left
  rw [List.takeWhile_append_dropWhile] at hdrop
  rw [dequeue, hdrop]
  cases queue.dropWhile (covers s) <;> rfl

/-- What leaves a queue, nothing if there is no queue. -/
theorem listed_dequeue (a : AckDelays) (s : Segment) (k : Flow) :
    listed (a.queues.alter s.flow.reverse fun q => q.bind (dequeue s)) k =
      if k = s.flow.reverse then (listed a.queues k).drop (a.covered s).length
      else listed a.queues k := by
  rw [listed, Keyed.find?_alter]
  split
  · next hk =>
    rw [hk, covered, listed]
    cases a.queues.find? s.flow.reverse with
    | none => rfl
    | some queue => exact getD_dequeue s queue
  · rfl

/-- An acknowledgment moves the lane of its reverse flow, and only that one counts its miss. -/
theorem lane_onAck (a : AckDelays) (s : Segment) (k : Flow) (n : Nat) :
    (if s.flow = k.reverse then (a.lane k n).acknowledge Nanos.signed s else a.lane k n) =
      (a.onAck s).lane k (n + if s.flow.reverse = k then a.misses s else 0) := by
  have hflow : s.flow = k.reverse ↔ s.flow.reverse = k := Flow.reverse_eq_iff.symm
  have hcovered : s.flow.reverse = k →
      (listed a.queues k).takeWhile (fun w => w.seq ≤ s.ack && w.ack ≤ s.seq) = a.covered s := by
    rintro rfl
    rfl
  simp only [hflow]
  cases hlast : (a.covered s).getLast? with
  | none =>
    have hnil := List.getLast?_eq_none_iff.1 hlast
    rw [onAck_of_nil hnil, misses_of_nil hnil]
    split
    · next hk =>
      simp only [Lane.acknowledge, lane, hcovered hk, hlast]
      rfl
    · rfl
  | some last =>
    rw [onAck_of_last hlast, misses_of_last hlast, ite_self, Nat.add_zero]
    by_cases hk : s.flow.reverse = k
    · subst hk
      rw [if_pos rfl]
      simp only [Lane.acknowledge, lane, hcovered rfl, hlast, listed_dequeue, Keyed.find?_alter,
        Flow.reverse_reverse, if_true]
    · have hkeys : k ≠ s.flow.reverse ∧ k.reverse ≠ s.flow :=
        ⟨Ne.symm hk, fun h => hk (hflow.1 h.symm)⟩
      rw [if_neg hk]
      simp only [lane, listed_dequeue, Keyed.find?_alter, if_neg hkeys.1, if_neg hkeys.2]

theorem unmatched_onAck (a : AckDelays) (s : Segment) :
    (a.onAck s).window.counters.unmatched = a.window.counters.unmatched + a.misses s := by
  cases hlast : (a.covered s).getLast? with
  | none =>
    have hnil := List.getLast?_eq_none_iff.1 hlast
    rw [onAck_of_nil hnil, misses_of_nil hnil]
    rfl
  | some last =>
    rw [onAck_of_last hlast, misses_of_last hlast]
    rfl

section Admitted

variable {t : InterfaceTable} {s : Segment} (h : admits t s = true)
include h

theorem ingest_of_sent (hsent : t.direction s.flow s.hint = .sent) (a : AckDelays) :
    a.ingest t s = (a.admitted s).enqueue s := by
  have hguard : (t.isContainer s.flow.iface && s.has .ack && !s.has .syn) = true := h
  rw [ingest, if_pos hguard, hsent]
  rfl

theorem ingest_of_received (hreceived : t.direction s.flow s.hint = .received) (a : AckDelays) :
    a.ingest t s = (a.admitted s).onAck s := by
  have hguard : (t.isContainer s.flow.iface && s.has .ack && !s.has .syn) = true := h
  rw [ingest, if_pos hguard, hreceived]
  rfl

end Admitted

theorem ingest_of_not_admits {t : InterfaceTable} {s : Segment} (h : admits t s = false)
    (a : AckDelays) : a.ingest t s = a :=
  if_neg (Bool.eq_false_iff.1 h)

/-- What a segment can do: it waits, or acknowledges, or is nothing to the analyzer. -/
theorem ingest_cases (t : InterfaceTable) (a : AckDelays) (s : Segment) :
    (admits t s = true ∧ t.direction s.flow s.hint = .sent ∧
      a.ingest t s = (a.admitted s).enqueue s) ∨
    (admits t s = true ∧ t.direction s.flow s.hint = .received ∧
      a.ingest t s = (a.admitted s).onAck s) ∨
    (admits t s = false ∧ a.ingest t s = a) := by
  cases hadmits : admits t s with
  | false => exact .inr (.inr ⟨rfl, ingest_of_not_admits hadmits a⟩)
  | true =>
    cases hdirection : t.direction s.flow s.hint with
    | sent => exact .inl ⟨rfl, rfl, ingest_of_sent hadmits hdirection a⟩
    | received => exact .inr (.inl ⟨rfl, rfl, ingest_of_received hadmits hdirection a⟩)

/-- Counts a segment that comes in as an acknowledgment and covers nothing. -/
def missesOf (t : InterfaceTable) (a : AckDelays) (s : Segment) : Nat :=
  if admits t s = true ∧ t.direction s.flow s.hint = .received then a.misses s else 0

theorem missesOf_of_sent {t : InterfaceTable} {s : Segment}
    (h : t.direction s.flow s.hint = .sent) (a : AckDelays) : a.missesOf t s = 0 := by
  refine if_neg fun hadmits => ?_
  rw [h] at hadmits
  cases hadmits.2

theorem missesOf_of_not_admits {t : InterfaceTable} {s : Segment} (h : admits t s = false)
    (a : AckDelays) : a.missesOf t s = 0 :=
  if_neg fun hadmits => absurd (h.symm.trans hadmits.1) Bool.false_ne_true

theorem missesOf_of_received {t : InterfaceTable} {s : Segment} (h : admits t s = true)
    (hreceived : t.direction s.flow s.hint = .received) (a : AckDelays) :
    a.missesOf t s = a.misses s :=
  if_pos ⟨h, hreceived⟩

theorem unmatched_ingest (t : InterfaceTable) (a : AckDelays) (s : Segment) :
    (a.ingest t s).window.counters.unmatched =
      a.window.counters.unmatched + a.missesOf t s := by
  rcases a.ingest_cases t s with ⟨-, hsent, he⟩ | ⟨hadmits, hreceived, he⟩ | ⟨hadmits, he⟩
  · rw [he, missesOf_of_sent hsent]
    rfl
  · rw [he, missesOf_of_received hadmits hreceived]
    exact (a.admitted s).unmatched_onAck s
  · rw [he, missesOf_of_not_admits hadmits]
    rfl

/-- An admitted segment steps every lane. -/
theorem step_of_admits {t : InterfaceTable} {s : Segment} (h : admits t s = true)
    (read : Nanos → Int) (k : Flow) (x : Lane) :
    (if concerns t k s then x.step read t k s else x) = x.step read t k s := by
  rw [concerns, h, Bool.true_and]
  split
  · rfl
  · next hflow =>
    rw [Bool.or_eq_true, decide_eq_true_eq, decide_eq_true_eq, not_or] at hflow
    exact (Lane.step_of_ne read t x hflow.1 hflow.2).symm

/-- A segment moves the lane of a flow that it concerns, and no other. -/
theorem lane_ingest (t : InterfaceTable) (a : AckDelays) (s : Segment) (k : Flow) (n : Nat) :
    (if concerns t k s then (a.lane k n).step Nanos.signed t k s else a.lane k n) =
      (a.ingest t s).lane k (n + if s.flow.reverse = k then a.missesOf t s else 0) := by
  rcases a.ingest_cases t s with ⟨hadmits, hsent, he⟩ | ⟨hadmits, hreceived, he⟩ | ⟨hadmits, he⟩
  · rw [step_of_admits hadmits, he, missesOf_of_sent hsent, ite_self, Lane.step, hsent]
    exact ((a.admitted s).lane_enqueue s k n).symm
  · rw [step_of_admits hadmits, he, missesOf_of_received hadmits hreceived, Lane.step, hreceived]
    exact (a.admitted s).lane_onAck s k n
  · rw [he, missesOf_of_not_admits hadmits, ite_self, concerns, hadmits]
    rfl

/-! ### The words of the sums -/

/-- The samples of a flow, their sum as the signed word that carries it. -/
def words (d : Delays) : Nat × Int64 × Nanos × Nanos := (d.count, .ofInt d.sum, d.start, d.finish)

/-- Two lanes with the same queue and the same misses whose samples are the same words. -/
structure Alike (x y : Lane) : Prop where
  queue : x.queue = y.queue
  delays : x.delays.map words = y.delays.map words
  missed : x.missed = y.missed

/-- A sample keeps lanes alike, whether its delay is read as a signed word or as it is. -/
theorem words_sampled {delays delays' : Option Delays}
    (h : delays.map words = delays'.map words) (sent : Nanos) (s : Segment) :
    words (Lane.sampled Nanos.signed sent s delays) =
      words (Lane.sampled (fun d => d.toNat) sent s delays') := by
  cases delays with
  | none =>
    cases delays' with
    | none => simp only [Lane.sampled, words, Nanos.ofInt_signed]
    | some d' => cases h
  | some d =>
    cases delays' with
    | none => cases h
    | some d' =>
      simp only [Option.map_some, Option.some.injEq, words, Prod.mk.injEq] at h
      obtain ⟨hcount, hsum, hstart, -⟩ := h
      simp only [Lane.sampled, words, Int64.ofInt_add, Nanos.ofInt_signed, hcount, hsum, hstart]

namespace Alike

variable {x y : Lane} (h : Alike x y) (s : Segment)
include h

theorem append : Alike (x.append s) (y.append s) :=
  ⟨congrArg (· ++ _) h.queue, h.delays, h.missed⟩

theorem acknowledge : Alike (x.acknowledge Nanos.signed s) (y.acknowledge (fun d => d.toNat) s) := by
  simp only [Lane.acknowledge, h.queue]
  split
  · exact ⟨rfl, h.delays, congrArg (· + 1) h.missed⟩
  · next last _ => exact ⟨rfl, congrArg some (words_sampled h.delays last.time s), h.missed⟩

theorem step (t : InterfaceTable) (k : Flow) :
    Alike (x.step Nanos.signed t k s) (y.step (fun d => d.toNat) t k s) := by
  rw [Lane.step, Lane.step]
  cases t.direction s.flow s.hint with
  | sent =>
    dsimp only
    split
    · exact h.append s
    · exact h
  | received =>
    dsimp only
    split
    · exact h.acknowledge s
    · exact h

end Alike

/-! ### No empty queue -/

theorem tidy_onAck {a : AckDelays} (h : Tidy a.queues) (s : Segment) : Tidy (a.onAck s).queues := by
  cases hlast : (a.covered s).getLast? with
  | none =>
    rw [onAck_of_nil (List.getLast?_eq_none_iff.1 hlast)]
    exact h
  | some last =>
    rw [onAck_of_last hlast]
    intro k queue hfind
    rw [Keyed.find?_alter] at hfind
    split at hfind
    · obtain ⟨queue', -, hdequeue⟩ := Option.bind_eq_some_iff.1 hfind
      rw [dequeue] at hdequeue
      split at hdequeue
      · cases hdequeue
      · next hne =>
        cases hdequeue
        exact hne
    · exact h k queue hfind

theorem tidy_ingest {a : AckDelays} (h : Tidy a.queues) (t : InterfaceTable) (s : Segment) :
    Tidy (a.ingest t s).queues := by
  rcases a.ingest_cases t s with ⟨-, -, he⟩ | ⟨-, -, he⟩ | ⟨-, he⟩
  · rw [he]
    exact PathIndex.tidy_push h s.flow _
  · rw [he]
    exact tidy_onAck (a := a.admitted s) h s
  · rw [he]
    exact h

theorem tidy_empty : Tidy (Keyed.empty : Keyed Flow (List Waiting)) := nofun

theorem tidy_step (a : AckDelays) (call : Windowed.Call AckDelays) (h : Tidy a.queues) :
    Tidy (Windowed.step a call).queues := by
  cases call with
  | ingest t s => exact tidy_ingest h t s
  | flush t out => exact tidy_empty
  | poll t out =>
    show Tidy (Windowed.poll t a out).state.queues
    rw [Windowed.poll]
    split
    · exact tidy_empty
    · exact h
  | restart => exact h
  | reorder order => exact h

theorem tidy_run (interval : Nanos) (calls : List (Windowed.Call AckDelays)) :
    Tidy (Windowed.run (ofInterval interval) calls).queues :=
  Windowed.run_invariant (P := fun a => Tidy a.queues) tidy_step tidy_empty calls

/-! ### A run of segments -/

section Alone

variable (t : InterfaceTable) (a : AckDelays) (segments : List Segment) (k : Flow)

/-- The lane of a flow behind the segments that concern it. -/
def alone (read : Nanos → Int) : Lane :=
  (segments.filter (concerns t k)).foldl (Lane.step read t k) (a.lane k 0)

theorem alone_concat (read : Nanos → Int) (s : Segment) :
    alone t a (segments ++ [s]) k read =
      if concerns t k s then (alone t a segments k read).step read t k s
      else alone t a segments k read := by
  simp only [alone, List.foldl_filter, List.foldl_append, List.foldl_cons, List.foldl_nil]

/-- The lane of a flow is the one that its own segments leave. -/
theorem lane_alone :
    alone t a segments k Nanos.signed =
      (segments.foldl (ingest t) a).lane k (alone t a segments k Nanos.signed).missed := by
  induction segments using List.reverseRecOn with
  | nil => rfl
  | append_singleton segments s ih =>
    rw [alone_concat, ih, lane_ingest, List.foldl_append]
    rfl

theorem missed_concat (s : Segment) :
    (alone t a (segments ++ [s]) k Nanos.signed).missed =
      (alone t a segments k Nanos.signed).missed +
        if s.flow.reverse = k then (segments.foldl (ingest t) a).missesOf t s else 0 := by
  rw [alone_concat, lane_alone, lane_ingest]
  rfl

/-- The misses of all lanes are those that the analyzer counts. -/
theorem unmatched_alone (flows : Finset Flow) (h : ∀ s ∈ segments, s.flow.reverse ∈ flows) :
    (segments.foldl (ingest t) a).window.counters.unmatched =
      a.window.counters.unmatched + ∑ k ∈ flows, (alone t a segments k Nanos.signed).missed := by
  induction segments using List.reverseRecOn with
  | nil => exact (congrArg (a.window.counters.unmatched + ·) Finset.sum_const_zero).symm
  | append_singleton segments s ih =>
    rw [List.foldl_append, List.foldl_cons, List.foldl_nil, unmatched_ingest,
      ih fun s' hs' => h s' (List.mem_append_left _ hs')]
    simp only [missed_concat, Finset.sum_add_distrib, Finset.sum_ite_eq]
    rw [if_pos (h s (by simp)), Nat.add_assoc]

theorem alike_alone :
    Alike (alone t a segments k Nanos.signed) (alone t a segments k fun d => d.toNat) :=
  List.foldl_rel ⟨rfl, rfl, rfl⟩ fun s _ _ _ hxy => hxy.step s t k

end Alone

/-- **Every flow is one queue.** From any state that a run of calls leaves, and after any segments
of any flows, the queue of a flow and the samples of its reverse are those of its lane run on the
admitted segments of the two alone: the queue and the words of the samples with every delay as it
is, stopping at zero, and the samples themselves with every delay as the signed word that it is
added as. What the lanes missed is what the analyzer counts as unmatched, and no queue that is
stored is empty. -/
theorem lane_of_flow_alone (t : InterfaceTable) (interval : Nanos)
    (calls : List (Windowed.Call AckDelays)) (segments : List Segment) :
    let a := Windowed.run (ofInterval interval) calls
    let after := segments.foldl (ingest t) a
    let own (k : Flow) := alone t a segments k fun d => d.toNat
    (∀ k, listed after.queues k = (own k).queue ∧
      (after.window.aggregates.find? k.reverse).map words = (own k).delays.map words ∧
      after.window.aggregates.find? k.reverse = (alone t a segments k Nanos.signed).delays) ∧
    after.window.counters.unmatched = a.window.counters.unmatched +
      ∑ k ∈ (segments.map fun s => s.flow.reverse).toFinset, (own k).missed ∧
    Tidy a.queues ∧ Tidy after.queues := by
  intro a after own
  have htidy : Tidy a.queues := tidy_run interval calls
  refine ⟨fun k => ?_, ?_, htidy, ?_⟩
  · have hlane := lane_alone t a segments k
    have halike := alike_alone t a segments k
    have hdelays : (alone t a segments k Nanos.signed).delays =
        after.window.aggregates.find? k.reverse := congrArg Lane.delays hlane
    exact ⟨(congrArg Lane.queue hlane).symm.trans halike.queue,
      (congrArg (Option.map words) hdelays).symm.trans halike.delays, hdelays.symm⟩
  · rw [unmatched_alone t a segments (segments.map fun s => s.flow.reverse).toFinset
      fun s hs => List.mem_toFinset.2 (List.mem_map_of_mem hs)]
    simp only [(alike_alone t a segments _).missed]
    rfl
  · exact List.foldlRecOn (motive := fun b => Tidy b.queues) segments (ingest t) htidy
      fun b hb s _ => tidy_ingest hb t s

end FlowProbe.AckDelays
