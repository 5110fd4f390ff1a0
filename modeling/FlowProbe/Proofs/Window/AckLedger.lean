import FlowProbe.Proofs.Window.AckQueue
import FlowProbe.Proofs.Window.Folding

/-! The account of the acknowledgments.

A segment that leaves is sent and waits. An ACK that comes in takes what it covers in front of the
queue, however much that is, and makes one sample of the last of it; a flush throws away what waits,
whether or not it could write what it had to. `deed` says which of these a segment does, and
`does_ingest` what that does to the analyzer. So what was sent waits, was taken or was thrown away,
each once, and what the analyzer took in was sent, missed or made a sample (`sent_accounted`). -/
namespace FlowProbe.AckDelays
open Windowed Folding
open PathIndex (listed)

/-- A sample: the last segment that an ACK takes, and the ACK. -/
structure Sample where
  last : Waiting
  ack : Segment
  deriving DecidableEq, Repr

/-- The delays of a flow with one more sample. -/
def Sample.put (i : Sample) (delays : Option Delays) : Delays :=
  Lane.sampled Nanos.signed i.last.time i.ack delays

theorem Sample.count_put (i : Sample) (delays : Option Delays) :
    (i.put delays).count = delays.elim 0 Delays.count + 1 := by
  cases delays with
  | none => rfl
  | some d => rfl

/-! ### What a segment does -/

/-- What a segment can do. -/
inductive Deed where
  | nothing
  /-- It leaves, and waits under its flow. -/
  | waits
  /-- It comes in and covers nothing. -/
  | misses
  /-- It comes in and takes what it covers. -/
  | takes (covered : List Waiting) (last : Waiting)

def deed (t : InterfaceTable) (a : AckDelays) (s : Segment) : Deed :=
  if admits t s then
    match t.direction s.flow s.hint with
    | .sent => .waits
    | .received =>
      match (a.covered s).getLast? with
      | none => .misses
      | some last => .takes (a.covered s) last
  else .nothing

namespace Deed

variable (s : Segment)

/-- The segment that waits from now on. -/
def sent : Deed → List (Flow × Waiting)
  | waits => [(s.flow, ⟨s.seq, s.ack, s.time⟩)]
  | nothing | misses | takes .. => []

/-- The segments that wait no longer. -/
def taken : Deed → List (Flow × Waiting)
  | takes covered _ => covered.map fun w => (s.flow.reverse, w)
  | nothing | waits | misses => []

/-- The sample that is made, and for which flow. -/
def sample? : Deed → Option (Flow × Sample)
  | takes _ last => some (s.flow, ⟨last, s⟩)
  | nothing | waits | misses => none

/-- The ACK that covers nothing. -/
def missed : Deed → List Segment
  | misses => [s]
  | nothing | waits | takes .. => []

end Deed

/-- The segments that wait, under their flows. -/
def waiting (a : AckDelays) : List (Flow × Waiting) :=
  a.queues.entries.flatMap fun e => e.2.map fun w => (e.1, w)

theorem length_waiting (a : AckDelays) : a.waiting.length = a.queued := by
  rw [waiting, List.length_flatMap, queued, Keyed.total_eq_sum]
  simp only [List.length_map]

/-- How a segment leaves the analyzer. -/
structure Does (a : AckDelays) (s : Segment) (d : Deed) (after : AckDelays) : Prop where
  waiting : (after.waiting ++ d.taken s).Perm (a.waiting ++ d.sent s)
  aggregates : after.window.aggregates =
    (d.sample? s).elim a.window.aggregates fun p =>
      a.window.aggregates.alter p.1 fun b => some (p.2.put b)
  unmatched : after.window.counters.unmatched =
    a.window.counters.unmatched + (d.missed s).length
  ingested : after.window.counters.ingested =
    a.window.counters.ingested +
      ((d.sent s).length + (d.missed s).length + (d.sample? s).toList.length)

theorem perm_waiting_alter (a : AckDelays) (k : Flow)
    (f : Option (List Waiting) → Option (List Waiting)) :
    (({ a with queues := a.queues.alter k f } : AckDelays).waiting ++
        (listed a.queues k).map fun w => (k, w)).Perm
      (a.waiting ++ ((f (a.queues.find? k)).getD []).map fun w => (k, w)) := by
  have hown (q : Option (List Waiting)) :
      ((Keyed.own k q).flatMap fun e => e.2.map fun w => (e.1, w)) =
        (q.getD []).map fun w => (k, w) := by
    cases q with
    | none => rfl
    | some q => exact List.flatMap_singleton ..
  have hperm := (a.queues.perm_alter_own k f).flatMap_right fun e => e.2.map fun w => (e.1, w)
  rwa [List.flatMap_append, List.flatMap_append, hown, hown] at hperm

theorem perm_enqueue (a : AckDelays) (s : Segment) :
    (a.enqueue s).waiting.Perm (a.waiting ++ [(s.flow, (⟨s.seq, s.ack, s.time⟩ : Waiting))]) := by
  have hperm := a.perm_waiting_alter s.flow fun q =>
    some (q.getD [] ++ [(⟨s.seq, s.ack, s.time⟩ : Waiting)])
  rw [Option.getD_some, List.map_append] at hperm
  refine (List.perm_append_right_iff _).1 (hperm.trans ?_)
  rw [List.append_assoc]
  exact List.perm_append_comm.append_left _

theorem perm_dequeue (a : AckDelays) (s : Segment) :
    (({ a with queues := a.queues.alter s.flow.reverse fun q => q.bind (dequeue s) } :
          AckDelays).waiting ++ (a.covered s).map fun w => (s.flow.reverse, w)).Perm a.waiting := by
  have hperm := a.perm_waiting_alter s.flow.reverse fun q => q.bind (dequeue s)
  have hrest : ((a.queues.find? s.flow.reverse).bind (dequeue s)).getD [] =
      (listed a.queues s.flow.reverse).drop (a.covered s).length := by
    rw [covered, listed]
    cases a.queues.find? s.flow.reverse with
    | none => rfl
    | some queue => exact getD_dequeue s queue
  have hqueue : (listed a.queues s.flow.reverse).map (fun w => (s.flow.reverse, w)) =
      (a.covered s).map (fun w => (s.flow.reverse, w)) ++
        ((listed a.queues s.flow.reverse).drop (a.covered s).length).map
          fun w => (s.flow.reverse, w) := by
    rw [← List.map_append]
    exact congrArg _ (List.prefix_append_drop (List.takeWhile_prefix _))
  rw [hrest, hqueue, ← List.append_assoc] at hperm
  exact (List.perm_append_right_iff _).1 hperm

/-- A segment does what it can. -/
theorem does_ingest (t : InterfaceTable) (a : AckDelays) (s : Segment) :
    a.Does s (a.deed t s) (a.ingest t s) := by
  rw [deed]
  rcases a.ingest_cases t s with ⟨hadmits, hsent, he⟩ | ⟨hadmits, hreceived, he⟩ | ⟨hadmits, he⟩
  · rw [he, if_pos hadmits, hsent]
    refine ⟨?_, rfl, rfl, rfl⟩
    rw [Deed.taken, List.append_nil]
    exact (a.admitted s).perm_enqueue s
  · rw [he, if_pos hadmits, hreceived]
    cases hlast : (a.covered s).getLast? with
    | none =>
      have hnil : (a.admitted s).covered s = [] := List.getLast?_eq_none_iff.1 hlast
      rw [onAck_of_nil hnil]
      exact ⟨.refl _, rfl, rfl, rfl⟩
    | some last =>
      have hlast : ((a.admitted s).covered s).getLast? = some last := hlast
      rw [onAck_of_last hlast]
      refine ⟨?_, rfl, rfl, rfl⟩
      rw [Deed.sent, List.append_nil]
      exact a.perm_dequeue s
  · rw [he, hadmits]
    exact ⟨.refl _, rfl, rfl, rfl⟩

/-- A sample is of a segment that its ACK takes. -/
theorem mem_taken_of_sample? {t : InterfaceTable} {a : AckDelays} {s : Segment}
    {p : Flow × Sample} (h : (a.deed t s).sample? s = some p) :
    (p.1.reverse, p.2.last) ∈ (a.deed t s).taken s := by
  rw [deed] at h ⊢
  cases hadmits : admits t s with
  | false =>
    rw [hadmits] at h
    cases h
  | true =>
    rw [hadmits] at h
    cases hdirection : t.direction s.flow s.hint with
    | sent =>
      rw [hdirection] at h
      cases h
    | received =>
      rw [hdirection] at h
      cases hlast : (a.covered s).getLast? with
      | none =>
        rw [hlast] at h
        cases h
      | some last =>
        rw [hlast] at h
        cases h
        exact List.mem_map_of_mem (List.mem_of_getLast? hlast)

instance : Folding AckDelays where
  Item := Sample
  item? t a s := (a.deed t s).sample? s
  put := Sample.put
  count := Delays.count
  countKey := "data_counts"
  aggregates_ingest t a s := (a.does_ingest t s).aggregates
  number_record _ := count_record

/-! ### What a run does -/

/-- The segments that an act sends. -/
def sent : Act AckDelays → List (Flow × Waiting)
  | .ingest t a s => (a.deed t s).sent s
  | .flush .. => []

/-- The segments that an act acknowledges. -/
def taken : Act AckDelays → List (Flow × Waiting)
  | .ingest t a s => (a.deed t s).taken s
  | .flush .. => []

/-- The segments that an act throws away. -/
def discarded : Act AckDelays → List (Flow × Waiting)
  | .ingest .. => []
  | .flush _ a _ => a.waiting

/-- The ACKs that cover nothing. -/
def missed : Act AckDelays → List Segment
  | .ingest t a s => (a.deed t s).missed s
  | .flush .. => []

theorem steady_waiting : Steady waiting := ⟨fun _ => rfl, fun _ _ => rfl⟩

theorem perm_act (x : Act AckDelays) :
    (waiting x.after ++ (taken x ++ discarded x)).Perm (waiting x.before ++ sent x) := by
  cases x with
  | ingest t a s =>
    rw [discarded, List.append_nil]
    exact (a.does_ingest t s).waiting
  | flush t a out =>
    rw [sent, List.append_nil]
    exact .refl _

theorem unmatched_act (x : Act AckDelays) :
    (counters x.after).unmatched = (counters x.before).unmatched + (missed x).length := by
  cases x with
  | ingest t a s => exact (a.does_ingest t s).unmatched
  | flush t a out => rfl

theorem ingested_act (x : Act AckDelays) :
    (counters x.after).ingested =
      (counters x.before).ingested + ((sent x).length + (missed x).length + x.items.length) := by
  cases x with
  | ingest t a s => exact (a.does_ingest t s).ingested
  | flush t a out => rfl

theorem mem_taken {x : Act AckDelays} {p : Flow × Sample} (h : p ∈ x.items) :
    (p.1.reverse, p.2.last) ∈ taken x := by
  cases x with
  | flush t a out => cases h
  | ingest t a s =>
    rw [Act.items, Option.mem_toList] at h
    exact mem_taken_of_sample? h

theorem perm_run_waiting (a : AckDelays) (calls : List (Call AckDelays)) :
    ((run a calls).waiting ++ ((acts a calls).flatMap taken ++ (acts a calls).flatMap discarded)).Perm
      (a.waiting ++ (acts a calls).flatMap sent) :=
  perm_run steady_waiting fun x _ => perm_act x

/-- A call that flushes leaves nothing waiting. -/
theorem waiting_of_flushes {a : AckDelays} {call : Call AckDelays} (h : flushes a call = true) :
    (step a call).waiting = [] := by
  cases call with
  | flush t out => rfl
  | poll t out =>
    have hdue : (clock a).isDue = true := h
    rw [step_poll, if_pos hdue]
    rfl
  | ingest | restart | reorder => cases h

/-- **Every segment is accounted for.** After any run of calls on a new analyzer, with any times and
any outputs, what it took in are the segments that were sent, the ACKs that covered nothing, which it
counts as unmatched, and the samples that the aggregates count, those that are held and those that
were written; read off the records, as far as words can tell. What was sent waits, was taken by an
ACK or was thrown away by a flush, one by one. A call that flushes leaves nothing waiting, whatever
its output had room for, so every later sample is of a segment that was sent later. -/
theorem sent_accounted (interval : Nanos) (calls : List (Call AckDelays)) :
    let new := ofInterval interval
    let a := run new calls
    let away := (acts new calls).flatMap sent
    let matched := (acts new calls).flatMap taken
    let lost := (acts new calls).flatMap discarded
    (counters a).ingested = away.length + (counters a).unmatched + heldCount a +
        ((history new calls).map fun e => e.aggregate.count).sum ∧
      InWords (away.length + (counters a).unmatched + heldCount a +
        ((output new calls).map fun r => r.number "data_counts").sum) (counters a).ingested ∧
      (a.waiting ++ (matched ++ lost)).Perm away ∧
      away.length = a.queued + matched.length + lost.length ∧
      ∀ call, flushes a call = true → (step a call).queued = 0 ∧
        ∀ later, ∀ p ∈ items (step a call) later,
          (p.1.reverse, p.2.last) ∈ (acts (step a call) later).flatMap sent := by
  intro new a away matched lost
  have hperm : (a.waiting ++ (matched ++ lost)).Perm away := perm_run_waiting new calls
  have hcount : heldCount a + ((history new calls).map fun e => e.aggregate.count).sum =
      (items new calls).length :=
    (counted_run fun p _ b => Sample.count_put p.2 b).trans (Nat.zero_add _)
  have hunmatched : (counters a).unmatched = ((acts new calls).map fun x => (missed x).length).sum :=
    (sum_run (steady_counter Counters.unmatched) fun x _ => unmatched_act x).trans (Nat.zero_add _)
  have hingested : (counters a).ingested = away.length + (counters a).unmatched + heldCount a +
      ((history new calls).map fun e => e.aggregate.count).sum := by
    have hrun : (counters a).ingested = (counters new).ingested + _ :=
      sum_run (steady_counter Counters.ingested) fun x _ => ingested_act x
    rw [List.sum_map_add, List.sum_map_add, ← hunmatched] at hrun
    rw [Nat.add_assoc _ (heldCount a), hcount, items, List.length_flatMap, List.length_flatMap]
    exact hrun.trans (Nat.zero_add _)
  refine ⟨hingested, ?_, hperm, ?_, fun call hflush => ⟨?_, fun later p hp => ?_⟩⟩
  · rw [hingested, ← Nat.cast_add, ← Nat.cast_add]
    exact (InWords.nat _).add (inWords_output new calls)
  · rw [← hperm.length_eq, List.length_append, List.length_append, length_waiting, Nat.add_assoc]
  · rw [← length_waiting, waiting_of_flushes hflush]
    rfl
  · obtain ⟨x, hx, hitem⟩ := List.mem_flatMap.1 hp
    have hafter := perm_run_waiting (step a call) later
    rw [waiting_of_flushes hflush, List.nil_append] at hafter
    refine hafter.mem_iff.1 (List.mem_append_right _ (List.mem_append_left _ ?_))
    exact List.mem_flatMap.2 ⟨x, hx, mem_taken hitem⟩

end FlowProbe.AckDelays
