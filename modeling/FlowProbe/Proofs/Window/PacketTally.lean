import FlowProbe.Proofs.Window.PacketLedger

/-! The total of one flow.

Captured segments and socket reports raise the same total by different rules, one more for a
segment and at least its count for a report, and the two do not commute. What they leave is the
fold over the flow's own events in their order (`tally`): the first one opens the total and fixes
the direction, the others raise it, and neither an event of another flow nor a flush that leaves
the total behind shows in it (`total_of_flow_alone`). Reports alone only raise, so there the total
is the greatest count and knows nothing of their order or how often each came in. -/
namespace FlowProbe.PacketCounts
open Windowed Folding

/-! ### The fold -/

def flowOf : Segment ⊕ SocketReport → Flow := Sum.elim Segment.flow SocketReport.flow

def hintOf : Segment ⊕ SocketReport → UInt8 := Sum.elim Segment.hint SocketReport.hint

/-- The total that an event opens with. -/
def opening : Segment ⊕ SocketReport → Nat
  | .inl _ => 1
  | .inr r => r.count.toNat

/-- What an event makes of a total. -/
def raised (total : Nat) : Segment ⊕ SocketReport → Nat
  | .inl _ => total + 1
  | .inr r => max total r.count.toNat

/-- Whether an event is one of a container interface and of the flow `k`. -/
def concerns (t : InterfaceTable) (k : Flow) (e : Segment ⊕ SocketReport) : Bool :=
  t.isContainer (flowOf e).iface && flowOf e = k

/-- The total of a flow behind its own events. -/
def tally (t : InterfaceTable) (k : Flow) : List (Segment ⊕ SocketReport) → Option PacketTotal
  | [] => none
  | first :: rest => some ⟨rest.foldl raised (opening first), t.direction k (hintOf first)⟩

/-- The events of a flow that a run takes in, where all of them go by the table `t`. -/
def own (t : InterfaceTable) (k : Flow) (calls : List (Call PacketCounts)) :
    List (Segment ⊕ SocketReport) :=
  ((intake calls).map Prod.snd).filter (concerns t k)

/-! ### Reports -/

/-- Whether an event is a report with the hint `hint`. -/
def Reports (hint : UInt8) (e : Segment ⊕ SocketReport) : Prop := ∃ r, e = .inr r ∧ r.hint = hint

section Reports

variable {t : InterfaceTable} {k : Flow} {hint : UInt8}

/-- Reports leave the greatest count. -/
theorem tally_of_reports {events : List (Segment ⊕ SocketReport)}
    (h : ∀ e ∈ events, Reports hint e) :
    tally t k events = (events.map opening).max?.map fun n => ⟨n, t.direction k hint⟩ := by
  cases events with
  | nil => rfl
  | cons first rest =>
    have hfold (n : Nat) : rest.foldl raised n = (rest.map opening).foldl max n := by
      rw [List.foldl_map]
      refine List.foldl_ext _ _ n fun total e he => ?_
      obtain ⟨r, rfl, -⟩ := h e (List.mem_cons_of_mem _ he)
      rfl
    have hfirst : hintOf first = hint := by
      obtain ⟨r, rfl, hr⟩ := h first List.mem_cons_self
      exact hr
    rw [tally, hfold, hfirst, List.map_cons, List.max?_cons', Option.map_some]

/-- The order of reports and how often each came in make no difference. -/
theorem tally_congr_of_reports {events events' : List (Segment ⊕ SocketReport)}
    (h : ∀ e ∈ events, Reports hint e) (hsame : ∀ e, e ∈ events' ↔ e ∈ events) :
    tally t k events' = tally t k events := by
  have hmax : (events'.map opening).max? = (events.map opening).max? := by
    refine Option.ext fun n => ?_
    simp only [List.max?_eq_some_iff, List.mem_map, hsame]
  rw [tally_of_reports fun e he => h e ((hsame e).1 he), tally_of_reports h, hmax]

end Reports

/-! ### The items of a run -/

/-- What an event of a container interface does to a total. -/
def entry (t : InterfaceTable) : Segment ⊕ SocketReport → Entry
  | .inl s => .packet (t.direction s.flow s.hint)
  | .inr r => .report (t.direction r.flow r.hint) r.count.toNat

theorem entryOf_eq (t : InterfaceTable) (e : Segment ⊕ SocketReport) :
    entryOf t e = if t.isContainer (flowOf e).iface then some (flowOf e, entry t e) else none := by
  cases e <;> rfl

theorem put_entry_none (t : InterfaceTable) (e : Segment ⊕ SocketReport) :
    (entry t e).put none = ⟨opening e, t.direction (flowOf e) (hintOf e)⟩ := by
  cases e <;> rfl

theorem put_entry_some (t : InterfaceTable) (e : Segment ⊕ SocketReport) (b : PacketTotal) :
    (entry t e).put (some b) = ⟨raised b.total e, b.direction⟩ := by
  cases e <;> rfl

/-- Putting the events of a flow in, one after the other, is its fold. -/
theorem foldl_put_entry {t : InterfaceTable} {k : Flow} {events : List (Segment ⊕ SocketReport)}
    (h : ∀ e ∈ events, flowOf e = k) :
    (events.map (entry t)).foldl (fun b i => some (i.put b)) none = tally t k events := by
  have hrest (b : PacketTotal) (rest : List (Segment ⊕ SocketReport)) :
      (rest.map (entry t)).foldl (fun b i => some (i.put b)) (some b) =
        some ⟨rest.foldl raised b.total, b.direction⟩ := by
    induction rest generalizing b with
    | nil => rfl
    | cons e rest ih =>
      rw [List.map_cons, List.foldl_cons, put_entry_some, ih]
      rfl
  cases events with
  | nil => rfl
  | cons first rest =>
    rw [List.map_cons, List.foldl_cons, put_entry_none, hrest, h first List.mem_cons_self]
    rfl

/-- What a run puts in does not depend on what it finds. -/
theorem items_eq {t : InterfaceTable} {calls : List (Call PacketCounts)}
    (htable : ∀ e ∈ intake calls, e.1 = t) (p : PacketCounts) :
    items p calls = ((intake calls).map Prod.snd).filterMap (entryOf t) := by
  induction calls generalizing p with
  | nil => rfl
  | cons call rest ih =>
    cases call with
    | ingest t' e =>
      obtain rfl : t' = t := htable (t', e) List.mem_cons_self
      have hput : (Act.ingest t' p e).items = (entryOf t' e).toList := rfl
      have htaken : (intake (.ingest t' e :: rest)).map Prod.snd =
          e :: (intake rest).map Prod.snd := rfl
      rw [items_cons, act?, Option.toList_some, List.flatMap_singleton, hput, htaken,
        List.filterMap_cons, ih fun e he => htable e (List.mem_cons_of_mem _ he)]
      cases entryOf t' e <;> rfl
    | flush | restart | reorder => exact ih htable _
    | poll t' out =>
      rw [items_cons, act?]
      split <;> exact ih htable _

/-- Of what events put in, the items of a flow are those of its own events. -/
theorem map_filter_filterMap (t : InterfaceTable) (k : Flow)
    (events : List (Segment ⊕ SocketReport)) :
    ((events.filterMap (entryOf t)).filter fun p => p.1 = k).map Prod.snd =
      (events.filter (concerns t k)).map (entry t) := by
  induction events with
  | nil => rfl
  | cons e rest ih =>
    rw [List.filterMap_cons, entryOf_eq, List.filter_cons, concerns]
    by_cases hcontainer : t.isContainer (flowOf e).iface = true
    · by_cases hflow : flowOf e = k
      · subst hflow
        simpa [hcontainer] using ih
      · simpa [hcontainer, hflow] using ih
    · simpa [hcontainer] using ih

/-- The total of a flow that was not there is the fold of its own events, as long as nothing of it
is written. -/
theorem live_run_eq_tally {t : InterfaceTable} {p : PacketCounts} {k : Flow}
    {calls : List (Call PacketCounts)} (h : live k p = none)
    (htable : ∀ e ∈ intake calls, e.1 = t) (hkept : writtenOf k (history p calls) = []) :
    live k (run p calls) = tally t k (own t k calls) := by
  have hitems : itemsOf k (items p calls) = (own t k calls).map (entry t) := by
    rw [itemsOf, items_eq htable]
    exact map_filter_filterMap t k _
  rw [live_run_of_kept hkept, h, hitems]
  refine foldl_put_entry fun e he => ?_
  have hconcerns := (List.mem_filter.1 he).2
  rw [concerns, Bool.and_eq_true, decide_eq_true_eq] at hconcerns
  exact hconcerns.2

/-- A run of events writes nothing, so there the total is the fold whatever the events are. -/
theorem live_foldl_eq_tally {t : InterfaceTable} {p : PacketCounts} {k : Flow}
    (h : live k p = none) (events : List (Segment ⊕ SocketReport)) :
    live k (events.foldl (Analyzing.ingest t) p) = tally t k (events.filter (concerns t k)) := by
  have htaken := @intake_ingests PacketCounts _ _ t events
  have htable : ∀ e ∈ intake (events.map fun e => (.ingest t e : Call PacketCounts)), e.1 = t := by
    intro e he
    rw [htaken] at he
    obtain ⟨e, -, rfl⟩ := List.mem_map.1 he
    rfl
  have htally := live_run_eq_tally h htable (congrArg (writtenOf k) (history_ingests t p events))
  rw [run_ingests, own, htaken, List.map_map, Function.comp_def, List.map_id'] at htally
  exact htally

/-- **A total is the fold of its flow's own events.** From a state that holds no total for a flow,
after any segments and reports of any flows, the total of the flow is the fold of its own events
in their order, with the direction that the first of them fixed; and so it is after any run with
flushes, polls, restarts and other orders that writes nothing of the flow. Where its own events are
reports with one hint, it is the greatest of their counts, and any other events among which the
same reports are, in any order and as often as one likes, leave the same. -/
theorem total_of_flow_alone (t : InterfaceTable) (p : PacketCounts) (k : Flow)
    (h : live k p = none) :
    let after (events : List (Segment ⊕ SocketReport)) : Option PacketTotal :=
      live k (events.foldl (Analyzing.ingest t) p)
    (∀ events, after events = tally t k (events.filter (concerns t k))) ∧
      (∀ calls, (∀ e ∈ intake calls, e.1 = t) → writtenOf k (history p calls) = [] →
        live k (run p calls) = tally t k (own t k calls)) ∧
      ∀ events hint, (∀ e ∈ events, concerns t k e = true → Reports hint e) →
        after events = ((events.filter (concerns t k)).map opening).max?.map
          (fun n => ⟨n, t.direction k hint⟩) ∧
        ∀ events', (∀ e, concerns t k e = true → (e ∈ events' ↔ e ∈ events)) →
          after events' = after events := by
  intro after
  have hevents (events : List (Segment ⊕ SocketReport)) :
      after events = tally t k (events.filter (concerns t k)) := live_foldl_eq_tally h events
  refine ⟨hevents, fun calls htable hkept => live_run_eq_tally h htable hkept,
    fun events hint hreports => ?_⟩
  have hown : ∀ e ∈ events.filter (concerns t k), Reports hint e := fun e he =>
    hreports e (List.mem_filter.1 he).1 (List.mem_filter.1 he).2
  refine ⟨(hevents events).trans (tally_of_reports hown), fun events' hsame => ?_⟩
  rw [hevents, hevents]
  refine tally_congr_of_reports hown fun e => ?_
  rw [List.mem_filter, List.mem_filter, and_congr_left_iff]
  exact hsame e

/-- A report of five opens as sent, a segment makes it six, a full output leaves it, a report of
three does not lower it and a later hint does not turn it; reports of two, nine and two leave nine
in any order. -/
theorem total_of_flow_alone_past_full_output :
    let flow : Flow := ⟨⟨1⟩, ⟨2⟩, 1000, 80, 7⟩
    let other : Flow := ⟨⟨3⟩, ⟨2⟩, 1000, 80, 7⟩
    let table : InterfaceTable := { kinds := Keyed.empty.insert 7 .container }
    let report (f : Flow) (count : UInt32) (hint : UInt8) : Segment ⊕ SocketReport :=
      .inr { time := 10, flow := f, seq := 0, ack := 0, count, hint }
    let segment : Segment ⊕ SocketReport :=
      .inl { time := 10, flow, seq := 0, ack := 0, flags := 0 }
    let p := Analyzing.ingest table (ofInterval 5) (report other 8 0)
    let take (e : Segment ⊕ SocketReport) : Call PacketCounts := .ingest table e
    let calls : List (Call PacketCounts) :=
      [take (report flow 5 2), take segment, .flush table { capacity := 1 }, take (report flow 3 1)]
    let reports := [report flow 2 1, report other 11 2, report flow 9 1, report flow 2 1]
    live flow p = none ∧
      live flow ([report flow 5 2, segment, report other 9 0].foldl (Analyzing.ingest table) p) =
        some ⟨6, .sent⟩ ∧
      live flow (run p calls) = some ⟨6, .sent⟩ ∧
      live flow (reports.foldl (Analyzing.ingest table) p) = some ⟨9, .received⟩ ∧
      live flow (reports.reverse.foldl (Analyzing.ingest table) p) =
        live flow (reports.foldl (Analyzing.ingest table) p) := by
  intro flow other table report segment p take calls reports
  have hp : live flow p = none := by decide
  obtain ⟨hevents, hcalls, hreports⟩ := total_of_flow_alone table p flow hp
  have htable : ∀ e ∈ intake calls, e.1 = table := by
    intro e he
    fin_cases he <;> rfl
  have hsame : ∀ e ∈ reports, concerns table flow e = true → Reports 1 e := by
    simp [reports, report, flow, other, concerns, flowOf, Reports]
  obtain ⟨hmax, hany⟩ := hreports reports 1 hsame
  refine ⟨hp, (hevents _).trans (by decide), (hcalls calls htable (by decide)).trans (by decide),
    hmax.trans (by decide), hany reports.reverse fun e _ => List.mem_reverse⟩

end FlowProbe.PacketCounts
