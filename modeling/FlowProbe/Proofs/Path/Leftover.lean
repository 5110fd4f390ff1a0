import FlowProbe.Proofs.Path.Ageing

/-! What a full output leaves behind.

A poll that runs out of room leaves wanted sightings in the index, and ages all the same. So
a later poll can only deliver what outlasts the first one: `Lasts` says that of a sighting,
that neither it nor what asks for it is let go of at the time of the poll.
`left_over_delivered_next` says that nothing else is lost: of a sighting that lasts, what
the first poll does not write is still held, and a second poll at the same time with room
for what is wanted writes all of it. -/
namespace FlowProbe.PathTracker
open PathIndex

/-- Whether a sighting is asked for beyond a poll at `now`: by a pair whose span is not over
then, through an observation that is no older than a clear cycle, and it is no older itself. -/
def Lasts (t : PathTracker) (now : Nanos) (s : Sighting) : Prop :=
  Nanos.elapsed s.time now ≤ t.clearCycle ∧
    ∃ e ∈ t.focus.pairs.entries, now ≤ e.2.last ∧ e.2.contains s.time = true ∧
      ∃ ip ∈ e.1.ends, ∃ o ∈ t.index.observations ip,
        o.seq = s.seq ∧ Nanos.elapsed o.time now ≤ t.clearCycle

/-- What a query does not write of a sighting that is fresh is held after the poll. -/
theorem count_poll_of_fresh {t : PathTracker} {now : Nanos} (out : Buffer) {s : Sighting}
    (hfresh : Nanos.elapsed s.time now ≤ t.clearCycle) :
    ((t.poll now out).out.records.drop out.size).count (s.record now) +
      (t.poll now out).state.index.sightings.count s = t.index.sightings.count s := by
  obtain ⟨delivered, h⟩ := t.exists_delivers now out
  have hwritten : (t.poll now out).out.records.drop out.size =
      (delivered.map Prod.snd).map (Sighting.record now) := by
    show (t.query now out).out.records.drop out.records.length = _
    rw [h.records, List.drop_left, List.map_map]
    rfl
  have hheld : (t.poll now out).state.index.sightings.count s =
      (t.query now out).state.index.sightings.count s := by
    have hkept : (t.poll now out).state.index.sightings =
        (t.query now out).state.index.sightings.filter
          fun s => Nanos.elapsed s.time now ≤ t.clearCycle :=
      (t.query now out).state.index.sightings_prune t.clearCycle now
    rw [hkept]
    exact List.count_filter (decide_eq_true hfresh)
  have hparts := (h.parts.map Prod.snd).count_eq s
  rw [List.map_append, List.count_append] at hparts
  rw [hwritten, hheld, List.count_map_of_injective _ _ (record_injective now)]
  exact hparts

/-- **What lasts is not lost to a full output.** In every run, of a sighting that outlasts a
poll, the poll keeps in the index what it has no room to write, and a second poll at the same
time, in whatever order it walks the pairs, writes what was kept if it has room for what is
wanted. -/
theorem left_over_delivered_next (table : InterfaceTable) (clearCycle : Nanos)
    (calls : List Call) (now : Nanos) (out out' : Buffer) (order : Keyed PodPair Span) :
    let t := run table { clearCycle } calls
    let first := t.poll now out
    let second := (first.state.reorder order).poll now out'
    first.state.wanted.length ≤ out'.remaining → ∀ s, t.Lasts now s →
      (first.out.records.drop out.size).count (s.record now) +
          first.state.index.sightings.count s = t.index.sightings.count s ∧
        (second.out.records.drop out'.size).count (s.record now) =
          first.state.index.sightings.count s := by
  intro t first second hroom s hlasts
  obtain ⟨hfresh, hasks⟩ := hlasts
  refine ⟨count_poll_of_fresh out hfresh, ?_⟩
  have hagrees : Agrees table (first.state.reorder order).index :=
    agrees_step table _ (.reorder order)
      (agrees_step table _ (.poll now out) (agrees_run table clearCycle calls))
  have hwants : (first.state.reorder order).wants s.seq s.time = true := by
    rw [wants_reorder, wants_poll_iff]
    exact hasks
  rw [← wanted_reorder first.state order] at hroom
  have hcount : (second.out.records.drop out'.size).count (s.record now) =
      (first.state.reorder order).index.sightings.count s :=
    count_records_poll_of_wants hagrees hroom fun _ => hwants
  rw [index_reorder] at hcount
  exact hcount

/-- Three segments meet on one number, the first poll has room for one of them, and the second
poll writes the other two. -/
theorem left_over_delivered_two :
    let s (port : UInt16) : Segment :=
      { time := 5, flow := ⟨⟨1⟩, ⟨2⟩, port, 80, 1⟩, seq := 7, ack := 0, flags := 0 }
    let t := run {} { clearCycle := 100 }
      [.update ⟨1⟩ ⟨2⟩ ⟨0, 30⟩ .update, .ingest (s 1000), .ingest (s 2000), .ingest (s 2000)]
    let first := t.poll 20 { capacity := 1 }
    let second := (first.state.reorder .empty).poll 20 { capacity := 2 }
    (first.state.wanted.length ≤ 2 ∧ t.Lasts 20 (s 2000).sighting) ∧
      first.out.records = [(s 1000).sighting.record 20] ∧
        second.out.records.count ((s 2000).sighting.record 20) = 2 := by
  intro s t first second
  have hroom : first.state.wanted.length ≤ 2 := by decide
  have hlasts : t.Lasts 20 (s 2000).sighting :=
    ⟨by decide, (.of ⟨1⟩ ⟨2⟩, ⟨0, 30⟩), by decide, by decide, by decide, ⟨1⟩, by decide,
      ⟨⟨2⟩, 7, 5⟩, by decide, by decide⟩
  have hheld : first.state.index.sightings.count (s 2000).sighting = 2 := by decide
  obtain ⟨-, hsecond⟩ := left_over_delivered_next {} 100
    [.update ⟨1⟩ ⟨2⟩ ⟨0, 30⟩ .update, .ingest (s 1000), .ingest (s 2000), .ingest (s 2000)]
    20 { capacity := 1 } { capacity := 2 } .empty hroom (s 2000).sighting hlasts
  refine ⟨⟨hroom, hlasts⟩, by decide, ?_⟩
  rw [← hheld]
  simp only [second, first, t]
  exact hsecond

/-- What a full output leaves is lost where the pair's span is over at the time of the poll, and
where a clear cycle has passed: both segments are wanted, one is written, and a second poll at
the same time with room for more finds nothing. -/
theorem left_over_lost_with_span_or_age :
    let s (port : UInt16) : Segment :=
      { time := 5, flow := ⟨⟨1⟩, ⟨2⟩, port, 80, 1⟩, seq := 7, ack := 0, flags := 0 }
    let t (clearCycle : Nanos) (span : Span) : PathTracker := run {} { clearCycle }
      [.update ⟨1⟩ ⟨2⟩ span .update, .ingest (s 1000), .ingest (s 2000)]
    let first (u : PathTracker) := u.poll 20 { capacity := 1 }
    let second (u : PathTracker) := (first u).state.poll 20 { capacity := 8 }
    let both := [(s 1000).sighting, (s 2000).sighting]
    ((t 100 ⟨0, 9⟩).wanted.map Prod.snd = both ∧
        (first (t 100 ⟨0, 9⟩)).out.records = [(s 1000).sighting.record 20] ∧
        (second (t 100 ⟨0, 9⟩)).out.records = []) ∧
      (t 10 ⟨0, 30⟩).wanted.map Prod.snd = both ∧
        (first (t 10 ⟨0, 30⟩)).out.records = [(s 1000).sighting.record 20] ∧
        (second (t 10 ⟨0, 30⟩)).out.records = [] := by
  decide

end FlowProbe.PathTracker
