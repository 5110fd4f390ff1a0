import FlowProbe.Proofs.Path.Delivery
import FlowProbe.Proofs.Path.Run

/-! The two indexes agree.

Delivery goes through the observations of an address to the sightings under a number, so
traffic could be missed if a sighting were held that no observation leads to. The indexes
are written apart: a segment enters both, delivery takes from one alone, and age takes from
both by the time that an entry carries. `Agrees` is what they owe each other, and every step
of a tracker keeps it, so it holds in every run (`agrees_run`). -/
namespace FlowProbe
open PathIndex

/-- Every sighting stands under its own number, is of a kind that is admitted, and is
remembered by both its addresses; and nothing empty is stored. -/
structure Agrees (table : InterfaceTable) (i : PathIndex) : Prop where
  own : ∀ e ∈ filed i.bySeq, e.2.seq = e.1
  ports : ∀ e ∈ filed i.bySeq, e.2.flow.sourcePort ≠ 53 ∧ e.2.flow.destPort ≠ 53
  outside : ∀ e ∈ filed i.bySeq,
    ¬(table.inOverlay e.2.flow.source = true ∧ table.inOverlay e.2.flow.dest = true)
  atSource : ∀ e ∈ filed i.bySeq,
    ⟨e.2.flow.dest, e.1, e.2.time⟩ ∈ i.observations e.2.flow.source
  atDest : ∀ e ∈ filed i.bySeq,
    ⟨e.2.flow.source, e.1, e.2.time⟩ ∈ i.observations e.2.flow.dest
  tidySeq : Tidy i.bySeq
  tidyAddress : Tidy i.byAddress

namespace PathIndex

/-! ### What an index gains and loses -/

theorem agrees_new (table : InterfaceTable) : Agrees table {} :=
  ⟨nofun, nofun, nofun, nofun, nofun, nofun, nofun⟩

theorem mem_filed_add {i : PathIndex} {s : Segment} {e : UInt32 × Sighting} :
    e ∈ filed (i.add s).bySeq ↔ e ∈ filed i.bySeq ∨ e = (s.seq, s.sighting) := by
  rw [(i.perm_filed_add s).mem_iff, List.mem_append, List.mem_singleton]

theorem observations_add (i : PathIndex) (s : Segment) (ip : Ipv4) :
    (i.add s).observations ip = i.observations ip ++
      ((if ip = s.flow.source then [⟨s.flow.dest, s.seq, s.time⟩] else []) ++
        if ip = s.flow.dest then [⟨s.flow.source, s.seq, s.time⟩] else []) := by
  show listed (push (push i.byAddress s.flow.source _) s.flow.dest _) ip = listed i.byAddress ip ++ _
  simp only [listed_push]
  by_cases hsource : ip = s.flow.source
  · by_cases hdest : ip = s.flow.dest
    · simp [← hsource, ← hdest]
    · simp [← hsource, hdest]
  · by_cases hdest : ip = s.flow.dest
    · simp [← hdest, hsource]
    · simp [hsource, hdest]

theorem agrees_add {table : InterfaceTable} {i : PathIndex} {s : Segment}
    (h : Agrees table i) (hports : s.flow.sourcePort ≠ 53 ∧ s.flow.destPort ≠ 53)
    (houtside : ¬(table.inOverlay s.flow.source = true ∧ table.inOverlay s.flow.dest = true)) :
    Agrees table (i.add s) := by
  refine ⟨fun e he => ?_, fun e he => ?_, fun e he => ?_, fun e he => ?_, fun e he => ?_,
    tidy_push h.tidySeq _ _, tidy_push (tidy_push h.tidyAddress _ _) _ _⟩
  all_goals rcases mem_filed_add.1 he with hold | rfl
  · exact h.own e hold
  · rfl
  · exact h.ports e hold
  · exact hports
  · exact h.outside e hold
  · exact houtside
  · rw [observations_add]
    exact List.mem_append_left _ (h.atSource e hold)
  · rw [observations_add]
    simp [Segment.sighting]
  · rw [observations_add]
    exact List.mem_append_left _ (h.atDest e hold)
  · rw [observations_add]
    simp [Segment.sighting]

theorem agrees_prune {table : InterfaceTable} {i : PathIndex} (h : Agrees table i)
    (horizon now : Nanos) : Agrees table (i.prune horizon now) := by
  have hheld : ∀ e ∈ filed (i.prune horizon now).bySeq,
      e ∈ filed i.bySeq ∧ decide (Nanos.elapsed e.2.time now ≤ horizon) = true := by
    intro e he
    rw [filed_prune] at he
    exact List.mem_filter.1 he
  refine ⟨fun e he => h.own e (hheld e he).1, fun e he => h.ports e (hheld e he).1,
    fun e he => h.outside e (hheld e he).1, fun e he => ?_, fun e he => ?_,
    tidy_retain _ _, tidy_retain _ _⟩
  -- an observation carries the time of its sighting, so age keeps both or neither
  · rw [observations_prune]
    exact List.mem_filter.2 ⟨h.atSource e (hheld e he).1, (hheld e he).2⟩
  · rw [observations_prune]
    exact List.mem_filter.2 ⟨h.atDest e (hheld e he).1, (hheld e he).2⟩

/-- A smaller sequence index agrees with the same observations. -/
theorem agrees_of_subset {table : InterfaceTable} {i : PathIndex} (h : Agrees table i)
    {buckets : SeqBuckets} (hsubset : ∀ e ∈ filed buckets, e ∈ filed i.bySeq)
    (htidy : Tidy buckets) : Agrees table { i with bySeq := buckets } :=
  ⟨fun e he => h.own e (hsubset e he), fun e he => h.ports e (hsubset e he),
    fun e he => h.outside e (hsubset e he), fun e he => h.atSource e (hsubset e he),
    fun e he => h.atDest e (hsubset e he), htidy, h.tidyAddress⟩

end PathIndex

namespace PathTracker

theorem agrees_query {table : InterfaceTable} {t : PathTracker} (h : Agrees table t.index)
    (now : Nanos) (out : Buffer) : Agrees table (t.query now out).state.index := by
  obtain ⟨gone, hw⟩ := exists_walked now (t.index.visits t.focus) t.index.bySeq out
  exact agrees_of_subset h (fun e he => hw.parts.subset (List.mem_append_right _ he))
    (hw.tidy h.tidySeq)

theorem admits_iff {table : InterfaceTable} {t : PathTracker} {f : Flow} :
    t.admits table f = true ↔ (f.sourcePort ≠ 53 ∧ f.destPort ≠ 53) ∧
      ¬(table.inOverlay f.source = true ∧ table.inOverlay f.dest = true) ∧
      (t.focus.holds f.source = true ∨ t.focus.holds f.dest = true) := by
  simp only [admits, lookupPort, Bool.and_eq_true, bne_iff_ne, Bool.not_eq_true', Bool.or_eq_true,
    Bool.and_eq_false_iff, not_and, Bool.not_eq_true, and_assoc]
  rw [← Bool.and_eq_false_iff, Bool.and_eq_false_imp]

theorem agrees_step (table : InterfaceTable) (t : PathTracker) (call : Call)
    (h : Agrees table t.index) : Agrees table (t.step table call).index := by
  cases call with
  | update a b span op =>
    cases op with
    | update => exact h
    | delete => exact h
  | ingest s =>
    show Agrees table (t.ingest table s).index
    unfold ingest
    split
    · next hadmits =>
      obtain ⟨hports, houtside, -⟩ := admits_iff.1 hadmits
      exact agrees_add h hports houtside
    · exact h
  | poll now out => exact agrees_prune (agrees_query h now out) t.clearCycle now
  | reorder order =>
    show Agrees table (t.reorder order).index
    rw [index_reorder]
    exact h

theorem agrees_run (table : InterfaceTable) (clearCycle : Nanos) (calls : List Call) :
    Agrees table (run table { clearCycle } calls).index :=
  run_invariant table (agrees_step table) (agrees_new table) calls

end PathTracker
end FlowProbe
