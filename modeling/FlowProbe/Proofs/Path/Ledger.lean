import FlowProbe.Proofs.Path.Wanted
import Mathlib.Data.List.Perm.Subperm

/-! What a run owes its segments.

Every segment that a tracker admits has one fate. It is still held, or it went out in one
record of its own, or a poll let go of it for its age. The tracker keeps no list of any of
these, so a `Ledger` is kept beside it, of what can be seen from outside: what was let in,
which records the polls added to their outputs, and what was missing from the index after a
poll that its query had left there. `Balanced` is what one call owes, the books of two calls
add up (`Balanced.append`), and `segments_conserved` is the balance of a whole run. -/
namespace FlowProbe
open PathIndex

structure Ledger where
  admitted : List Sighting := []
  written : List Record := []
  /-- What was let go of, each with the time of the poll that did it. -/
  aged : List (Nanos × Sighting) := []

namespace Ledger

/-- The books of a run, and of another after it. -/
def append (l m : Ledger) : Ledger :=
  { admitted := l.admitted ++ m.admitted, written := l.written ++ m.written, aged := l.aged ++ m.aged }

end Ledger

/-- What a filter took away is what it does not keep. -/
theorem not_keep_of_mem_diff {α : Type} [DecidableEq α] {l : List α} {keep : α → Bool} {a : α}
    (h : a ∈ l.diff (l.filter keep)) : keep a = false := by
  refine Bool.eq_false_iff.2 fun hkeep => ?_
  have hpos := List.count_pos_iff.2 h
  rw [List.count_diff, List.count_filter hkeep] at hpos
  omega

namespace PathTracker

/-! ### The books of a run -/

/-- What one call lets in, writes and lets go of. -/
def entry (table : InterfaceTable) (t : PathTracker) : Call → Ledger
  | .ingest s => if t.admits table s.flow then { admitted := [s.sighting] } else {}
  | .poll now out =>
    let held := (t.query now out).state.index.sightings
    let kept := (t.poll now out).state.index.sightings
    { written := (t.poll now out).out.records.drop out.size
      aged := (held.diff kept).map fun s => (now, s) }
  | .update .. | .reorder _ => {}

def ledger (table : InterfaceTable) (t : PathTracker) : List Call → Ledger
  | [] => {}
  | call :: rest => (t.entry table call).append (ledger table (t.step table call) rest)

/-- The books `l` of a way from `t` to `u` balance, where the sightings `delivered` went
out. -/
structure Balanced (t : PathTracker) (l : Ledger) (delivered : List (Nanos × Sighting))
    (u : PathTracker) : Prop where
  written : l.written = delivered.map fun e => e.2.record e.1
  parts : (delivered.map Prod.snd ++ l.aged.map Prod.snd ++ u.index.sightings).Perm
    (t.index.sightings ++ l.admitted)
  overdue : ∀ e ∈ l.aged, t.clearCycle.toNat + e.2.time.toNat < e.1.toNat
  clearCycle : u.clearCycle = t.clearCycle
  ingested : u.counters.ingested = t.counters.ingested + l.admitted.length
  emitted : u.counters.emitted = t.counters.emitted + l.written.length

/-- A call that touches neither index nor counters owes nothing. -/
theorem Balanced.nothing {t u : PathTracker} (hindex : u.index = t.index)
    (hcycle : u.clearCycle = t.clearCycle) (hcounters : u.counters = t.counters) :
    Balanced t {} [] u := by
  refine ⟨rfl, ?_, nofun, hcycle, ?_, ?_⟩
  · rw [hindex, List.append_nil]
    exact List.Perm.refl _
  · rw [hcounters]
    rfl
  · rw [hcounters]
    rfl

/-- The books of two ways add up to those of the whole way. -/
theorem Balanced.append {t u v : PathTracker} {l m : Ledger} {d e : List (Nanos × Sighting)}
    (h : Balanced t l d u) (h' : Balanced u m e v) : Balanced t (l.append m) (d ++ e) v := by
  refine ⟨?_, ?_, fun a ha => ?_, h'.clearCycle.trans h.clearCycle, ?_, ?_⟩
  · show l.written ++ m.written = _
    rw [h.written, h'.written, List.map_append]
  · -- what is held in between is what the second way starts from
    rw [List.perm_iff_count]
    intro s
    have hfirst := h.parts.count_eq s
    have hsecond := h'.parts.count_eq s
    simp only [Ledger.append, List.map_append, List.count_append] at hfirst hsecond ⊢
    omega
  · rcases List.mem_append.1 ha with ha | ha
    · exact h.overdue a ha
    · rw [← h.clearCycle]
      exact h'.overdue a ha
  · show v.counters.ingested = _ + (l.admitted ++ m.admitted).length
    rw [h'.ingested, h.ingested, List.length_append, Nat.add_assoc]
  · show v.counters.emitted = _ + (l.written ++ m.written).length
    rw [h'.emitted, h.emitted, List.length_append, Nat.add_assoc]

/-! ### One call -/

theorem balanced_ingest (table : InterfaceTable) (t : PathTracker) (s : Segment) :
    Balanced t (t.entry table (.ingest s)) [] (t.ingest table s) := by
  show Balanced t (if t.admits table s.flow then { admitted := [s.sighting] } else {}) [] _
  unfold ingest
  by_cases hadmits : t.admits table s.flow = true
  · rw [if_pos hadmits, if_pos hadmits]
    exact ⟨rfl, t.index.perm_sightings_add s, nofun, rfl, rfl, rfl⟩
  · rw [if_neg hadmits, if_neg hadmits]
    exact .nothing rfl rfl rfl

theorem balanced_poll (table : InterfaceTable) (t : PathTracker) (now : Nanos) (out : Buffer) :
    ∃ delivered, Balanced t (t.entry table (.poll now out)) delivered (t.poll now out).state := by
  obtain ⟨delivered, h⟩ := t.exists_delivers now out
  have hwritten : (t.entry table (.poll now out)).written =
      delivered.map fun e => e.2.record now := by
    show (t.query now out).out.records.drop out.records.length = _
    rw [h.records, List.drop_left]
  have hkept : (t.poll now out).state.index.sightings =
      (t.query now out).state.index.sightings.filter
        fun s => Nanos.elapsed s.time now ≤ t.clearCycle :=
    (t.query now out).state.index.sightings_prune t.clearCycle now
  refine ⟨delivered.map fun e => (now, e.2), ?_, ?_, fun a ha => ?_, rfl, rfl, ?_⟩
  · rw [hwritten, List.map_map]
    rfl
  · -- what the query left is what was let go of and what is kept
    have hparts := h.parts.map Prod.snd
    have hdiff : ((t.query now out).state.index.sightings.diff
        (t.poll now out).state.index.sightings ++ (t.poll now out).state.index.sightings).Perm
        (t.query now out).state.index.sightings := by
      refine List.perm_append_comm.trans (List.subperm_append_diff_self_of_count_le fun s _ => ?_)
      rw [hkept]
      exact List.Sublist.count_le s List.filter_sublist
    have hdelivered : (delivered.map fun e => (now, e.2)).map Prod.snd = delivered.map Prod.snd := by
      rw [List.map_map]
      rfl
    have haged : (t.entry table (.poll now out)).aged.map Prod.snd =
        (t.query now out).state.index.sightings.diff
          (t.poll now out).state.index.sightings := by
      show ((List.diff _ _).map fun s => (now, s)).map Prod.snd = _
      rw [List.map_map]
      exact List.map_id _
    rw [List.map_append] at hparts
    rw [hdelivered, haged, List.append_assoc]
    refine (hdiff.append_left _).trans ?_
    show (_ ++ (filed (t.query now out).state.index.bySeq).map Prod.snd).Perm (_ ++ [])
    rw [List.append_nil]
    exact hparts
  · obtain ⟨s, hs, rfl⟩ := List.mem_map.1 ha
    rw [hkept] at hs
    have hold := not_keep_of_mem_diff hs
    rw [decide_eq_false_iff_not, UInt64.le_iff_toNat_le, Nanos.toNat_elapsed] at hold
    show t.clearCycle.toNat + s.time.toNat < now.toNat
    omega
  · rw [hwritten, List.length_map, ← h.count]
    rfl

theorem balanced_step (table : InterfaceTable) (t : PathTracker) (call : Call) :
    ∃ delivered, Balanced t (t.entry table call) delivered (t.step table call) := by
  cases call with
  | update a b span op =>
    cases op with
    | update => exact ⟨[], .nothing rfl rfl rfl⟩
    | delete => exact ⟨[], .nothing rfl rfl rfl⟩
  | ingest s => exact ⟨[], t.balanced_ingest table s⟩
  | poll now out => exact t.balanced_poll table now out
  | reorder order =>
    exact ⟨[], .nothing (t.index_reorder order) (t.clearCycle_reorder order)
      (t.counters_reorder order)⟩

/-! ### A whole run -/

theorem balanced_run (table : InterfaceTable) (t : PathTracker) (calls : List Call) :
    ∃ delivered, Balanced t (t.ledger table calls) delivered (t.run table calls) := by
  induction calls generalizing t with
  | nil => exact ⟨[], .nothing rfl rfl rfl⟩
  | cons call rest ih =>
    obtain ⟨first, hfirst⟩ := t.balanced_step table call
    obtain ⟨later, hlater⟩ := ih (t.step table call)
    exact ⟨first ++ later, hfirst.append hlater⟩

/-- Two flows meet on one number, and a poll that has room for one of them is cut off in
between. -/
example :
    let s (port : UInt16) : Segment :=
      { time := 5, flow := ⟨⟨1⟩, ⟨2⟩, port, 80, 1⟩, seq := 7, ack := 0, flags := 0 }
    let calls : List Call :=
      [.update ⟨1⟩ ⟨2⟩ ⟨0, 9⟩ .update, .ingest (s 1000), .ingest (s 2000), .poll 6 { capacity := 1 }]
    (ledger {} { clearCycle := 100 } calls).written = [(s 1000).sighting.record 6] ∧
      (run {} { clearCycle := 100 } calls).index.sightings = [(s 2000).sighting] := by
  decide

end PathTracker
end FlowProbe
