import FlowProbe.Path.Tracker
import FlowProbe.Proofs.Keyed

/-! The runs of a path tracker.

A run is a list of calls on a new tracker: pairs that come into focus or are withdrawn,
segments, and polls, each with an output of its own. The pairs in focus have no order that
anyone may rely on, yet a poll walks them in one; `reorder` lets any order of them come up
between two calls, so what holds of all runs holds of all walks. `run_invariant` carries a
property from every step to every run. -/
namespace FlowProbe.PathTracker

/-- The same tracker with its pairs in another order. -/
def reorder (t : PathTracker) (order : Keyed PodPair Span) : PathTracker :=
  { t with focus := { t.focus with pairs := t.focus.pairs.reorder order } }

inductive Call where
  | update (a b : Ipv4) (span : Span) (op : FocusOp)
  | ingest (s : Segment)
  | poll (now : Nanos) (out : Buffer)
  | reorder (order : Keyed PodPair Span)

def step (table : InterfaceTable) (t : PathTracker) : Call → PathTracker
  | .update a b span op => t.update a b span op
  | .ingest s => t.ingest table s
  | .poll now out => (t.poll now out).state
  | .reorder order => t.reorder order

def run (table : InterfaceTable) (t : PathTracker) : List Call → PathTracker
  | [] => t
  | call :: rest => run table (t.step table call) rest

/-- What every call keeps, every run keeps. -/
theorem run_invariant {P : PathTracker → Prop} (table : InterfaceTable)
    (hstep : ∀ t call, P t → P (t.step table call)) {t : PathTracker} (h : P t)
    (calls : List Call) : P (t.run table calls) := by
  induction calls generalizing t with
  | nil => exact h
  | cons call rest ih => exact ih (hstep t call h)

/-! ### Orders of the pairs -/

section Reorder

variable (t : PathTracker) (order : Keyed PodPair Span)

theorem perm_reorder : (t.reorder order).focus.pairs.entries.Perm t.focus.pairs.entries :=
  t.focus.pairs.perm_reorder order

@[simp] theorem refs_reorder : (t.reorder order).focus.refs = t.focus.refs := rfl

@[simp] theorem index_reorder : (t.reorder order).index = t.index := rfl

@[simp] theorem counters_reorder : (t.reorder order).counters = t.counters := rfl

@[simp] theorem clearCycle_reorder : (t.reorder order).clearCycle = t.clearCycle := rfl

end Reorder

end FlowProbe.PathTracker
