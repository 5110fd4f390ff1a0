import FlowProbe.Proofs.Keyed
import FlowProbe.Syscall.Tracker
import Mathlib.Data.List.Count
import Mathlib.Data.List.Perm.Subperm

/-! What a sweep takes and what it leaves.

Whether a call is overdue depends on the time of the sweep alone, so a sweep with an output
that is too small leaves calls for another at the same time. It takes as many of the overdue
calls as there is room for, the first ones in order (`perm_taken`), and leaves the others
(`perm_taken_append`); the calls that are not overdue stay as they are (`young_sweepInto`). The
record of a call shows which call it is (`record_inj`), so none has a record in another's name
(`count_record`). A map has no order that anyone may rely on: `reorder` lets any order of the
calls come up. -/
namespace FlowProbe

/-! ### The order of calls -/

namespace TimedOut

/-- Begun earlier, or together with it by an earlier thread. -/
def Earlier (a b : TimedOut) : Prop :=
  a.call.start < b.call.start ∨ a.call.start = b.call.start ∧ a.tid < b.tid

theorem before_iff {a b : TimedOut} :
    a.before b = true ↔
      a.call.start < b.call.start ∨ a.call.start = b.call.start ∧ a.tid ≤ b.tid := by
  rw [before, Bool.or_eq_true, Bool.and_eq_true, decide_eq_true_eq, beq_iff_eq, decide_eq_true_eq]

theorem before_trans (a b c : TimedOut) (hab : a.before b = true) (hbc : b.before c = true) :
    a.before c = true := by
  rw [before_iff] at *
  rcases hab with hab | ⟨hab, htid⟩
  · rcases hbc with hbc | ⟨hbc, -⟩
    · exact .inl (UInt64.lt_trans hab hbc)
    · exact .inl (hbc ▸ hab)
  · rw [hab]
    exact hbc.imp_right fun ⟨hbc, htid'⟩ => ⟨hbc, UInt32.le_trans htid htid'⟩

theorem before_total (a b : TimedOut) : (a.before b || b.before a) = true := by
  rw [Bool.or_eq_true, before_iff, before_iff]
  by_cases hstart : a.call.start = b.call.start
  · exact (UInt32.le_total a.tid b.tid).imp (fun htid => .inr ⟨hstart, htid⟩)
      fun htid => .inr ⟨hstart.symm, htid⟩
  · exact (UInt64.le_total a.call.start b.call.start).imp
      (fun h => .inl (UInt64.lt_of_le_of_ne h hstart))
      fun h => .inl (UInt64.lt_of_le_of_ne h (Ne.symm hstart))

theorem earlier_of_before {a b : TimedOut} (h : a.before b = true) (htid : a.tid ≠ b.tid) :
    a.Earlier b :=
  (before_iff.1 h).imp_right fun ⟨hstart, hle⟩ => ⟨hstart, UInt32.lt_of_le_of_ne hle htid⟩

theorem Earlier.asymm {a b : TimedOut} (h : a.Earlier b) (h' : b.Earlier a) : False := by
  rcases h with h | ⟨hstart, htid⟩
  · rcases h' with h' | ⟨hstart', -⟩
    · exact UInt64.lt_asymm h h'
    · exact UInt64.lt_irrefl _ (hstart' ▸ h)
  · rcases h' with h' | ⟨-, htid'⟩
    · exact UInt64.lt_irrefl _ (hstart ▸ h')
    · exact UInt32.lt_asymm htid htid'

/-- A record shows which call was overdue and when that was found. -/
theorem record_inj {now now' : Nanos} {o o' : TimedOut} (h : o.record now = o'.record now') :
    now = now' ∧ o = o' := by
  obtain ⟨tid, ⟨start, kind, pid⟩, elapsed⟩ := o
  obtain ⟨tid', ⟨start', kind', pid'⟩, elapsed'⟩ := o'
  simp only [record, Record.mk.injEq, List.cons.injEq, Attribute.mk.injEq, Value.u32.injEq,
    Value.u16.injEq, Value.u64.injEq, true_and, and_true] at h
  obtain ⟨rfl, rfl, rfl, rfl, rfl, rfl⟩ := h
  exact ⟨rfl, rfl⟩

/-- Among the records of distinct calls each of them has one, and no other call has any. -/
theorem count_record {l : List TimedOut} (h : (l.map tid).Nodup) (now : Nanos) (e : TimedOut) :
    (l.map (record now)).count (e.record now) = if e ∈ l then 1 else 0 := by
  rw [List.count_map_of_injective _ _ fun _ _ hrecord => (record_inj hrecord).2]
  exact h.of_map.count

end TimedOut

namespace SyscallTracker

/-- A record shows which call was slow, how long it took and when it ended. -/
theorem slowRecord_inj {tid tid' : UInt32} {call call' : Syscall}
    {latency latency' now now' : Nanos}
    (h : slowRecord tid call latency now = slowRecord tid' call' latency' now') :
    tid = tid' ∧ call = call' ∧ latency = latency' ∧ now = now' := by
  obtain ⟨start, kind, pid⟩ := call
  obtain ⟨start', kind', pid'⟩ := call'
  simp only [slowRecord, Record.mk.injEq, List.cons.injEq, Attribute.mk.injEq, Value.u32.injEq,
    Value.u16.injEq, Value.u64.injEq, true_and, and_true] at h
  obtain ⟨rfl, rfl, rfl, rfl, rfl, rfl⟩ := h
  exact ⟨rfl, rfl, rfl, rfl⟩

/-! ### Overdue calls -/

/-- Whether a call is past the timeout at `now`. -/
def isOverdue (t : SyscallTracker) (now : Nanos) (call : Syscall) : Bool :=
  t.timeout ≤ Nanos.elapsed call.start now

/-- The calls past the timeout, in the order of the entries. -/
def overdue (t : SyscallTracker) (now : Nanos) : List TimedOut :=
  (t.calls.entries.filter fun e => t.isOverdue now e.2).map fun e =>
    { tid := e.1, call := e.2, elapsed := Nanos.elapsed e.2.start now }

/-- The calls that a sweep has no business with. -/
def young (t : SyscallTracker) (now : Nanos) : List (UInt32 × Syscall) :=
  t.calls.entries.filter fun e => !t.isOverdue now e.2

/-- The overdue calls in order. -/
def timedOut (t : SyscallTracker) (now : Nanos) : List TimedOut :=
  (t.overdue now).mergeSort TimedOut.before

/-- A sweep finds the overdue calls. -/
theorem expired_eq (t : SyscallTracker) (now : Nanos) : t.expired now = t.overdue now := by
  rw [overdue, ← List.filterMap_eq_map, List.filterMap_filter]
  refine List.filterMap_congr fun e _ => ?_
  simp only [isOverdue, decide_eq_true_eq]
  rfl

theorem perm_timedOut (t : SyscallTracker) (now : Nanos) :
    (t.timedOut now).Perm (t.overdue now) :=
  List.mergeSort_perm _ _

theorem nodup_overdue (t : SyscallTracker) (now : Nanos) :
    ((t.overdue now).map TimedOut.tid).Nodup := by
  rw [overdue, List.map_map]
  exact t.calls.distinct.sublist (List.filter_sublist.map Prod.fst)

theorem nodup_timedOut (t : SyscallTracker) (now : Nanos) :
    ((t.timedOut now).map TimedOut.tid).Nodup :=
  ((t.perm_timedOut now).map TimedOut.tid).nodup_iff.2 (t.nodup_overdue now)

/-- Threads are distinct, so the order is strict. -/
theorem pairwise_timedOut (t : SyscallTracker) (now : Nanos) :
    (t.timedOut now).Pairwise TimedOut.Earlier := by
  have hsorted := List.pairwise_mergeSort TimedOut.before_trans TimedOut.before_total (t.overdue now)
  have hdistinct := List.pairwise_map.1 (t.nodup_timedOut now)
  exact (hsorted.and hdistinct).imp fun ⟨h, htid⟩ => TimedOut.earlier_of_before h htid

theorem mem_overdue_iff {t : SyscallTracker} {now : Nanos} {e : TimedOut} :
    e ∈ t.overdue now ↔ (e.tid, e.call) ∈ t.calls.entries ∧ t.isOverdue now e.call = true ∧
      e.elapsed = Nanos.elapsed e.call.start now := by
  rw [overdue, List.mem_map]
  constructor
  · rintro ⟨p, hp, rfl⟩
    exact ⟨(List.mem_filter.1 hp).1, (List.mem_filter.1 hp).2, rfl⟩
  · rintro ⟨hmem, hoverdue, helapsed⟩
    refine ⟨(e.tid, e.call), List.mem_filter.2 ⟨hmem, hoverdue⟩, ?_⟩
    rw [← helapsed]

/-- A thread has one call, so where it is overdue it is the one that is tracked. -/
theorem eq_of_mem_overdue {t : SyscallTracker} {now : Nanos} {o : TimedOut}
    {e : UInt32 × Syscall} (ho : o ∈ t.overdue now) (he : e ∈ t.calls.entries)
    (htid : o.tid = e.1) : o = ⟨e.1, e.2, Nanos.elapsed e.2.start now⟩ := by
  obtain ⟨hentry, -, helapsed⟩ := mem_overdue_iff.1 ho
  rw [htid, Keyed.mem_entries_iff] at hentry
  have hcall := Keyed.mem_entries_iff.1 (show (e.1, e.2) ∈ t.calls.entries from he)
  rw [hentry, Option.some.injEq] at hcall
  rw [← htid, ← hcall, ← helapsed]

/-- Of the threads with a call, those of overdue ones are found. -/
theorem tid_mem_overdue_iff {t : SyscallTracker} {now : Nanos} {e : UInt32 × Syscall}
    (he : e ∈ t.calls.entries) :
    e.1 ∈ (t.overdue now).map TimedOut.tid ↔ t.isOverdue now e.2 = true := by
  constructor
  · intro hmem
    obtain ⟨o, ho, htid⟩ := List.mem_map.1 hmem
    rw [eq_of_mem_overdue ho he htid] at ho
    exact (mem_overdue_iff.1 ho).2.1
  · intro hoverdue
    have hmem : (⟨e.1, e.2, Nanos.elapsed e.2.start now⟩ : TimedOut) ∈ t.overdue now :=
      mem_overdue_iff.2 ⟨he, hoverdue, rfl⟩
    exact List.mem_map_of_mem hmem

/-- Threads are numbered by words of 32 bits, so no tracker has more calls than the greatest
word of 64 bits. -/
theorem length_overdue_lt (t : SyscallTracker) (now : Nanos) :
    (t.overdue now).length < UInt64.size := by
  have hnumbers : ((t.overdue now).map fun e => e.tid.toNat).Nodup := by
    have hdistinct := (t.nodup_overdue now).map fun _ _ h => UInt32.toNat_inj.1 h
    rwa [List.map_map] at hdistinct
  have hsubset : ((t.overdue now).map fun e => e.tid.toNat) ⊆ List.range UInt32.size := by
    intro n hn
    obtain ⟨e, -, rfl⟩ := List.mem_map.1 hn
    exact List.mem_range.2 e.tid.toNat_lt
  have hle := (List.subperm_of_subset hnumbers hsubset).length_le
  rw [List.length_map, List.length_range] at hle
  exact Nat.lt_of_le_of_lt hle (by decide)

/-! ### What a sweep takes -/

theorem taken_of_le {t : SyscallTracker} {now : Nanos} {limit : Nat}
    (h : (t.overdue now).length ≤ limit) : t.taken now limit = t.overdue now := by
  rw [← expired_eq] at h ⊢
  exact if_neg (Nat.not_lt_of_le h)

/-- Of more overdue calls than a sweep may take, it takes the first ones in order. -/
theorem taken_of_lt {t : SyscallTracker} {now : Nanos} {limit : Nat}
    (h : limit < (t.overdue now).length) : t.taken now limit = (t.timedOut now).take limit := by
  rw [timedOut, ← expired_eq]
  rw [← expired_eq] at h
  exact if_pos h

theorem taken_subset_overdue (t : SyscallTracker) (now : Nanos) (limit : Nat) :
    t.taken now limit ⊆ t.overdue now :=
  t.expired_eq now ▸ t.taken_subset now limit

theorem perm_taken (t : SyscallTracker) (now : Nanos) (limit : Nat) :
    (t.taken now limit).Perm ((t.timedOut now).take limit) := by
  by_cases h : limit < (t.overdue now).length
  · rw [taken_of_lt h]
  · have hle := Nat.le_of_not_lt h
    rw [taken_of_le hle, List.take_of_length_le ((t.perm_timedOut now).length_eq ▸ hle)]
    exact (t.perm_timedOut now).symm

theorem length_taken (t : SyscallTracker) (now : Nanos) (limit : Nat) :
    (t.taken now limit).length = min limit (t.overdue now).length := by
  rw [(t.perm_taken now limit).length_eq, List.length_take, (t.perm_timedOut now).length_eq]

theorem nodup_taken (t : SyscallTracker) (now : Nanos) (limit : Nat) :
    ((t.taken now limit).map TimedOut.tid).Nodup := by
  rw [((t.perm_taken now limit).map TimedOut.tid).nodup_iff]
  exact (t.nodup_timedOut now).sublist ((List.take_sublist _ _).map TimedOut.tid)

/-- A sweep without an output takes all overdue calls, and none of them is put in order. -/
theorem sweep_eq (t : SyscallTracker) (now : Nanos) :
    t.sweep now = (t.evict (t.overdue now), t.overdue now) := by
  rw [sweep, sweepLimited, taken_of_le (Nat.le_sub_one_of_lt (t.length_overdue_lt now))]

/-! ### Evictions -/

/-- An eviction changes nothing but the calls. -/
theorem evict_eq_calls (t : SyscallTracker) (evicted : List TimedOut) :
    t.evict evicted = { t with calls := (t.evict evicted).calls } := by
  induction evicted generalizing t with
  | nil => rfl
  | cons e rest ih => exact ih (t.erase e.tid)

theorem timeout_evict (t : SyscallTracker) (evicted : List TimedOut) :
    (t.evict evicted).timeout = t.timeout := by
  rw [evict_eq_calls]

theorem entries_evict (t : SyscallTracker) (evicted : List TimedOut) :
    (t.evict evicted).calls.entries =
      t.calls.entries.filter fun e => e.1 ∉ evicted.map TimedOut.tid := by
  induction evicted generalizing t with
  | nil => simp [evict]
  | cons e rest ih =>
    have hrest := ih (t.erase e.tid)
    rw [erase, Keyed.entries_erase, Keyed.others, List.filter_filter] at hrest
    refine hrest.trans (List.filter_congr fun p _ => ?_)
    simp [not_or, Bool.and_comm]

theorem overdue_evict (t : SyscallTracker) (evicted : List TimedOut) (now : Nanos) :
    (t.evict evicted).overdue now =
      (t.overdue now).filter fun e => e.tid ∉ evicted.map TimedOut.tid := by
  rw [overdue, overdue, entries_evict, List.filter_map, List.filter_filter, List.filter_filter]
  refine congrArg _ (List.filter_congr fun e _ => ?_)
  rw [isOverdue, timeout_evict, Bool.and_comm]
  rfl

/-- Where threads are distinct, what is not of the front part's threads is the rest. -/
theorem filter_not_front {front rest : List TimedOut}
    (h : ((front ++ rest).map TimedOut.tid).Nodup) :
    ((front ++ rest).filter fun e => e.tid ∉ front.map TimedOut.tid) = rest := by
  rw [List.map_append, List.nodup_append] at h
  have hfront : (front.filter fun e => e.tid ∉ front.map TimedOut.tid) = [] := by
    refine List.filter_eq_nil_iff.2 fun e he => ?_
    simp only [decide_eq_true_eq, not_not]
    exact List.mem_map_of_mem he
  have hrest : (rest.filter fun e => e.tid ∉ front.map TimedOut.tid) = rest := by
    refine List.filter_eq_self.2 fun e he => decide_eq_true fun hmem => ?_
    exact h.2.2 _ hmem _ (List.mem_map_of_mem he) rfl
  rw [List.filter_append, hfront, hrest, List.nil_append]

theorem evict_eq (t : SyscallTracker) (evicted : List TimedOut) :
    t.evict evicted =
      { t with calls := t.calls.filter fun tid _ => tid ∉ evicted.map TimedOut.tid } := by
  have hcalls : (t.evict evicted).calls =
      t.calls.filter fun tid _ => tid ∉ evicted.map TimedOut.tid := by
    refine Keyed.ext ?_
    rw [entries_evict, Keyed.entries_filter]
  rw [evict_eq_calls, hcalls]

/-- The order of an eviction is all the same. -/
theorem evict_perm {t : SyscallTracker} {evicted evicted' : List TimedOut}
    (h : evicted.Perm evicted') : t.evict evicted = t.evict evicted' := by
  have htid (tid : UInt32) :
      tid ∉ evicted.map TimedOut.tid ↔ tid ∉ evicted'.map TimedOut.tid :=
    not_congr (h.map TimedOut.tid).mem_iff
  simp only [evict_eq, htid]

/-- What is overdue after a sweep is what the sweep did not take. -/
theorem perm_overdue_evict_taken (t : SyscallTracker) (now : Nanos) (limit : Nat) :
    ((t.evict (t.taken now limit)).overdue now).Perm ((t.timedOut now).drop limit) := by
  have hcut := List.take_append_drop limit (t.timedOut now)
  have hrest := filter_not_front (hcut.symm ▸ t.nodup_timedOut now)
  rw [hcut] at hrest
  rw [evict_perm (t.perm_taken now limit), overdue_evict]
  exact ((t.perm_timedOut now).symm.filter _).trans (.of_eq hrest)

/-- What a sweep takes and what is overdue after it were overdue before it. -/
theorem perm_taken_append (t : SyscallTracker) (now : Nanos) (limit : Nat) :
    (t.taken now limit ++ (t.evict (t.taken now limit)).overdue now).Perm (t.overdue now) := by
  have hparts := (t.perm_taken now limit).append (t.perm_overdue_evict_taken now limit)
  rw [List.take_append_drop] at hparts
  exact hparts.trans (t.perm_timedOut now)

/-! ### A sweep with an output -/

section SweepInto

variable (t : SyscallTracker) (now : Nanos) (out : Buffer)

theorem state_sweepInto : (t.sweepInto now out).state = t.evict (t.taken now out.remaining) := rfl

theorem count_sweepInto :
    (t.sweepInto now out).count = min out.remaining (t.overdue now).length :=
  t.length_taken now out.remaining

theorem records_sweepInto :
    (t.sweepInto now out).out.records =
      out.records ++ (t.taken now out.remaining).map (TimedOut.record now) := by
  refine Buffer.records_offer ?_
  rw [List.length_map, length_taken]
  exact Nat.min_le_left _ _

theorem capacity_sweepInto : (t.sweepInto now out).out.capacity = out.capacity :=
  out.capacity_offer _

theorem remaining_sweepInto :
    (t.sweepInto now out).count + (t.sweepInto now out).out.remaining = out.remaining := by
  have hremaining : (t.sweepInto now out).out.remaining =
      out.remaining - ((t.taken now out.remaining).map (TimedOut.record now)).length :=
    out.remaining_offer _
  rw [List.length_map, length_taken] at hremaining
  rw [count_sweepInto, hremaining]
  omega

/-- What is not overdue survives a sweep. -/
theorem young_sweepInto : (t.sweepInto now out).state.young now = t.young now := by
  rw [state_sweepInto, young, young, entries_evict, List.filter_filter]
  refine List.filter_congr fun e he => ?_
  rw [isOverdue, timeout_evict, ← isOverdue, Bool.and_eq_left_iff_imp]
  intro hyoung
  refine decide_eq_true fun hmem => ?_
  have htid := List.map_subset TimedOut.tid (t.taken_subset_overdue now out.remaining) hmem
  rw [(tid_mem_overdue_iff he).1 htid] at hyoung
  exact Bool.false_ne_true hyoung

end SweepInto

/-- Where nothing is overdue all calls are young. -/
theorem young_eq_entries {t : SyscallTracker} {now : Nanos} (h : t.overdue now = []) :
    t.young now = t.calls.entries := by
  refine List.filter_eq_self.2 fun e he => ?_
  rw [Bool.not_eq_true', Bool.eq_false_iff, ne_eq, ← tid_mem_overdue_iff he, h]
  exact List.not_mem_nil

/-! ### Orders of the calls -/

/-- The same tracker with its calls in another order. -/
def reorder (t : SyscallTracker) (order : Keyed UInt32 Syscall) : SyscallTracker :=
  { t with calls := t.calls.reorder order }

theorem perm_reorder (t : SyscallTracker) (order : Keyed UInt32 Syscall) :
    (t.reorder order).calls.entries.Perm t.calls.entries :=
  t.calls.perm_reorder order

end SyscallTracker

end FlowProbe
