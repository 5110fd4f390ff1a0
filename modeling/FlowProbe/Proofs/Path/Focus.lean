import FlowProbe.Proofs.Keyed
import FlowProbe.Proofs.Path.Run
import Mathlib.Data.List.Count

/-! Reference counts are exact.

The counts of a focus are kept beside its pairs and never recomputed. `Exact` says that
they are nevertheless what counting the pairs gives. It holds of a new focus and is kept by
the four ways in which pairs change: a new pair retains both its addresses, a renewed one
none, and a pair that is withdrawn or over releases them. `references_exact` draws the
conclusion for every run of a tracker. -/
namespace FlowProbe

namespace Focus

/-- How many pairs have `ip` as an end, a pair of one address with itself once. -/
def tally (f : Focus) (ip : Ipv4) : Nat := f.pairs.entries.countP fun e => ip ∈ e.1.ends

/-- What is stored for an address that `n` pairs have as an end. -/
def stored (n : Nat) : Option Nat := if n = 0 then none else some n

/-- Every address has the number of its pairs on record, and no zero is kept. -/
def Exact (f : Focus) : Prop := ∀ ip, f.refs.find? ip = stored (f.tally ip)

/-! ### Counting pairs -/

/-- A pair counts for its two ends. -/
def weight (p : PodPair) (ip : Ipv4) : Nat := if ip ∈ p.ends then 1 else 0

theorem tally_of_perm {f : Focus} {p : PodPair} {span : Option Span} {rest : List (PodPair × Span)}
    (h : f.pairs.entries.Perm (Keyed.own p span ++ rest)) (ip : Ipv4) :
    f.tally ip = (if span.isSome then weight p ip else 0) + rest.countP fun e => ip ∈ e.1.ends := by
  rw [tally, h.countP_eq, List.countP_append]
  cases span with
  | none => simp
  | some span => simp [weight, List.countP_singleton]

theorem tally_watch (f : Focus) (p : PodPair) (span : Span) (ip : Ipv4) :
    (f.watch p span).tally ip = f.tally ip + if f.pairs.contains p then 0 else weight p ip := by
  have hbefore := tally_of_perm (f.pairs.perm_entries p) ip
  have hafter := tally_of_perm (f := f.watch p span) (f.pairs.perm_alter p fun _ => some span) ip
  rw [hbefore, hafter, Keyed.contains]
  cases f.pairs.find? p <;> simp [Nat.add_comm]

theorem tally_unwatch {f : Focus} {p : PodPair} (h : f.pairs.contains p = true) (ip : Ipv4) :
    (f.unwatch p).tally ip + weight p ip = f.tally ip := by
  have hbefore := tally_of_perm (f.pairs.perm_entries p) ip
  have hpairs : (f.unwatch p).pairs = f.pairs.erase p := by simp [unwatch, h]
  have hafter : (f.unwatch p).tally ip = (f.pairs.others p).countP fun e => ip ∈ e.1.ends := by
    rw [tally, hpairs, Keyed.entries_erase]
  rw [Keyed.contains] at h
  rw [hbefore, hafter, h, if_pos rfl, Nat.add_comm]

/-! ### Retaining and releasing -/

/-- A change of both addresses of a pair changes each of them once. -/
theorem find?_members (g : Option Nat → Option Nat) (p : PodPair) (refs : Keyed Ipv4 Nat)
    (ip : Ipv4) :
    (p.members.foldl (fun refs ip => refs.alter ip g) refs).find? ip =
      if ip ∈ p.ends then g (refs.find? ip) else refs.find? ip := by
  unfold PodPair.members PodPair.ends
  simp only [List.mem_cons, List.not_mem_nil, or_false]
  split
  · next h =>
    rw [h, List.foldl_cons, List.foldl_nil, Keyed.find?_alter]
    by_cases hip : ip = p.high
    · rw [if_pos hip, if_pos (.inl hip), hip]
    · rw [if_neg hip, if_neg (not_or.2 ⟨hip, hip⟩)]
  · next h =>
    rw [List.foldl_cons, List.foldl_cons, List.foldl_nil, Keyed.find?_alter, Keyed.find?_alter,
      Keyed.find?_alter]
    by_cases hhigh : ip = p.high
    · rw [if_pos hhigh, if_neg (Ne.symm h), if_pos (.inr hhigh), hhigh]
    · by_cases hlow : ip = p.low
      · rw [if_neg hhigh, if_pos hlow, if_pos (.inl hlow), hlow]
      · rw [if_neg hhigh, if_neg hlow, if_neg (not_or.2 ⟨hlow, hhigh⟩)]

theorem stored_add (n : Nat) : some ((stored n).getD 0 + 1) = stored (n + 1) := by
  unfold stored
  split
  · next h => simp [h]
  · simp

theorem stored_sub (n : Nat) :
    ((stored (n + 1)).bind fun n => if n ≤ 1 then none else some (n - 1)) = stored n := by
  unfold stored
  by_cases h : n = 0
  · simp [h]
  · simp [h]

theorem exact_new : ({} : Focus).Exact := fun _ => rfl

theorem exact_watch {f : Focus} (h : f.Exact) (p : PodPair) (span : Span) :
    (f.watch p span).Exact := by
  intro ip
  rw [tally_watch]
  by_cases hc : f.pairs.contains p = true
  · -- the pair is there already: its span changes, no count does
    have hrefs : (f.watch p span).refs = f.refs := by simp [watch, hc]
    rw [hrefs, if_pos hc, h ip, Nat.add_zero]
  · have hrefs : (f.watch p span).refs = p.members.foldl retain f.refs := by simp [watch, hc]
    have hfind := find?_members (fun n => some (n.getD 0 + 1)) p f.refs ip
    rw [hrefs, if_neg hc]
    refine hfind.trans ?_
    rw [weight, h ip]
    split
    · exact stored_add _
    · rfl

theorem exact_unwatch {f : Focus} (h : f.Exact) (p : PodPair) : (f.unwatch p).Exact := by
  by_cases hc : f.pairs.contains p = true
  · intro ip
    have hrefs : (f.unwatch p).refs = p.members.foldl release f.refs := by simp [unwatch, hc]
    have hfind := find?_members
      (fun n => n.bind fun n => if n ≤ 1 then none else some (n - 1)) p f.refs ip
    have htally := tally_unwatch hc ip
    rw [hrefs]
    refine hfind.trans ?_
    rw [h ip, ← htally, weight]
    split
    · exact stored_sub _
    · rfl
  · have hsame : f.unwatch p = f := by simp [unwatch, hc]
    rw [hsame]
    exact h

theorem exact_unwatch_all {f : Focus} (h : f.Exact) (ps : List PodPair) :
    (ps.foldl unwatch f).Exact := by
  induction ps generalizing f with
  | nil => exact h
  | cons p rest ih => exact ih (exact_unwatch h p)

theorem exact_expire {f : Focus} (h : f.Exact) (now : Nanos) : (f.expire now).Exact :=
  exact_unwatch_all h (f.expired now)

/-! ### Pairs whose span is over -/

theorem entries_unwatch (f : Focus) (p : PodPair) :
    (f.unwatch p).pairs.entries = f.pairs.others p := by
  unfold unwatch
  split
  · exact f.pairs.entries_erase p
  · next h =>
    rw [Keyed.contains, Bool.not_eq_true, Option.isSome_eq_false_iff, Option.isNone_iff_eq_none] at h
    exact (Keyed.others_eq_entries h).symm

theorem entries_unwatch_all (f : Focus) (ps : List PodPair) :
    (ps.foldl unwatch f).pairs.entries = f.pairs.entries.filter fun e => e.1 ∉ ps := by
  induction ps generalizing f with
  | nil => simp
  | cons p rest ih =>
    rw [List.foldl_cons, ih, entries_unwatch, Keyed.others, List.filter_filter]
    refine List.filter_congr fun e _ => ?_
    rw [Bool.eq_iff_iff]
    simp [and_comm]

theorem mem_expired {f : Focus} {now : Nanos} {p : PodPair} {span : Span}
    (h : (p, span) ∈ f.pairs.entries) : p ∈ f.expired now ↔ span.isOver now = true := by
  unfold expired
  rw [List.mem_map]
  constructor
  · rintro ⟨⟨p', span'⟩, hmem, rfl⟩
    obtain ⟨hmem, hover⟩ := List.mem_filter.1 hmem
    have hfind := (Keyed.mem_entries_iff.1 h).symm.trans (Keyed.mem_entries_iff.1 hmem)
    cases hfind
    exact hover
  · intro hover
    exact ⟨(p, span), List.mem_filter.2 ⟨h, hover⟩, rfl⟩

/-- What stays in focus are the pairs whose span is not over, in their order. -/
theorem entries_expire (f : Focus) (now : Nanos) :
    (f.expire now).pairs.entries = f.pairs.entries.filter fun e => now ≤ e.2.last := by
  rw [expire, entries_unwatch_all]
  refine List.filter_congr fun e he => ?_
  have hexpired : e.1 ∈ f.expired now ↔ e.2.isOver now = true := mem_expired he
  rw [Bool.eq_iff_iff, decide_eq_true_eq, decide_eq_true_eq, hexpired, Span.isOver,
    decide_eq_true_eq, UInt64.not_lt]

theorem expire_eq_self {f : Focus} {now : Nanos}
    (h : ∀ e ∈ f.pairs.entries, now ≤ e.2.last) : f.expire now = f := by
  have hnone : f.expired now = [] := by
    rw [expired, List.map_eq_nil_iff, List.filter_eq_nil_iff]
    intro e he
    rw [Span.isOver, decide_eq_true_eq, UInt64.not_lt]
    exact h e he
  rw [expire, hnone, List.foldl_nil]

theorem tally_reorder (t : PathTracker) (order : Keyed PodPair Span) (ip : Ipv4) :
    (t.reorder order).focus.tally ip = t.focus.tally ip :=
  (t.perm_reorder order).countP_eq _

/-! ### What follows for lookups -/

theorem count_of_exact {f : Focus} (h : f.Exact) (ip : Ipv4) : f.count ip = f.tally ip := by
  rw [count, h ip, stored]
  split
  · next hzero => rw [hzero, Option.getD_none]
  · rfl

theorem tally_ne_zero_iff {f : Focus} {ip : Ipv4} :
    f.tally ip ≠ 0 ↔ ∃ p ∈ f.pairs.keys, ip ∈ p.ends := by
  rw [← Nat.pos_iff_ne_zero, tally, List.countP_pos_iff]
  simp [Keyed.keys]

theorem holds_iff_of_exact {f : Focus} (h : f.Exact) (ip : Ipv4) :
    f.holds ip = true ↔ ∃ p ∈ f.pairs.keys, ip ∈ p.ends := by
  rw [← tally_ne_zero_iff, holds, Keyed.contains, h ip, stored]
  split
  · next hzero => simp [hzero]
  · next hpos => simp [hpos]

theorem pos_of_exact {f : Focus} (h : f.Exact) {ip : Ipv4} {n : Nat}
    (hn : f.refs.find? ip = some n) : 0 < n := by
  rw [h ip, stored] at hn
  split at hn
  · cases hn
  · next hpos =>
    cases hn
    exact Nat.pos_of_ne_zero hpos

end Focus

namespace PathTracker

theorem exact_step (table : InterfaceTable) (t : PathTracker) (call : Call)
    (h : t.focus.Exact) : (t.step table call).focus.Exact := by
  cases call with
  | update a b span op =>
    cases op with
    | update => exact Focus.exact_watch h (.of a b) span
    | delete => exact Focus.exact_unwatch h (.of a b)
  | ingest s =>
    show (t.ingest table s).focus.Exact
    unfold ingest
    split
    · exact h
    · exact h
  | poll now out => exact Focus.exact_expire h now
  | reorder order =>
    intro ip
    show (t.reorder order).focus.refs.find? ip = Focus.stored ((t.reorder order).focus.tally ip)
    rw [refs_reorder, Focus.tally_reorder, h ip]

/-- **The reference counts are the pairs.** After any run an address has as many references
as there are pairs in focus with it as an end, it is in focus exactly if there is one, and no
count of zero is kept; and a poll lets go of exactly the pairs whose span ended before it. -/
theorem references_exact (table : InterfaceTable) (clearCycle : Nanos) (calls : List Call) :
    let t := run table { clearCycle } calls
    (∀ ip, t.focus.count ip = t.focus.tally ip) ∧
      (∀ ip, t.focus.holds ip = true ↔ ∃ p ∈ t.focus.pairs.keys, ip ∈ p.ends) ∧
      (∀ ip n, t.focus.refs.find? ip = some n → 0 < n) ∧
      ∀ now out, (t.poll now out).state.focus.pairs.entries =
        t.focus.pairs.entries.filter fun e => now ≤ e.2.last := by
  intro t
  have h : t.focus.Exact :=
    run_invariant (P := fun t => t.focus.Exact) table (exact_step table) Focus.exact_new calls
  exact ⟨Focus.count_of_exact h, Focus.holds_iff_of_exact h, fun _ _ => Focus.pos_of_exact h,
    fun now _ => t.focus.entries_expire now⟩

end PathTracker
end FlowProbe
