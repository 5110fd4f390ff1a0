import FlowProbe.Proofs.Path.Order
import Mathlib

/-! What a full output leaves, and what is counted of it.

Each visit of a walk is the first to ask for some of the sightings that are held, and these are
its share; the shares are all that is wanted (`sum_shares`). A walk serves one share after the
other and ends in the first that exceeds the room. What it counts as left is the rest of that
share (`left_deliver`), not the shares of the visits that it does not come to. So the count is
never too large, it is zero only where nothing is left, and it is right exactly if the output has
room for all shares but the last (`truncated_counts_left_iff`). -/
namespace FlowProbe

/-! ### Shares -/

namespace PathIndex

/-- How many sightings each visit of a walk is the first to ask for. -/
def shares : List (Span × UInt32) → List (UInt32 × Sighting) → List Nat
  | [], _ => []
  | visit :: visits, held =>
    (held.filter (asked [visit])).length :: shares visits (held.filter fun e => !asked [visit] e)

/-- By how much the first share that exceeds the room exceeds it. -/
def overflow : List Nat → Nat → Nat
  | [], _ => 0
  | share :: rest, room => if share ≤ room then overflow rest (room - share) else share - room

theorem overflow_le (l : List Nat) (room : Nat) : overflow l room ≤ l.sum - room := by
  induction l generalizing room with
  | nil => simp [overflow]
  | cons share rest ih =>
    have hrest := ih (room - share)
    rw [overflow, List.sum_cons]
    split <;> omega

theorem overflow_eq_zero_iff (l : List Nat) (room : Nat) :
    overflow l room = 0 ↔ l.sum ≤ room := by
  induction l generalizing room with
  | nil => simp [overflow]
  | cons share rest ih =>
    have hrest := ih (room - share)
    rw [overflow, List.sum_cons]
    split <;> omega

/-- Visits that are the first to ask for nothing make no difference. -/
theorem overflow_filter_pos (l : List Nat) (room : Nat) :
    overflow (l.filter (0 < ·)) room = overflow l room := by
  induction l generalizing room with
  | nil => rfl
  | cons share rest ih =>
    rcases Nat.eq_zero_or_pos share with rfl | hpos
    · simp [overflow, ih]
    · have hkeep : decide (0 < share) = true := decide_eq_true hpos
      rw [List.filter_cons, if_pos hkeep, overflow, overflow, ih]

theorem sum_filter_pos (l : List Nat) : (l.filter (0 < ·)).sum = l.sum := by
  induction l with
  | nil => rfl
  | cons share rest ih =>
    rcases Nat.eq_zero_or_pos share with rfl | hpos
    · simpa using ih
    · have hkeep : decide (0 < share) = true := decide_eq_true hpos
      rw [List.filter_cons, if_pos hkeep, List.sum_cons, List.sum_cons, ih]

/-- The overflow is all that exceeds the room exactly if it happens in the last share. -/
theorem overflow_eq_iff {l : List Nat} (hpos : ∀ share ∈ l, 0 < share) (room : Nat) :
    overflow l room = l.sum - room ↔ l.dropLast.sum ≤ room := by
  induction l generalizing room with
  | nil => simp [overflow]
  | cons share rest ih =>
    rw [List.forall_mem_cons] at hpos
    cases rest with
    | nil =>
      rw [overflow, overflow, List.dropLast_singleton, List.sum_nil, List.sum_singleton]
      split <;> omega
    | cons next rest =>
      have hrest := ih hpos.2 (room - share)
      have hnext : 0 < next := hpos.2 next List.mem_cons_self
      rw [overflow, List.dropLast_cons_cons, List.sum_cons, List.sum_cons]
      rw [List.sum_cons] at hrest ⊢
      split <;> omega

theorem shares_perm {visits : List (Span × UInt32)} {held held' : List (UInt32 × Sighting)}
    (h : held.Perm held') : shares visits held = shares visits held' := by
  induction visits generalizing held held' with
  | nil => rfl
  | cons visit visits ih =>
    rw [shares, shares, (h.filter _).length_eq, ih (h.filter _)]

/-- The shares of a walk are what it asks for. -/
theorem sum_shares (visits : List (Span × UInt32)) (held : List (UInt32 × Sighting)) :
    (shares visits held).sum = (held.filter (asked visits)).length := by
  induction visits generalizing held with
  | nil =>
    have hnone : held.filter (asked []) = [] :=
      List.filter_eq_nil_iff.2 fun _ _ => Bool.false_ne_true
    rw [hnone]
    rfl
  | cons visit visits ih =>
    have hasked (e : UInt32 × Sighting) :
        asked (visit :: visits) e = (asked [visit] e || asked visits e) := by
      simp [asked]
    have hfirst : (held.filter (asked (visit :: visits))).filter (asked [visit]) =
        held.filter (asked [visit]) := by
      rw [List.filter_filter]
      refine List.filter_congr fun e _ => ?_
      rw [hasked]
      cases asked [visit] e <;> rfl
    have hrest : ((held.filter (asked (visit :: visits))).filter fun e => !asked [visit] e) =
        (held.filter fun e => !asked [visit] e).filter (asked visits) := by
      rw [List.filter_filter, List.filter_filter]
      refine List.filter_congr fun e _ => ?_
      rw [hasked]
      cases asked [visit] e <;> simp
    rw [shares, List.sum_cons, ih, ← hfirst, ← hrest]
    exact (List.length_eq_length_filter_add _).symm

/-! ### The walk -/

section Visit

variable {span : Span} {seq : UInt32} {before : SeqBuckets}

theorem asked_single (e : UInt32 × Sighting) :
    asked [(span, seq)] e = (seq == e.1 && span.contains e.2.time) := by
  rw [asked_cons]
  exact Bool.or_false _

/-- A visit asks for nothing of the other buckets. -/
theorem not_asked_others {e : UInt32 × Sighting} (he : e ∈ spread (before.others seq)) :
    asked [(span, seq)] e = false := by
  obtain ⟨bucket, hbucket, hmem⟩ := List.mem_flatMap.1 he
  obtain ⟨s, -, rfl⟩ := List.mem_map.1 hmem
  rw [asked_single, beq_false_of_ne (Ne.symm (Keyed.mem_others.1 hbucket).1), Bool.false_and]

/-- A visit to a bucket that is not there asks for nothing. -/
theorem not_asked_of_find? (hnone : before.find? seq = none) {e : UInt32 × Sighting}
    (he : e ∈ filed before) : asked [(span, seq)] e = false := by
  rw [filed, ← Keyed.others_eq_entries hnone] at he
  exact not_asked_others he

section Bucket

variable {bucket : List Sighting} (hfind : before.find? seq = some bucket)
include hfind

/-- A visit asks for what its bucket has in the span. -/
theorem perm_filter_asked_single :
    ((filed before).filter (asked [(span, seq)])).Perm
      ((span.within bucket).map fun s => (seq, s)) := by
  have hothers : (spread (before.others seq)).filter (asked [(span, seq)]) = [] := by
    refine List.filter_eq_nil_iff.2 fun e he => ?_
    rw [not_asked_others he]
    exact Bool.false_ne_true
  have h := (perm_filed before seq).filter (asked [(span, seq)])
  rw [List.filter_append, hothers, List.append_nil, listed_of_find? hfind, List.filter_map] at h
  refine h.trans (.of_eq (congrArg _ (List.filter_congr fun s _ => ?_)))
  rw [Function.comp_apply, asked_single, beq_self_eq_true, Bool.true_and]

/-- What a visit does not ask for is what is held once all that it asks for has gone. -/
theorem perm_filter_not_asked_single :
    ((filed before).filter fun e => !asked [(span, seq)] e).Perm
      (filed (putBack before seq (bucket.filter fun s => !span.contains s.time))) := by
  have hothers : (spread (before.others seq)).filter (fun e => !asked [(span, seq)] e) =
      spread (before.others seq) := by
    refine List.filter_eq_self.2 fun e he => ?_
    rw [not_asked_others he]
    rfl
  have h := (perm_filed before seq).filter fun e => !asked [(span, seq)] e
  rw [List.filter_append, hothers, listed_of_find? hfind, List.filter_map] at h
  refine (h.trans (.of_eq ?_)).trans (perm_filed_putBack before seq _).symm
  refine congrArg (fun kept : List Sighting => kept.map _ ++ _) (List.filter_congr fun s _ => ?_)
  rw [Function.comp_apply, asked_single, beq_self_eq_true, Bool.true_and]

end Bucket

end Visit

/-- A walk counts as left what the first share that exceeds the room has beyond it. -/
theorem left_deliver (now : Nanos) (visits : List (Span × UInt32)) (before : SeqBuckets)
    (out : Buffer) : (deliver now visits before out).left =
      overflow (shares visits (filed before)) out.remaining := by
  induction visits generalizing before out with
  | nil => rfl
  | cons visit visits ih =>
    obtain ⟨span, seq⟩ := visit
    rw [deliver, shares, overflow]
    cases hfind : before.find? seq with
    | none =>
      have hnone : (filed before).filter (asked [(span, seq)]) = [] := by
        refine List.filter_eq_nil_iff.2 fun e he => ?_
        rw [not_asked_of_find? hfind he]
        exact Bool.false_ne_true
      have hall : ((filed before).filter fun e => !asked [(span, seq)] e) = filed before := by
        refine List.filter_eq_self.2 fun e he => ?_
        rw [not_asked_of_find? hfind he]
        rfl
      rw [hnone, hall, List.length_nil, if_pos (Nat.zero_le _), Nat.sub_zero]
      exact ih before out
    | some bucket =>
      have hc := span.served now bucket out
      have hroom := span.remaining_deliver now bucket out
      have hshare : ((filed before).filter (asked [(span, seq)])).length =
          (span.within bucket).length := by
        rw [(perm_filter_asked_single hfind).length_eq, List.length_map]
      have hwritten := hc.written
      have hleft := hc.left
      rw [List.length_take] at hwritten
      rw [hshare]
      by_cases hfits : (span.within bucket).length ≤ out.remaining
      · have hnone : (span.deliver now bucket out).left = 0 := by omega
        have hremaining : (span.deliver now bucket out).out.remaining =
            out.remaining - (span.within bucket).length := by omega
        simp only [hnone, if_true, if_pos hfits, Delivery.after]
        rw [ih, hc.rest_eq hnone, hremaining, shares_perm (perm_filter_not_asked_single hfind)]
      · have hsome : (span.deliver now bucket out).left ≠ 0 := by omega
        simp only [hsome, if_false, if_neg hfits]
        exact hleft

end PathIndex

/-! ### A poll -/

namespace PathTracker

/-- How many of the wanted sightings each visit of the tracker's walk is the first to ask for, in
the order of the walk and without the visits that are the first to ask for none. -/
def shares (t : PathTracker) : List Nat :=
  (PathIndex.shares (t.index.visits t.focus) (PathIndex.filed t.index.bySeq)).filter (0 < ·)

theorem sum_shares (t : PathTracker) : t.shares.sum = t.wanted.length := by
  rw [shares, PathIndex.sum_filter_pos, PathIndex.sum_shares, filter_asked, wanted]

theorem truncated_poll (t : PathTracker) (now : Nanos) (out : Buffer) :
    (t.poll now out).state.counters.truncated =
      t.counters.truncated + PathIndex.overflow t.shares out.remaining := by
  rw [shares, PathIndex.overflow_filter_pos, ← PathIndex.left_deliver now]
  rfl

/-- **What a poll counts as left.** In whatever order it walks the pairs, the wanted sightings
fall into one share for each visit that is the first to ask for any, and the counter grows by what
the first share that exceeds the room has beyond it. That is no more than the number of wanted
sightings that the poll does not write, and nothing only if there are none. It is just that number
exactly if the output has room for all shares but the last: of a share that the walk does not come
to, nothing is counted. -/
theorem truncated_counts_left_iff (t : PathTracker) (order : Keyed PodPair Span) (now : Nanos)
    (out : Buffer) :
    let poll := (t.reorder order).poll now out
    let shares := (t.reorder order).shares
    let left := t.wanted.length - poll.count
    let truncated := poll.state.counters.truncated
    shares.sum = t.wanted.length ∧
      truncated = t.counters.truncated + PathIndex.overflow shares out.remaining ∧
      (truncated = t.counters.truncated + left ↔ shares.dropLast.sum ≤ out.remaining) ∧
      truncated ≤ t.counters.truncated + left ∧
      (truncated = t.counters.truncated ↔ left = 0) := by
  intro poll shares left truncated
  obtain ⟨delivered, h⟩ := t.exists_delivers_reorder order now out
  have hsum : shares.sum = t.wanted.length := by
    rw [← t.wanted_reorder order]
    exact sum_shares _
  have hcount : poll.count = min out.remaining t.wanted.length := h.count.trans h.length
  have hleft : left = shares.sum - out.remaining := by omega
  have htruncated : truncated =
      t.counters.truncated + PathIndex.overflow shares out.remaining := by
    have hpoll := (t.reorder order).truncated_poll now out
    rw [counters_reorder] at hpoll
    exact hpoll
  have hpos : ∀ share ∈ shares, 0 < share := fun share hmem =>
    of_decide_eq_true (List.mem_filter.1 hmem).2
  have hright := PathIndex.overflow_eq_iff hpos out.remaining
  have hle := PathIndex.overflow_le shares out.remaining
  have hzero := PathIndex.overflow_eq_zero_iff shares out.remaining
  refine ⟨hsum, htruncated, ?_, ?_, ?_⟩ <;> omega

/-- Three segments, each under a number of its own, and room for one: two are left, and one is
counted. -/
theorem truncated_misses_later_numbers :
    let flow : Flow := ⟨⟨1⟩, ⟨2⟩, 1000, 80, 1⟩
    let segment (seq : UInt32) : Segment := { time := 10, flow, seq, ack := 0, flags := 16 }
    let watch := Call.update ⟨1⟩ ⟨2⟩ ⟨0, 100⟩ .update
    let t := run {} { clearCycle := 1000 } (watch :: [1, 2, 3].map fun seq => .ingest (segment seq))
    let poll := t.poll 60 { capacity := 1 }
    poll.state.counters.truncated ≠ t.counters.truncated + (t.wanted.length - poll.count) ∧
      t.wanted.length = 3 ∧ poll.count = 1 ∧ poll.state.counters.truncated = 1 := by
  decide

end PathTracker

end FlowProbe
