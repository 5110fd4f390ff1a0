import FlowProbe.Proofs.Path.Wanted
import FlowProbe.Proofs.Window.Order

/-! The path tracker without the order of its maps.

A query walks the pairs in focus and changes the buckets on its way, so the order of the pairs
says which pair gets a sighting that both ask for, and in which order buckets are put back. It
does not say what a bucket comes to: a walk that leaves nothing for lack of room takes from each
bucket that it visits the sightings that any visit asks for (`find?_deliver`), and whether it
leaves anything depends on how many are asked for (`left_eq_zero_iff`). Pairs whose span is over
are withdrawn one after the other, and withdrawals commute (`Same.unwatch_swap`). So trackers
whose maps have the same pairs come out of a poll that way, with the same records in some order
(`alike_poll`). -/
namespace FlowProbe

/-! ### Pairs in focus -/

namespace Focus

/-- The same focus, but for the order of its maps. -/
structure Same (f g : Focus) : Prop where
  pairs : f.pairs.Same g.pairs
  refs : f.refs.Same g.refs

theorem equivalence_same : Equivalence Same where
  refl _ := ⟨.refl _, .refl _⟩
  symm h := ⟨h.pairs.symm, h.refs.symm⟩
  trans h h' := ⟨h.pairs.trans h'.pairs, h.refs.trans h'.refs⟩

/-- A count after one of its pairs has gone. -/
def released (n : Option Nat) : Option Nat := n.bind fun n => if n ≤ 1 then none else some (n - 1)

theorem find?_pairs_unwatch (f : Focus) (p q : PodPair) :
    (f.unwatch p).pairs.find? q = if q = p then none else f.pairs.find? q := by
  rw [unwatch]
  split
  · exact f.pairs.find?_erase p q
  · next habsent =>
    split
    · next hq =>
      rw [hq]
      simpa [Keyed.contains] using habsent
    · rfl

theorem find?_refs_unwatch (f : Focus) (p : PodPair) (ip : Ipv4) :
    (f.unwatch p).refs.find? ip =
      if f.pairs.contains p = true ∧ ip ∈ p.ends then released (f.refs.find? ip)
      else f.refs.find? ip := by
  rw [unwatch]
  split
  · next hp =>
    simp only [hp, true_and]
    exact find?_members released p f.refs ip
  · next hp => simp only [hp, Bool.false_eq_true, false_and, if_false]

section Same

variable {f g : Focus} (h : f.Same g)
include h

theorem Same.watch (p : PodPair) (span : Span) : (f.watch p span).Same (g.watch p span) := by
  refine ⟨h.pairs.insert p span, ?_⟩
  rw [Focus.watch, Focus.watch, h.pairs.contains p]
  cases g.pairs.contains p with
  | true => exact h.refs
  | false =>
    refine Keyed.same_iff.2 fun ip => ?_
    have hmembers (refs : Keyed Ipv4 Nat) :=
      find?_members (fun n => some (n.getD 0 + 1)) p refs ip
    exact (hmembers f.refs).trans ((h.refs.find? ip).symm ▸ (hmembers g.refs).symm)

theorem Same.unwatch (p : PodPair) : (f.unwatch p).Same (g.unwatch p) := by
  refine ⟨Keyed.same_iff.2 fun q => ?_, Keyed.same_iff.2 fun ip => ?_⟩
  · rw [find?_pairs_unwatch, find?_pairs_unwatch, h.pairs.find? q]
  · rw [find?_refs_unwatch, find?_refs_unwatch, h.pairs.contains p, h.refs.find? ip]

theorem Same.unwatch_all (ps : List PodPair) :
    (ps.foldl Focus.unwatch f).Same (ps.foldl Focus.unwatch g) := by
  induction ps generalizing f g with
  | nil => exact h
  | cons p rest ih => exact ih (h.unwatch p)

end Same

/-- Two withdrawals come to the same in either order. -/
theorem Same.unwatch_swap (f : Focus) (p q : PodPair) :
    ((f.unwatch p).unwatch q).Same ((f.unwatch q).unwatch p) := by
  by_cases hpq : p = q
  · rw [hpq]
    exact equivalence_same.refl _
  · have hq : (f.unwatch p).pairs.contains q = f.pairs.contains q := by
      rw [Keyed.contains, find?_pairs_unwatch, if_neg (Ne.symm hpq), Keyed.contains]
    have hp : (f.unwatch q).pairs.contains p = f.pairs.contains p := by
      rw [Keyed.contains, find?_pairs_unwatch, if_neg hpq, Keyed.contains]
    refine ⟨Keyed.same_iff.2 fun r => ?_, Keyed.same_iff.2 fun ip => ?_⟩
    · simp only [find?_pairs_unwatch]
      split <;> split <;> rfl
    · simp only [find?_refs_unwatch, hp, hq]
      split <;> split <;> rfl

theorem Same.unwatch_perm {f g : Focus} (h : f.Same g) {ps qs : List PodPair}
    (hperm : ps.Perm qs) : (ps.foldl Focus.unwatch f).Same (qs.foldl Focus.unwatch g) := by
  induction hperm generalizing f g with
  | nil => exact h
  | cons p _ ih => exact ih (h.unwatch p)
  | swap p q rest =>
    have hswap := equivalence_same.trans ((h.unwatch q).unwatch p) (Same.unwatch_swap g q p)
    exact hswap.unwatch_all rest
  | trans _ _ ih ih' => exact equivalence_same.trans (ih h) (ih' (equivalence_same.refl g))

theorem Same.expire {f g : Focus} (h : f.Same g) (now : Nanos) : (f.expire now).Same (g.expire now) :=
  h.unwatch_perm ((List.Perm.filter _ h.pairs).map _)

theorem Same.holds {f g : Focus} (h : f.Same g) (ip : Ipv4) : f.holds ip = g.holds ip :=
  h.refs.contains ip

end Focus

/-! ### Buckets -/

/-- Where nothing in the span is left for lack of room, all that is not in it is. -/
theorem Span.Served.rest_eq {span : Span} {now : Nanos} {bucket : List Sighting} {out : Buffer}
    {d : Delivery (List Sighting)} (h : Served span now bucket out d) (hleft : d.left = 0) :
    d.rest = bucket.filter fun s => !span.contains s.time := by
  have hrest : (d.rest.filter fun s => !span.contains s.time) = d.rest :=
    List.filter_eq_self.2 fun s hs => by rw [h.not_contains hleft hs]; rfl
  have hgone : (((span.within bucket).take out.remaining).filter fun s =>
      !span.contains s.time) = [] := by
    refine List.filter_eq_nil_iff.2 fun s hs => ?_
    rw [(List.mem_filter.1 (List.mem_of_mem_take hs)).2]
    exact Bool.false_ne_true
  have hparts := (h.parts.filter fun s => !span.contains s.time).length_eq
  rw [List.filter_append, hgone, hrest, List.nil_append] at hparts
  have horder := h.order.filter fun s => !span.contains s.time
  rw [hrest] at horder
  exact horder.eq_of_length hparts

/-- What is left for lack of room is still there. -/
theorem Span.Served.exists_contains {span : Span} {now : Nanos} {bucket : List Sighting}
    {out : Buffer} {d : Delivery (List Sighting)} (h : Served span now bucket out d)
    (hleft : d.left ≠ 0) : ∃ s ∈ d.rest, span.contains s.time = true := by
  by_contra hnone
  have hcount := h.parts.countP_eq fun s => span.contains s.time
  have hwithin : (span.within bucket).length = bucket.countP fun s => span.contains s.time := by
    rw [within, List.countP_eq_length_filter]
  have hrest : d.rest.countP (fun s => span.contains s.time) = 0 :=
    List.countP_eq_zero.2 fun s hs hin => hnone ⟨s, hs, hin⟩
  have htaken : ((span.within bucket).take out.remaining).countP (fun s => span.contains s.time) ≤
      out.remaining := Nat.le_trans List.countP_le_length (List.length_take_le _ _)
  have hl := h.left
  rw [List.countP_append, hrest] at hcount
  omega

/-- Two deliveries that differ in nothing but orders: those of what stays, and that of what was
written. -/
structure Delivery.Alike (out out' : Buffer) (d d' : Delivery SeqBuckets) : Prop where
  rest : d.rest.Same d'.rest
  news : (d.out.records.drop out.size).Perm (d'.out.records.drop out'.size)
  written : d.written = d'.written
  left : d.left = d'.left
  remaining : d.out.remaining = d'.out.remaining

namespace PathIndex

/-- Whether a walk visits a number. -/
def visited (visits : List (Span × UInt32)) (seq : UInt32) : Bool := visits.any fun v => v.2 == seq

/-- A bucket that is kept as long as there is something in it. -/
def bucket? (kept : List Sighting) : Option (List Sighting) := if kept = [] then none else some kept

theorem bucket?_bind_filter (kept : List Sighting) (keep : Sighting → Bool) :
    (bucket? kept).bind (fun kept => bucket? (kept.filter keep)) = bucket? (kept.filter keep) := by
  cases kept with
  | nil => rfl
  | cons s rest => rfl

theorem not_asked_of_not_visited {visits : List (Span × UInt32)} {seq : UInt32}
    (h : visited visits seq = false) (s : Sighting) : asked visits (seq, s) = false := by
  rw [visited, List.any_eq_false] at h
  rw [asked, List.any_eq_false]
  intro v hv hasked
  exact h v hv (Bool.and_eq_true_iff.1 hasked).1

/-- What a walk that leaves nothing for lack of room makes of a bucket. -/
def walkedBucket (visits : List (Span × UInt32)) (seq : UInt32)
    (bucket : Option (List Sighting)) : Option (List Sighting) :=
  if visited visits seq then
    bucket.bind fun bucket => bucket? (bucket.filter fun s => !asked visits (seq, s))
  else bucket

theorem walkedBucket_none (visits : List (Span × UInt32)) (seq : UInt32) :
    walkedBucket visits seq none = none := by
  rw [walkedBucket, Option.bind_none, ite_self]

section Cons

variable {span : Span} {seq : UInt32} {visits : List (Span × UInt32)}

theorem walkedBucket_cons_of_ne {first : UInt32} (h : first ≠ seq)
    (bucket : Option (List Sighting)) :
    walkedBucket ((span, first) :: visits) seq bucket = walkedBucket visits seq bucket := by
  have hfirst : (first == seq) = false := beq_false_of_ne h
  have hvisited : visited ((span, first) :: visits) seq = visited visits seq := by
    rw [visited, List.any_cons, hfirst, Bool.false_or, visited]
  have hasked (s : Sighting) : asked ((span, first) :: visits) (seq, s) = asked visits (seq, s) := by
    rw [asked_cons, hfirst, Bool.false_and, Bool.false_or]
  simp only [walkedBucket, hvisited, hasked]

theorem walkedBucket_cons_self (bucket : List Sighting) :
    walkedBucket ((span, seq) :: visits) seq (some bucket) =
      walkedBucket visits seq (bucket? (bucket.filter fun s => !span.contains s.time)) := by
  have hvisited : visited ((span, seq) :: visits) seq = true := by
    rw [visited, List.any_cons, beq_self_eq_true, Bool.true_or]
  have hasked (s : Sighting) : (!asked ((span, seq) :: visits) (seq, s)) =
      (!asked visits (seq, s) && !span.contains s.time) := by
    rw [asked_cons, beq_self_eq_true, Bool.true_and, Bool.not_or, Bool.and_comm]
  rw [walkedBucket, if_pos hvisited, Option.bind_some, walkedBucket]
  simp only [hasked, ← List.filter_filter]
  split
  · rw [bucket?_bind_filter]
  · next hrest =>
    refine congrArg bucket? (List.filter_eq_self.2 fun s _ => ?_)
    rw [not_asked_of_not_visited (Bool.not_eq_true _ ▸ hrest) s]
    rfl

end Cons

theorem find?_deliver {now : Nanos} {visits : List (Span × UInt32)} {before : SeqBuckets}
    {out : Buffer} (hleft : (deliver now visits before out).left = 0) (seq : UInt32) :
    (deliver now visits before out).rest.find? seq =
      walkedBucket visits seq (before.find? seq) := by
  induction visits generalizing before out with
  | nil => rfl
  | cons visit visits ih =>
    obtain ⟨span, first⟩ := visit
    rw [deliver] at hleft ⊢
    cases hfind : before.find? first with
    | none =>
      simp only [hfind] at hleft
      refine (ih hleft).trans ?_
      by_cases hseq : first = seq
      · rw [← hseq, hfind, walkedBucket_none, walkedBucket_none]
      · rw [walkedBucket_cons_of_ne hseq]
    | some bucket =>
      have hc := span.served now bucket out
      simp only [hfind] at hleft ⊢
      by_cases hfirst : (span.deliver now bucket out).left = 0
      · simp only [hfirst, if_true] at hleft ⊢
        refine (ih hleft).trans ?_
        rw [hc.rest_eq hfirst, find?_putBack]
        by_cases hseq : first = seq
        · rw [if_pos hseq.symm, ← bucket?, ← hseq, hfind, walkedBucket_cons_self]
        · rw [if_neg (Ne.symm hseq), walkedBucket_cons_of_ne hseq]
      · rw [if_neg hfirst] at hleft
        exact absurd hleft hfirst

/-- A walk that leaves something for lack of room leaves something that was asked for. -/
theorem exists_asked_of_left {now : Nanos} {visits : List (Span × UInt32)} {before : SeqBuckets}
    {out : Buffer} (hleft : (deliver now visits before out).left ≠ 0) :
    ∃ e ∈ filed (deliver now visits before out).rest, asked visits e = true := by
  induction visits generalizing before out with
  | nil => exact absurd rfl hleft
  | cons visit visits ih =>
    obtain ⟨span, seq⟩ := visit
    have hcons {e : UInt32 × Sighting} (h : asked visits e = true) :
        asked ((span, seq) :: visits) e = true := by
      rw [asked_cons, h, Bool.or_true]
    rw [deliver] at hleft ⊢
    cases hfind : before.find? seq with
    | none =>
      simp only [hfind] at hleft
      obtain ⟨e, he, hasked⟩ := ih hleft
      exact ⟨e, he, hcons hasked⟩
    | some bucket =>
      have hc := span.served now bucket out
      simp only [hfind] at hleft ⊢
      by_cases hfirst : (span.deliver now bucket out).left = 0
      · simp only [hfirst, if_true] at hleft ⊢
        obtain ⟨e, he, hasked⟩ := ih hleft
        exact ⟨e, he, hcons hasked⟩
      · simp only [hfirst, if_false]
        obtain ⟨s, hs, hin⟩ := hc.exists_contains hfirst
        refine ⟨(seq, s), mem_filed.2 ?_, ?_⟩
        · rw [listed_putBack, if_pos rfl]
          exact hs
        · rw [asked_cons, beq_self_eq_true, hin, Bool.and_self, Bool.true_or]

/-- A walk leaves nothing for lack of room exactly where there is room for all that it asks
for. -/
theorem left_eq_zero_iff {now : Nanos} {visits : List (Span × UInt32)} {before : SeqBuckets}
    {out : Buffer} : (deliver now visits before out).left = 0 ↔
      ((filed before).filter (asked visits)).length ≤ out.remaining := by
  obtain ⟨gone, h⟩ := exists_walked now visits before out
  have hlength := h.length_eq
  constructor
  · intro hleft
    have hgone := (h.perm_gone hleft).length_eq
    omega
  · intro hroom
    by_contra hleft
    obtain ⟨e, he, hwanted⟩ := exists_asked_of_left hleft
    have hmem := List.length_pos_of_mem (List.mem_filter.2 ⟨he, hwanted⟩)
    have hasked := h.perm_asked.length_eq
    rw [List.length_append] at hasked
    omega

/-! ### Walks in other orders -/

theorem asked_perm {visits visits' : List (Span × UInt32)} (h : visits.Perm visits') :
    asked visits = asked visits' := funext fun _ => h.any_eq

theorem walkedBucket_perm {visits visits' : List (Span × UInt32)} (h : visits.Perm visits')
    (seq : UInt32) : walkedBucket visits seq = walkedBucket visits' seq := by
  have hvisited : visited visits seq = visited visits' seq := h.any_eq
  funext bucket
  rw [walkedBucket, hvisited, asked_perm h, walkedBucket]

section Orders

variable {now : Nanos} {visits visits' : List (Span × UInt32)} (hvisits : visits.Perm visits')
variable {before before' : SeqBuckets} (hbefore : before.Same before')
include hvisits hbefore

theorem perm_filter_asked :
    ((filed before).filter (asked visits)).Perm ((filed before').filter (asked visits')) := by
  rw [asked_perm hvisits]
  exact (hbefore.flatMap_right _).filter _

/-- Walks that leave nothing for lack of room come to the same in any order. -/
theorem alike_deliver {out out' : Buffer} (hroom : out.remaining = out'.remaining)
    (hleft : (deliver now visits before out).left = 0) :
    Delivery.Alike out out' (deliver now visits before out)
      (deliver now visits' before' out') := by
  have hasked := perm_filter_asked hvisits hbefore
  have hleft' : (deliver now visits' before' out').left = 0 := by
    rw [left_eq_zero_iff] at hleft ⊢
    rw [← hasked.length_eq, ← hroom]
    exact hleft
  obtain ⟨gone, h⟩ := exists_walked now visits before out
  obtain ⟨gone', h'⟩ := exists_walked now visits' before' out'
  have hgone : gone.Perm gone' :=
    (h.perm_gone hleft).trans (hasked.trans (h'.perm_gone hleft').symm)
  have hwritten : (deliver now visits before out).written =
      (deliver now visits' before' out').written := by
    rw [h.written, h'.written, hgone.length_eq]
  refine ⟨Keyed.same_iff.2 fun seq => ?_, ?_, hwritten, hleft.trans hleft'.symm, ?_⟩
  · rw [find?_deliver hleft, find?_deliver hleft', hbefore.find? seq,
      walkedBucket_perm hvisits]
  · rw [h.records, h'.records, Buffer.size, List.drop_left, Buffer.size, List.drop_left]
    exact hgone.map _
  · have hremaining := h.room
    have hremaining' := h'.room
    omega

end Orders

/-- The same indexes, but for the order of their maps. -/
structure Same (i j : PathIndex) : Prop where
  byAddress : i.byAddress.Same j.byAddress
  bySeq : i.bySeq.Same j.bySeq

theorem equivalence_same : Equivalence Same where
  refl _ := ⟨.refl _, .refl _⟩
  symm h := ⟨h.byAddress.symm, h.bySeq.symm⟩
  trans h h' := ⟨h.byAddress.trans h'.byAddress, h.bySeq.trans h'.bySeq⟩

section Same

variable {i j : PathIndex} (h : i.Same j)
include h

theorem Same.add (s : Segment) : (i.add s).Same (j.add s) :=
  ⟨(h.byAddress.alter s.flow.source _).alter s.flow.dest _, h.bySeq.alter s.seq _⟩

theorem Same.prune (horizon now : Nanos) : (i.prune horizon now).Same (j.prune horizon now) :=
  ⟨h.byAddress.mapMaybe _, h.bySeq.mapMaybe _⟩

theorem Same.perm_visits {f g : Focus} (hf : f.Same g) : (i.visits f).Perm (j.visits g) := by
  have hobservations (ip : Ipv4) : i.observations ip = j.observations ip := by
    rw [observations, h.byAddress.find? ip, observations]
  simp only [visits, hobservations]
  exact List.Perm.flatMap_right _ hf.pairs

end Same

end PathIndex

/-! ### Trackers -/

namespace PathTracker

/-- The same tracker, but for the order of its maps. -/
structure Same (t u : PathTracker) : Prop where
  clearCycle : t.clearCycle = u.clearCycle
  focus : t.focus.Same u.focus
  index : t.index.Same u.index
  counters : t.counters = u.counters

theorem equivalence_same : Equivalence Same where
  refl _ := ⟨rfl, Focus.equivalence_same.refl _, PathIndex.equivalence_same.refl _, rfl⟩
  symm h := ⟨h.clearCycle.symm, Focus.equivalence_same.symm h.focus,
    PathIndex.equivalence_same.symm h.index, h.counters.symm⟩
  trans h h' := ⟨h.clearCycle.trans h'.clearCycle, Focus.equivalence_same.trans h.focus h'.focus,
    PathIndex.equivalence_same.trans h.index h'.index, h.counters.trans h'.counters⟩

section Same

variable {t u : PathTracker} (h : t.Same u)
include h

theorem Same.update (a b : Ipv4) (span : Span) (op : FocusOp) :
    (t.update a b span op).Same (u.update a b span op) := by
  cases op with
  | update => exact ⟨h.clearCycle, h.focus.watch (.of a b) span, h.index, h.counters⟩
  | delete => exact ⟨h.clearCycle, h.focus.unwatch (.of a b), h.index, h.counters⟩

theorem Same.ingest {table table' : InterfaceTable} (htable : table.Same table') (s : Segment) :
    (t.ingest table s).Same (u.ingest table' s) := by
  have hadmits : t.admits table s.flow = u.admits table' s.flow := by
    rw [admits, admits, htable.inOverlay, htable.inOverlay, h.focus.holds, h.focus.holds]
  rw [PathTracker.ingest, PathTracker.ingest, hadmits]
  split
  · exact ⟨h.clearCycle, h.focus, h.index.add s, congrArg Counters.ingest h.counters⟩
  · exact h

theorem Same.age (now : Nanos) : (t.age now).Same (u.age now) := by
  refine ⟨h.clearCycle, h.focus.expire now, ?_, h.counters⟩
  rw [PathTracker.age, PathTracker.age, h.clearCycle]
  exact h.index.prune u.clearCycle now

/-- Polls that leave nothing for lack of room. -/
theorem alike_poll {now : Nanos} {out out' : Buffer} (hroom : out.remaining = out'.remaining)
    (hspared : (t.poll now out).state.counters.truncated ≤ t.counters.truncated) :
    Written.Alike Same out out' (t.poll now out) (u.poll now out') := by
  have htruncated : (t.poll now out).state.counters.truncated = t.counters.truncated +
      (PathIndex.deliver now (t.index.visits t.focus) t.index.bySeq out).left := rfl
  have hleft : (PathIndex.deliver now (t.index.visits t.focus) t.index.bySeq out).left = 0 := by
    omega
  have hd := PathIndex.alike_deliver (h.index.perm_visits h.focus) h.index.bySeq hroom hleft
  have hquery : (t.query now out).state.Same (u.query now out').state := by
    refine ⟨h.clearCycle, h.focus, ⟨h.index.byAddress, hd.rest⟩, ?_⟩
    rw [query, query, h.counters, hd.written, hd.left]
  exact ⟨hquery.age now, hd.news, hd.remaining⟩

end Same

end PathTracker

end FlowProbe
