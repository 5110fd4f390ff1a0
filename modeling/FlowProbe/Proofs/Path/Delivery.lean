import FlowProbe.Proofs.Path.Filing
import Mathlib.Data.List.Perm.Subperm

/-! The walk over the buckets.

A walk visits buckets again and again, for both ends of a pair, for repeated sequence
numbers and for other pairs, and changes them as it goes. What it comes to does not depend
on any of that. `Walked` says it for the whole walk: what was written and what is still held
make up what was held before, every written sighting was asked for by a visit, a bucket only
loses sightings, and unless the output is full nothing that was asked for is left
(`exists_walked`). Hence the number written is what there is room for, or everything asked
for (`Walked.length_eq`), and a walk that asks for nothing changes nothing
(`deliver_of_not_asked`). -/
namespace FlowProbe

theorem Buffer.remaining_of_push {b c : Buffer} {r : Record} (h : b.push r = some c) :
    b.remaining = c.remaining + 1 := by
  obtain ⟨hrecords, hcapacity, hpos⟩ := Buffer.push_eq_some h
  simp only [remaining, size, hrecords, hcapacity, List.length_append,
    List.length_singleton] at hpos ⊢
  omega

/-! ### One bucket -/

namespace Span

/-- The sightings of a bucket that lie in the span. -/
def within (span : Span) (bucket : List Sighting) : List Sighting :=
  bucket.filter fun s => span.contains s.time

/-- One bucket served: of the sightings in the span as many go out, from the front, as there
is room for, and all others stay in their order. -/
structure Served (span : Span) (now : Nanos) (bucket : List Sighting) (out : Buffer)
    (d : Delivery (List Sighting)) : Prop where
  records : d.out.records =
    out.records ++ ((span.within bucket).take out.remaining).map (Sighting.record now)
  written : d.written = ((span.within bucket).take out.remaining).length
  left : d.left = (span.within bucket).length - out.remaining
  parts : ((span.within bucket).take out.remaining ++ d.rest).Perm bucket
  order : d.rest.Sublist bucket

theorem served (span : Span) (now : Nanos) (bucket : List Sighting) (out : Buffer) :
    Served span now bucket out (span.deliver now bucket out) := by
  induction bucket generalizing out with
  | nil => refine ⟨?_, ?_, ?_, ?_, List.Sublist.refl _⟩ <;> simp [deliver, within]
  | cons s bucket ih =>
    unfold deliver
    by_cases hin : span.contains s.time = true
    · have hwithin : span.within (s :: bucket) = s :: span.within bucket := by
        simp [within, hin]
      rw [if_pos hin]
      cases hpush : out.push (s.record now) with
      | none =>
        -- no room for this one, so for none after it
        have hfull := Buffer.push_eq_none_iff.1 hpush
        obtain ⟨hrecords, hwritten, hleft, hparts, horder⟩ := ih out
        rw [hfull, List.take_zero] at hrecords hwritten hparts
        refine ⟨?_, ?_, ?_, ?_, horder.cons_cons s⟩
        · rw [hfull, List.take_zero]
          exact hrecords
        · rw [hfull, List.take_zero]
          exact hwritten
        · rw [hwithin, List.length_cons]
          show (span.deliver now bucket out).left + 1 = _
          rw [hleft]
          omega
        · rw [hfull, List.take_zero]
          exact hparts.cons s
      | some next =>
        have hroom := Buffer.remaining_of_push hpush
        obtain ⟨hnext, -, -⟩ := Buffer.push_eq_some hpush
        obtain ⟨hrecords, hwritten, hleft, hparts, horder⟩ := ih next
        have htake : (span.within (s :: bucket)).take out.remaining =
            s :: (span.within bucket).take next.remaining := by
          rw [hwithin, hroom, List.take_succ_cons]
        refine ⟨?_, ?_, ?_, ?_, horder.cons s⟩
        · rw [htake, List.map_cons]
          show (span.deliver now bucket next).out.records = _
          rw [hrecords, hnext, List.append_assoc, List.singleton_append]
        · rw [htake, List.length_cons]
          show 1 + (span.deliver now bucket next).written = _
          rw [hwritten, Nat.add_comm]
        · rw [hwithin, List.length_cons, hroom]
          show (span.deliver now bucket next).left = _
          rw [hleft]
          omega
        · rw [htake]
          exact hparts.cons s
    · have hwithin : span.within (s :: bucket) = span.within bucket := by
        simp [within, hin]
      rw [if_neg hin]
      obtain ⟨hrecords, hwritten, hleft, hparts, horder⟩ := ih out
      refine ⟨?_, ?_, ?_, ?_, horder.cons_cons s⟩
      · rw [hwithin]
        exact hrecords
      · rw [hwithin]
        exact hwritten
      · rw [hwithin]
        exact hleft
      · rw [hwithin]
        exact List.perm_middle.trans (hparts.cons s)

/-- Where nothing in the span is left for lack of room, nothing in the span is left. -/
theorem Served.not_contains {span : Span} {now : Nanos} {bucket : List Sighting} {out : Buffer}
    {d : Delivery (List Sighting)} (h : Served span now bucket out d) (hleft : d.left = 0)
    {s : Sighting} (hs : s ∈ d.rest) : span.contains s.time = false := by
  have hall : (span.within bucket).take out.remaining = span.within bucket := by
    refine List.take_of_length_le ?_
    have hl := h.left
    omega
  have hcount := h.parts.countP_eq fun s => span.contains s.time
  rw [hall, List.countP_append] at hcount
  have hwithin : (span.within bucket).countP (fun s => span.contains s.time) =
      bucket.countP fun s => span.contains s.time := by
    rw [within, List.countP_filter]
    simp
  have hzero : d.rest.countP (fun s => span.contains s.time) = 0 := by omega
  simpa using List.countP_eq_zero.1 hzero s hs

theorem deliver_of_outside {span : Span} {bucket : List Sighting}
    (h : ∀ s ∈ bucket, span.contains s.time = false) (now : Nanos) (out : Buffer) :
    span.deliver now bucket out = { rest := bucket, out } := by
  induction bucket with
  | nil => rfl
  | cons s bucket ih =>
    have hs : ¬span.contains s.time = true := by
      rw [h s List.mem_cons_self]
      exact Bool.false_ne_true
    unfold deliver
    rw [if_neg hs, ih fun s hs => h s (List.mem_cons_of_mem _ hs)]

end Span

/-! ### All buckets -/

namespace PathIndex

/-- Whether a visit asks for a sighting under the number it is filed under. -/
def asked (visits : List (Span × UInt32)) (e : UInt32 × Sighting) : Bool :=
  visits.any fun v => v.2 == e.1 && v.1.contains e.2.time

theorem asked_iff {visits : List (Span × UInt32)} {e : UInt32 × Sighting} :
    asked visits e = true ↔ ∃ span, (span, e.1) ∈ visits ∧ span.contains e.2.time = true := by
  rw [asked, List.any_eq_true]
  constructor
  · rintro ⟨⟨span, seq⟩, hmem, h⟩
    rw [Bool.and_eq_true, beq_iff_eq] at h
    obtain ⟨rfl, hin⟩ := h
    exact ⟨span, hmem, hin⟩
  · rintro ⟨span, hmem, hin⟩
    exact ⟨(span, e.1), hmem, by simp [hin]⟩

/-- What a walk comes to that writes `gone`, each sighting under the number it was filed
under. -/
structure Walked (now : Nanos) (visits : List (Span × UInt32)) (before : SeqBuckets)
    (out : Buffer) (gone : List (UInt32 × Sighting)) (d : Delivery SeqBuckets) : Prop where
  records : d.out.records = out.records ++ gone.map fun e => e.2.record now
  written : d.written = gone.length
  room : d.written + d.out.remaining = out.remaining
  parts : (gone ++ filed d.rest).Perm (filed before)
  order : ∀ seq, (listed d.rest seq).Sublist (listed before seq)
  tidy : Tidy before → Tidy d.rest
  wanted : ∀ e ∈ gone, asked visits e = true
  full : d.left ≠ 0 → d.out.remaining = 0
  complete : d.left = 0 → ∀ e ∈ filed d.rest, asked visits e = false

theorem asked_cons {span : Span} {seq : UInt32} {visits : List (Span × UInt32)}
    {e : UInt32 × Sighting} :
    asked ((span, seq) :: visits) e =
      (seq == e.1 && span.contains e.2.time || asked visits e) := rfl

/-- A walk that goes on after a bucket that is not there. -/
theorem Walked.skip {now : Nanos} {visits : List (Span × UInt32)} {before : SeqBuckets}
    {out : Buffer} {gone : List (UInt32 × Sighting)} {d : Delivery SeqBuckets}
    (h : Walked now visits before out gone d) {span : Span} {seq : UInt32}
    (hnone : before.find? seq = none) : Walked now ((span, seq) :: visits) before out gone d := by
  refine ⟨h.records, h.written, h.room, h.parts, h.order, h.tidy, fun e he => ?_, h.full,
    fun hleft e he => ?_⟩
  · rw [asked_cons, h.wanted e he, Bool.or_true]
  · have hseq : seq ≠ e.1 := by
      rintro rfl
      have hmem := (h.order e.1).subset (mem_filed.1 he)
      rw [listed, hnone] at hmem
      exact List.not_mem_nil hmem
    rw [asked_cons, h.complete hleft e he, beq_false_of_ne hseq, Bool.false_and, Bool.or_false]

section Bucket

variable {now : Nanos} {span : Span} {seq : UInt32} {before : SeqBuckets} {out : Buffer}
variable {bucket : List Sighting} (hfind : before.find? seq = some bucket)
include hfind

/-- What the first bucket gave, and what is held after it. -/
theorem perm_served {c : Delivery (List Sighting)} (hc : Span.Served span now bucket out c) :
    (((span.within bucket).take out.remaining).map (fun s => (seq, s)) ++
      filed (putBack before seq c.rest)).Perm (filed before) := by
  have hbefore := perm_filed before seq
  rw [listed_of_find? hfind] at hbefore
  refine ((perm_filed_putBack before seq c.rest).append_left _).trans ?_
  rw [← List.append_assoc, ← List.map_append]
  exact ((hc.parts.map _).append_right _).trans hbefore.symm

theorem order_served {c : Delivery (List Sighting)} (hc : Span.Served span now bucket out c)
    (seq' : UInt32) :
    (listed (putBack before seq c.rest) seq').Sublist (listed before seq') := by
  rw [listed_putBack]
  split
  · next h =>
    rw [h, listed_of_find? hfind]
    exact hc.order
  · exact List.Sublist.refl _

omit hfind in
theorem asked_served {visits : List (Span × UInt32)} {s : Sighting}
    (hs : s ∈ (span.within bucket).take out.remaining) :
    asked ((span, seq) :: visits) (seq, s) = true := by
  have hin := (List.mem_filter.1 (List.mem_of_mem_take hs)).2
  rw [asked_cons, beq_self_eq_true, hin, Bool.and_self, Bool.true_or]

/-- A walk that ends at its first bucket, which there was no room for. -/
theorem walked_full {visits : List (Span × UInt32)} {c : Delivery (List Sighting)}
    (hc : Span.Served span now bucket out c) (hroom : c.written + c.out.remaining = out.remaining)
    (hleft : c.left ≠ 0) :
    Walked now ((span, seq) :: visits) before out
      (((span.within bucket).take out.remaining).map fun s => (seq, s))
      { c with rest := putBack before seq c.rest } := by
  refine ⟨?_, ?_, hroom, perm_served hfind hc, order_served hfind hc,
    fun h => tidy_putBack h seq c.rest, fun e he => ?_, fun _ => ?_, fun h => absurd h hleft⟩
  · rw [List.map_map]
    exact hc.records
  · rw [List.length_map]
    exact hc.written
  · obtain ⟨s, hs, rfl⟩ := List.mem_map.1 he
    exact asked_served hs
  · have hl := hc.left
    have hw := hc.written
    rw [List.length_take] at hw
    show c.out.remaining = 0
    omega

/-- A walk that goes on after its first bucket. -/
theorem walked_after {visits : List (Span × UInt32)} {c : Delivery (List Sighting)}
    {gone : List (UInt32 × Sighting)} {d : Delivery SeqBuckets}
    (hc : Span.Served span now bucket out c) (hroom : c.written + c.out.remaining = out.remaining)
    (hleft : c.left = 0) (h : Walked now visits (putBack before seq c.rest) c.out gone d) :
    Walked now ((span, seq) :: visits) before out
      (((span.within bucket).take out.remaining).map (fun s => (seq, s)) ++ gone)
      (d.after c.written) := by
  refine ⟨?_, ?_, ?_, ?_, fun seq' => (h.order seq').trans (order_served hfind hc seq'),
    fun ht => h.tidy (tidy_putBack ht seq c.rest), fun e he => ?_, h.full, fun hd e he => ?_⟩
  · show d.out.records = _
    rw [h.records, hc.records, List.map_append, List.map_map, List.append_assoc]
    rfl
  · show c.written + d.written = _
    rw [List.length_append, List.length_map, hc.written, h.written]
  · have hrest := h.room
    show c.written + d.written + d.out.remaining = out.remaining
    omega
  · show (_ ++ gone ++ filed d.rest).Perm _
    rw [List.append_assoc]
    exact (h.parts.append_left _).trans (perm_served hfind hc)
  · rcases List.mem_append.1 he with he | he
    · obtain ⟨s, hs, rfl⟩ := List.mem_map.1 he
      exact asked_served hs
    · rw [asked_cons, h.wanted e he, Bool.or_true]
  · rw [asked_cons, h.complete hd e he, Bool.or_false]
    by_cases hseq : seq = e.1
    · -- the bucket just served kept only what lies outside the span
      have hmem := (h.order e.1).subset (mem_filed.1 he)
      rw [listed_putBack, if_pos hseq.symm] at hmem
      rw [hc.not_contains hleft hmem, Bool.and_false]
    · rw [beq_false_of_ne hseq, Bool.false_and]

end Bucket

theorem exists_walked (now : Nanos) (visits : List (Span × UInt32)) (before : SeqBuckets)
    (out : Buffer) : ∃ gone, Walked now visits before out gone (deliver now visits before out) := by
  induction visits generalizing before out with
  | nil =>
    refine ⟨[], by simp [deliver], rfl, by simp [deliver], List.Perm.refl _,
      fun _ => List.Sublist.refl _, id, nofun, fun h => absurd rfl h, fun _ _ _ => rfl⟩
  | cons visit visits ih =>
    obtain ⟨span, seq⟩ := visit
    unfold deliver
    cases hfind : before.find? seq with
    | none =>
      obtain ⟨gone, h⟩ := ih before out
      exact ⟨gone, h.skip hfind⟩
    | some bucket =>
      have hc := span.served now bucket out
      have hroom := span.remaining_deliver now bucket out
      by_cases hleft : (span.deliver now bucket out).left = 0
      · obtain ⟨gone, h⟩ := ih (putBack before seq (span.deliver now bucket out).rest)
          (span.deliver now bucket out).out
        simp only [hleft, if_true]
        exact ⟨_, walked_after hfind hc hroom hleft h⟩
      · simp only [hleft, if_false]
        exact ⟨_, walked_full hfind hc hroom hleft⟩

/-! ### What a walk comes to -/

section Total

variable {now : Nanos} {visits : List (Span × UInt32)} {before : SeqBuckets} {out : Buffer}
variable {gone : List (UInt32 × Sighting)} {d : Delivery SeqBuckets}

/-- What was asked for went out or is still held. -/
theorem Walked.perm_asked (h : Walked now visits before out gone d) :
    (gone ++ (filed d.rest).filter (asked visits)).Perm ((filed before).filter (asked visits)) := by
  have hparts := h.parts.filter (asked visits)
  rw [List.filter_append, List.filter_eq_self.2 h.wanted] at hparts
  exact hparts

/-- What goes out of a walk that leaves nothing for lack of room. -/
theorem Walked.perm_gone (h : Walked now visits before out gone d) (hleft : d.left = 0) :
    gone.Perm ((filed before).filter (asked visits)) := by
  have hnone : (filed d.rest).filter (asked visits) = [] := by
    refine List.filter_eq_nil_iff.2 fun e he => ?_
    rw [h.complete hleft e he]
    exact Bool.false_ne_true
  have hasked := h.perm_asked
  rwa [hnone, List.append_nil] at hasked

theorem Walked.length_eq (h : Walked now visits before out gone d) :
    gone.length = min out.remaining ((filed before).filter (asked visits)).length := by
  have hroom := h.room
  have hwritten := h.written
  by_cases hleft : d.left = 0
  · have hgone := (h.perm_gone hleft).length_eq
    omega
  · have hfull := h.full hleft
    have hasked := h.perm_asked.length_eq
    rw [List.length_append] at hasked
    omega

/-- A walk that asks for nothing that is held leaves everything as it is. -/
theorem deliver_of_not_asked (htidy : Tidy before) (h : ∀ e ∈ filed before, asked visits e = false) :
    deliver now visits before out = { rest := before, out } := by
  induction visits with
  | nil => rfl
  | cons visit visits ih =>
    obtain ⟨span, seq⟩ := visit
    have hrest : deliver now visits before out = { rest := before, out } := by
      refine ih fun e he => ?_
      have hcons := h e he
      rw [asked_cons, Bool.or_eq_false_iff] at hcons
      exact hcons.2
    unfold deliver
    cases hfind : before.find? seq with
    | none => exact hrest
    | some bucket =>
      have houtside : ∀ s ∈ bucket, span.contains s.time = false := by
        intro s hs
        have hmem : (seq, s) ∈ filed before := by
          rw [mem_filed, listed_of_find? hfind]
          exact hs
        have hcons := h (seq, s) hmem
        rw [asked_cons, beq_self_eq_true, Bool.true_and, Bool.or_eq_false_iff] at hcons
        exact hcons.1
      have hput : putBack before seq bucket = before := by
        cases bucket with
        | nil => exact absurd rfl (htidy seq [] hfind)
        | cons s bucket => exact Keyed.insert_self hfind
      simp only [Span.deliver_of_outside houtside, hput, hrest, if_true]
      rfl

end Total

end PathIndex
end FlowProbe
