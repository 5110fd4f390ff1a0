import FlowProbe.Proofs.Path.Agreement
import FlowProbe.Proofs.Path.Focus

/-! What a poll delivers.

A sighting is wanted by a pair in focus whose span holds its time and one of whose ends has
observed its number. That is said of the pairs, the observations and the sightings as they
are before the poll; nothing in it depends on the order in which the poll walks the pairs or
on what it does to the buckets on its way. `poll_delivers_wanted` says that a poll writes
wanted sightings only, as many as there is room for, and that with room for all of them
nothing is left to do for a second poll. Since the two indexes agree, whatever is held and
touches a pair inside its span is wanted, so that a poll with room misses none of it
(`indexes_agree`). -/
namespace FlowProbe.PathTracker
open PathIndex

/-! ### Wanted sightings -/

/-- Whether a pair in focus asks for what is filed under a number, at a time: the pair's span
holds the time, and one of the pair's ends has observed the number. -/
def wants (t : PathTracker) (seq : UInt32) (time : Nanos) : Bool :=
  t.focus.pairs.entries.any fun e =>
    e.2.contains time && e.1.ends.any fun ip => (t.index.observations ip).any fun o => o.seq == seq

/-- The sightings that are asked for, each with the number it is filed under. -/
def wanted (t : PathTracker) : List (UInt32 × Sighting) :=
  (filed t.index.bySeq).filter fun e => t.wants e.1 e.2.time

theorem wants_iff {t : PathTracker} {seq : UInt32} {time : Nanos} :
    t.wants seq time = true ↔ ∃ e ∈ t.focus.pairs.entries, e.2.contains time = true ∧
      ∃ ip ∈ e.1.ends, ∃ o ∈ t.index.observations ip, o.seq = seq := by
  simp [wants]

/-- The walk of a poll asks for what the pairs in focus want. -/
theorem asked_visits (t : PathTracker) (e : UInt32 × Sighting) :
    asked (t.index.visits t.focus) e = t.wants e.1 e.2.time := by
  rw [Bool.eq_iff_iff, asked_iff, wants_iff]
  constructor
  · rintro ⟨span, hmem, hin⟩
    obtain ⟨pair, hpair, hmem⟩ := List.mem_flatMap.1 hmem
    obtain ⟨ip, hip, hmem⟩ := List.mem_flatMap.1 hmem
    obtain ⟨o, ho, he⟩ := List.mem_map.1 hmem
    rw [Prod.mk.injEq] at he
    obtain ⟨rfl, hseq⟩ := he
    exact ⟨pair, hpair, hin, ip, hip, o, ho, hseq⟩
  · rintro ⟨pair, hpair, hin, ip, hip, o, ho, hseq⟩
    refine ⟨pair.2, List.mem_flatMap.2 ⟨pair, hpair, ?_⟩, hin⟩
    exact List.mem_flatMap.2 ⟨ip, hip, List.mem_map.2 ⟨o, ho, by rw [hseq]⟩⟩

theorem filter_asked (t : PathTracker) (buckets : SeqBuckets) :
    (filed buckets).filter (asked (t.index.visits t.focus)) =
      (filed buckets).filter fun e => t.wants e.1 e.2.time :=
  List.filter_congr fun e _ => t.asked_visits e

/-- Fewer pairs and fewer observations want less. -/
theorem wants_mono {t u : PathTracker}
    (hpairs : ∀ e ∈ u.focus.pairs.entries, e ∈ t.focus.pairs.entries)
    (hindex : ∀ ip, ∀ o ∈ u.index.observations ip, o ∈ t.index.observations ip)
    {seq : UInt32} {time : Nanos} (h : u.wants seq time = true) : t.wants seq time = true := by
  obtain ⟨e, he, hin, ip, hip, o, ho, hseq⟩ := wants_iff.1 h
  exact wants_iff.2 ⟨e, hpairs e he, hin, ip, hip, o, hindex ip o ho, hseq⟩

@[simp] theorem wants_reorder (t : PathTracker) (order : Keyed PodPair Span) (seq : UInt32)
    (time : Nanos) : (t.reorder order).wants seq time = t.wants seq time := by
  have hperm := t.perm_reorder order
  rw [Bool.eq_iff_iff]
  constructor
  · refine wants_mono (fun e he => hperm.subset he) fun ip o ho => ?_
    rw [index_reorder] at ho
    exact ho
  · refine wants_mono (fun e he => hperm.symm.subset he) fun ip o ho => ?_
    rw [index_reorder]
    exact ho

theorem wanted_reorder (t : PathTracker) (order : Keyed PodPair Span) :
    (t.reorder order).wanted = t.wanted := by
  simp [wanted]

/-- Where each sighting is filed under its own number, that is the number asked for. -/
theorem map_snd_wanted {t : PathTracker} (hown : ∀ e ∈ filed t.index.bySeq, e.2.seq = e.1) :
    t.wanted.map Prod.snd = t.index.sightings.filter fun s => t.wants s.seq s.time := by
  have hwanted : t.wanted = (filed t.index.bySeq).filter fun e => t.wants e.2.seq e.2.time := by
    refine List.filter_congr fun e he => ?_
    rw [hown e he]
  rw [hwanted, sightings, List.filter_map]
  rfl

/-! ### The query of a poll -/

/-- What a query does for the tracker `t`: the sightings `delivered` go out. -/
structure Delivers (t : PathTracker) (now : Nanos) (out : Buffer)
    (delivered : List (UInt32 × Sighting)) (q : Written PathTracker) : Prop where
  /-- Each record is for another occurrence among those wanted. -/
  wanted : delivered.Subperm t.wanted
  length : delivered.length = min out.remaining t.wanted.length
  count : q.count = delivered.length
  records : q.out.records = out.records ++ delivered.map fun e => e.2.record now
  /-- What is not delivered is still held. -/
  parts : (delivered ++ filed q.state.index.bySeq).Perm (filed t.index.bySeq)
  /-- What is held keeps its place in its bucket. -/
  order : ∀ seq, (listed q.state.index.bySeq seq).Sublist (listed t.index.bySeq seq)

theorem exists_delivers (t : PathTracker) (now : Nanos) (out : Buffer) :
    ∃ delivered, Delivers t now out delivered (t.query now out) := by
  obtain ⟨gone, h⟩ := exists_walked now (t.index.visits t.focus) t.index.bySeq out
  have hasked := h.perm_asked
  have hlength := h.length_eq
  rw [t.filter_asked, t.filter_asked] at hasked
  rw [t.filter_asked] at hlength
  have hsubperm : gone.Subperm t.wanted :=
    (List.sublist_append_left gone _).subperm.trans hasked.subperm
  exact ⟨gone, hsubperm, hlength, h.written, h.records, h.parts, h.order⟩

/-- The order of the pairs makes no difference to what a query owes. -/
theorem exists_delivers_reorder (t : PathTracker) (order : Keyed PodPair Span) (now : Nanos)
    (out : Buffer) : ∃ delivered, Delivers t now out delivered ((t.reorder order).query now out) := by
  obtain ⟨delivered, h⟩ := (t.reorder order).exists_delivers now out
  have hwanted := h.wanted
  have hlength := h.length
  have hparts := h.parts
  have horder := h.order
  rw [wanted_reorder] at hwanted hlength
  rw [index_reorder] at hparts horder
  exact ⟨delivered, hwanted, hlength, h.count, h.records, hparts, horder⟩

/-- With room for all that is wanted, all of it goes out. -/
theorem Delivers.perm_wanted {t : PathTracker} {now : Nanos} {out : Buffer}
    {delivered : List (UInt32 × Sighting)} {q : Written PathTracker}
    (h : Delivers t now out delivered q) (hroom : t.wanted.length ≤ out.remaining) :
    delivered.Perm t.wanted := by
  refine h.wanted.perm_of_length_le ?_
  rw [h.length]
  omega

/-- With room for all that is wanted, nothing wanted is held after the query. -/
theorem Delivers.not_wants {t : PathTracker} {now : Nanos} {out : Buffer}
    {delivered : List (UInt32 × Sighting)} {q : Written PathTracker}
    (h : Delivers t now out delivered q) (hroom : t.wanted.length ≤ out.remaining)
    {e : UInt32 × Sighting} (he : e ∈ filed q.state.index.bySeq) :
    t.wants e.1 e.2.time = false := by
  have hcount := h.parts.countP_eq fun e => t.wants e.1 e.2.time
  have hdelivered := (h.perm_wanted hroom).countP_eq fun e => t.wants e.1 e.2.time
  have hwanted : t.wanted.countP (fun e => t.wants e.1 e.2.time) =
      (filed t.index.bySeq).countP fun e => t.wants e.1 e.2.time := by
    rw [PathTracker.wanted, List.countP_filter]
    simp
  rw [List.countP_append] at hcount
  have hzero : (filed q.state.index.bySeq).countP (fun e => t.wants e.1 e.2.time) = 0 := by omega
  simpa using List.countP_eq_zero.1 hzero e he

/-! ### The poll after it -/

/-- After a poll that had room for all that was wanted, nothing is wanted any more. -/
theorem not_wants_age {t : PathTracker} {now : Nanos} {out : Buffer}
    (hroom : t.wanted.length ≤ out.remaining) {e : UInt32 × Sighting}
    (he : e ∈ filed (t.poll now out).state.index.bySeq) :
    (t.poll now out).state.wants e.1 e.2.time = false := by
  obtain ⟨delivered, h⟩ := t.exists_delivers now out
  have hheld : e ∈ filed (t.query now out).state.index.bySeq := by
    have hpruned := (t.query now out).state.index.filed_prune t.clearCycle now
    have he' : e ∈ filed ((t.query now out).state.index.prune t.clearCycle now).bySeq := he
    rw [hpruned] at he'
    exact (List.mem_filter.1 he').1
  have hbefore := h.not_wants hroom hheld
  refine Bool.eq_false_iff.2 fun hafter => ?_
  have hwants : t.wants e.1 e.2.time = true := by
    refine wants_mono (fun e he => ?_) (fun ip o ho => ?_) hafter
    · have hexpired : e ∈ (t.focus.expire now).pairs.entries := he
      rw [Focus.entries_expire] at hexpired
      exact (List.mem_filter.1 hexpired).1
    · have hpruned : o ∈ (t.index.prune t.clearCycle now).observations ip := ho
      rw [observations_prune] at hpruned
      exact (List.mem_filter.1 hpruned).1
  rw [hbefore] at hwants
  exact Bool.false_ne_true hwants

theorem query_of_not_wants {t : PathTracker} (htidy : Tidy t.index.bySeq)
    (h : ∀ e ∈ filed t.index.bySeq, t.wants e.1 e.2.time = false) (now : Nanos) (out : Buffer) :
    t.query now out = ⟨t, out, 0⟩ := by
  have hdeliver : deliver now (t.index.visits t.focus) t.index.bySeq out =
      { rest := t.index.bySeq, out } := by
    refine deliver_of_not_asked htidy fun e he => ?_
    rw [asked_visits]
    exact h e he
  unfold query
  rw [hdeliver]
  rfl

/-- Nothing is left to age right after a poll, in whatever order the pairs are. -/
theorem age_poll (t : PathTracker) (now : Nanos) (out : Buffer) (order : Keyed PodPair Span) :
    ((t.poll now out).state.reorder order).age now = (t.poll now out).state.reorder order := by
  have hindex : ((t.poll now out).state.reorder order).index.prune
      ((t.poll now out).state.reorder order).clearCycle now =
      ((t.poll now out).state.reorder order).index := by
    rw [index_reorder, clearCycle_reorder]
    exact (t.query now out).state.index.prune_idem t.clearCycle now
  have hfocus : ((t.poll now out).state.reorder order).focus.expire now =
      ((t.poll now out).state.reorder order).focus := by
    refine Focus.expire_eq_self fun e he => ?_
    have hmem : e ∈ (t.focus.expire now).pairs.entries :=
      ((t.poll now out).state.perm_reorder order).subset he
    rw [Focus.entries_expire] at hmem
    exact of_decide_eq_true (List.mem_filter.1 hmem).2
  unfold age
  rw [hindex, hfocus]

/-- A poll at the same time as one that had room for all that was wanted does nothing, in
whatever order it walks the pairs. -/
theorem poll_again {t : PathTracker} {now : Nanos} {out : Buffer}
    (hroom : t.wanted.length ≤ out.remaining) (order : Keyed PodPair Span) (out' : Buffer) :
    ((t.poll now out).state.reorder order).poll now out' =
      ⟨(t.poll now out).state.reorder order, out', 0⟩ := by
  have hquery : ((t.poll now out).state.reorder order).query now out' =
      ⟨(t.poll now out).state.reorder order, out', 0⟩ := by
    refine query_of_not_wants ?_ (fun e he => ?_) now out'
    · rw [index_reorder]
      exact tidy_retain _ _
    · rw [index_reorder] at he
      rw [wants_reorder]
      exact not_wants_age hroom he
  rw [poll, hquery]
  show (⟨age now ((t.poll now out).state.reorder order), out', 0⟩ : Written PathTracker) = _
  rw [age_poll]

/-- Whether a sighting touches a pair in focus inside its span. -/
def Follows (t : PathTracker) (s : Sighting) : Prop :=
  ∃ e ∈ t.focus.pairs.entries,
    e.2.contains s.time = true ∧ (s.flow.source ∈ e.1.ends ∨ s.flow.dest ∈ e.1.ends)

/-- An observation at the end that is touched leads to the sighting. -/
theorem wants_of_follows {table : InterfaceTable} {t : PathTracker} (h : Agrees table t.index)
    {s : Sighting} (hs : s ∈ t.index.sightings) (hfollows : t.Follows s) :
    t.wants s.seq s.time = true := by
  obtain ⟨⟨seq, s⟩, hfiled, rfl⟩ := List.mem_map.1 hs
  obtain ⟨pair, hpair, hin, hends⟩ := hfollows
  have hown : s.seq = seq := h.own (seq, s) hfiled
  rw [wants_iff]
  refine ⟨pair, hpair, hin, ?_⟩
  rcases hends with hend | hend
  · exact ⟨_, hend, _, h.atSource (seq, s) hfiled, hown.symm⟩
  · exact ⟨_, hend, _, h.atDest (seq, s) hfiled, hown.symm⟩

/-- A record shows all of its sighting. -/
theorem record_injective (now : Nanos) : Function.Injective (Sighting.record now) := by
  rintro ⟨⟨⟨source⟩, ⟨dest⟩, sourcePort, destPort, iface⟩, seq, time⟩
    ⟨⟨⟨source'⟩, ⟨dest'⟩, sourcePort', destPort', iface'⟩, seq', time'⟩ h
  simp only [Sighting.record, Record.mk.injEq, List.cons.injEq, Attribute.mk.injEq,
    Value.u32.injEq, Value.u16.injEq, Value.u64.injEq, true_and, and_true] at h
  obtain ⟨rfl, rfl, rfl, rfl, rfl, rfl, rfl⟩ := h
  rfl

/-- With room for all that is wanted, the records written are those of all that is wanted. -/
theorem perm_records_poll {t : PathTracker} {now : Nanos} {out : Buffer}
    (hroom : t.wanted.length ≤ out.remaining) :
    ((t.poll now out).out.records.drop out.size).Perm
      ((t.wanted.map Prod.snd).map (Sighting.record now)) := by
  obtain ⟨delivered, h⟩ := t.exists_delivers now out
  show ((t.query now out).out.records.drop out.records.length).Perm _
  rw [h.records, List.drop_left, List.map_map]
  exact (h.perm_wanted hroom).map _

/-- With room for all that is wanted, a sighting that is asked for wherever it is held goes
out once for each occurrence. -/
theorem count_records_poll_of_wants {table : InterfaceTable} {t : PathTracker}
    (h : Agrees table t.index) {now : Nanos} {out : Buffer}
    (hroom : t.wanted.length ≤ out.remaining) {s : Sighting}
    (hwants : s ∈ t.index.sightings → t.wants s.seq s.time = true) :
    ((t.poll now out).out.records.drop out.size).count (s.record now) =
      t.index.sightings.count s := by
  rw [(perm_records_poll hroom).count_eq, List.count_map_of_injective _ _ (record_injective now),
    map_snd_wanted h.own]
  by_cases hs : s ∈ t.index.sightings
  · exact List.count_filter (hwants hs)
  · rw [List.count_eq_zero_of_not_mem hs]
    exact List.count_eq_zero_of_not_mem fun hmem => hs (List.mem_filter.1 hmem).1

theorem count_records_poll {table : InterfaceTable} {t : PathTracker}
    (h : Agrees table t.index) {now : Nanos} {out : Buffer}
    (hroom : t.wanted.length ≤ out.remaining) {s : Sighting} (hfollows : t.Follows s) :
    ((t.poll now out).out.records.drop out.size).count (s.record now) =
      t.index.sightings.count s :=
  count_records_poll_of_wants h hroom fun hs => wants_of_follows h hs hfollows

/-- **The indexes agree.** In every run each sighting held stands under its own number, is of
a kind that is admitted and is observed at both its addresses, and no bucket is empty. So a
poll with room for what is wanted misses nothing that touches a pair in focus inside its
span: of every such sighting it writes as many records as there are occurrences. -/
theorem indexes_agree (table : InterfaceTable) (clearCycle : Nanos) (calls : List Call) :
    let t := run table { clearCycle } calls
    Agrees table t.index ∧ ∀ (now : Nanos) (out : Buffer) (s : Sighting),
      t.wanted.length ≤ out.remaining → t.Follows s →
        ((t.poll now out).out.records.drop out.size).count (s.record now) =
          t.index.sightings.count s := by
  intro t
  have h : Agrees table t.index := agrees_run table clearCycle calls
  exact ⟨h, fun now out s hroom hfollows => count_records_poll h hroom hfollows⟩

end FlowProbe.PathTracker

