import FlowProbe.Proofs.Path.Ageing

/-! Segments that share a sequence number.

A pair asks for the numbers that its ends have observed, and a poll writes what stands under
such a number if its time is in the pair's span, whatever its addresses are. So a number that
two flows share leads from a pair that one of them touches to a segment of the other.
`records_follow_iff` says when that happens: the records of a poll are all of segments that
touch a pair in focus inside its span exactly if every segment that is wanted does. A record of
any other stems from a shared number, so there is none where the segments of a number have the
same two addresses. -/
namespace FlowProbe.PathTracker
open PathIndex

/-! ### Where an index comes from -/

/-- Whether a flow has one of a pair's ends. -/
def Touches (p : PodPair) (f : Flow) : Prop := f.source ∈ p.ends ∨ f.dest ∈ p.ends

/-- Whether two flows are between the same addresses, in one direction or the other. -/
def SameEnds (f g : Flow) : Prop :=
  (f.source = g.source ∧ f.dest = g.dest) ∨ (f.source = g.dest ∧ f.dest = g.source)

theorem Touches.of_sameEnds {p : PodPair} {f g : Flow} (h : Touches p f) (hends : SameEnds f g) :
    Touches p g := by
  rcases hends with ⟨hsource, hdest⟩ | ⟨hsource, hdest⟩
  · rwa [Touches, ← hsource, ← hdest]
  · rw [Touches, ← hsource, ← hdest]
    exact h.symm

/-- What an index holds stems from some segments: an observation at an address from one that has
the number and the address, and a sighting from its own. -/
structure Stems (origin : Segment → Prop) (i : PathIndex) : Prop where
  observed : ∀ ip, ∀ o ∈ i.observations ip, ∃ s, origin s ∧ s.seq = o.seq ∧
    (s.flow.source = ip ∨ s.flow.dest = ip)
  sighted : ∀ e ∈ filed i.bySeq, ∃ s, origin s ∧ s.sighting = e.2

variable {origin : Segment → Prop}

theorem stems_new : Stems origin {} := ⟨nofun, nofun⟩

theorem stems_add {i : PathIndex} (h : Stems origin i) {s : Segment} (hs : origin s) :
    Stems origin (i.add s) := by
  refine ⟨fun ip o ho => ?_, fun e he => ?_⟩
  · rw [observations_add, List.mem_append, List.mem_append, List.mem_ite_nil_right,
      List.mem_ite_nil_right, List.mem_singleton, List.mem_singleton] at ho
    rcases ho with hold | ⟨rfl, rfl⟩ | ⟨rfl, rfl⟩
    · exact h.observed ip o hold
    · exact ⟨s, hs, rfl, .inl rfl⟩
    · exact ⟨s, hs, rfl, .inr rfl⟩
  · rcases mem_filed_add.1 he with hold | rfl
    · exact h.sighted e hold
    · exact ⟨s, hs, rfl⟩

theorem stems_poll {t : PathTracker} (h : Stems origin t.index) (now : Nanos) (out : Buffer) :
    Stems origin (t.poll now out).state.index := by
  refine ⟨fun ip o ho => ?_, fun e he => ?_⟩
  · rw [observations_poll] at ho
    exact h.observed ip o (List.mem_filter.1 ho).1
  · obtain ⟨delivered, hd⟩ := t.exists_delivers now out
    rw [filed_poll] at he
    exact h.sighted e (hd.parts.subset (List.mem_append_right _ (List.mem_filter.1 he).1))

theorem stems_step (table : InterfaceTable) {t : PathTracker} (h : Stems origin t.index)
    {call : Call} (hcall : ∀ s, call = .ingest s → origin s) :
    Stems origin (t.step table call).index := by
  cases call with
  | update a b span op => cases op <;> exact h
  | ingest s =>
    show Stems origin (t.ingest table s).index
    rw [ingest]
    split
    · exact stems_add h (hcall s rfl)
    · exact h
  | poll now out => exact stems_poll h now out
  | reorder order =>
    show Stems origin (t.reorder order).index
    rwa [index_reorder]

/-- What is held in a run stems from the segments that the run took in. -/
theorem stems_run (table : InterfaceTable) {t : PathTracker} (h : Stems origin t.index)
    {calls : List Call} (hcalls : ∀ s, .ingest s ∈ calls → origin s) :
    Stems origin (t.run table calls).index := by
  induction calls generalizing t with
  | nil => exact h
  | cons call rest ih =>
    refine ih (stems_step table h fun s hs => ?_) fun s hs => hcalls s (.tail _ hs)
    exact hcalls s (hs ▸ .head _)

/-! ### What a poll writes -/

/-- What a poll appends to its output when it walks the pairs in some order. -/
def written (t : PathTracker) (order : Keyed PodPair Span) (now : Nanos) (out : Buffer) :
    List Record :=
  ((t.reorder order).poll now out).out.records.drop out.size

/-- Whether every record that a poll may write is of a segment that touches a pair in focus
inside its span. -/
def RecordsFollow (t : PathTracker) (now : Nanos) : Prop :=
  ∀ order out, ∀ r ∈ t.written order now out,
    ∃ s ∈ t.index.sightings, t.Follows s ∧ r = s.record now

theorem written_eq {t : PathTracker} {order : Keyed PodPair Span} {now : Nanos} {out : Buffer}
    {delivered : List (UInt32 × Sighting)}
    (h : Delivers t now out delivered ((t.reorder order).query now out)) :
    t.written order now out = delivered.map fun e => e.2.record now := by
  show ((t.reorder order).query now out).out.records.drop out.records.length = _
  rw [h.records, List.drop_left]

/-- A poll writes records of what is held and wanted. -/
theorem wants_of_written {t : PathTracker} (hown : ∀ e ∈ filed t.index.bySeq, e.2.seq = e.1)
    {order : Keyed PodPair Span} {now : Nanos} {out : Buffer} {r : Record}
    (hr : r ∈ t.written order now out) :
    ∃ s ∈ t.index.sightings, t.wants s.seq s.time = true ∧ r = s.record now := by
  obtain ⟨delivered, h⟩ := t.exists_delivers_reorder order now out
  rw [written_eq h] at hr
  obtain ⟨e, he, rfl⟩ := List.mem_map.1 hr
  have hmem : e.2 ∈ t.wanted.map Prod.snd := List.mem_map_of_mem (h.wanted.subset he)
  rw [map_snd_wanted hown] at hmem
  obtain ⟨hheld, hwants⟩ := List.mem_filter.1 hmem
  exact ⟨e.2, hheld, hwants, rfl⟩

/-- With an output for all of it, a poll writes what is held and wanted. -/
theorem written_of_wants {t : PathTracker} (hown : ∀ e ∈ filed t.index.bySeq, e.2.seq = e.1)
    (now : Nanos) {s : Sighting} (hs : s ∈ t.index.sightings)
    (hwants : t.wants s.seq s.time = true) :
    s.record now ∈ t.written .empty now { capacity := t.wanted.length } := by
  obtain ⟨delivered, h⟩ := t.exists_delivers_reorder .empty now { capacity := t.wanted.length }
  have hmem : s ∈ t.wanted.map Prod.snd := by
    rw [map_snd_wanted hown]
    exact List.mem_filter.2 ⟨hs, hwants⟩
  obtain ⟨e, he, rfl⟩ := List.mem_map.1 hmem
  rw [written_eq h]
  exact List.mem_map_of_mem ((h.perm_wanted (Nat.le_refl _)).symm.subset he)

theorem recordsFollow_iff_wants {t : PathTracker}
    (hown : ∀ e ∈ filed t.index.bySeq, e.2.seq = e.1) (now : Nanos) :
    t.RecordsFollow now ↔
      ∀ s ∈ t.index.sightings, t.wants s.seq s.time = true → t.Follows s := by
  constructor
  · intro h s hs hwants
    obtain ⟨s', -, hfollows, he⟩ := h _ _ _ (written_of_wants hown now hs hwants)
    rwa [record_injective now he]
  · intro h order out r hr
    obtain ⟨s, hs, hwants, rfl⟩ := wants_of_written hown hr
    exact ⟨s, hs, h s hs hwants, rfl⟩

/-- A sighting is wanted through a segment of its number that touches the pair. -/
theorem Stems.exists_of_wants {t : PathTracker} (h : Stems origin t.index) {seq : UInt32}
    {time : Nanos} (hwants : t.wants seq time = true) :
    ∃ e ∈ t.focus.pairs.entries, e.2.contains time = true ∧
      ∃ other, origin other ∧ other.seq = seq ∧ Touches e.1 other.flow := by
  obtain ⟨e, he, hin, ip, hip, o, ho, rfl⟩ := wants_iff.1 hwants
  obtain ⟨other, hother, hseq, hend⟩ := h.observed ip o ho
  refine ⟨e, he, hin, other, hother, hseq, ?_⟩
  rcases hend with rfl | rfl
  · exact .inl hip
  · exact .inr hip

/-- **A record follows its pair unless a number is shared.** In every run and at every poll, in
whatever order it walks the pairs and whatever its output: the records are all of segments that
touch a pair in focus inside its span exactly if each segment held that is wanted does. Any
record is of a segment whose time is in the span of a pair in focus, and a segment that was taken
in under the same number touches that pair. So where the segments of every number have the same
two addresses, all records follow. -/
theorem records_follow_iff (table : InterfaceTable) (clearCycle : Nanos) (calls : List Call)
    (now : Nanos) :
    let t := run table { clearCycle } calls
    (t.RecordsFollow now ↔
        ∀ s ∈ t.index.sightings, t.wants s.seq s.time = true → t.Follows s) ∧
      (∀ order out, ∀ r ∈ t.written order now out, ∃ s ∈ t.index.sightings, r = s.record now ∧
        ∃ e ∈ t.focus.pairs.entries, e.2.contains s.time = true ∧
          ∃ other, .ingest other ∈ calls ∧ other.seq = s.seq ∧ Touches e.1 other.flow) ∧
      ((∀ s other, .ingest s ∈ calls → .ingest other ∈ calls → s.seq = other.seq →
        SameEnds s.flow other.flow) → t.RecordsFollow now) := by
  intro t
  have hown := (agrees_run table clearCycle calls).own
  have hstems : Stems (fun s => .ingest s ∈ calls) t.index :=
    stems_run table stems_new fun _ hs => hs
  refine ⟨recordsFollow_iff_wants hown now, fun order out r hr => ?_, fun hsame => ?_⟩
  · obtain ⟨s, hs, hwants, rfl⟩ := wants_of_written hown hr
    exact ⟨s, hs, rfl, hstems.exists_of_wants hwants⟩
  · refine (recordsFollow_iff_wants hown now).2 fun s hs hwants => ?_
    obtain ⟨e, he, hin, other, hother, hseq, htouches⟩ := hstems.exists_of_wants hwants
    obtain ⟨⟨seq, s⟩, hfiled, rfl⟩ := List.mem_map.1 hs
    obtain ⟨own, hown', rfl⟩ := hstems.sighted _ hfiled
    exact ⟨e, he, hin, htouches.of_sameEnds (hsame other own hother hown' hseq)⟩

/-- A record that follows no pair in focus, because a number is shared: the segment from 3 to 4 is
outside the span of its own pair, but has the number of a segment from 1 to 2, and is written for
that pair. -/
theorem record_of_shared_number :
    let segment (a b : UInt32) (time : Nanos) : Segment :=
      { time, flow := ⟨⟨a⟩, ⟨b⟩, 1000, 80, 1⟩, seq := 7, ack := 0, flags := 16 }
    let calls : List Call := [.update ⟨1⟩ ⟨2⟩ ⟨0, 100⟩ .update, .update ⟨3⟩ ⟨4⟩ ⟨200, 300⟩ .update,
      .ingest (segment 1 2 10), .ingest (segment 3 4 50)]
    let t := run {} { clearCycle := 1000 } calls
    t.written .empty 60 { capacity := 8 } =
        [(segment 1 2 10).sighting.record 60, (segment 3 4 50).sighting.record 60] ∧
      ¬t.Follows (segment 3 4 50).sighting ∧ ¬t.RecordsFollow 60 := by
  intro segment calls t
  have hwritten : t.written .empty 60 { capacity := 8 } =
      [(segment 1 2 10).sighting.record 60, (segment 3 4 50).sighting.record 60] := by decide
  have hstray : ¬t.Follows (segment 3 4 50).sighting := by
    unfold Follows
    decide
  refine ⟨hwritten, hstray, fun h => ?_⟩
  obtain ⟨s, -, hfollows, he⟩ := h .empty { capacity := 8 }
    ((segment 3 4 50).sighting.record 60) (by rw [hwritten]; exact .tail _ (.head _))
  rw [record_injective 60 he] at hstray
  exact hstray hfollows

end FlowProbe.PathTracker
