import FlowProbe.Proofs.Path.Wanted

/-! What ageing does to what is wanted.

A poll delivers first and ages afterwards: old observations, old sightings and the pairs
whose span is over leave, whatever the output had room for. So what is wanted after a poll
is what outlasts it and was not delivered. A tracker is `Settled` at a time at which ageing
finds nothing to do. Every poll leaves its tracker settled (`settled_poll`), and a settled
tracker loses to a poll at the same time nothing but what the poll delivers
(`perm_wanted_poll`). -/
namespace FlowProbe.PathTracker
open PathIndex

/-! ### What a poll leaves -/

theorem pairs_poll (t : PathTracker) (now : Nanos) (out : Buffer) :
    (t.poll now out).state.focus.pairs.entries =
      t.focus.pairs.entries.filter fun e => now ≤ e.2.last :=
  t.focus.entries_expire now

theorem observations_poll (t : PathTracker) (now : Nanos) (out : Buffer) (ip : Ipv4) :
    (t.poll now out).state.index.observations ip =
      (t.index.observations ip).filter fun o => Nanos.elapsed o.time now ≤ t.clearCycle :=
  t.index.observations_prune t.clearCycle now ip

theorem filed_poll (t : PathTracker) (now : Nanos) (out : Buffer) :
    filed (t.poll now out).state.index.bySeq =
      (filed (t.query now out).state.index.bySeq).filter
        fun e => Nanos.elapsed e.2.time now ≤ t.clearCycle :=
  (t.query now out).state.index.filed_prune t.clearCycle now

/-- What is asked for after a poll: the pair and the observation that ask have outlasted it. -/
theorem wants_poll_iff {t : PathTracker} {now : Nanos} {out : Buffer} {seq : UInt32}
    {time : Nanos} :
    (t.poll now out).state.wants seq time = true ↔
      ∃ e ∈ t.focus.pairs.entries, now ≤ e.2.last ∧ e.2.contains time = true ∧
        ∃ ip ∈ e.1.ends, ∃ o ∈ t.index.observations ip,
          o.seq = seq ∧ Nanos.elapsed o.time now ≤ t.clearCycle := by
  rw [wants_iff, pairs_poll]
  simp only [observations_poll, List.mem_filter, decide_eq_true_eq]
  constructor
  · rintro ⟨e, ⟨he, hlast⟩, hin, ip, hip, o, ⟨ho, hfresh⟩, hseq⟩
    exact ⟨e, he, hlast, hin, ip, hip, o, ho, hseq, hfresh⟩
  · rintro ⟨e, he, hlast, hin, ip, hip, o, ho, hseq, hfresh⟩
    exact ⟨e, ⟨he, hlast⟩, hin, ip, hip, o, ⟨ho, hfresh⟩, hseq⟩

/-! ### Where there is nothing to age -/

/-- At `now` no span is over and nothing is older than a clear cycle. -/
structure Settled (t : PathTracker) (now : Nanos) : Prop where
  spans : ∀ e ∈ t.focus.pairs.entries, now ≤ e.2.last
  observations : ∀ ip, ∀ o ∈ t.index.observations ip, Nanos.elapsed o.time now ≤ t.clearCycle
  sightings : ∀ e ∈ filed t.index.bySeq, Nanos.elapsed e.2.time now ≤ t.clearCycle

theorem settled_new (clearCycle now : Nanos) : Settled { clearCycle } now :=
  ⟨nofun, nofun, nofun⟩

theorem settled_poll (t : PathTracker) (now : Nanos) (out : Buffer) :
    Settled (t.poll now out).state now := by
  refine ⟨fun e he => ?_, fun ip o ho => ?_, fun e he => ?_⟩
  · rw [pairs_poll] at he
    exact of_decide_eq_true (List.mem_filter.1 he).2
  · rw [observations_poll] at ho
    exact of_decide_eq_true (List.mem_filter.1 ho).2
  · rw [filed_poll] at he
    exact of_decide_eq_true (List.mem_filter.1 he).2

section Settled

variable {t : PathTracker} {now : Nanos} (h : Settled t now)
include h

theorem Settled.reorder (order : Keyed PodPair Span) : Settled (t.reorder order) now :=
  ⟨fun e he => h.spans e ((t.perm_reorder order).subset he), h.observations, h.sightings⟩

theorem Settled.wants_poll (out : Buffer) (seq : UInt32) (time : Nanos) :
    (t.poll now out).state.wants seq time = t.wants seq time := by
  rw [Bool.eq_iff_iff, wants_poll_iff, wants_iff]
  constructor
  · rintro ⟨e, he, -, hin, ip, hip, o, ho, hseq, -⟩
    exact ⟨e, he, hin, ip, hip, o, ho, hseq⟩
  · rintro ⟨e, he, hin, ip, hip, o, ho, hseq⟩
    exact ⟨e, he, h.spans e he, hin, ip, hip, o, ho, hseq, h.observations ip o ho⟩

/-- A poll of a settled tracker takes out what it delivers and keeps the rest of what is
wanted. -/
theorem Settled.perm_wanted_poll {out : Buffer} {delivered : List (UInt32 × Sighting)}
    (hd : Delivers t now out delivered (t.query now out)) :
    (delivered ++ (t.poll now out).state.wanted).Perm t.wanted := by
  have hkept : filed (t.poll now out).state.index.bySeq =
      filed (t.query now out).state.index.bySeq := by
    rw [filed_poll, List.filter_eq_self]
    intro e he
    exact decide_eq_true (h.sightings e (hd.parts.subset (List.mem_append_right _ he)))
  have hdelivered : delivered.filter (fun e => t.wants e.1 e.2.time) = delivered := by
    refine List.filter_eq_self.2 fun e he => ?_
    exact (List.mem_filter.1 (hd.wanted.subset he)).2
  have hparts := hd.parts.filter fun e => t.wants e.1 e.2.time
  rw [List.filter_append, hdelivered] at hparts
  rw [wanted, hkept]
  simp only [h.wants_poll out]
  exact hparts

end Settled

end FlowProbe.PathTracker
