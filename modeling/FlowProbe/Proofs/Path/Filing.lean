import FlowProbe.Proofs.Keyed
import FlowProbe.Path.Index
import Mathlib.Data.List.Perm.Basic

/-! What the two indexes hold.

Both indexes file lists under keys. `listed` is what is filed under one key, nothing if the
key is not there, and `Tidy` says that no empty list is stored. The sequence index is also
seen as one collection: `filed` has every sighting together with the number it is filed
under. Adding a segment puts one sighting into it, putting a bucket back replaces the
bucket's own part, and pruning filters it. -/
namespace FlowProbe

/-- A segment as its sequence number will remember it. -/
def Segment.sighting (s : Segment) : Sighting := ⟨s.flow, s.seq, s.time⟩

namespace PathIndex

/-! ### Lists under keys -/

section Lists

variable {κ α : Type}

/-- No key holds an empty list. -/
def Tidy [DecidableEq κ] (m : Keyed κ (List α)) : Prop := ∀ k l, m.find? k = some l → l ≠ []

variable [DecidableEq κ]

/-- What is filed under a key. -/
def listed (m : Keyed κ (List α)) (k : κ) : List α := (m.find? k).getD []

theorem listed_of_find? {m : Keyed κ (List α)} {k : κ} {l : List α} (h : m.find? k = some l) :
    listed m k = l := by
  rw [listed, h, Option.getD_some]

theorem listed_push (m : Keyed κ (List α)) (k : κ) (a : α) (k' : κ) :
    listed (push m k a) k' = if k' = k then listed m k ++ [a] else listed m k' := by
  rw [listed, push, Keyed.find?_alter]
  split
  · rfl
  · rfl

theorem tidy_push {m : Keyed κ (List α)} (h : Tidy m) (k : κ) (a : α) : Tidy (push m k a) := by
  intro k' l hl
  rw [push, Keyed.find?_alter] at hl
  split at hl
  · cases hl
    simp
  · exact h k' l hl

theorem find?_retain (m : Keyed κ (List α)) (keep : α → Bool) (k : κ) :
    (retain m keep).find? k = (m.find? k).bind fun l =>
      match l.filter keep with
      | [] => none
      | kept => some kept :=
  m.find?_mapMaybe _ k

theorem listed_retain (m : Keyed κ (List α)) (keep : α → Bool) (k : κ) :
    listed (retain m keep) k = (listed m k).filter keep := by
  rw [listed, find?_retain, listed]
  cases m.find? k with
  | none => rfl
  | some l =>
    rw [Option.bind_some, Option.getD_some]
    split
    · next h => rw [h, Option.getD_none]
    · rfl

theorem tidy_retain (m : Keyed κ (List α)) (keep : α → Bool) : Tidy (retain m keep) := by
  intro k l hl
  rw [find?_retain, Option.bind_eq_some_iff] at hl
  obtain ⟨l', -, hl⟩ := hl
  split at hl
  · cases hl
  · next h =>
    cases hl
    exact h

/-- Letting go of elements that are not there changes nothing. -/
theorem retain_eq_self {m : Keyed κ (List α)} {keep : α → Bool} (htidy : Tidy m)
    (h : ∀ k, ∀ a ∈ listed m k, keep a = true) : retain m keep = m := by
  refine Keyed.ext ?_
  unfold retain Keyed.mapMaybe
  have hall : ∀ e ∈ m.entries, e.2.filter keep = e.2 ∧ e.2 ≠ [] := by
    intro e he
    have hfind := Keyed.mem_entries_iff.1 (show (e.1, e.2) ∈ m.entries from he)
    refine ⟨List.filter_eq_self.2 fun a ha => h e.1 a ?_, htidy e.1 e.2 hfind⟩
    rw [listed_of_find? hfind]
    exact ha
  refine (List.filterMap_congr fun e he => ?_).trans List.filterMap_some
  obtain ⟨k, l⟩ := e
  obtain ⟨hfilter, hne⟩ := hall (k, l) he
  cases l with
  | nil => exact absurd rfl hne
  | cons a l => simp only [hfilter, Option.map_some]

theorem retain_idem (m : Keyed κ (List α)) (keep : α → Bool) :
    retain (retain m keep) keep = retain m keep := by
  refine retain_eq_self (tidy_retain m keep) fun k a ha => ?_
  rw [listed_retain] at ha
  exact (List.mem_filter.1 ha).2

end Lists

/-! ### The sequence index as one collection -/

/-- The sightings of a list of buckets, each with the number of its bucket. -/
def spread (l : List (UInt32 × List Sighting)) : List (UInt32 × Sighting) :=
  l.flatMap fun e => e.2.map fun s => (e.1, s)

/-- Every sighting held, with the number it is filed under. -/
def filed (buckets : SeqBuckets) : List (UInt32 × Sighting) := spread buckets.entries

/-- Every sighting held. -/
def sightings (i : PathIndex) : List Sighting := (filed i.bySeq).map Prod.snd

theorem mem_filed {buckets : SeqBuckets} {e : UInt32 × Sighting} :
    e ∈ filed buckets ↔ e.2 ∈ listed buckets e.1 := by
  obtain ⟨seq, s⟩ := e
  rw [filed, spread, List.mem_flatMap, listed]
  constructor
  · rintro ⟨⟨seq', bucket⟩, hmem, hs⟩
    obtain ⟨s', hs', he⟩ := List.mem_map.1 hs
    cases he
    rw [Keyed.mem_entries_iff.1 hmem]
    exact hs'
  · intro hs
    cases hfind : buckets.find? seq with
    | none =>
      rw [hfind] at hs
      exact absurd hs List.not_mem_nil
    | some bucket =>
      rw [hfind] at hs
      exact ⟨(seq, bucket), Keyed.mem_entries_iff.2 hfind, List.mem_map.2 ⟨s, hs, rfl⟩⟩

theorem spread_own (seq : UInt32) (bucket : Option (List Sighting)) :
    spread (Keyed.own seq bucket) = (bucket.getD []).map fun s => (seq, s) := by
  cases bucket with
  | none => rfl
  | some bucket => simp [spread]

theorem perm_filed_of_perm {buckets : SeqBuckets} {seq : UInt32} {bucket : Option (List Sighting)}
    {rest : List (UInt32 × List Sighting)}
    (h : buckets.entries.Perm (Keyed.own seq bucket ++ rest)) :
    (filed buckets).Perm ((bucket.getD []).map (fun s => (seq, s)) ++ spread rest) := by
  have hspread := h.flatMap_right fun e => e.2.map fun s => (e.1, s)
  rw [List.flatMap_append] at hspread
  rw [← spread_own]
  exact hspread

/-- What is held is what one bucket holds, and the other buckets. -/
theorem perm_filed (buckets : SeqBuckets) (seq : UInt32) :
    (filed buckets).Perm
      ((listed buckets seq).map (fun s => (seq, s)) ++ spread (buckets.others seq)) :=
  perm_filed_of_perm (buckets.perm_entries seq)

theorem perm_filed_push (buckets : SeqBuckets) (seq : UInt32) (s : Sighting) :
    (filed (push buckets seq s)).Perm (filed buckets ++ [(seq, s)]) := by
  refine (perm_filed_of_perm (buckets.perm_alter seq _)).trans ?_
  rw [Option.getD_some, List.map_append, List.append_assoc]
  refine (List.Perm.append_left _ List.perm_append_comm).trans ?_
  rw [← List.append_assoc]
  exact (perm_filed buckets seq).symm.append_right _

theorem find?_putBack (buckets : SeqBuckets) (seq : UInt32) (kept : List Sighting)
    (seq' : UInt32) :
    (putBack buckets seq kept).find? seq' =
      if seq' = seq then (if kept = [] then none else some kept) else buckets.find? seq' := by
  cases kept with
  | nil => simp [putBack]
  | cons s kept => simp [putBack]

theorem listed_putBack (buckets : SeqBuckets) (seq : UInt32) (kept : List Sighting)
    (seq' : UInt32) :
    listed (putBack buckets seq kept) seq' = if seq' = seq then kept else listed buckets seq' := by
  rw [listed, find?_putBack]
  split
  · split
    · next h => rw [h, Option.getD_none]
    · rfl
  · rfl

theorem tidy_putBack {buckets : SeqBuckets} (h : Tidy buckets) (seq : UInt32)
    (kept : List Sighting) : Tidy (putBack buckets seq kept) := by
  intro seq' bucket hfind
  rw [find?_putBack] at hfind
  split at hfind
  · split at hfind
    · cases hfind
    · next hne =>
      cases hfind
      exact hne
  · exact h seq' bucket hfind

theorem perm_filed_putBack (buckets : SeqBuckets) (seq : UInt32) (kept : List Sighting) :
    (filed (putBack buckets seq kept)).Perm
      (kept.map (fun s => (seq, s)) ++ spread (buckets.others seq)) := by
  have hothers : (putBack buckets seq kept).others seq = buckets.others seq := by
    cases kept with
    | nil => exact buckets.others_alter seq _
    | cons s kept => exact buckets.others_alter seq _
  have h := perm_filed (putBack buckets seq kept) seq
  rw [listed_putBack, if_pos rfl, hothers] at h
  exact h

theorem filed_retain (buckets : SeqBuckets) (keep : Sighting → Bool) :
    filed (retain buckets keep) = (filed buckets).filter fun e => keep e.2 := by
  obtain ⟨entries, distinct⟩ := buckets
  unfold retain Keyed.mapMaybe filed
  simp only
  clear distinct
  induction entries with
  | nil => rfl
  | cons e rest ih =>
    obtain ⟨seq, bucket⟩ := e
    have hbucket : (bucket.map fun s => (seq, s)).filter (fun e => keep e.2) =
        (bucket.filter keep).map fun s => (seq, s) := by
      rw [List.filter_map]
      rfl
    simp only [Keyed.mapMaybeEntries, spread, List.flatMap_cons, List.filter_append,
      hbucket] at ih ⊢
    rw [← ih]
    cases hkept : bucket.filter keep with
    | nil => simp [hkept]
    | cons s kept => simp [hkept]

theorem length_filed (buckets : SeqBuckets) :
    (filed buckets).length = buckets.total List.length := by
  obtain ⟨entries, distinct⟩ := buckets
  show (spread entries).length = Keyed.totalEntries List.length entries
  clear distinct
  induction entries with
  | nil => rfl
  | cons e rest ih =>
    rw [Keyed.totalEntries, ← ih]
    simp [spread]

theorem length_sightings (i : PathIndex) : i.sightings.length = i.size := by
  rw [sightings, List.length_map, length_filed, size]

/-! ### Adding and ageing -/

theorem perm_filed_add (i : PathIndex) (s : Segment) :
    (filed (i.add s).bySeq).Perm (filed i.bySeq ++ [(s.seq, s.sighting)]) :=
  perm_filed_push i.bySeq s.seq s.sighting

theorem perm_sightings_add (i : PathIndex) (s : Segment) :
    (i.add s).sightings.Perm (i.sightings ++ [s.sighting]) := by
  have h := (i.perm_filed_add s).map Prod.snd
  rw [List.map_append] at h
  exact h

theorem observations_prune (i : PathIndex) (horizon now : Nanos) (ip : Ipv4) :
    (i.prune horizon now).observations ip =
      (i.observations ip).filter fun o => Nanos.elapsed o.time now ≤ horizon :=
  listed_retain i.byAddress _ ip

theorem filed_prune (i : PathIndex) (horizon now : Nanos) :
    filed (i.prune horizon now).bySeq =
      (filed i.bySeq).filter fun e => Nanos.elapsed e.2.time now ≤ horizon :=
  filed_retain i.bySeq _

theorem sightings_prune (i : PathIndex) (horizon now : Nanos) :
    (i.prune horizon now).sightings =
      i.sightings.filter fun s => Nanos.elapsed s.time now ≤ horizon := by
  rw [sightings, filed_prune, sightings, List.filter_map]
  rfl

/-- Pruned lists are pruned: at the same time there is nothing more to let go of. -/
theorem prune_idem (i : PathIndex) (horizon now : Nanos) :
    (i.prune horizon now).prune horizon now = i.prune horizon now := by
  rw [prune, prune, retain_idem, retain_idem]

end PathIndex
end FlowProbe
