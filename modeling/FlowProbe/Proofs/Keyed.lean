import FlowProbe.Keyed
import Mathlib.Data.List.Nodup

/-! Finite maps as collections of pairs.

A lookup says what one key holds; sums and counts over a map need the pairs as a whole. Up
to their order the pairs of a map are what a key holds and the pairs of all other keys, and
`alter` changes only the first part (`perm_entries`, `perm_alter`). Leaving a key out keeps
the order of the others (`entries_erase`), and putting a key's own value back changes
nothing (`insert_self`). A change at one key trades what it held for what it holds
(`perm_alter_own`). Maps with the same pairs are maps that hold the same at every key
(`same_iff`), so what is done to a key is done to both alike. No one may rely on the order of
a map that is walked: `reorder` gives the same map in any other order. -/
namespace FlowProbe.Keyed

universe u v w

variable {κ : Type u} {β : Type v} {γ : Type w}

/-- The pair of one key, if it is there. -/
def own (k : κ) (b : Option β) : List (κ × β) := b.toList.map fun b => (k, b)

@[simp] theorem own_none (k : κ) : own k (none : Option β) = [] := rfl

@[simp] theorem own_some (k : κ) (b : β) : own k (some b) = [(k, b)] := rfl

theorem mem_own {k : κ} {b : Option β} {e : κ × β} : e ∈ own k b ↔ e.1 = k ∧ b = some e.2 := by
  obtain ⟨j, c⟩ := e
  cases b with
  | none => simp
  | some b => simp [own_some, Prod.ext_iff, eq_comm]

/-- What is left of a map when every value may be dropped or changed. -/
theorem mem_mapMaybeEntries {f : κ → β → Option γ} {l : List (κ × β)} {k : κ} {c : γ} :
    (k, c) ∈ mapMaybeEntries f l ↔ ∃ b, (k, b) ∈ l ∧ f k b = some c := by
  rw [mapMaybeEntries, List.mem_filterMap]
  constructor
  · rintro ⟨⟨j, b⟩, hmem, hc⟩
    rw [Option.map_eq_some_iff] at hc
    obtain ⟨c', hc', he⟩ := hc
    cases he
    exact ⟨b, hmem, hc'⟩
  · rintro ⟨b, hmem, hc⟩
    exact ⟨(k, b), hmem, by simp [hc]⟩

variable [DecidableEq κ]

/-- The pairs of all keys but one, in their order. -/
def others (m : Keyed κ β) (k : κ) : List (κ × β) := m.entries.filter fun e => e.1 ≠ k

/-! ### Lookups and membership -/

theorem mem_entries_iff {m : Keyed κ β} {k : κ} {b : β} :
    (k, b) ∈ m.entries ↔ m.find? k = some b := by
  obtain ⟨l, hl⟩ := m
  show (k, b) ∈ l ↔ l.lookup k = some b
  induction l with
  | nil => simp
  | cons p rest ih =>
    obtain ⟨j, c⟩ := p
    rw [List.map_cons, List.nodup_cons] at hl
    rw [lookup_cons_eq, List.mem_cons, Prod.mk.injEq]
    by_cases hk : k = j
    · subst hk
      have habsent : (k, b) ∉ rest := fun h => hl.1 (List.mem_map.2 ⟨(k, b), h, rfl⟩)
      simp [habsent, eq_comm]
    · simp [hk, ih hl.2]

theorem mem_others {m : Keyed κ β} {k : κ} {e : κ × β} :
    e ∈ m.others k ↔ e.1 ≠ k ∧ m.find? e.1 = some e.2 := by
  rw [others, List.mem_filter, decide_eq_true_eq, ← mem_entries_iff, and_comm]

/-! ### One key and the others -/

theorem filter_alterEntries (k : κ) (f : Option β → Option β) (l : List (κ × β)) :
    (alterEntries k f l).filter (fun e => e.1 ≠ k) = l.filter fun e => e.1 ≠ k := by
  induction l with
  | nil =>
    rw [alterEntries]
    cases f none <;> simp
  | cons p rest ih =>
    obtain ⟨j, b⟩ := p
    rw [alterEntries]
    split
    · next hj => cases f (some b) <;> simp [hj]
    · next hj => simpa [hj] using ih

@[simp] theorem others_alter (m : Keyed κ β) (k : κ) (f : Option β → Option β) :
    (m.alter k f).others k = m.others k :=
  filter_alterEntries k f m.entries

/-- A map is what a key holds, and the other keys. -/
theorem perm_entries (m : Keyed κ β) (k : κ) :
    m.entries.Perm (own k (m.find? k) ++ m.others k) := by
  refine (List.perm_ext_iff_of_nodup (List.Nodup.of_map Prod.fst m.distinct) ?_).2 fun e => ?_
  · refine List.Nodup.append ?_ ((List.Nodup.of_map Prod.fst m.distinct).filter _) fun e h₁ h₂ => ?_
    · cases m.find? k <;> simp
    · exact (mem_others.1 h₂).1 (mem_own.1 h₁).1
  · obtain ⟨j, b⟩ := e
    rw [List.mem_append, mem_entries_iff, mem_own, mem_others]
    by_cases hj : j = k
    · simp [hj]
    · simp [hj]

theorem perm_alter (m : Keyed κ β) (k : κ) (f : Option β → Option β) :
    (m.alter k f).entries.Perm (own k (f (m.find? k)) ++ m.others k) := by
  have h := (m.alter k f).perm_entries k
  rwa [find?_alter, if_pos rfl, others_alter] at h

/-- A change at one key trades what it held for what it holds. -/
theorem perm_alter_own (m : Keyed κ β) (k : κ) (f : Option β → Option β) :
    ((m.alter k f).entries ++ own k (m.find? k)).Perm (m.entries ++ own k (f (m.find? k))) := by
  have hafter := (m.perm_alter k f).append_right (own k (m.find? k))
  have hbefore := (m.perm_entries k).append_right (own k (f (m.find? k)))
  refine hafter.trans (.trans ?_ hbefore.symm)
  rw [List.append_assoc]
  exact List.perm_append_comm.trans (List.perm_append_comm.append_right _)

theorem others_eq_entries {m : Keyed κ β} {k : κ} (h : m.find? k = none) :
    m.others k = m.entries := by
  rw [others, List.filter_eq_self]
  intro e he
  rw [decide_eq_true_eq]
  intro hk
  have hfind := mem_entries_iff.1 (show (e.1, e.2) ∈ m.entries from he)
  rw [hk, h] at hfind
  cases hfind

theorem entries_erase (m : Keyed κ β) (k : κ) : (m.erase k).entries = m.others k := by
  have h : (m.erase k).find? k = none := by simp
  rw [← others_eq_entries h, erase, others_alter]

theorem alterEntries_self {k : κ} {f : Option β → Option β} {l : List (κ × β)}
    (h : f (l.lookup k) = l.lookup k) : alterEntries k f l = l := by
  induction l with
  | nil =>
    rw [alterEntries, show f none = none from h]
  | cons p rest ih =>
    obtain ⟨j, b⟩ := p
    rw [lookup_cons_eq] at h
    rw [alterEntries]
    by_cases hj : j = k
    · subst hj
      rw [if_pos rfl] at h ⊢
      rw [h]
    · rw [if_neg (Ne.symm hj)] at h
      rw [if_neg hj, ih h]

/-- What a key holds already can be put back without a change. -/
theorem insert_self {m : Keyed κ β} {k : κ} {b : β} (h : m.find? k = some b) :
    m.insert k b = m :=
  ext (alterEntries_self (by rw [← find?, h]))

/-- What every key holds when many keys were given the same value. -/
theorem find?_foldl_insert (m : Keyed κ β) (keys : List κ) (b : β) (k : κ) :
    (keys.foldl (fun m k => m.insert k b) m).find? k = if k ∈ keys then some b else m.find? k := by
  induction keys generalizing m with
  | nil => rfl
  | cons j keys ih =>
    rw [List.foldl_cons, ih, find?_insert]
    by_cases hj : k = j <;> by_cases hkeys : k ∈ keys <;> simp [hj, hkeys]

theorem find?_mapMaybe (m : Keyed κ β) (f : κ → β → Option γ) (k : κ) :
    (m.mapMaybe f).find? k = (m.find? k).bind (f k) := by
  refine Option.ext fun c => ?_
  rw [← mem_entries_iff, mapMaybe, mem_mapMaybeEntries, Option.bind_eq_some_iff]
  simp only [mem_entries_iff]

theorem find?_filter (m : Keyed κ β) (p : κ → β → Bool) (k : κ) :
    (m.filter p).find? k = (m.find? k).filter (p k) := by
  rw [filter, find?_mapMaybe]
  cases m.find? k <;> rfl

omit [DecidableEq κ] in
theorem entries_filter (m : Keyed κ β) (p : κ → β → Bool) :
    (m.filter p).entries = m.entries.filter fun e => p e.1 e.2 := by
  rw [← List.filterMap_eq_filter]
  refine List.filterMap_congr fun e _ => ?_
  cases h : p e.1 e.2 <;> simp [h, Option.guard]

/-- Of the pairs of a map, those of one key are its own. -/
theorem filter_entries (m : Keyed κ β) (k : κ) :
    (m.entries.filter fun e => e.1 = k) = own k (m.find? k) := by
  have hothers : (m.others k).filter (fun e => e.1 = k) = [] := by
    refine List.filter_eq_nil_iff.2 fun e he => ?_
    rw [decide_eq_true_eq]
    exact (mem_others.1 he).1
  have hown : (own k (m.find? k)).filter (fun e => e.1 = k) = own k (m.find? k) :=
    List.filter_eq_self.2 fun e he => decide_eq_true (mem_own.1 he).1
  have hperm := (m.perm_entries k).filter fun e => e.1 = k
  rw [List.filter_append, hothers, hown, List.append_nil] at hperm
  cases hfind : m.find? k with
  | none =>
    rw [hfind] at hperm
    exact hperm.eq_nil
  | some b =>
    rw [hfind] at hperm
    exact List.perm_singleton.1 hperm

/-! ### The same pairs -/

omit [DecidableEq κ] in
/-- Both maps have the same pairs, in any order. -/
def Same (m n : Keyed κ β) : Prop := m.entries.Perm n.entries

theorem same_iff {m n : Keyed κ β} : m.Same n ↔ ∀ k, m.find? k = n.find? k := by
  constructor
  · intro h k
    refine Option.ext fun b => ?_
    rw [← mem_entries_iff, ← mem_entries_iff]
    exact h.mem_iff
  · intro h
    refine (List.perm_ext_iff_of_nodup (m.distinct.of_map _) (n.distinct.of_map _)).2 fun e => ?_
    obtain ⟨k, b⟩ := e
    rw [mem_entries_iff, mem_entries_iff, h k]

section Same

variable {m n : Keyed κ β} (h : m.Same n)
include h

omit [DecidableEq κ] in
theorem Same.size : m.size = n.size := List.Perm.length_eq h

omit [DecidableEq κ] in
theorem Same.mapMaybe (f : κ → β → Option γ) : (m.mapMaybe f).Same (n.mapMaybe f) :=
  List.Perm.filterMap _ h

omit [DecidableEq κ] in
theorem Same.filter (p : κ → β → Bool) : (m.filter p).Same (n.filter p) := h.mapMaybe _

theorem Same.find? (k : κ) : m.find? k = n.find? k := same_iff.1 h k

theorem Same.contains (k : κ) : m.contains k = n.contains k := congrArg Option.isSome (h.find? k)

theorem Same.alter (k : κ) (f : Option β → Option β) : (m.alter k f).Same (n.alter k f) := by
  refine same_iff.2 fun k' => ?_
  rw [find?_alter, find?_alter, h.find? k, h.find? k']

theorem Same.insert (k : κ) (b : β) : (m.insert k b).Same (n.insert k b) := h.alter k _

theorem Same.erase (k : κ) : (m.erase k).Same (n.erase k) := h.alter k _

end Same

/-! ### Other orders -/

section Reorder

variable [DecidableEq β] (m order : Keyed κ β)

/-- The same map in another order. One that does not hold the same pairs changes nothing. -/
def reorder : Keyed κ β := if order.entries.isPerm m.entries then order else m

theorem perm_reorder : (m.reorder order).entries.Perm m.entries := by
  rw [reorder]
  split
  · next h => exact List.isPerm_iff.1 h
  · exact .refl _

@[simp] theorem reorder_empty : m.reorder .empty = m := by
  rw [reorder]
  split
  · next h => exact ext (List.isPerm_iff.1 h).nil_eq
  · rfl

end Reorder

end FlowProbe.Keyed
