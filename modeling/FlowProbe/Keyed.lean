/-! Finite maps with a visible order.

A `Keyed κ β` is a list of pairs whose keys are distinct, in the order the keys came in.
`alter` is the one operation that changes what a key holds, and `find?_alter` says what
every key holds afterwards: `insert` and `erase` are instances of it. `mapMaybe` keeps
and changes values one by one, `drop` leaves out the first pairs, and both keep the
keys distinct. A statement that must not depend on the order is a statement about all
maps with the same pairs. -/
namespace FlowProbe

universe u v w

/-- Pairs with distinct keys. -/
structure Keyed (κ : Type u) (β : Type v) where
  entries : List (κ × β)
  distinct : (entries.map Prod.fst).Nodup
  deriving DecidableEq, Repr

namespace Keyed

variable {κ : Type u} {β : Type v} {γ : Type w}

@[ext] theorem ext {m n : Keyed κ β} (h : m.entries = n.entries) : m = n := by
  cases m
  cases n
  cases h
  rfl

def empty : Keyed κ β := ⟨[], List.nodup_nil⟩

instance : Inhabited (Keyed κ β) := ⟨empty⟩

instance : EmptyCollection (Keyed κ β) := ⟨empty⟩

def keys (m : Keyed κ β) : List κ := m.entries.map Prod.fst

def values (m : Keyed κ β) : List β := m.entries.map Prod.snd

def size (m : Keyed κ β) : Nat := m.entries.length

def isEmpty (m : Keyed κ β) : Bool := m.entries.isEmpty

/-- Leaves out the first `n` pairs. -/
def drop (m : Keyed κ β) (n : Nat) : Keyed κ β :=
  ⟨m.entries.drop n, by
    rw [List.map_drop]
    exact List.Pairwise.drop m.distinct⟩

@[simp] theorem size_drop (m : Keyed κ β) (n : Nat) : (m.drop n).size = m.size - n := by
  simp [drop, size]

/-- The sum of what the values of a list weigh. -/
def totalEntries (weigh : β → Nat) : List (κ × β) → Nat
  | [] => 0
  | (_, b) :: rest => weigh b + totalEntries weigh rest

/-- The sum of what the values weigh. -/
def total (weigh : β → Nat) (m : Keyed κ β) : Nat := totalEntries weigh m.entries

/-! ### Changing every value -/

/-- The pairs whose value `f` keeps, with the value it gives. -/
def mapMaybeEntries (f : κ → β → Option γ) (l : List (κ × β)) : List (κ × γ) :=
  l.filterMap fun (k, b) => (f k b).map fun c => (k, c)

theorem keys_mapMaybeEntries (f : κ → β → Option γ) (l : List (κ × β)) :
    ((mapMaybeEntries f l).map Prod.fst).Sublist (l.map Prod.fst) := by
  induction l with
  | nil => exact .slnil
  | cons p rest ih =>
    obtain ⟨k, b⟩ := p
    cases h : f k b with
    | none => simpa [mapMaybeEntries, h] using ih.cons k
    | some c => simpa [mapMaybeEntries, h] using ih.cons_cons k

/-- Changes every value, or lets go of its key. -/
def mapMaybe (f : κ → β → Option γ) (m : Keyed κ β) : Keyed κ γ :=
  ⟨mapMaybeEntries f m.entries, m.distinct.sublist (keys_mapMaybeEntries f m.entries)⟩

/-- The pairs that satisfy `p`. -/
def filter (p : κ → β → Bool) (m : Keyed κ β) : Keyed κ β :=
  m.mapMaybe fun k b => if p k b then some b else none

/-! ### One key -/

section One

variable [DecidableEq κ]

/-- Gives `k` what `f` makes of its present value. A new key goes to the end. -/
def alterEntries (k : κ) (f : Option β → Option β) : List (κ × β) → List (κ × β)
  | [] =>
    match f none with
    | none => []
    | some b => [(k, b)]
  | (k', b) :: rest =>
    if k' = k then
      match f (some b) with
      | none => rest
      | some b' => (k, b') :: rest
    else (k', b) :: alterEntries k f rest

theorem mem_keys_alterEntries {k : κ} {f : Option β → Option β} {l : List (κ × β)} {k' : κ}
    (h : k' ∈ (alterEntries k f l).map Prod.fst) : k' = k ∨ k' ∈ l.map Prod.fst := by
  induction l with
  | nil =>
    rw [alterEntries] at h
    split at h <;> simp_all
  | cons p rest ih =>
    obtain ⟨j, b⟩ := p
    rw [alterEntries] at h
    split at h
    · split at h <;> simp_all
    · simp only [List.map_cons, List.mem_cons] at h ⊢
      rcases h with rfl | h
      · exact .inr (.inl rfl)
      · rcases ih h with rfl | h
        · exact .inl rfl
        · exact .inr (.inr h)

theorem distinct_alterEntries (k : κ) (f : Option β → Option β) {l : List (κ × β)}
    (h : (l.map Prod.fst).Nodup) : ((alterEntries k f l).map Prod.fst).Nodup := by
  induction l with
  | nil =>
    rw [alterEntries]
    split <;> simp
  | cons p rest ih =>
    obtain ⟨j, b⟩ := p
    rw [List.map_cons, List.nodup_cons] at h
    rw [alterEntries]
    split
    · next hj =>
      subst hj
      split
      · exact h.2
      · exact List.nodup_cons.2 h
    · next hj =>
      refine List.nodup_cons.2 ⟨fun hm => ?_, ih h.2⟩
      rcases mem_keys_alterEntries hm with rfl | hm
      · exact hj rfl
      · exact h.1 hm

/-- Gives `k` what `f` makes of its present value, `none` standing for absence. -/
def alter (m : Keyed κ β) (k : κ) (f : Option β → Option β) : Keyed κ β :=
  ⟨alterEntries k f m.entries, distinct_alterEntries k f m.distinct⟩

def find? (m : Keyed κ β) (k : κ) : Option β := m.entries.lookup k

def contains (m : Keyed κ β) (k : κ) : Bool := (m.find? k).isSome

def insert (m : Keyed κ β) (k : κ) (b : β) : Keyed κ β := m.alter k fun _ => some b

def erase (m : Keyed κ β) (k : κ) : Keyed κ β := m.alter k fun _ => none

@[simp] theorem find?_empty (k : κ) : (empty : Keyed κ β).find? k = none := rfl

theorem lookup_cons_eq (k j : κ) (b : β) (rest : List (κ × β)) :
    ((j, b) :: rest).lookup k = if k = j then some b else rest.lookup k := by
  by_cases h : k = j
  · simp [h]
  · have hb : (k == j) = false := by simpa using h
    simp [List.lookup_cons, hb, h]

theorem lookup_eq_none {k : κ} {l : List (κ × β)} (h : k ∉ l.map Prod.fst) :
    l.lookup k = none := by
  induction l with
  | nil => rfl
  | cons p rest ih =>
    obtain ⟨j, b⟩ := p
    rw [List.map_cons, List.mem_cons, not_or] at h
    rw [lookup_cons_eq, if_neg h.1, ih h.2]

theorem lookup_alterEntries (k : κ) (f : Option β → Option β) {l : List (κ × β)}
    (h : (l.map Prod.fst).Nodup) (k' : κ) :
    (alterEntries k f l).lookup k' = if k' = k then f (l.lookup k) else l.lookup k' := by
  induction l with
  | nil =>
    rw [alterEntries]
    cases hf : f none with
    | none => simp [hf]
    | some b => simp [lookup_cons_eq, hf]
  | cons p rest ih =>
    obtain ⟨j, b⟩ := p
    rw [List.map_cons, List.nodup_cons] at h
    rw [alterEntries]
    by_cases hj : j = k
    · subst hj
      rw [if_pos rfl, lookup_cons_eq j, if_pos rfl]
      cases hf : f (some b) with
      | none => by_cases hk : k' = j <;> simp [lookup_cons_eq, hk, lookup_eq_none h.1]
      | some b' => by_cases hk : k' = j <;> simp [lookup_cons_eq, hk]
    · rw [if_neg hj, lookup_cons_eq, ih h.2, lookup_cons_eq, lookup_cons_eq,
        if_neg (fun he : k = j => hj he.symm)]
      by_cases hk : k' = k
      · subst hk
        rw [if_neg (fun he : k' = j => hj he.symm), if_pos rfl, if_pos rfl]
      · rw [if_neg hk, if_neg hk]

/-- What every key holds after `alter`. -/
theorem find?_alter (m : Keyed κ β) (k : κ) (f : Option β → Option β) (k' : κ) :
    (m.alter k f).find? k' = if k' = k then f (m.find? k) else m.find? k' :=
  lookup_alterEntries k f m.distinct k'

@[simp] theorem find?_insert (m : Keyed κ β) (k : κ) (b : β) (k' : κ) :
    (m.insert k b).find? k' = if k' = k then some b else m.find? k' :=
  m.find?_alter k _ k'

@[simp] theorem find?_erase (m : Keyed κ β) (k k' : κ) :
    (m.erase k).find? k' = if k' = k then none else m.find? k' :=
  m.find?_alter k _ k'

/-! ### Sizes -/

theorem isSome_lookup_iff {k : κ} {l : List (κ × β)} :
    (l.lookup k).isSome = true ↔ k ∈ l.map Prod.fst := by
  induction l with
  | nil => simp
  | cons p rest ih =>
    obtain ⟨j, b⟩ := p
    rw [lookup_cons_eq, List.map_cons, List.mem_cons]
    by_cases hk : k = j
    · simp [hk]
    · rw [if_neg hk, ih]
      simp [hk]

theorem contains_iff {m : Keyed κ β} {k : κ} : m.contains k = true ↔ k ∈ m.keys :=
  isSome_lookup_iff

theorem length_eraseEntries (k : κ) (l : List (κ × β)) :
    (alterEntries k (fun _ => none) l).length ≤ l.length ∧
      (k ∈ l.map Prod.fst → (alterEntries k (fun _ => none) l).length < l.length) := by
  induction l with
  | nil => simp [alterEntries]
  | cons p rest ih =>
    obtain ⟨j, b⟩ := p
    rw [alterEntries]
    by_cases hj : j = k
    · simp [hj]
    · have hk : ¬k = j := fun he => hj he.symm
      rw [if_neg hj]
      refine ⟨Nat.succ_le_succ ih.1, fun h => Nat.succ_lt_succ (ih.2 ?_)⟩
      simpa [hk] using h

theorem size_erase_le (m : Keyed κ β) (k : κ) : (m.erase k).size ≤ m.size :=
  (length_eraseEntries k m.entries).1

theorem size_erase_lt {m : Keyed κ β} {k : κ} (h : k ∈ m.keys) : (m.erase k).size < m.size :=
  (length_eraseEntries k m.entries).2 h

end One

end Keyed

end FlowProbe
