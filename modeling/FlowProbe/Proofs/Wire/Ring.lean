import FlowProbe.Wire.Ring

/-! The walk through a ring.

The walk stops where the cursors meet and tests nothing else, so how long it is and which slots
it visits follow from the way that is left. It visits as many slots as lie between the cursors
(`length_items`), and the one it visits at step `i` is `i` places behind the head, around the
end of the row (`getElem?_items`). A ring `Holds` a list if this is what stands in those slots,
whatever the others hold, and then the walk is that list (`items_of_holds`). -/
namespace FlowProbe.Ring

variable {α : Type} (r : Ring α)

theorem distance_tail : r.distance r.tail = 0 := by
  rw [r.distance_eq r.tail_lt, if_pos (Nat.le_refl _), Nat.sub_self]

theorem length_itemsFrom (pos : Nat) (h : pos < r.slots.length) :
    (r.itemsFrom pos h).length = r.distance pos := by
  fun_induction itemsFrom r pos h with
  | case1 h => rw [distance_tail, List.length_nil]
  | case2 pos h hne _ ih => rw [List.length_cons, ih, r.distance_next h hne]

theorem getElem?_itemsFrom {pos : Nat} (h : pos < r.slots.length) {i : Nat}
    (hi : i < r.distance pos) :
    (r.itemsFrom pos h)[i]? = r.slots[(pos + i) % r.capacity]? := by
  fun_induction itemsFrom r pos h generalizing i with
  | case1 h =>
    rw [distance_tail] at hi
    exact absurd hi (Nat.not_lt_zero i)
  | case2 pos h hne _ ih =>
    cases i with
    | zero =>
      rw [List.getElem?_cons_zero, Nat.add_zero, capacity, Nat.mod_eq_of_lt h,
        List.getElem?_eq_getElem h]
    | succ i =>
      have hnext := r.distance_next h hne
      have hrest : i < r.distance (r.next pos) := by omega
      rw [List.getElem?_cons_succ, ih hrest, next, Nat.mod_add_mod, Nat.add_assoc, Nat.add_comm 1]

theorem length_items : r.items.length = r.size := r.length_itemsFrom r.head r.head_lt

theorem getElem?_items {i : Nat} (hi : i < r.size) :
    r.items[i]? = r.slots[(r.head + i) % r.capacity]? :=
  r.getElem?_itemsFrom r.head_lt hi

/-- What stands in the slots from the head up to the tail, in their order. -/
structure Holds (l : List α) : Prop where
  size : r.size = l.length
  slots : ∀ i < l.length, r.slots[(r.head + i) % r.capacity]? = l[i]?

/-- Around the end of the row. -/
example : (⟨["c", "x", "a", "b"], 2, 1, by decide, by decide⟩ : Ring String).Holds ["a", "b", "c"] :=
  ⟨by decide, by decide⟩

theorem items_of_holds {r : Ring α} {l : List α} (h : r.Holds l) : r.items = l := by
  refine List.ext_getElem? fun i => ?_
  have hlength : r.items.length = l.length := r.length_items.trans h.size
  by_cases hi : i < l.length
  · rw [r.getElem?_items (h.size.symm ▸ hi), h.slots i hi]
  · rw [List.getElem?_eq_none (by omega), List.getElem?_eq_none (by omega)]

end FlowProbe.Ring
