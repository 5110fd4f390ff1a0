import FlowProbe.Text.Blank

/-! What is left of a text without the blanks at its ends.

A text that neither starts nor ends with a blank is what is left of it between blanks
(`trim_append`). The first character that is left is the first that is no blank (`head?_trim`). -/
namespace FlowProbe.Blank

theorem trim_append {front body back : List Char} (hfront : ∀ c ∈ front, isBlank c = true)
    (hback : ∀ c ∈ back, isBlank c = true) (hhead : ∀ c ∈ body.head?, isBlank c = false)
    (hlast : ∀ c ∈ body.getLast?, isBlank c = false) (hbody : body ≠ []) :
    trim (front ++ body ++ back) = body := by
  have hstart : (body ++ back).dropWhile isBlank = body ++ back := by
    obtain ⟨c, cs, rfl⟩ := List.exists_cons_of_ne_nil hbody
    exact List.dropWhile_cons_of_neg (by simp [hhead c rfl])
  have hend : body.reverse.dropWhile isBlank = body.reverse := by
    obtain ⟨c, cs, hcs⟩ := List.exists_cons_of_ne_nil (mt List.reverse_eq_nil_iff.1 hbody)
    have hc : isBlank c = false := hlast c (by rw [← List.head?_reverse, hcs]; rfl)
    rw [hcs]
    exact List.dropWhile_cons_of_neg (by simp [hc])
  have hblank : ∀ c ∈ back.reverse, isBlank c = true := fun c hc => hback c (List.mem_reverse.1 hc)
  rw [trim, List.append_assoc, List.dropWhile_append_of_pos hfront, hstart, List.reverse_append,
    List.dropWhile_append_of_pos hblank, hend, List.reverse_reverse]

theorem head?_trim (cs : List Char) : (trim cs).head? = (cs.dropWhile isBlank).head? := by
  rw [trim, List.head?_reverse]
  cases hrest : cs.dropWhile isBlank with
  | nil => rfl
  | cons c rest =>
    have hc : isBlank c = false := by
      have hhead := List.head?_dropWhile_not isBlank cs
      rw [hrest] at hhead
      simpa using hhead
    rw [List.reverse_cons, List.dropWhile_append]
    split
    · rw [List.dropWhile_cons_of_neg (by simp [hc])]
      rfl
    · rw [List.getLast?_append]
      rfl

end FlowProbe.Blank
