import FlowProbe.Proofs.Text.Json.Tokens
import FlowProbe.Text.Json.Fields

/-! Reading back the values that are written.

A series of items is read back by what reads the items (`series_intercalate`), and items and members
start with neither a blank nor what closes the series. So a value whose integers have 64 bits and
whose containers do not nest too deep (`Fits`) reads back as it was written, by induction on its
containers (`value?_render`), and so does a whole text (`ofText?_render`), which is one line
(`newline_not_mem_render`). What reads back item by item reads back as a list (`mapM_map_print`). -/
namespace FlowProbe.Json

/-! ### Series -/

section Series
variable {α : Type} {item : List Char → Option (α × List Char)} {print : α → List Char}
  {close : Char}

/-- The item reads back in front of a comma and of the closing character, and it starts with
neither a blank nor the closing character. -/
structure ReadsBack (item : List Char → Option (α × List Char)) (print : α → List Char)
    (close : Char) (a : α) : Prop where
  start : ∀ rest, skipSpace (print a ++ rest) = print a ++ rest
  head : (print a).head? ≠ some close
  nonempty : print a ≠ []
  read : ∀ c rest, c = ',' ∨ c = close → item (print a ++ c :: rest) = some (a, c :: rest)

/-- A character that stands between or behind items. -/
theorem skipSpace_of_not_isSpace {c : Char} (h : isSpace c = false) (rest : List Char) :
    skipSpace (c :: rest) = c :: rest :=
  List.dropWhile_cons_of_neg (by simp [h])

theorem series?_intercalate (hclose : isSpace close = false) (hcomma : close ≠ ',') {a : α}
    {as : List α} (h : ∀ b ∈ a :: as, ReadsBack item print close b) {fuel : Nat}
    (hfuel : as.length < fuel) (rest : List Char) :
    series? item close fuel ([','].intercalate ((a :: as).map print) ++ close :: rest) =
      some (a :: as, rest) := by
  induction as generalizing a fuel with
  | nil =>
    obtain ⟨ha, -⟩ := List.forall_mem_cons.1 h
    cases fuel with
    | zero => exact absurd hfuel (Nat.not_lt_zero _)
    | succ fuel =>
      rw [List.map_singleton, List.intercalate_singleton, series?, ha.start,
        ha.read close rest (.inr rfl)]
      simp only [skipSpace_of_not_isSpace hclose, if_neg hcomma, if_true]
  | cons b as ih =>
    obtain ⟨ha, hbs⟩ := List.forall_mem_cons.1 h
    cases fuel with
    | zero => exact absurd hfuel (Nat.not_lt_zero _)
    | succ fuel =>
      have hrest := ih hbs (Nat.lt_of_succ_lt_succ hfuel)
      rw [List.map_cons, List.map_cons, List.intercalate_cons_cons, List.append_assoc,
        List.append_assoc, List.singleton_append, series?, ha.start, ha.read ',' _ (.inl rfl)]
      simp only [skipSpace_of_not_isSpace (c := ',') rfl, if_true, ← List.map_cons, hrest]
      rfl

theorem length_le_intercalate (print : α → List Char) (a : α) (as : List α) :
    as.length ≤ ([','].intercalate ((a :: as).map print)).length := by
  induction as generalizing a with
  | nil => exact Nat.zero_le _
  | cons b as ih =>
    have hrest := ih b
    rw [List.map_cons] at hrest
    rw [List.map_cons, List.map_cons, List.intercalate_cons_cons, List.length_append,
      List.length_append, List.length_singleton, List.length_cons]
    omega

theorem exists_intercalate_eq_append (print : α → List Char) (a : α) (as : List α) :
    ∃ back, [','].intercalate ((a :: as).map print) = print a ++ back := by
  cases as with
  | nil => exact ⟨[], by rw [List.map_singleton, List.intercalate_singleton, List.append_nil]⟩
  | cons b as => exact ⟨_, by rw [List.map_cons, List.map_cons, List.intercalate_cons_cons,
      List.append_assoc]⟩

theorem series_intercalate (hclose : isSpace close = false) (hcomma : close ≠ ',') {as : List α}
    (h : ∀ a ∈ as, ReadsBack item print close a) (rest : List Char) :
    series item close ([','].intercalate (as.map print) ++ close :: rest) = some (as, rest) := by
  cases as with
  | nil =>
    rw [List.map_nil, List.intercalate_nil, List.nil_append, series,
      skipSpace_of_not_isSpace hclose]
    exact if_pos rfl
  | cons a as =>
    have ha := h a List.mem_cons_self
    obtain ⟨back, hback⟩ := exists_intercalate_eq_append print a as
    obtain ⟨c, cs, hfront⟩ := List.exists_cons_of_ne_nil ha.nonempty
    have hc : c ≠ close := fun heq => ha.head (hfront ▸ heq ▸ rfl)
    have htext : [','].intercalate ((a :: as).map print) ++ close :: rest =
        c :: (cs ++ (back ++ close :: rest)) := by
      rw [hback, hfront, List.append_assoc, List.cons_append]
    have hskip : skipSpace (c :: (cs ++ (back ++ close :: rest))) =
        c :: (cs ++ (back ++ close :: rest)) := by
      have hstart := ha.start (back ++ close :: rest)
      rwa [hfront, List.cons_append] at hstart
    have hfuel : as.length <
        ([','].intercalate ((a :: as).map print) ++ close :: rest).length := by
      have hle := length_le_intercalate print a as
      rw [List.length_append, List.length_cons]
      omega
    have hread := series?_intercalate hclose hcomma h hfuel rest
    rw [htext] at hread ⊢
    rw [series, hskip]
    simp only [if_neg hc]
    exact hread

end Series

/-! ### Values -/

/-- Integers have 64 bits and containers nest at most `depth` deep. -/
inductive Fits : (depth : Nat) → Json → Prop where
  | null {depth : Nat} : Fits depth .null
  | bool {depth : Nat} (b : Bool) : Fits depth (.bool b)
  | int {depth : Nat} {n : Int} : IsWord n → Fits depth (.int n)
  | str {depth : Nat} (s : String) : Fits depth (.str s)
  | arr {depth : Nat} {items : List Json} :
    (∀ j ∈ items, Fits depth j) → Fits (depth + 1) (.arr items)
  | obj {depth : Nat} {members : List (String × Json)} :
    (∀ m ∈ members, Fits depth m.2) → Fits (depth + 1) (.obj members)

/-- A member as it is written. -/
def renderMember (m : String × Json) : List Char := quote m.1 ++ ':' :: render m.2

theorem renderItems_eq (items : List Json) :
    renderItems items = [','].intercalate (items.map render) := by
  induction items with
  | nil => rfl
  | cons item rest ih =>
    cases rest with
    | nil => rw [renderItems, List.map_singleton, List.intercalate_singleton]
    | cons next rest =>
      rw [renderItems, ih]
      · simp only [List.map_cons, List.intercalate_cons_cons, List.append_assoc,
          List.singleton_append]
      · exact nofun

theorem renderMembers_eq (members : List (String × Json)) :
    renderMembers members = [','].intercalate (members.map renderMember) := by
  induction members with
  | nil => rfl
  | cons m rest ih =>
    cases rest with
    | nil => rw [renderMembers, List.map_singleton, List.intercalate_singleton, renderMember]
    | cons next rest =>
      rw [renderMembers, ih]
      · simp only [List.map_cons, List.intercalate_cons_cons, renderMember, List.append_assoc,
          List.cons_append, List.nil_append]
      · exact nofun

/-- What a value may start with. -/
def opening : List Char := ['n', 't', 'f', '"', '[', '\x7b', '-']

/-- A value starts with a digit or with what no blank, comma or closing character is. -/
theorem exists_render_eq_cons {depth : Nat} {j : Json} (h : Fits depth j) :
    ∃ c cs, render j = c :: cs ∧ (c.isDigit = true ∨ c ∈ opening) := by
  cases h with
  | null => exact ⟨'n', _, rfl, .inr (by decide)⟩
  | bool b =>
    cases b with
    | true => exact ⟨'t', _, rfl, .inr (by decide)⟩
    | false => exact ⟨'f', _, rfl, .inr (by decide)⟩
  | @int _ n _ =>
    obtain ⟨c, cs, hcs, hc⟩ := Numeral.exists_renderInt_eq_cons n
    refine ⟨c, cs, hcs, hc.imp_right ?_⟩
    rintro rfl
    decide
  | str s => exact ⟨'"', _, rfl, .inr (by decide)⟩
  | arr _ => exact ⟨'[', _, rfl, .inr (by decide)⟩
  | obj _ => exact ⟨'\x7b', _, rfl, .inr (by decide)⟩

theorem ne_of_opens {c d : Char} (h : c.isDigit = true ∨ c ∈ opening) (hd : d.isDigit = false)
    (hd' : d ∉ opening) : c ≠ d := by
  rintro rfl
  rcases h with hdigit | hmem
  · exact absurd (hd.symm.trans hdigit) (by decide)
  · exact hd' hmem

theorem not_isSpace_of_opens {c : Char} (h : c.isDigit = true ∨ c ∈ opening) :
    isSpace c = false := by
  have hspace : c ≠ ' ' := ne_of_opens h rfl (by decide)
  have hline : c ≠ '\n' := ne_of_opens h rfl (by decide)
  have htab : c ≠ '\t' := ne_of_opens h rfl (by decide)
  have hreturn : c ≠ '\r' := ne_of_opens h rfl (by decide)
  simp [isSpace, hspace, hline, htab, hreturn]

theorem skipSpace_render {depth : Nat} {j : Json} (h : Fits depth j) (rest : List Char) :
    skipSpace (render j ++ rest) = render j ++ rest := by
  obtain ⟨c, cs, hcs, hc⟩ := exists_render_eq_cons h
  rw [hcs, List.cons_append, skipSpace_of_not_isSpace (not_isSpace_of_opens hc)]

theorem endsNumber_cons {c : Char} (h : c ∈ [',', ']', '\x7d']) (rest : List Char) :
    EndsNumber (c :: rest) := by
  have hall : ∀ c ∈ [',', ']', '\x7d'], c.isDigit = false ∧ c ≠ '.' ∧ c ≠ 'e' ∧ c ≠ 'E' := by
    simp only [List.forall_mem_cons]
    exact ⟨by decide, by decide, by decide, List.forall_mem_nil _⟩
  rintro d ⟨⟩
  exact hall c h

/-- What starts with no bracket is no container. -/
theorem value?_of_scalar {depth : Nat} {c : Char} {cs : List Char} (harr : c ≠ '[')
    (hobj : c ≠ '\x7b') : value? depth (c :: cs) = scalar? (c :: cs) := by
  have harr' : ∀ cs', c :: cs ≠ '[' :: cs' := fun cs' heq => harr (List.cons.inj heq).1
  have hobj' : ∀ cs', c :: cs ≠ '\x7b' :: cs' := fun cs' heq => hobj (List.cons.inj heq).1
  cases depth with
  | zero => rw [value?] <;> assumption
  | succ depth => rw [value?] <;> assumption

theorem value?_renderInt {depth : Nat} {n : Int} (hn : IsWord n) {rest : List Char}
    (h : EndsNumber rest) : value? depth (Numeral.renderInt n ++ rest) = some (.int n, rest) := by
  have hread := number?_renderInt hn h
  obtain ⟨c, cs, hcs, hc⟩ := Numeral.exists_renderInt_eq_cons n
  have hne : ∀ d : Char, d.isDigit = false → d ≠ '-' → c ≠ d := by
    rintro d hd hsign rfl
    exact hc.elim (fun h => absurd (hd.symm.trans h) (by decide)) hsign
  rw [hcs, List.cons_append] at hread ⊢
  rw [value?_of_scalar (hne _ rfl (by decide)) (hne _ rfl (by decide)), scalar?, hread]
  · rintro cs' ⟨⟩
    exact hne 'n' rfl (by decide) rfl
  · rintro cs' ⟨⟩
    exact hne 't' rfl (by decide) rfl
  · rintro cs' ⟨⟩
    exact hne 'f' rfl (by decide) rfl
  · rintro cs' ⟨⟩
    exact hne '"' rfl (by decide) rfl

theorem readsBack_render {depth : Nat} {j : Json} (hfits : Fits depth j)
    (hread : ∀ {rest : List Char}, EndsNumber rest →
      value? depth (render j ++ rest) = some (j, rest)) :
    ReadsBack (value? depth) render ']' j := by
  obtain ⟨c, cs, hcs, hc⟩ := exists_render_eq_cons hfits
  refine ⟨skipSpace_render hfits, ?_, ?_, fun d rest hd => hread (endsNumber_cons ?_ rest)⟩
  · rw [hcs]
    rintro ⟨⟩
    exact ne_of_opens hc rfl (by decide) rfl
  · rw [hcs]
    exact List.cons_ne_nil c cs
  · rcases hd with rfl | rfl <;> decide

theorem readsBack_renderMember {depth : Nat} {m : String × Json} (hfits : Fits depth m.2)
    (hread : ∀ {rest : List Char}, EndsNumber rest →
      value? depth (render m.2 ++ rest) = some (m.2, rest)) :
    ReadsBack (member? (value? depth)) renderMember '\x7d' m := by
  refine ⟨fun rest => skipSpace_of_not_isSpace rfl _, nofun, nofun, fun d rest hd => ?_⟩
  have hends : EndsNumber (d :: rest) :=
    endsNumber_cons (by rcases hd with rfl | rfl <;> decide) rest
  rw [renderMember, List.append_assoc, quote_append, List.cons_append, member?, quoted?_escape]
  simp only [skipSpace_of_not_isSpace (c := ':') rfl, skipSpace_render hfits, hread hends,
    Option.map_some, String.ofList_toList]

/-- A value reads back in front of any text that does not go on with a number. -/
theorem value?_render {depth : Nat} {j : Json} (h : Fits depth j) {rest : List Char}
    (hrest : EndsNumber rest) : value? depth (render j ++ rest) = some (j, rest) := by
  induction h generalizing rest with
  | @null depth => cases depth <;> rfl
  | @bool depth b => cases depth <;> cases b <;> rfl
  | int hn => exact value?_renderInt hn hrest
  | str s =>
    rw [render, quote_append, value?_of_scalar (by decide) (by decide), scalar?, quoted?_escape]
    exact congrArg (fun s => some (Json.str s, rest)) String.ofList_toList
  | @arr depth items hfits ih =>
    have hclose : isSpace ']' = false := rfl
    have hitems := series_intercalate hclose (by decide)
      (fun j hj => readsBack_render (hfits j hj) (ih j hj)) rest
    rw [render, renderItems_eq, List.cons_append, List.append_assoc, List.singleton_append, value?,
      hitems]
    rfl
  | @obj depth members hfits ih =>
    have hclose : isSpace '\x7d' = false := rfl
    have hmembers := series_intercalate hclose (by decide)
      (fun m hm => readsBack_renderMember (hfits m hm) (ih m hm)) rest
    rw [render, renderMembers_eq, List.cons_append, List.append_assoc, List.singleton_append,
      value?, hmembers]
    rfl

/-- What is written as a whole text reads back. -/
theorem ofText?_render {j : Json} (h : Fits maxDepth j) : ofText? (render j) = some j := by
  have hskip := skipSpace_render h []
  have hread := value?_render h endsNumber_nil
  rw [List.append_nil] at hskip hread
  rw [ofText?, hskip, hread]
  rfl

/-! ### Words and lists -/

section Words

variable {depth : Nat}

@[simp] theorem u16?_toNat (w : UInt16) : u16? (.int w.toNat) = some w := by
  have h : w.toNat < UInt16.size := w.toNat_lt
  show (if w.toNat < UInt16.size then some w.toNat else none).map UInt16.ofNat = some w
  rw [if_pos h, Option.map_some, UInt16.ofNat_toNat]

@[simp] theorem u32?_toNat (w : UInt32) : u32? (.int w.toNat) = some w := by
  have h : w.toNat < UInt32.size := w.toNat_lt
  show (if w.toNat < UInt32.size then some w.toNat else none).map UInt32.ofNat = some w
  rw [if_pos h, Option.map_some, UInt32.ofNat_toNat]

@[simp] theorem u64?_toNat (w : UInt64) : u64? (.int w.toNat) = some w := by
  have h : w.toNat < UInt64.size := w.toNat_lt
  show (if w.toNat < UInt64.size then some w.toNat else none).map UInt64.ofNat = some w
  rw [if_pos h, Option.map_some, UInt64.ofNat_toNat]

theorem fits_u16 (w : UInt16) : Fits depth (.int w.toNat) :=
  .int (isWord_ofNat (Nat.lt_trans w.toNat_lt (by decide)))

theorem fits_u32 (w : UInt32) : Fits depth (.int w.toNat) :=
  .int (isWord_ofNat (Nat.lt_trans w.toNat_lt (by decide)))

theorem fits_u64 (w : UInt64) : Fits depth (.int w.toNat) := .int (isWord_ofNat w.toNat_lt)

theorem fits_i32 (w : Int32) : Fits depth (.int w.toInt) := by
  have hlow := w.le_toInt
  have hhigh := w.toInt_lt
  have hsize : UInt64.size = 2 ^ 64 := rfl
  refine .int ⟨?_, ?_⟩ <;> omega

theorem fits_i64 (w : Int64) : Fits depth (.int w.toInt) := by
  have hlow := w.le_toInt
  have hhigh := w.toInt_lt
  have hsize : UInt64.size = 2 ^ 64 := rfl
  refine .int ⟨?_, ?_⟩ <;> omega

end Words

/-- A list reads back where each of its items does. -/
theorem mapM_map_print {α β : Type} {read : β → Option α} {print : α → β}
    (h : ∀ a, read (print a) = some a) (l : List α) : (l.map print).mapM read = some l := by
  induction l with
  | nil => rfl
  | cons a l ih => simp only [List.map_cons, List.mapM_cons, h, ih, Option.bind_eq_bind,
      Option.bind_some, Option.pure_def]

/-- What reads back has a text of its own. -/
theorem print_inj {α β : Type} {read : β → Option α} {print : α → β}
    (h : ∀ a, read (print a) = some a) {a b : α} : print a = print b ↔ a = b := by
  refine ⟨fun heq => ?_, congrArg print⟩
  have hread := congrArg read heq
  rw [h, h] at hread
  exact Option.some.inj hread

theorem list?_map {α : Type} {read : Json → Option α} {print : α → Json}
    (h : ∀ a, read (print a) = some a) (l : List α) : list? read (.arr (l.map print)) = some l :=
  mapM_map_print h l

/-! ### One line -/

theorem mem_intercalate {α : Type} {a b : α} {ls : List (List α)} (h : b ∈ [a].intercalate ls) :
    b = a ∨ ∃ l ∈ ls, b ∈ l := by
  induction ls with
  | nil => cases h
  | cons l ls ih =>
    cases ls with
    | nil =>
      rw [List.intercalate_singleton] at h
      exact .inr ⟨l, List.mem_cons_self, h⟩
    | cons l' ls =>
      rw [List.intercalate_cons_cons, List.mem_append, List.mem_append, List.mem_singleton] at h
      rcases h with (h | h) | h
      · exact .inr ⟨l, List.mem_cons_self, h⟩
      · exact .inl h
      · exact (ih h).imp_right fun ⟨m, hm, hb⟩ => ⟨m, List.mem_cons_of_mem l hm, hb⟩

/-- A line feed is escaped like the other control characters. -/
theorem newline_not_mem_escape (c : Char) : '\n' ∉ escape c := by
  have hdigit : ∀ n < 16, hexDigit n ≠ '\n' := by decide
  by_cases hnamed : c ∈ named
  · have hall : ∀ c ∈ named, '\n' ∉ escape c := by
      simp only [named, List.forall_mem_cons]
      exact ⟨by decide, by decide, by decide, by decide, by decide, by decide, by decide,
        List.forall_mem_nil _⟩
    exact hall c hnamed
  · simp only [named, List.mem_cons, List.not_mem_nil, or_false, not_or] at hnamed
    obtain ⟨hquote, hslash, hb, ht, hn, hf, hr⟩ := hnamed
    rw [escape, if_neg hquote, if_neg hslash, if_neg hb, if_neg ht, if_neg hn, if_neg hf, if_neg hr]
    split
    · next hcontrol =>
      have hhigh := hdigit (c.toNat / 16) (by omega)
      have hlow := hdigit (c.toNat % 16) (by omega)
      simp [Ne.symm hhigh, Ne.symm hlow]
    · simp [Ne.symm hn]

theorem newline_not_mem_quote (s : String) : '\n' ∉ quote s := by
  simp [quote, newline_not_mem_escape]

theorem newline_not_mem_renderInt (n : Int) : '\n' ∉ Numeral.renderInt n := by
  have hdigits : ∀ n, '\n' ∉ Numeral.render n := fun n h =>
    absurd (Numeral.isDigit_of_mem_render h) (by decide)
  cases n with
  | ofNat n => exact hdigits n
  | negSucc n => simp [Numeral.renderInt, hdigits]

/-- What is written is one line. -/
theorem newline_not_mem_render {depth : Nat} {j : Json} (h : Fits depth j) : '\n' ∉ render j := by
  induction h with
  | null => decide
  | bool b => cases b <;> decide
  | int _ => exact newline_not_mem_renderInt _
  | str s => exact newline_not_mem_quote s
  | arr _ ih =>
    simp only [render, renderItems_eq, List.mem_cons, List.mem_append, List.not_mem_nil, or_false,
      not_or]
    refine ⟨by decide, fun h => ?_, by decide⟩
    rcases mem_intercalate h with h | ⟨l, hl, h⟩
    · exact absurd h (by decide)
    · obtain ⟨j, hj, rfl⟩ := List.mem_map.1 hl
      exact ih j hj h
  | obj _ ih =>
    simp only [render, renderMembers_eq, List.mem_cons, List.mem_append, List.not_mem_nil, or_false,
      not_or]
    refine ⟨by decide, fun h => ?_, by decide⟩
    rcases mem_intercalate h with h | ⟨l, hl, h⟩
    · exact absurd h (by decide)
    · obtain ⟨m, hm, rfl⟩ := List.mem_map.1 hl
      simp only [renderMember, List.mem_append, List.mem_cons] at h
      rcases h with h | h | h
      · exact newline_not_mem_quote m.1 h
      · exact absurd h (by decide)
      · exact ih m hm h

end FlowProbe.Json
