import FlowProbe.Proofs.Event.Line
import FlowProbe.Proofs.Session.Run
import FlowProbe.Replay

/-! What a replay makes of the lines of a stream.

A line holds an event, or none because it is blank or a comment (`StreamLine.Holds`), or it is bad.
That does not hang on its number, which only names it in a fault (`Holds.event_eq`,
`IsBad.event_eq`). A replay that comes to the maps in orders of its own (`Session.replayAlong`)
makes of lines that read as events what the calls of these events make (`replayAlong_of_reads`),
and of a bad line behind them a fault (`replayAlong_of_bad`). In the orders in which the pairs came
in it is the session's own replay (`replayFrom_eq`), so both handle a stream `LineByLine`. -/
namespace FlowProbe

namespace Json

/-- Neither an empty text nor a comment is JSON. -/
theorem ofText?_eq_none {cs : List Char} (h : ∀ c ∈ cs.head?, c = '#') : ofText? cs = none := by
  cases cs with
  | nil => rfl
  | cons c cs =>
    obtain rfl : c = '#' := h c rfl
    rfl

end Json

namespace StreamLine

/-- Nothing but blanks, or a comment behind them. -/
def IsSkipped (text : String) : Prop :=
  ∃ front rest, text.toList = front ++ rest ∧ (∀ c ∈ front, Blank.isBlank c = true) ∧
    ∀ c ∈ rest.head?, c = '#'

/-- The event that a text is, the blanks at its ends aside. -/
def event? (text : String) : Option Event :=
  (Json.ofText? (Blank.trim text.toList)).bind Event.ofJson?

/-- A line that is blank, a comment or an event. -/
inductive Holds : StreamLine → Option Event → Prop
  | skipped {text : String} (h : IsSkipped text) : Holds (.ok text) none
  | event {text : String} {e : Event} (h : event? text = some e) : Holds (.ok text) (some e)

/-- A line that is none of these. -/
def IsBad (line : StreamLine) : Prop := ∀ e, ¬ line.Holds e

/-- How a replay fails at a bad line of this number. -/
def fault : StreamLine → Nat → ReplayFault
  | .ok _, number => .line number
  | .error cause, _ => .read cause

/-! ### One line -/

theorem isSkipped_iff {text : String} :
    IsSkipped text ↔ ∀ c ∈ (Blank.trim text.toList).head?, c = '#' := by
  rw [Blank.head?_trim]
  constructor
  · rintro ⟨front, rest, htext, hfront, hrest⟩
    have hstart : rest.dropWhile Blank.isBlank = rest := by
      cases rest with
      | nil => rfl
      | cons c rest =>
        obtain rfl : c = '#' := hrest c rfl
        rfl
    rwa [htext, List.dropWhile_append_of_pos hfront, hstart]
  · intro h
    exact ⟨text.toList.takeWhile Blank.isBlank, text.toList.dropWhile Blank.isBlank,
      List.takeWhile_append_dropWhile.symm, List.all_eq_true.1 List.all_takeWhile, h⟩

/-- A skipped line is no event as well. -/
theorem event?_eq_none {text : String} (h : IsSkipped text) : event? text = none := by
  rw [event?, Json.ofText?_eq_none (isSkipped_iff.1 h), Option.bind_none]

theorem event_of_isSkipped {text : String} (h : IsSkipped text) (number : Nat) :
    event (.ok text) number = .ok none := by
  rw [isSkipped_iff] at h
  rw [event, Event.ofLine]
  cases htrim : Blank.trim text.toList with
  | nil => rfl
  | cons c cs =>
    rw [htrim] at h
    obtain rfl : c = '#' := h c rfl
    rfl

theorem event_of_not_isSkipped {text : String} (h : ¬ IsSkipped text) (number : Nat) :
    event (.ok text) number =
      match event? text with
      | some e => .ok (some e)
      | none => .error (.line number) := by
  rw [isSkipped_iff] at h
  rw [event, Event.ofLine, event?]
  split
  · rename_i htrim
    exact absurd (by simp [htrim]) h
  · rename_i htrim
    exact absurd (by simp [htrim]) h
  · rfl

variable {line : StreamLine} {e : Option Event}

theorem Holds.event_eq (h : line.Holds e) (number : Nat) : line.event number = .ok e := by
  cases h with
  | skipped h => exact event_of_isSkipped h number
  | event h =>
    have hskipped : ¬ IsSkipped _ := fun hs => nomatch h.symm.trans (event?_eq_none hs)
    rw [event_of_not_isSkipped hskipped, h]

theorem Holds.unique {e' : Option Event} (h : line.Holds e) (h' : line.Holds e') : e = e' :=
  Except.ok.inj ((h.event_eq 0).symm.trans (h'.event_eq 0))

theorem IsBad.event_eq (h : line.IsBad) (number : Nat) :
    line.event number = .error (line.fault number) := by
  cases line with
  | error cause => rfl
  | ok text =>
    have hskipped : ¬ IsSkipped text := fun hs => h none (.skipped hs)
    rw [event_of_not_isSkipped hskipped]
    cases hevent : event? text with
    | none => rfl
    | some e => exact absurd (.event hevent) (h (some e))

theorem event_eq_ok_iff {number : Nat} : line.event number = .ok e ↔ line.Holds e := by
  refine ⟨fun h => ?_, fun h => h.event_eq number⟩
  by_cases hholds : ∃ e', line.Holds e'
  · obtain ⟨e', he'⟩ := hholds
    rw [he'.event_eq] at h
    exact Except.ok.inj h ▸ he'
  · rw [IsBad.event_eq (not_exists.1 hholds)] at h
    cases h

/-! ### Lines that read as events -/

/-- The events on lines of which none is bad. -/
inductive Reads : List StreamLine → List Event → Prop
  | nil : Reads [] []
  | skip {line : StreamLine} {lines : List StreamLine} {events : List Event}
      (h : line.Holds none) (rest : Reads lines events) : Reads (line :: lines) events
  | take {line : StreamLine} {lines : List StreamLine} {e : Event} {events : List Event}
      (h : line.Holds (some e)) (rest : Reads lines events) : Reads (line :: lines) (e :: events)

namespace Reads

variable {lines front back skipped : List StreamLine} {events events' : List Event}

theorem append (h : Reads front events) (h' : Reads back events') :
    Reads (front ++ back) (events ++ events') := by
  induction h with
  | nil => exact h'
  | skip h _ ih => exact .skip h ih
  | take h _ ih => exact .take h ih

theorem of_skipped (h : ∀ line ∈ skipped, line.Holds none) : Reads skipped [] := by
  induction skipped with
  | nil => exact .nil
  | cons line skipped ih =>
    rw [List.forall_mem_cons] at h
    exact .skip h.1 (ih h.2)

/-- The lines that events are written as. -/
theorem of_events (events : List Event) :
    Reads (events.map fun e => .ok (Json.text e.json)) events := by
  induction events with
  | nil => exact .nil
  | cons e events ih => exact .take (event_eq_ok_iff.1 (e.ofLine_text 0)) ih

/-- Lines that read as events do so in every part. -/
theorem exists_of_append (h : Reads (front ++ back) events) :
    ∃ events₁ events₂, Reads front events₁ ∧ Reads back events₂ ∧ events = events₁ ++ events₂ := by
  induction front generalizing events with
  | nil => exact ⟨[], events, .nil, h, rfl⟩
  | cons line front ih =>
    cases h with
    | skip hline rest =>
      obtain ⟨events₁, events₂, hfront, hback, rfl⟩ := ih rest
      exact ⟨events₁, events₂, .skip hline hfront, hback, rfl⟩
    | @take _ _ e _ hline rest =>
      obtain ⟨events₁, events₂, hfront, hback, rfl⟩ := ih rest
      exact ⟨e :: events₁, events₂, .take hline hfront, hback, rfl⟩

theorem unique (h : Reads lines events) (h' : Reads lines events') : events = events' := by
  induction h generalizing events' with
  | nil =>
    cases h'
    rfl
  | skip hline _ ih =>
    cases h' with
    | skip _ rest => exact ih rest
    | take hline' _ => exact nomatch hline.unique hline'
  | take hline _ ih =>
    cases h' with
    | skip hline' _ => exact nomatch hline.unique hline'
    | take hline' rest => rw [Option.some.inj (hline.unique hline'), ih rest]

/-- Lines without an event may stand anywhere or be left out. -/
theorem insert_iff (h : ∀ line ∈ skipped, line.Holds none) :
    Reads (front ++ skipped ++ back) events ↔ Reads (front ++ back) events := by
  constructor
  · intro hall
    obtain ⟨_, events₂, hleft, hback, rfl⟩ := exists_of_append hall
    obtain ⟨events₁, events₀, hfront, hskipped, rfl⟩ := exists_of_append hleft
    rw [hskipped.unique (of_skipped h), List.append_nil]
    exact hfront.append hback
  · intro hall
    obtain ⟨events₁, events₂, hfront, hback, rfl⟩ := exists_of_append hall
    have hleft := hfront.append (of_skipped h)
    rw [List.append_nil] at hleft
    exact hleft.append hback

/-- Lines read as events up to the first bad one. -/
theorem exists_or_isBad (lines : List StreamLine) :
    (∃ events, Reads lines events) ∨ ∃ front bad back events,
      lines = front ++ bad :: back ∧ Reads front events ∧ bad.IsBad := by
  induction lines with
  | nil => exact .inl ⟨[], .nil⟩
  | cons line lines ih =>
    by_cases hline : ∃ e, line.Holds e
    · obtain ⟨e, hline⟩ := hline
      have hcons : ∀ {lines events}, Reads lines events →
          Reads (line :: lines) (e.toList ++ events) := by
        intro lines events rest
        cases e with
        | none => exact .skip hline rest
        | some e => exact .take hline rest
      rcases ih with ⟨events, hreads⟩ | ⟨front, bad, back, events, rfl, hreads, hbad⟩
      · exact .inl ⟨_, hcons hreads⟩
      · exact .inr ⟨line :: front, bad, back, _, rfl, hcons hreads, hbad⟩
    · exact .inr ⟨[], line, lines, [], rfl, .nil, not_exists.1 hline⟩

end Reads

end StreamLine

/-! ### Replays -/

namespace Session
open StreamLine

/-- A replay in orders of its own: each event comes with orders for the maps, and so does the end
of the capture. -/
def replayAlong (s : Session) (orders : Nat → Orders) (number : Nat) : List StreamLine → Replay
  | [] =>
    let (last, written) := (s.reorder (orders 0)).finish
    ⟨written, .ok last⟩
  | line :: lines =>
    match line.event number with
    | .error fault => ⟨[], .error fault⟩
    | .ok none => s.replayAlong orders (number + 1) lines
    | .ok (some e) =>
      let (next, written) := s.perform (.apply e (orders 0))
      (next.replayAlong (fun n => orders (n + 1)) (number + 1) lines).after written

/-- In the orders in which the pairs came in it is the session's own replay. -/
theorem replayFrom_eq (s : Session) (number : Nat) (lines : List StreamLine) :
    s.replayFrom number lines = s.replayAlong (fun _ => {}) number lines := by
  induction lines generalizing s number with
  | nil => rw [replayFrom, replayAlong, reorder_empty]
  | cons line lines ih =>
    rw [replayFrom, replayAlong]
    cases line.event number with
    | error fault => rfl
    | ok e? =>
      cases e? with
      | none => exact ih s (number + 1)
      | some e =>
        simp only [perform_apply]
        rw [ih]

section Along

variable {line : StreamLine} {lines front : List StreamLine} {events : List Event}
variable (s : Session) (orders : Nat → Orders) (number : Nat)

theorem replayAlong_skipped (h : line.Holds none) :
    s.replayAlong orders number (line :: lines) = s.replayAlong orders (number + 1) lines := by
  rw [replayAlong, h.event_eq]

theorem replayAlong_event {e : Event} (h : line.Holds (some e)) :
    s.replayAlong orders number (line :: lines) =
      ((s.step (.apply e (orders 0))).replayAlong (fun n => orders (n + 1)) (number + 1)
        lines).after (s.written (.apply e (orders 0))) := by
  rw [replayAlong, h.event_eq]
  rfl

/-- Lines that read as events are replayed as the calls of these events. -/
theorem replayAlong_of_reads (h : Reads lines events) :
    s.replayAlong orders number lines =
      ⟨s.replayed (played orders events), .ok (s.run (played orders events)).finish.1⟩ := by
  induction h generalizing s orders number with
  | nil => rfl
  | skip hline _ ih => rw [replayAlong_skipped s orders number hline, ih]
  | take hline _ ih =>
    rw [replayAlong_event s orders number hline, ih, Replay.after, replayed, ← List.append_assoc]
    rfl

/-- A bad line behind them ends the replay. -/
theorem replayAlong_of_bad {bad : StreamLine} (h : Reads front events) (hbad : bad.IsBad)
    (back : List StreamLine) :
    s.replayAlong orders number (front ++ bad :: back) =
      ⟨s.lines (played orders events), .error (bad.fault (number + front.length))⟩ := by
  induction h generalizing s orders number with
  | nil =>
    rw [List.nil_append, replayAlong, hbad.event_eq]
    rfl
  | @skip line front events hline _ ih =>
    rw [List.cons_append, replayAlong_skipped s orders number hline, ih, List.length_cons,
      Nat.add_assoc, Nat.add_comm 1]
  | @take line front e events hline _ ih =>
    rw [List.cons_append, replayAlong_event s orders number hline, ih, List.length_cons,
      Nat.add_assoc, Nat.add_comm 1]
    rfl

end Along

/-- What it is to handle a stream line by line, where `written` is what events write and
`finished` the session at the end behind them, with what the end writes. -/
structure LineByLine (replay : List StreamLine → Replay) (written : List Event → List Record)
    (finished : List Event → Session × List Record) : Prop where
  /-- Without a bad line all events are applied, and the session comes to its end. -/
  reads : ∀ lines events, Reads lines events →
    replay lines = ⟨written events ++ (finished events).2, .ok (finished events).1⟩
  /-- The first bad line is the last one that is looked at. -/
  stops : ∀ lines, (¬ ∃ events, Reads lines events) →
    ∃ front bad back events, lines = front ++ bad :: back ∧ Reads front events ∧ bad.IsBad ∧
      replay lines = ⟨written events, .error (bad.fault (front.length + 1))⟩
  /-- Lines without an event may be put in or left out anywhere. -/
  skips : ∀ front skipped back, (∀ line ∈ skipped, line.Holds none) →
    (∀ events, Reads (front ++ skipped ++ back) events ↔ Reads (front ++ back) events) ∧
      ((∃ events, Reads (front ++ skipped ++ back) events) →
        replay (front ++ skipped ++ back) = replay (front ++ back))

theorem lineByLine_replayAlong (s : Session) (orders : Nat → Orders) :
    LineByLine (s.replayAlong orders 1) (fun events => s.lines (played orders events))
      fun events => (s.run (played orders events)).finish where
  reads _ _ := s.replayAlong_of_reads orders 1
  stops lines hbad := by
    rcases Reads.exists_or_isBad lines with hreads | ⟨front, bad, back, events, rfl, hfront, hline⟩
    · exact absurd hreads hbad
    · have hreplay := s.replayAlong_of_bad orders 1 hfront hline back
      rw [Nat.add_comm] at hreplay
      exact ⟨front, bad, back, events, rfl, hfront, hline, hreplay⟩
  skips front skipped back hskipped := by
    refine ⟨fun events => Reads.insert_iff hskipped, ?_⟩
    rintro ⟨events, hreads⟩
    have hrest := (Reads.insert_iff hskipped).1 hreads
    rw [s.replayAlong_of_reads orders 1 hreads, s.replayAlong_of_reads orders 1 hrest]

/-- **A stream is replayed line by line.** Where no line is bad, the replay writes what its events
write, one after the other, and then what the end of the session writes, and it ends with that
session. Where one is bad, the replay fails at the first of them, under its number among all lines,
and has written what the events before it write, whatever comes behind it. Lines without an event
may be put in or left out anywhere: the events on the lines stay the same, and so does a replay
without a bad line. All of that is so in whatever orders the maps come up. The lines that events
are written as read as these events. -/
theorem replays_line_by_line (s : Session) :
    LineByLine s.replay (fun events => (s.applyAll events).2)
        (fun events => (s.applyAll events).1.finish) ∧
      (∀ orders : Nat → Orders,
        LineByLine (s.replayAlong orders 1) (fun events => s.lines (played orders events))
          fun events => (s.run (played orders events)).finish) ∧
      ∀ events : List Event, Reads (events.map fun e => .ok (Json.text e.json)) events := by
  refine ⟨?_, s.lineByLine_replayAlong, Reads.of_events⟩
  have hreplay : s.replay = s.replayAlong (fun _ => {}) 1 := funext (s.replayFrom_eq 1)
  simp only [hreplay, applyAll_eq]
  exact s.lineByLine_replayAlong fun _ => {}

example (s : Session) :
    (s.replay [.ok "", .ok " # note", .ok "note", .ok "# note"]).ending = .error (.line 3) := by
  rfl

end Session

end FlowProbe
