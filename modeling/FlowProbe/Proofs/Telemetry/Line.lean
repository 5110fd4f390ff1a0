import FlowProbe.Proofs.Telemetry.Value
import FlowProbe.Proofs.Text.Json.Values

/-! Records read back from their lines.

A value stands untagged on a line, where a number may be one of five types; the type beside it says
which (`Value.ofJson?_json`). So an attribute reads back from its object and a record from its own
(`Record.ofJson?_json`), and as JSON text reads back as the value that was written, a record reads
back from its line (`Record.ofLine?_line`). No line has a line feed in it, so the text of an output
is cut again where its lines end (`Record.ofStream?_stream`). -/
namespace FlowProbe

/-! ### Objects -/

namespace Value

/-- The value of a type that stands untagged as `j`, if there is one. -/
def ofJson? (tag : String) : Json → Option Value
  | .int n => (ofNumber? tag n).filter fun v => v.tag ≠ "BOOL"
  | .bool b => (some (.bool b)).filter fun v => v.tag = tag
  | _ => none

theorem ofJson?_json (v : Value) : ofJson? v.tag v.json = some v := by
  have hnumber : ofNumber? v.tag v.number = some v := ofNumber?_eq_some_iff.2 ⟨rfl, rfl⟩
  cases v with
  | bool b => simp [ofJson?, json, tag]
  | _ => exact Option.filter_eq_some_iff.2 ⟨hnumber, by simp [tag]⟩

-- The value alone does not say its type.
example : (u16 80).json = (i32 80).json := rfl

theorem fits_json {depth : Nat} (v : Value) : Json.Fits depth v.json := by
  cases v with
  | u16 a => exact Json.fits_u16 a
  | u32 a => exact Json.fits_u32 a
  | u64 a => exact Json.fits_u64 a
  | i32 a => exact Json.fits_i32 a
  | i64 a => exact Json.fits_i64 a
  | bool b => exact .bool b

end Value

namespace Attribute

def ofJson? : Json → Option Attribute
  | .obj members => do
    let key ← Fields.required members "key" Json.string?
    let tag ← Fields.required members "type" Json.string?
    let value ← Fields.required members "value" (Value.ofJson? tag)
    return { key, value }
  | _ => none

theorem ofJson?_json (a : Attribute) : ofJson? a.json = some a := by
  simp [ofJson?, json, Fields.required, Fields.named, Json.string?, Value.ofJson?_json]

theorem fits_json {depth : Nat} (a : Attribute) : Json.Fits (depth + 1) a.json := by
  refine .obj ?_
  simp only [List.forall_mem_cons]
  exact ⟨.str _, .str _, a.value.fits_json, List.forall_mem_nil _⟩

end Attribute

namespace Record

def ofJson? : Json → Option Record
  | .obj members => do
    let name ← Fields.required members "name" Json.string?
    let time ← Fields.required members "timestamp" Json.u64?
    let attributes ← Fields.required members "attributes" (Json.list? Attribute.ofJson?)
    return { name, time, attributes }
  | _ => none

theorem ofJson?_json (r : Record) : ofJson? r.json = some r := by
  have hattributes : Json.list? Attribute.ofJson? (.arr (r.attributes.map Attribute.json)) =
      some r.attributes :=
    Json.list?_map Attribute.ofJson?_json r.attributes
  simp [ofJson?, json, Fields.required, Fields.named, Json.string?, hattributes]

theorem fits_json {depth : Nat} (r : Record) : Json.Fits (depth + 3) r.json := by
  refine .obj ?_
  simp only [List.forall_mem_cons]
  refine ⟨.str _, Json.fits_u64 r.time, .arr fun j hj => ?_, List.forall_mem_nil _⟩
  obtain ⟨a, -, rfl⟩ := List.mem_map.1 hj
  exact a.fits_json

/-! ### Lines -/

/-- The record on a line of an output. -/
def ofLine? (line : String) : Option Record := (Json.ofText? line.toList).bind ofJson?

theorem ofLine?_line (r : Record) : ofLine? r.line = some r := by
  have hfits : Json.Fits Json.maxDepth r.json := r.fits_json
  rw [ofLine?, line, Json.text, String.toList_ofList, Json.ofText?_render hfits, Option.bind_some,
    ofJson?_json]

theorem newline_not_mem_line (r : Record) : '\n' ∉ r.line.toList := by
  have hfits : Json.Fits Json.maxDepth r.json := r.fits_json
  rw [line, Json.text, String.toList_ofList]
  exact Json.newline_not_mem_render hfits

/-! ### Outputs -/

/-- The text of an output: the lines of its records, each with a line feed behind it. -/
def stream (rs : List Record) : List Char := rs.flatMap fun r => r.line.toList ++ ['\n']

/-- The records in the text of an output. Nothing stands behind the last line feed. -/
def ofStream? (text : List Char) : Option (List Record) :=
  (text.splitOn '\n').dropLast.mapM fun line => ofLine? (String.ofList line)

theorem stream_eq_intercalate (rs : List Record) :
    stream rs = ['\n'].intercalate (rs.map (fun r => r.line.toList) ++ [[]]) := by
  induction rs with
  | nil => rfl
  | cons r rs ih =>
    -- The empty piece behind the last line feed is always there, so what is joined is never empty.
    obtain ⟨l, ls, hrest⟩ : ∃ l ls, rs.map (fun r => r.line.toList) ++ [[]] = l :: ls :=
      List.exists_cons_of_ne_nil (List.append_ne_nil_of_right_ne_nil _ (List.cons_ne_nil _ _))
    rw [stream, List.flatMap_cons, ← stream, ih, List.map_cons, List.cons_append, hrest,
      List.intercalate_cons_cons]

/-- The text is cut where its lines end. -/
theorem splitOn_stream (rs : List Record) :
    (stream rs).splitOn '\n' = rs.map (fun r => r.line.toList) ++ [[]] := by
  rw [stream_eq_intercalate, List.splitOn_intercalate]
  · intro l hl
    rcases List.mem_append.1 hl with hl | hl
    · obtain ⟨r, -, rfl⟩ := List.mem_map.1 hl
      exact r.newline_not_mem_line
    · rw [List.mem_singleton.1 hl]
      exact List.not_mem_nil
  · exact List.append_ne_nil_of_right_ne_nil _ (List.cons_ne_nil _ _)

theorem ofStream?_stream (rs : List Record) : ofStream? (stream rs) = some rs := by
  rw [ofStream?, splitOn_stream, List.dropLast_concat]
  refine Json.mapM_map_print (fun r => ?_) rs
  show ofLine? (String.ofList r.line.toList) = some r
  rw [String.ofList_toList, ofLine?_line]

/-- **What is written reads back without loss.** A record reads back from its line and all records of
an output from its text, so no two records have the same line and no two lists of them the same
text. The bytes of a value are as many as its type takes and hold its number, modulo what fits in
them, with the least significant byte in front; they read back, by the type, as the value and as no
other, and no other bytes do. -/
theorem written_without_loss :
    (∀ r s : Record, ofLine? r.line = some r ∧ (r.line = s.line ↔ r = s)) ∧
    (∀ rs ss : List Record, ofStream? (stream rs) = some rs ∧ (stream rs = stream ss ↔ rs = ss)) ∧
    ∀ v : Value, v.toBytes.length = v.width ∧
      (Words.ofLowFirst v.toBytes : Int) = v.number % Words.range v.width ∧
      ∀ tag bytes, Value.ofBytes? tag bytes = some v ↔ v.tag = tag ∧ v.toBytes = bytes := by
  refine ⟨fun r s => ⟨r.ofLine?_line, Json.print_inj ofLine?_line⟩,
    fun rs ss => ⟨ofStream?_stream rs, Json.print_inj ofStream?_stream⟩,
    fun v => ⟨v.length_toBytes, ?_, fun _ _ => Value.ofBytes?_eq_some_iff⟩⟩
  rw [v.ofLowFirst_toBytes, v.word_eq]

end Record

end FlowProbe
