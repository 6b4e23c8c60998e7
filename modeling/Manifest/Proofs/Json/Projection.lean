import Manifest.Proofs.Dispatch.Resolution
import Manifest.Proofs.Json.RoundTrip

/-!
# Projections read back

The data of a tree bind no name twice in an object, since a record replaces what was bound by the
records of its name before it, and hold no whole number of more than ten digits. They can therefore
be read back from their text (`Value.readable_of_project`). Reading the JSON text of a tree without
calls gives its data whatever the indentation, and there is a text for every indentation that fits
a machine word, and for no other but of a text alone (`Datum.read_toJson`).
-/

namespace Manifest

namespace Value

open Json (Readable ItemsReadable MembersReadable)

private theorem membersReadable_set {table : Table Json} {name : String} {d : Json}
    (others : MembersReadable table) (readable : d.Readable) :
    MembersReadable (table.set name d) := by
  induction table with
  | nil => exact ⟨readable, trivial⟩
  | cons entry table ih =>
    rw [Table.set]
    split
    · exact ⟨readable, others.2⟩
    · exact ⟨others.1, ih others.2⟩

private theorem readable_int32 (n : Int32) : Readable (.integer n.toInt) := by
  have low := n.le_toInt
  have high := n.toInt_lt
  have width : Numeral.width n.toInt.natAbs ≤ 10 := Numeral.width_le (by decide) (by omega)
  exact width.trans (by decide)

/-- A result under a function comes from a result. -/
theorem map_eq_ok {α β : Type} {x : Except Fault α} {f : α → β} {b : β}
    (mapped : x.map f = .ok b) : ∃ a, x = .ok a ∧ f a = b := by
  cases x with
  | error fault => cases mapped
  | ok a => exact ⟨a, rfl, Except.ok.inj mapped⟩

mutual

/-- The data of a tree can be read back. -/
theorem readable_of_project : (v : Value) → {data : Json} → v.project = .ok data → data.Readable
  | number n, data, projected => by
    cases projected
    exact readable_int32 n
  | float _, data, projected | text _, data, projected => by
    cases projected
    trivial
  | array items, data, projected => by
    rw [project] at projected
    obtain ⟨parts, found, rfl⟩ := map_eq_ok projected
    exact readable_of_projectItems items found
  | object entries, data, projected => by
    rw [project] at projected
    obtain ⟨members, found, rfl⟩ := map_eq_ok projected
    exact @readable_of_projectEntries [] entries _ ⟨List.nodup_nil, trivial⟩ found
  | call _ _, data, projected => by cases projected
  | typed _ x, data, projected => readable_of_project x projected

private theorem readable_of_projectItems : (items : List Value) → {parts : List Json} →
    projectItems items = .ok parts → ItemsReadable parts
  | [], parts, projected => by
    cases projected
    trivial
  | item :: rest, parts, projected => by
    rw [projectItems] at projected
    cases first : project item with
    | error fault =>
      rw [first] at projected
      cases projected
    | ok x =>
      rw [first] at projected
      obtain ⟨xs, others, rfl⟩ := map_eq_ok projected
      exact ⟨readable_of_project item first, readable_of_projectItems rest others⟩

private theorem readable_of_projectEntries {before : Table Json} : (entries : List Entry) →
    {members : Table Json} → Readable (.object before) →
      projectEntries before entries = .ok members →
      Readable (.object members)
  | [], members, readable, projected => by
    cases projected
    exact readable
  | .record id x :: rest, members, readable, projected => by
    rw [projectEntries] at projected
    cases first : project x with
    | error fault =>
      rw [first] at projected
      cases projected
    | ok data =>
      rw [first] at projected
      refine readable_of_projectEntries rest ⟨?_, ?_⟩ projected
      · exact Table.nodup_names_set before id data readable.1
      · exact membersReadable_set readable.2 (readable_of_project x first)
  | .call _ _ :: _, members, readable, projected => by cases projected

end

end Value

/-- Reading the JSON text of a tree without calls gives its data. With an indentation that its data
do not admit, and with no other, there is no text to be read. -/
theorem Datum.read_toJson {v : Value} (resolved : v.isResolved = true) :
    ∃ data, v.project = .ok data ∧ ∀ indent,
      (data.admits indent = true → ∃ text,
        Datum.toJson indent (.value v) = .ok text ∧ Json.read text = .ok data) ∧
      (data.admits indent = false → Datum.toJson indent (.value v) = .error .indentation) := by
  obtain ⟨data, projected⟩ := v.exists_project resolved
  refine ⟨data, projected, fun indent ↦ ⟨fun fits ↦ ⟨data.text indent, ?_, ?_⟩, fun wide ↦ ?_⟩⟩
  · rw [toJson_of_project projected, if_pos fits]
  · exact Json.read_text (v.readable_of_project projected) indent
  · rw [toJson_of_project projected, wide]
    rfl

private def third : Single := .signed true 0x3eaaaaab (by decide)

private def records : Value :=
  .object [.record "a" (.text "x"), .record "b\n" (.array [.float third, .array []]),
    .record "a" (.typed "t" (.text "\"\x01😀")), .record "c" (.object [])]

private def recordsData : Json :=
  .object [("a", .string "\"\x01😀"), ("b\n", .array [.real third.shortDouble, .array []]),
    ("c", .object [])]

/-- Of two records of one name the later is read, in the place of the earlier. The texts have
escapes and a character beyond the basic plane, and there are a float and empty containers. -/
theorem Datum.read_toJson_records :
    records.isResolved = true ∧ records.project = .ok recordsData ∧
      ∀ indent, recordsData.admits indent = true → ∃ text,
        Datum.toJson indent (.value records) = .ok text ∧ Json.read text = .ok recordsData := by
  have same : records.project = .ok recordsData := rfl
  obtain ⟨data, projected, back⟩ := @Datum.read_toJson records rfl
  obtain rfl : data = recordsData := Except.ok.inj (projected.symm.trans same)
  exact ⟨rfl, same, fun indent ↦ (back indent).1⟩

/-- The indentation 2^63 is too wide for an empty object, in which there is nothing to indent. -/
theorem Datum.toJson_tooWide :
    (Value.object []).isResolved = true ∧ (Value.object []).project = .ok (.object []) ∧
      Datum.toJson (some 0x8000000000000000) (.value (.object [])) = .error .indentation :=
  ⟨rfl, rfl, rfl⟩

end Manifest
