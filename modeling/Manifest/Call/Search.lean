import Manifest.Value.Description

/-!
# Searching for a call

Whether a call stands anywhere in a datum is found with a list of parts that are still to be looked
at. What is no call is replaced by its own parts, and the last of these are looked at first. The
search ends because the parts of a datum weigh less than the datum (`totalWeight_parts_lt`).
-/

namespace Manifest

namespace Value

mutual

/-- The number of values and entries in a tree. -/
def weight : Value → Nat
  | number _ | float _ | text _ => 1
  | array items => 1 + itemsWeight items
  | object entries => 1 + entriesWeight entries
  | call _ x => 1 + weight x
  | typed _ x => 1 + weight x

/-- The number of values and entries in items. -/
def itemsWeight : List Value → Nat
  | [] => 0
  | item :: rest => weight item + itemsWeight rest

/-- The number of values and entries in entries, themselves counted. -/
def entriesWeight : List Entry → Nat
  | [] => 0
  | .record _ x :: rest => 1 + weight x + entriesWeight rest
  | .call _ x :: rest => 1 + weight x + entriesWeight rest

end

end Value

namespace Datum

/-- The number of values and entries in a datum. -/
def weight : Datum → Nat
  | value v => v.weight
  | record _ v => 1 + v.weight
  | plain _ => 1

/-- The number of values and entries in a list of data. -/
def totalWeight : List Datum → Nat
  | [] => 0
  | datum :: rest => datum.weight + totalWeight rest

/-- The data directly inside a datum. -/
def parts : Datum → List Datum
  | value (.array items) => items.map value
  | value (.object entries) => entries.map ofEntry
  | value (.typed _ x) | record _ x => [value x]
  | _ => []

/-- Two lists together weigh what both weigh. -/
theorem totalWeight_append (xs ys : List Datum) :
    totalWeight (xs ++ ys) = totalWeight xs + totalWeight ys := by
  induction xs with
  | nil => simp [totalWeight]
  | cons x xs ih => simp [totalWeight, ih, Nat.add_assoc]

/-- A list weighs the same in either order. -/
theorem totalWeight_reverse (xs : List Datum) : totalWeight xs.reverse = totalWeight xs := by
  induction xs with
  | nil => rfl
  | cons x xs ih => simp [totalWeight_append, totalWeight, ih, Nat.add_comm]

/-- Items weigh as data what they weigh in their array. -/
theorem totalWeight_items (items : List Value) :
    totalWeight (items.map value) = Value.itemsWeight items := by
  induction items with
  | nil => rfl
  | cons item rest ih => simp [totalWeight, Value.itemsWeight, weight, ih]

/-- Entries weigh as data what they weigh in their object. -/
theorem totalWeight_entries (entries : List Entry) :
    totalWeight (entries.map ofEntry) = Value.entriesWeight entries := by
  induction entries with
  | nil => rfl
  | cons entry rest ih =>
    cases entry <;> simp [totalWeight, Value.entriesWeight, ofEntry, weight, Value.weight, ih]

/-- The parts of a datum weigh less than the datum. -/
theorem totalWeight_parts_lt (datum : Datum) : totalWeight datum.parts < datum.weight := by
  cases datum with
  | record id v => simp [parts, totalWeight, weight]
  | plain data => simp [parts, totalWeight, weight]
  | value v =>
    cases v <;>
      simp only [parts, totalWeight, totalWeight_items, totalWeight_entries, weight,
        Value.weight] <;>
      omega

/-- The first call that is found in the data of a list or in anything inside them: its function and
its argument. -/
def findCall? : List Datum → Option (String × Value)
  | [] => none
  | value (.call f x) :: _ => some (f, x)
  | datum :: pending => findCall? (datum.parts.reverse ++ pending)
termination_by pending => totalWeight pending
decreasing_by
  rw [totalWeight_append, totalWeight_reverse, totalWeight]
  exact Nat.add_lt_add_right (totalWeight_parts_lt _) _

/-- A datum with a call nowhere in it. -/
def isCallFree (datum : Datum) : Bool := (findCall? [datum]).isNone

end Datum
end Manifest
