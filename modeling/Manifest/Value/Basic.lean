import Manifest.Number.Binary

/-!
# Values

A document is a tree of values. Numbers are 32-bit integers and floats are single precision. An
object is a sequence of entries, each a record, which binds an identifier, or a call that may stand
for one; a call may also stand for a value. A typed value carries a tag.

Repeated identifiers are kept in order; looking one up finds the last. Two trees are `equal` when
they have the same shape and their floats are equal numbers, so that a tree with a float that is
not a number differs from itself.
-/

namespace Manifest

mutual

/-- A value of a document. -/
inductive Value
  | number (n : Int32)
  | float (x : Single)
  | text (s : String)
  | array (items : List Value)
  | object (entries : List Entry)
  /-- A function to be called on an argument, in place of a value. -/
  | call (function : String) (argument : Value)
  /-- A value with a tag that says what it means. -/
  | typed (kind : String) (value : Value)

/-- An entry of an object. -/
inductive Entry
  /-- An identifier bound to a value. -/
  | record (id : String) (value : Value)
  /-- A function to be called on an argument, in place of a record. -/
  | call (function : String) (argument : Value)

end

namespace Value

/-- The empty document. -/
instance : Inhabited Value := ⟨.object []⟩

/-- The items of an array; no other value has items. -/
def items : Value → List Value
  | array items => items
  | _ => []

/-- The entries of an object; no other value has entries. -/
def entries : Value → List Entry
  | object entries => entries
  | _ => []

end Value

namespace Entry

/-- The record that an entry is, unless it is a call. -/
def record? : Entry → Option (String × Value)
  | record id value => some (id, value)
  | call _ _ => none

/-- The records among the entries, in order. -/
def records (entries : List Entry) : List (String × Value) := entries.filterMap record?

/-- The value bound last to an identifier. -/
def lookup? (key : String) (entries : List Entry) : Option Value :=
  ((records entries).reverse.find? fun (id, _) ↦ id == key).map Prod.snd

end Entry

namespace Value

mutual

/-- Two trees agree when they have the same shape, the same texts and integers, and floats that
agree pairwise. -/
def agree (floats : Single → Single → Bool) : Value → Value → Bool
  | number m, number n => m == n
  | float x, float y => floats x y
  | text s, text t => s == t
  | array xs, array ys => agreeItems floats xs ys
  | object xs, object ys => agreeEntries floats xs ys
  | call f x, call g y => f == g && agree floats x y
  | typed k x, typed l y => k == l && agree floats x y
  | _, _ => false

/-- Two lists of values agree when they have one length and agree place by place. -/
def agreeItems (floats : Single → Single → Bool) : List Value → List Value → Bool
  | [], [] => true
  | x :: xs, y :: ys => agree floats x y && agreeItems floats xs ys
  | _, _ => false

/-- Two lists of entries agree when they have one length and agree place by place. -/
def agreeEntries (floats : Single → Single → Bool) : List Entry → List Entry → Bool
  | [], [] => true
  | .record i x :: xs, .record j y :: ys => i == j && agree floats x y && agreeEntries floats xs ys
  | .call f x :: xs, .call g y :: ys => f == g && agree floats x y && agreeEntries floats xs ys
  | _, _ => false

end

/-- Equality of trees whose floats are compared as numbers. -/
def equal (a b : Value) : Bool := agree Binary.numEq a b

mutual

/-- No call stands anywhere in the tree: every value is there and every entry is a record. -/
def isResolved : Value → Bool
  | number _ | float _ | text _ => true
  | array items => itemsResolved items
  | object entries => entriesResolved entries
  | call _ _ => false
  | typed _ value => isResolved value

/-- No call stands in any of the items. -/
def itemsResolved : List Value → Bool
  | [] => true
  | item :: rest => isResolved item && itemsResolved rest

/-- Every entry is a record with a resolved value. -/
def entriesResolved : List Entry → Bool
  | [] => true
  | .record _ value :: rest => isResolved value && entriesResolved rest
  | .call _ _ :: _ => false

end

mutual

/-- Exact agreement is equality. -/
theorem agree_beq_iff : (a b : Value) → (agree (· == ·) a b = true ↔ a = b)
  | number m, b => by cases b <;> simp [agree]
  | float x, b => by cases b <;> simp [agree]
  | text s, b => by cases b <;> simp [agree]
  | array xs, b => by cases b <;> simp [agree, agreeItems_beq_iff xs]
  | object xs, b => by cases b <;> simp [agree, agreeEntries_beq_iff xs]
  | call f x, b => by cases b <;> simp [agree, agree_beq_iff x]
  | typed k x, b => by cases b <;> simp [agree, agree_beq_iff x]

/-- Exact agreement of lists of values is equality. -/
theorem agreeItems_beq_iff : (xs ys : List Value) → (agreeItems (· == ·) xs ys = true ↔ xs = ys)
  | [], ys => by cases ys <;> simp [agreeItems]
  | x :: xs, ys => by cases ys <;> simp [agreeItems, agree_beq_iff x, agreeItems_beq_iff xs]

/-- Exact agreement of lists of entries is equality. -/
theorem agreeEntries_beq_iff :
    (xs ys : List Entry) → (agreeEntries (· == ·) xs ys = true ↔ xs = ys)
  | [], ys => by cases ys <;> simp [agreeEntries]
  | .record i x :: xs, [] => by simp [agreeEntries]
  | .record i x :: xs, y :: ys => by
    cases y <;> simp [agreeEntries, agree_beq_iff x, agreeEntries_beq_iff xs]
  | .call f x :: xs, [] => by simp [agreeEntries]
  | .call f x :: xs, y :: ys => by
    cases y <;> simp [agreeEntries, agree_beq_iff x, agreeEntries_beq_iff xs]

end

/-- Identity of trees, float for float, is decidable. -/
instance : DecidableEq Value := fun a b ↦ decidable_of_iff _ (agree_beq_iff a b)

end Value

/-- Identity of entries is decidable. -/
instance : DecidableEq Entry := fun a b ↦
  decidable_of_iff _ ((Value.agreeEntries_beq_iff [a] [b]).trans (by simp))

/-- Whether a result is a given value is decidable, whatever the faults are. -/
instance decidableEqOk {ε α : Type} (result : Except ε α) (value : α)
    [∀ other : α, Decidable (other = value)] : Decidable (result = .ok value) :=
  match result with
  | .ok other => decidable_of_iff (other = value) ⟨congrArg Except.ok, Except.ok.inj⟩
  | .error _ => isFalse nofun

end Manifest
