import Manifest.Value.Description

/-!
# Comparing data

Plain data are compared by what they say: numbers by their value, whether whole or not, with truth
values as one and zero; arrays place by place; objects member by member in any order. A value of a
document, a record and plain data are never equal to one another.
-/

namespace Manifest

namespace Json

/-- The whole number that a datum stands for, if it stands for one. -/
def whole? : Json → Option Int
  | bool b => some (if b then 1 else 0)
  | integer n => some n
  | real x => x.toInt?
  | _ => none

/-- Two numbers are equal: as whole numbers, or as floating point numbers. -/
def sameNumber (a b : Json) : Bool :=
  match a.whole?, b.whole? with
  | some m, some n => m == n
  | _, _ =>
    match a, b with
    | real x, real y => x.numEq y
    | _, _ => false

mutual

/-- Two data say the same. -/
def equal : Json → Json → Bool
  | null, null => true
  | string s, string t => s == t
  | array xs, array ys => itemsEqual xs ys
  | object xs, object ys => xs.length == ys.length && membersEqual ys xs
  | a, b => sameNumber a b

/-- Two lists of data say the same place by place. -/
def itemsEqual : List Json → List Json → Bool
  | [], [] => true
  | x :: xs, y :: ys => equal x y && itemsEqual xs ys
  | _, _ => false

/-- Every member of a list has an equal one of its name among those of an object. -/
def membersEqual (others : Table Json) : List (String × Json) → Bool
  | [] => true
  | (name, x) :: rest =>
    (match others.get? name with
      | some y => equal x y
      | none => false) && membersEqual others rest

end

end Json

/-- Two data are equal: both values, both records, or both plain. -/
def Datum.equal : Datum → Datum → Bool
  | value v, value w => v.equal w
  | record i v, record j w => i == j && v.equal w
  | plain a, plain b => a.equal b
  | _, _ => false

end Manifest
