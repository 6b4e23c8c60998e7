import Manifest.Number.Binary
import Manifest.Table

/-!
# Plain data

The data of a JSON text: null, truth values, whole numbers, floating point numbers, texts, arrays,
and objects, whose members are a table.
-/

namespace Manifest

/-- Plain data. -/
inductive Json
  | null
  | bool (b : Bool)
  | integer (n : Int)
  | real (x : Double)
  | string (s : String)
  | array (items : List Json)
  | object (members : List (String × Json))

namespace Json

/-- The datum that stands for nothing. -/
instance : Inhabited Json := ⟨.null⟩

/-- The members of an object; no other datum has members. -/
def members : Json → Table Json
  | object members => members
  | _ => []

end Json
end Manifest
