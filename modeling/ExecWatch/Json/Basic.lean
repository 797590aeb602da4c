import ExecWatch.Number.Binary64

/-!
# JSON values

Values of the JSON format. Whole numbers and numbers with a fraction or an exponent are kept apart;
the members of an object keep their order.
-/

namespace ExecWatch

inductive Json where
  | null
  | bool (b : Bool)
  | int (n : Int)
  | real (x : Binary64)
  | string (s : String)
  | array (items : List Json)
  | object (members : List (String × Json))
deriving Inhabited

namespace Json

/-- The member of an object with the given key; the last one counts. -/
def member? (key : String) : Json → Option Json
  | .object members => members.reverse.lookup key
  | _ => none

end Json

end ExecWatch
