/-!
# Records

A record in a document is a list of named values. A field that the record knows must not occur
twice, and one that it does not know is ignored.
-/

namespace TreeProtocol.Record

variable {α β : Type}

/-- The value of a field, if it occurs. Fails if it occurs twice. -/
def field? (members : List (String × α)) (name : String) : Option (Option α) :=
  match members.filter (·.1 == name) with
  | [] => some none
  | [(_, value)] => some (some value)
  | _ => none

/-- A field that must be there. -/
def required (decode : α → Option β) : Option α → Option β
  | some value => decode value
  | none => none

/-- A field with a value that counts if it is missing. -/
def defaulted {m : Type → Type} [Pure m] (missing : β) (decode : α → m β) : Option α → m β
  | some value => decode value
  | none => pure missing

end TreeProtocol.Record
