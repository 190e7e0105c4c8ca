/-
Stored values: texts, counters, records of values, and documents.
-/
import Reconfig.Json.Canonical
import Reconfig.Json.Fields

namespace Reconfig

inductive Value where
  | text (s : String)
  | long (n : Nat)
  | object (entries : List (String × Value))
  /-- A document whose type only its owner knows. -/
  | external (document : Json)
deriving Inhabited

abbrev Record := Dict Value

namespace Value

def ofRecord (r : Record) : Value := .object r.entries

/-- Documents are stored in canonical form. -/
def ofDocument (j : Json) : Value := .external j.canonical

def text? : Value → Option String
  | .text s => some s
  | _ => none

def long? : Value → Option Nat
  | .long n => some n
  | _ => none

def record? : Value → Option Record
  | .object entries => some (Dict.ofList entries)
  | _ => none

@[simp] theorem record?_ofRecord (r : Record) : (ofRecord r).record? = some r := by
  simp [record?, ofRecord]

mutual

def toJson : Value → Json
  | .text s => .obj [("kind", .str "string"), ("value", .str s)]
  | .long n => .obj [("kind", .str "long"), ("value", .ofNat n)]
  | .object entries =>
    .obj [("kind", .str "object"), ("value", .obj [("entries", .obj (entriesJson entries))])]
  | .external document => .obj [("kind", .str "external"), ("value", document)]

def entriesJson : List (String × Value) → List (String × Json)
  | [] => []
  | (key, value) :: rest => (key, value.toJson) :: entriesJson rest

end

/-- Reads a value whose records nest at most as deeply as the fuel says. -/
def read? : Nat → Json → Option Value
  | 0, _ => none
  | fuel + 1, j => do
    let (kind, content) ← j.adjacent? "kind" "value"
    let content ← content
    match ← kind.variantName? with
    | "string" => content.asString?.map .text
    | "long" => content.asWord64?.map .long
    | "object" =>
      let f ← content.fields? ["entries"]
      let entries ← f.required? "entries" (Json.dictOf? (read? fuel))
      pure (ofRecord entries)
    | "external" => some (ofDocument content)
    | _ => none

/-- A record holds its values at a greater depth, so the depth of the document
is fuel enough. -/
def ofJson? (j : Json) : Option Value := read? (j.depth + 1) j

end Value

/-- What a stored value should have been. -/
inductive ValueFault where
  | notExternal (key : String)
  | missing (owner key : String)
deriving DecidableEq

def ValueFault.message : ValueFault → String
  | .notExternal key => s!"'{key}' is not an external value"
  | .missing owner key => s!"{owner}: missing '{key}'"

namespace Record

def toJson (r : Record) : Json := .obj [("entries", .obj (Value.entriesJson r.entries))]

def ofJson? (j : Json) : Option Record := do
  let f ← j.fields? ["entries"]
  f.required? "entries" (Json.dictOf? Value.ofJson?)

def text? (r : Record) (key : String) : Option String := do (← r.get? key).text?

def long? (r : Record) (key : String) : Option Nat := do (← r.get? key).long?

/-- The document under the key, if the key has a value at all. -/
def document? (r : Record) (key : String) : Except ValueFault (Option Json) :=
  match r.get? key with
  | some (.external document) => .ok (some document)
  | some _ => .error (.notExternal key)
  | none => .ok none

/-- The text that the owner cannot do without. -/
def requireText (r : Record) (key owner : String) : Except ValueFault String :=
  match r.text? key with
  | some s => .ok s
  | none => .error (.missing owner key)

/-- The counter that the owner cannot do without. -/
def requireLong (r : Record) (key owner : String) : Except ValueFault Nat :=
  match r.long? key with
  | some n => .ok n
  | none => .error (.missing owner key)

end Record
end Reconfig
