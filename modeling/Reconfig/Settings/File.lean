/-
Settings that come from files.
-/
import Reconfig.Json.Canonical
import Reconfig.Json.Parser
import Reconfig.Settings.Path
import Reconfig.Toml.Document

namespace Reconfig
namespace Settings

inductive Format where
  | json
  | toml
deriving DecidableEq

mutual

/-- A whole number that does not fit sixty-four bits with a sign is kept as a
floating-point number. -/
def narrowed : Json → Json
  | .int n => if n < 2 ^ 63 then .int n else .float (.ofNat n.toNat)
  | .arr items => .arr (narrowedItems items)
  | .obj members => .obj (narrowedMembers members)
  | j => j

def narrowedItems : List Json → List Json
  | [] => []
  | item :: rest => narrowed item :: narrowedItems rest

def narrowedMembers : List (String × Json) → List (String × Json)
  | [] => []
  | (name, value) :: rest => (name, narrowed value) :: narrowedMembers rest

end

namespace Format

def all : List Format := [.json, .toml]

def extension : Format → String
  | .json => "json"
  | .toml => "toml"

def ofName? (file : String) : Option Format :=
  match ((file.splitOn "/").getLast?.getD "").splitOn "." with
  | [_] => none
  | ["", _] => none
  | parts => all.find? fun f => some f.extension == parts.getLast?

/-- The entries of a text, which has a table at its root. A mark of byte order
in front is passed over. -/
def entries? (f : Format) (text : String) : Option (List (String × Json)) := do
  let text := String.ofList (match text.toList with
    | '\ufeff' :: rest => rest
    | s => s)
  let root ← match f with
    | .json => (Json.parse? text).map fun j => narrowed j.canonical
    | .toml => Toml.parse? text
  root.asObject?

end Format

/-- The files that can be read, by name. -/
abbrev Files := Dict String

namespace Files

/-- The file with the name or, where there is none, with an extension added to
the name. The file has to be of a known format. -/
def find? (files : Files) (name : String) : Option (Format × String) :=
  match files.get? name with
  | some text => (Format.ofName? name).map (·, text)
  | none => Format.all.findSome? fun f =>
    (files.get? (name ++ "." ++ f.extension)).map (f, ·)

end Files

inductive FileFault where
  | notFound
  | malformed
deriving DecidableEq

def Files.read (files : Files) (name : String) : Except FileFault (List (String × Json)) :=
  match files.find? name with
  | none => .error .notFound
  | some (f, text) =>
    match f.entries? text with
    | none => .error .malformed
    | some entries => .ok entries

end Settings
end Reconfig
