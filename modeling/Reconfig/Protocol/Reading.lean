/-
Messages from text, and why a text is no message.

A text may be malformed, which no document is, or it may be a document of
another shape. Where it has both faults, the one that stands first counts, so
the text is followed in order along the shape that is expected.
-/
import Reconfig.Json.Parser
import Reconfig.Protocol.Wire

namespace Reconfig

inductive ReadFault where
  | malformed
  | misshapen
deriving DecidableEq

/-- What is expected at a place of a text. -/
inductive Shape where
  /-- A text or a number. A container is refused at its first character. -/
  | scalar (reads : Json → Bool)
  /-- A value that is judged when it is complete. -/
  | whole (reads : Json → Bool)
  /-- A name, or a table whose only member has that name. Nothing else may stand
  where a name is expected. -/
  | choice (reads : Json → Bool)
  /-- The fields in their order, none of which may be missing. -/
  | record (fields : List (String × Shape))

namespace Shape

open Json (skipSpace)

/-- Judges a value that is complete, wherever it stands. -/
def judgeValue (room : Nat) (reads : Json → Bool) (s : List Char) :
    Except ReadFault (List Char) :=
  match Json.value (3 * s.length + 3) room s with
  | none => .error .malformed
  | some (j, rest) => if reads j then .ok rest else .error .misshapen

def judgeChoice (room : Nat) (reads : Json → Bool) (s : List Char) :
    Except ReadFault (List Char) :=
  match Json.value (3 * s.length + 3) room s with
  | none => .error .malformed
  | some (j, rest) =>
    if reads j then .ok rest
    else
      match j with
      | .str _ => .error .misshapen
      | .obj ((name, value) :: _) =>
        -- a second member is met only after the first one was found in order
        .error (if reads (.obj [(name, value)]) then .malformed else .misshapen)
      | _ => .error .malformed

/-- The rest of the text after a character that has to follow. -/
def after (c : Char) (s : List Char) : Except ReadFault (List Char) :=
  match skipSpace s with
  | d :: rest => if c = d then .ok rest else .error .malformed
  | [] => .error .malformed

mutual

/-- Follows the text along the shape, and gives the rest. The room is the number
of containers that may still be opened. Each call takes a character or passes
to a smaller shape. -/
def judge : Nat → Nat → Shape → List Char → Except ReadFault (List Char)
  | 0, _, _, _ => .error .malformed
  | fuel + 1, room, shape, s =>
    match shape, skipSpace s with
    | .scalar _, '[' :: _ => .error .misshapen
    | .scalar _, '{' :: _ => .error .misshapen
    | .scalar reads, s => judgeValue room reads s
    | .whole reads, s => judgeValue room reads s
    | .choice reads, s => judgeChoice room reads s
    | .record fields, '{' :: rest =>
      match room with
      | 0 => .error .malformed
      | room + 1 =>
        match skipSpace rest with
        | '}' :: rest => if fields.isEmpty then .ok rest else .error .misshapen
        | rest => judgeMembers fuel room fields [] rest
    | .record fields, '[' :: rest =>
      match room with
      | 0 => .error .malformed
      | room + 1 => judgeItems fuel room fields true rest
    | .record _, s => judgeValue room (fun _ => false) s

/-- Follows the members of a record from one of them on. -/
def judgeMembers : Nat → Nat → List (String × Shape) → List String → List Char →
    Except ReadFault (List Char)
  | 0, _, _, _, _ => .error .malformed
  | fuel + 1, room, fields, seen, s => do
    let s ← after '"' s
    match Json.stringBody (s.length + 1) s with
    | none => .error .malformed
    | some (name, rest) =>
      let rest ← after ':' rest
      if name ∈ seen then .error .misshapen
      else
        let field := fields.lookup name
        let rest ← match field with
          | none => judgeValue room (fun _ => true) rest
          | some shape => judge fuel room shape rest
        let seen := if field.isSome then name :: seen else seen
        match skipSpace rest with
        | ',' :: rest => judgeMembers fuel room fields seen rest
        | '}' :: rest =>
          if fields.all fun f => seen.contains f.1 then .ok rest else .error .misshapen
        | _ => .error .malformed

/-- Follows the fields of a record that come as items. -/
def judgeItems : Nat → Nat → List (String × Shape) → Bool → List Char →
    Except ReadFault (List Char)
  | 0, _, _, _, _ => .error .malformed
  | _, _, [], _, s => after ']' s
  | fuel + 1, room, (_, shape) :: fields, first, s => do
    match skipSpace s with
    | ']' :: _ => .error .misshapen
    | s =>
      let s ← if first then .ok s else after ',' s
      match skipSpace s with
      | ']' :: _ => .error .malformed
      | s => judgeItems fuel room fields false (← judge fuel room shape s)

end

end Shape

namespace Message

def contextShape : Shape :=
  .record [("expected_mutative_message_count", .scalar fun j => j.asWord64?.isSome),
    ("host", .scalar fun j => j.asString?.isSome),
    ("user", .scalar fun j => j.asString?.isSome)]

def uuidShape : Shape := .scalar fun j => (Uuid.ofJson? j).isSome

def shape (phase : Phase) : Shape :=
  let front := [("context", contextShape), ("change_uuid", uuidShape)]
  match phase with
  | .prepare =>
    .record (front ++ [("version_number", .scalar fun j => j.asWord64?.isSome),
      ("change", .whole fun j => (Change.ofJson? j).isSome)])
  | .force => .record (front ++ [("target", .choice fun j => (ChangeState.ofJson? j).isSome)])
  | _ => .record front

def read (phase : Phase) (s : List Char) : Except ReadFault Message := do
  let _ ← (shape phase).judge (3 * s.length + 3) Json.depthLimit s
  match (Json.front s).bind fun read => ofJson? phase read.1 with
  | some m => .ok m
  | none => .error .misshapen

end Message
end Reconfig
