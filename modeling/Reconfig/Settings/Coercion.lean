/-
Reading settings leniently: a number may be given as a text and a text as a
number.
-/
import Reconfig.Json.Fields
import Reconfig.Number.Layout
import Reconfig.Topology.Wire

namespace Reconfig
namespace Settings

open Json (Fields)
open Number

/-- A text, or a value that has one. -/
def text? : Json → Option String
  | .str s => some s
  | .bool b => some (toString b)
  | .int n => some (toString n)
  | .float x => some (String.ofList (Layout.plain.render x))
  | _ => none

/-- The nearest whole number, with a half going up. One that is too small or
too large gives way to the nearest of sixty-four bits. -/
def rounded : Binary64 → Nat
  | .finite true _ _ => 0
  | .finite false m e =>
    let (n, d) := Binary64.ratio m e
    min ((2 * n + d) / (2 * d)) (Text.word64 - 1)
  | .infinite negative => if negative then 0 else Text.word64 - 1
  | .nan => 0

/-- A count below the bound. A word for yes counts as one and a word for no as
zero. -/
def count? (bound : Nat) (j : Json) : Option Nat :=
  let n := match j with
    | .int (.ofNat n) => some n
    | .bool b => some b.toNat
    | .float x => some (rounded x)
    | .str s =>
      let lower := s.map Char.toLower
      if lower ∈ ["true", "on", "yes"] then some 1
      else if lower ∈ ["false", "off", "no"] then some 0
      else Text.readNat? Text.word64 s.toList
    | _ => none
  n.filter (· < bound)

def word64? (j : Json) : Option UInt64 := (count? Text.word64 j).map UInt64.ofNat

/-- One of the names in either case, as a text or as the only name of a table. -/
def choice? (names : List String) (j : Json) : Option String := do
  let shown ← match j with
    | .str s => some s
    | .obj [(s, _)] => some s
    | _ => none
  let lower := shown.map Char.toLower
  names.find? (· == lower)

/-- The fields of a table, or of an array in their order. What an array has
beyond them is passed over. -/
def fields? (names : List String) : Json → Option Fields
  | .arr items => Json.fields? names (.arr (items.take names.length))
  | j => Json.fields? names j

end Settings

open Settings
open Json (nullable? dictOf? listOf?)

def Limits.ofSettings? (j : Json) : Option Limits := do
  let f ← fields? ["max_offheap_mb"] j
  pure ⟨← f.defaulted? "max_offheap_mb" (nullable? word64?) none⟩

def Node.ofSettings? (j : Json) : Option Node := do
  let f ← fields? ["name", "hostname", "port", "offheap_resources", "settings"] j
  pure {
    name := ← f.required? "name" text?
    hostname := ← f.required? "hostname" text?
    port := UInt16.ofNat (← f.required? "port" (count? (2 ^ 16)))
    offheap := ← f.defaulted? "offheap_resources" (dictOf? word64?) ∅
    settings := ← f.defaulted? "settings" (dictOf? text?) ∅ }

def Stripe.ofSettings? (j : Json) : Option Stripe := do
  let f ← fields? ["name", "nodes"] j
  pure {
    name := ← f.required? "name" text?
    nodes := ← f.required? "nodes" (listOf? Node.ofSettings?) }

def Cluster.ofSettings? (j : Json) : Option Cluster := do
  let f ← fields? ["name", "stripes", "settings"] j
  pure {
    name := ← f.required? "name" text?
    stripes := ← f.required? "stripes" (listOf? Stripe.ofSettings?)
    settings := ← f.defaulted? "settings" (dictOf? text?) ∅ }

end Reconfig
