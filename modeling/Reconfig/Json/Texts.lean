/-
Changing the texts inside a document.
-/
import Reconfig.Json.Basic

namespace Reconfig
namespace Json

mutual

/-- Changes every text, given the name of the member that it stands in. -/
def mapTexts (f : String → String → String) (name : String) : Json → Json
  | .str s => .str (f name s)
  | .arr items => .arr (mapItemTexts f name items)
  | .obj members => .obj (mapMemberTexts f members)
  | j => j

def mapItemTexts (f : String → String → String) (name : String) : List Json → List Json
  | [] => []
  | item :: rest => item.mapTexts f name :: mapItemTexts f name rest

def mapMemberTexts (f : String → String → String) :
    List (String × Json) → List (String × Json)
  | [] => []
  | (name, value) :: rest => (name, value.mapTexts f name) :: mapMemberTexts f rest

end

end Json
end Reconfig
