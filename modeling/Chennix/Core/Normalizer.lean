import Chennix.Foundations.Map
import Chennix.Foundations.Text
import Mathlib.Data.List.AList
import Mathlib.Data.List.Sort

/-!
# Model names

The names clients send, mapped to models. Names are compared without regard to case and to white
space around them; lower case is that of the Unicode standard, a parameter here.

The mapping is loaded from a hash map, whose entries come in no particular order. Where two of its
names become one, the later entry counts, so the order matters: it is given by ranks.

## Main definitions

* `AliasMapping` — the names and the models they lead to
* `Normalizer.reload`, `Normalizer.resolve` — take a mapping over, look a name up
-/

namespace Chennix

open Foundations

/-- Names with the model each leads to, its id and its canonical name. -/
abbrev AliasMapping : Type := AList fun _ : String => ℤ × String

/-- The entries in the order a hash map happens to give them out. -/
def AliasMapping.inOrder (rank : String → ℕ) (mapping : AliasMapping) :
    List (Sigma fun _ : String => ℤ × String) :=
  mapping.entries.insertionSort fun e e' => rank e.1 ≤ rank e'.1

namespace Normalizer

variable (lower : String → String)

/-- A name as it is compared. -/
def normalized (name : String) : String := lower (Text.trim name)

def resolve (cache : Map String (ℤ × String)) (name : String) : Option (ℤ × String) :=
  let k := normalized lower name
  if k = "" then none else cache k

/-- The names of a mapping, as they are compared. -/
def reload (rank : String → ℕ) (mapping : AliasMapping) : Map String (ℤ × String) :=
  (mapping.inOrder rank).foldl (fun m e =>
    let k := normalized lower e.1
    if k = "" then m else m.insert k e.2) Map.empty

end Normalizer

end Chennix
