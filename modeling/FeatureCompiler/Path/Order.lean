import FeatureCompiler.Path.Basic
import FeatureCompiler.Text.Order

/-!
The order of paths: component by component, the root before a dot, a dot before two dots, two dots
before names, and names by their bytes. A path comes before the paths below it.
-/

namespace FeatureCompiler.Path

def Component.rank : Component → Nat
  | .root => 0
  | .here => 1
  | .up => 2
  | .name _ => 3

def Component.compare : Component → Component → Ordering
  | .name c, .name d => Text.compareBytes c d
  | c, d => Ord.compare c.rank d.rank

def compareComponents : List Component → List Component → Ordering
  | [], [] => .eq
  | [], _ :: _ => .lt
  | _ :: _, [] => .gt
  | c :: cs, d :: ds => (Component.compare c d).then (compareComponents cs ds)

def compare (p q : Path) : Ordering :=
  compareComponents p.components q.components

end FeatureCompiler.Path
