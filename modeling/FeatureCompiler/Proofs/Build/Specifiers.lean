import FeatureCompiler.Build.Layout
import FeatureCompiler.Proofs.Outcome
import FeatureCompiler.Proofs.Path.Relative
import Mathlib.Data.List.Forall2

/-!
How generated modules import step scripts. There is one specifier for each script of the catalog, in
its order, and from the directory of the module it leads where the path of the script leads from the
working directory. A specifier is a text, so names that are none are replaced in it.
-/

namespace FeatureCompiler

namespace Catalog

end Catalog

end FeatureCompiler
