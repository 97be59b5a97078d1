import FeatureCompiler.Disk.Basic

/-!
What a command leaves behind when it ends.
-/

namespace FeatureCompiler.Command

structure Result where
  exitCode : Nat
  output : String
  errors : String
  disk : Disk
deriving Repr

end FeatureCompiler.Command
