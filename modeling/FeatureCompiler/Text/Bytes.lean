/-!
Texts measured in bytes of their UTF-8 form.
-/

namespace FeatureCompiler.Text

def byteCount : List Char → Nat
  | [] => 0
  | c :: rest => c.utf8Size + byteCount rest

end FeatureCompiler.Text
