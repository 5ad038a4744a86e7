import DeckBinding.Proofs.Deck.Appending
import DeckBinding.Proofs.File.Writing
import DeckBinding.Proofs.Generation.Returns

set_option autoImplicit false

namespace DeckBinding

open DeckBinding.Number

variable {resolver : Resolver} {shown : Instance} {state after : ResolverState}

namespace Deck

variable {deck : Deck} {store after : FileStore} {path : Location}

end Deck

namespace Configuration

variable {configuration : Configuration} {store after : FileStore} {presentation : Presentation}

end Configuration

end DeckBinding
