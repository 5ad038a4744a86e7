import DeckBinding.CommandLine.Run
import DeckBinding.Proofs.Deck.Presentation

set_option autoImplicit false

namespace DeckBinding

namespace Configuration

end Configuration

namespace CommandLine

variable {request : Request} {configuration : Configuration} {store after : FileStore}

end CommandLine

end DeckBinding
