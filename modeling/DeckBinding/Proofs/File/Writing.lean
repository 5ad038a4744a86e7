import DeckBinding.File.Store
import DeckBinding.Proofs.Keyed
import DeckBinding.Proofs.Outcome

set_option autoImplicit false

namespace DeckBinding

namespace FileStore

variable {store after : FileStore} {location : Location} {content : FileContent}
  {names place : List String}

end FileStore

end DeckBinding
