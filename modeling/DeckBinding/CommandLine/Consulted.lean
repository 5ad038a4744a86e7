import DeckBinding.CommandLine.Run

set_option autoImplicit false

namespace DeckBinding.CommandLine

def missingPictures (configuration : Configuration) (store : FileStore) : List Location :=
  match configuration.make store with
  | .error _ => []
  | .ok making =>
    making.presentation.warnings.filterMap fun warning =>
      match warning with
      | .imageNotFound path => some (.ofText path)
      | _ => none

def configuredPaths (configuration : Configuration) : List Location :=
  ["template", "data", "output"].filterMap fun key =>
    match configuration.location key with
    | .ok location => some location
    | .error _ => none

/-- The paths that a run looks at, as far as the files that are known tell. -/
def consulted (request : Request) (store : FileStore) : List Location :=
  let first := match request.config with
    | .text path => [Location.ofText path]
    | .nothing => []
  match loadConfiguration request store with
  | .error _ => first
  | .ok configuration =>
    let configuration := override configuration request
    first ++ configuredPaths configuration ++ missingPictures configuration store

/-- Where a request writes its deck, if it makes one. -/
def outputOf? (request : Request) (store : FileStore) : Option Location :=
  if request.inspects || request.plansOnly then none
  else
    match loadConfiguration request store with
    | .error _ => none
    | .ok configuration => ((override configuration request).location "output").toOption

end DeckBinding.CommandLine
