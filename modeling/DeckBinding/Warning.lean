set_option autoImplicit false

namespace DeckBinding

inductive Warning where
  | aliasRedefined (name old new : String)
  | pageSizeDiffers (slide : Int) (max items : Nat)
  | unsupportedFunction (name : String) (slide : Int)
  | imageWithoutPath (slide : Int)
  | imageNotFound (path : String)
  | finishedWithDiagnostics (count : Nat)
deriving DecidableEq

def Warning.text : Warning → String
  | .aliasRedefined name old new => s!"Alias '{name}' redefined: '{old}' -> '{new}'"
  | .pageSizeDiffers slide max items =>
    s!"Slide {slide}: #foreach max {max} differs from the {items} item(s) referenced on the slide; "
      ++ s!"using {max}"
  | .unsupportedFunction name slide => s!"Unsupported function '{name}' on slide {slide}"
  | .imageWithoutPath slide => s!"Image() without a path on slide {slide}"
  | .imageNotFound path => s!"Image not found: {path}"
  | .finishedWithDiagnostics count => s!"Generation finished with {count} diagnostic(s)"

end DeckBinding
