import DeckBinding.Data.Yaml.Content

set_option autoImplicit false

namespace DeckBinding.Yaml

def isPermitted (c : Char) : Bool :=
  let n := c.toNat
  n == 9 || n == 10 || n == 13 || (0x20 ≤ n && n ≤ 0x7e) || n == 0x85
    || (0xa0 ≤ n && n ≤ 0xfffd) || 0x10000 ≤ n

/-- Reads a document. What is no document is found before any of its scalars gets a value. -/
def read (text : List Char) : Except Failure Value :=
  if !text.all isPermitted then .error .malformed
  else
    match tokensOf text with
    | .error error => .error (.scalar error)
    | .ok tokens =>
      match Node.ofTokens? tokens with
      | none => .error .malformed
      | some node => node.content

end DeckBinding.Yaml
