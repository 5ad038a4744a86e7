import DeckBinding.Data.Yaml.Token

set_option autoImplicit false

namespace DeckBinding.Yaml

/-- A document before its scalars have values. -/
inductive Node where
  | scalar (plain : Bool) (text : List Char)
  | sequence (items : List Node)
  | mapping (members : List (Node × Node))
deriving Inhabited

namespace Node

/-- The node of a member or an item that is left out. -/
def absent : Node := .scalar true []

/-- Whether a token that stands behind a key or a value of a block mapping shows that its node is
left out. -/
def endsBlockPart : List Token → Bool
  | .key :: _ => true
  | .value :: _ => true
  | .blockEnd :: _ => true
  | _ => false

/-- Whether a token that stands behind the dash of an item shows that its node is left out. In the
column of the mapping around it the next member shows it too. -/
def endsItem (inMapping : Bool) : List Token → Bool
  | .item :: _ => true
  | .blockEnd :: _ => true
  | .key :: _ => inMapping
  | .value :: _ => inMapping
  | _ => false

/-- Whether a token that stands behind a key or a value of a flow collection shows that its node is
left out. -/
def endsFlowPart (close : Token) : List Token → Bool
  | .comma :: _ => true
  | token :: _ => token == close
  | [] => false

mutual

/-- Reads a node. A block collection can stand here only in a block, and a sequence without a column
of its own only as part of a member. -/
def read? (inBlock inMember : Bool) : Nat → List Token → Option (Node × List Token)
  | 0, _ => none
  | fuel + 1, tokens =>
    match tokens with
    | .scalar plain text :: rest => some (.scalar plain text, rest)
    | .flowSequenceStart :: rest => do
      let (items, rest) ← readFlowItems? true fuel rest
      some (.sequence items, rest)
    | .flowMappingStart :: rest => do
      let (members, rest) ← readFlowMembers? true fuel rest
      some (.mapping members, rest)
    | .blockSequenceStart :: rest =>
      if inBlock then do
        let (items, rest) ← readItems? fuel rest
        some (.sequence items, rest)
      else none
    | .blockMappingStart :: rest =>
      if inBlock then do
        let (members, rest) ← readMembers? fuel rest
        some (.mapping members, rest)
      else none
    | .item :: _ =>
      if inMember then do
        let (items, rest) ← readOpenItems? fuel tokens
        some (.sequence items, rest)
      else none
    | _ => none
termination_by structural fuel => fuel

def readItems? : Nat → List Token → Option (List Node × List Token)
  | 0, _ => none
  | fuel + 1, tokens =>
    match tokens with
    | .item :: rest => do
      let (item, rest) ← if endsItem false rest then some (absent, rest)
        else read? true false fuel rest
      let (items, rest) ← readItems? fuel rest
      some (item :: items, rest)
    | .blockEnd :: rest => some ([], rest)
    | _ => none
termination_by structural fuel => fuel

/-- Reads the items of a block sequence in the column of the mapping around it. -/
def readOpenItems? : Nat → List Token → Option (List Node × List Token)
  | 0, _ => none
  | fuel + 1, tokens =>
    match tokens with
    | .item :: rest => do
      let (item, rest) ← if endsItem true rest then some (absent, rest)
        else read? true false fuel rest
      let (items, rest) ← readOpenItems? fuel rest
      some (item :: items, rest)
    | _ => some ([], tokens)
termination_by structural fuel => fuel

def readMembers? : Nat → List Token → Option (List (Node × Node) × List Token)
  | 0, _ => none
  | fuel + 1, tokens =>
    match tokens with
    | .key :: rest => do
      let (key, rest) ← if endsBlockPart rest then some (absent, rest) else read? true true fuel rest
      let (value, rest) ← match rest with
        | .value :: rest =>
          if endsBlockPart rest then some (absent, rest) else read? true true fuel rest
        | _ => some (absent, rest)
      let (members, rest) ← readMembers? fuel rest
      some ((key, value) :: members, rest)
    | .blockEnd :: rest => some ([], rest)
    | _ => none
termination_by structural fuel => fuel

/-- Reads a member of a flow collection behind the token of its key. -/
def readPair? (close : Token) : Nat → List Token → Option ((Node × Node) × List Token)
  | 0, _ => none
  | fuel + 1, tokens => do
    let isLeftOut := endsFlowPart close tokens || tokens.head? == some .value
    let (key, rest) ← if isLeftOut then some (absent, tokens) else read? false false fuel tokens
    match rest with
    | .value :: rest =>
      if endsFlowPart close rest then some ((key, absent), rest)
      else do
        let (value, rest) ← read? false false fuel rest
        some ((key, value), rest)
    | _ => some ((key, absent), rest)
termination_by structural fuel => fuel

/-- Reads the items of a flow sequence up to its end. All but the first stand behind a comma, and
one more comma can stand at the end. -/
def readFlowItems? (isFirst : Bool) : Nat → List Token → Option (List Node × List Token)
  | 0, _ => none
  | fuel + 1, tokens => do
    if let .flowSequenceEnd :: rest := tokens then return ([], rest)
    let tokens ← match isFirst, tokens with
      | true, tokens => some tokens
      | false, .comma :: rest => some rest
      | false, _ => none
    match tokens with
    | .flowSequenceEnd :: rest => some ([], rest)
    | .key :: rest => do
      let (member, rest) ← readPair? .flowSequenceEnd fuel rest
      let (items, rest) ← readFlowItems? false fuel rest
      some (.mapping [member] :: items, rest)
    | tokens => do
      let (item, rest) ← read? false false fuel tokens
      let (items, rest) ← readFlowItems? false fuel rest
      some (item :: items, rest)
termination_by structural fuel => fuel

/-- Reads the members of a flow mapping up to its end, with commas as in a flow sequence. A key can
stand alone. -/
def readFlowMembers? (isFirst : Bool) : Nat → List Token → Option (List (Node × Node) × List Token)
  | 0, _ => none
  | fuel + 1, tokens => do
    if let .flowMappingEnd :: rest := tokens then return ([], rest)
    let tokens ← match isFirst, tokens with
      | true, tokens => some tokens
      | false, .comma :: rest => some rest
      | false, _ => none
    match tokens with
    | .flowMappingEnd :: rest => some ([], rest)
    | .key :: rest => do
      let (member, rest) ← readPair? .flowMappingEnd fuel rest
      let (members, rest) ← readFlowMembers? false fuel rest
      some (member :: members, rest)
    | tokens => do
      let (key, rest) ← read? false false fuel tokens
      let (members, rest) ← readFlowMembers? false fuel rest
      some ((key, absent) :: members, rest)
termination_by structural fuel => fuel

end

/-- The node of a document. Marks can stand in front of it and behind it; without a node it is
empty. -/
def ofTokens? (tokens : List Token) : Option Node :=
  let fuel := 3 * tokens.length + 3
  let read := match tokens with
    | [] => some (absent, [])
    | .documentStart :: rest =>
      match rest with
      | [] => some (absent, [])
      | .documentEnd :: _ => some (absent, rest)
      | _ => read? true false fuel rest
    | tokens => read? true false fuel tokens
  match read with
  | some (node, rest) => if (rest.dropWhile (· == .documentEnd)).isEmpty then some node else none
  | none => none

end Node

end DeckBinding.Yaml
