import RunReport.Yaml.Token

/-!
# Documents

A text holds one document, whose tokens make up one node: a scalar, a list or a map.
A scalar tells whether it was written without quotes, because only then can it stand
for nothing. A map keeps its entries in the order of the text, repeated keys included.

A value that is left out is an absent one. In a map the items of a list may stand in
the column of their key; such a list has no end mark of its own. Within brackets and
braces a comma may stand at the end.
-/

namespace RunReport

/-- A YAML node. -/
inductive Yaml where
  /-- A scalar and whether it is written without quotes. -/
  | scalar (plain : Bool) (text : String)
  /-- A list. -/
  | sequence (items : List Yaml)
  /-- Keys and values in their order. -/
  | mapping (entries : List (Yaml × Yaml))

namespace Yaml

/-- The scalar that an absent value stands for. -/
def absent : Yaml := .scalar true ""

/-- Whether a node is a plain scalar that denotes nothing. -/
def isNull : Yaml → Bool
  | .scalar true text => ["", "~", "null", "Null", "NULL"].contains text
  | _ => false

/-- Whether one of the given tokens comes next. -/
def atToken (ts : List Token) : List Token → Bool
  | [] => false
  | t :: _ => ts.contains t

mutual

/-- The node that begins here. Only `inBlock` may it be shaped by indentation,
and only `underKey` may it be a list in the column of its key. -/
def readNode (inBlock underKey : Bool) : Nat → List Token → Option (Yaml × List Token)
  | 0, _ => none
  | _ + 1, .scalar plain text :: rest => some (.scalar plain text, rest)
  | fuel + 1, .flowSequence :: rest => (readFlowItems fuel rest).map fun (items, rest) =>
    (.sequence items, rest)
  | fuel + 1, .flowMapping :: rest => (readFlowEntries fuel rest).map fun (entries, rest) =>
    (.mapping entries, rest)
  | fuel + 1, .blockSequence :: rest =>
    if inBlock then (readItems fuel rest).map fun (items, rest) => (.sequence items, rest)
    else none
  | fuel + 1, .blockMapping :: rest =>
    if inBlock then (readEntries fuel rest).map fun (entries, rest) => (.mapping entries, rest)
    else none
  | fuel + 1, .blockEntry :: rest =>
    if underKey then (readItemsUnderKey fuel (.blockEntry :: rest)).map fun (items, rest) =>
      (.sequence items, rest)
    else none
  | _, _ => none

/-- The node that begins here, or an absent one before one of the given tokens. -/
def readNodeBefore (ends : List Token) (inBlock underKey : Bool) :
    Nat → List Token → Option (Yaml × List Token)
  | 0, _ => none
  | fuel + 1, ts =>
    if atToken ends ts then some (absent, ts) else readNode inBlock underKey fuel ts

/-- The items of a list with hyphens and its end mark. -/
def readItems : Nat → List Token → Option (List Yaml × List Token)
  | 0, _ => none
  | fuel + 1, .blockEntry :: rest => do
    let (item, rest) ← readNodeBefore [.blockEntry, .blockEnd] true false fuel rest
    let (items, rest) ← readItems fuel rest
    some (item :: items, rest)
  | _ + 1, .blockEnd :: rest => some ([], rest)
  | _, _ => none

/-- The items of a list in the column of its key, which ends with the last. -/
def readItemsUnderKey : Nat → List Token → Option (List Yaml × List Token)
  | 0, _ => none
  | fuel + 1, .blockEntry :: rest => do
    let (item, rest) ← readNodeBefore [.blockEntry, .key, .value, .blockEnd] true false fuel rest
    let (items, rest) ← readItemsUnderKey fuel rest
    some (item :: items, rest)
  | _ + 1, rest => some ([], rest)

/-- The entries of a map shaped by indentation and its end mark. -/
def readEntries : Nat → List Token → Option (List (Yaml × Yaml) × List Token)
  | 0, _ => none
  | fuel + 1, .key :: rest => do
    let ends : List Token := [.key, .value, .blockEnd]
    let (key, rest) ← readNodeBefore ends true true fuel rest
    let (value, rest) ← match rest with
      | .value :: rest => readNodeBefore ends true true fuel rest
      | rest => some (absent, rest)
    let (entries, rest) ← readEntries fuel rest
    some ((key, value) :: entries, rest)
  | _ + 1, .blockEnd :: rest => some ([], rest)
  | _, _ => none

/-- The items of a list in brackets and its end. -/
def readFlowItems : Nat → List Token → Option (List Yaml × List Token)
  | 0, _ => none
  | _ + 1, .flowSequenceEnd :: rest => some ([], rest)
  | fuel + 1, ts => do
    let (item, rest) ← readNode false false fuel ts
    match rest with
    | .flowEntry :: rest =>
      let (items, rest) ← readFlowItems fuel rest
      some (item :: items, rest)
    | .flowSequenceEnd :: rest => some ([item], rest)
    | _ => none

/-- The entries of a map in braces and its end; a node alone is a key. -/
def readFlowEntries : Nat → List Token → Option (List (Yaml × Yaml) × List Token)
  | 0, _ => none
  | _ + 1, .flowMappingEnd :: rest => some ([], rest)
  | fuel + 1, ts => do
    let ends : List Token := [.flowEntry, .flowMappingEnd]
    let (key, value, rest) ← match ts with
      | .key :: rest => do
        let (key, rest) ← readNodeBefore (.value :: ends) false false fuel rest
        match rest with
        | .value :: rest =>
          (readNodeBefore ends false false fuel rest).map fun (value, rest) => (key, value, rest)
        | rest => some (key, absent, rest)
      | ts => (readNode false false fuel ts).map fun (key, rest) => (key, absent, rest)
    match rest with
    | .flowEntry :: rest =>
      let (entries, rest) ← readFlowEntries fuel rest
      some ((key, value) :: entries, rest)
    | .flowMappingEnd :: rest => some ([(key, value)], rest)
    | _ => none

end

/-- The node of a row of tokens; without any it is an absent one. -/
def ofTokens (ts : List Token) : Option Yaml := do
  let fuel := 4 * ts.length + 4
  let (node, rest) ← match ts with
    | [] => some (absent, [])
    | .documentStart :: [] => some (absent, [])
    | .documentStart :: rest =>
      readNodeBefore [.documentStart, .documentEnd] true false fuel rest
    | ts => readNode true false fuel ts
  if (rest.dropWhile (· = .documentEnd)).isEmpty then some node else none

/-- The node that a text holds. -/
def parse (text : String) : Option Yaml := do ofTokens (← tokens text)

end Yaml

end RunReport
