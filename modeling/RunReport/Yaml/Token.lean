import RunReport.Yaml.Scalar

/-!
# Tokens

A text is read as a row of tokens in which the indentation has become begin and
end marks. Whether a scalar is a key shows only at the colon after it. Until
then its place is remembered, and the tokens that make it a key are put in
there. A key stands on one line with its colon, at most 1024 characters before
it; a scalar that begins in the column of the surrounding block has to be one.
-/

namespace RunReport.Yaml

/-- A part of a text. -/
inductive Token where
  /-- Begin mark of a document. -/
  | documentStart
  /-- End mark of a document. -/
  | documentEnd
  /-- Begin of a list shaped by indentation. -/
  | blockSequence
  /-- Begin of a map shaped by indentation. -/
  | blockMapping
  /-- End of a list or map shaped by indentation. -/
  | blockEnd
  /-- Begin of a list in brackets. -/
  | flowSequence
  /-- End of a list in brackets. -/
  | flowSequenceEnd
  /-- Begin of a map in braces. -/
  | flowMapping
  /-- End of a map in braces. -/
  | flowMappingEnd
  /-- Comma within brackets or braces. -/
  | flowEntry
  /-- Hyphen in front of an item. -/
  | blockEntry
  /-- What follows is a key. -/
  | key
  /-- What follows is the value of a key. -/
  | value
  /-- A scalar and whether it is written without quotes. -/
  | scalar (plain : Bool) (text : String)
  deriving DecidableEq

/-- A place where a key may have begun. -/
structure PossibleKey where
  /-- Tokens before it. -/
  position : Nat
  /-- Its first character. -/
  first : Glyph
  /-- Whether the text is refused unless it turns out to be a key. -/
  required : Bool

/-- The tokens read so far and what bears on the next one. -/
structure Outline where
  /-- The tokens. -/
  tokens : Array Token := #[]
  /-- Columns of the open blocks, the innermost first. -/
  levels : List Nat := []
  /-- Where the key of the innermost flow, or of the block around all flows,
  may have begun. -/
  key : Option PossibleKey := none
  /-- The same for the surroundings of each open flow, the innermost first. -/
  outerKeys : List (Option PossibleKey) := []
  /-- Whether a key may begin here. -/
  keyAllowed : Bool := true

namespace Outline

/-- Whether a bracket or brace is open. -/
def inFlow (o : Outline) : Bool := !o.outerKeys.isEmpty

/-- The least column of a line that continues a scalar. -/
def least (o : Outline) : Nat := (o.levels.head?.map (· + 1)).getD 0

/-- The outline with one more token. -/
def push (o : Outline) (t : Token) : Outline := { o with tokens := o.tokens.push t }

/-- Goes without the possible key, unless it is required. -/
def dropKey (o : Outline) : Option Outline :=
  if (o.key.map (·.required)).getD false then none else some { o with key := none }

/-- Whether a key that began at `first` may still meet its colon at `here`. -/
def isFresh (first here : Glyph) : Bool :=
  here.line ≤ first.line && here.index ≤ first.index + 1024

/-- Goes without the possible key if its colon cannot stand here any more. A key
around an open flow is looked at once the flow is closed, since one that is too
far back stays so. -/
def dropStaleKey (here : Glyph) (o : Outline) : Option Outline :=
  if (o.key.map fun k => isFresh k.first here).getD true then some o else o.dropKey

/-- Remembers that a key may begin here. -/
def markKey (here : Glyph) (o : Outline) : Option Outline :=
  if o.keyAllowed then do
    let required := !o.inFlow && o.levels.head? == some here.column
    some { ← o.dropKey with key := some ⟨o.tokens.size, here, required⟩ }
  else some o

/-- Opens a block whose first token has the given position and column, unless
one of this column or a later one is open. -/
def openBlock (t : Token) (position column : Nat) (o : Outline) : Outline :=
  if o.inFlow || column < o.least then o
  else { o with
    levels := column :: o.levels, tokens := o.tokens.insertIdxIfInBounds position t }

/-- Ends the blocks in which the given test fails for their column. -/
def closeBlocks (stays : Nat → Bool) (o : Outline) : Outline :=
  if o.inFlow then o
  else
    let ended := o.levels.takeWhile fun column => !stays column
    { o with
      levels := o.levels.dropWhile fun column => !stays column
      tokens := o.tokens ++ ended.map fun _ => Token.blockEnd }

/-- Begins a list in brackets or a map in braces, which may itself be a key. -/
def openFlow (t : Token) (here : Glyph) (o : Outline) : Option Outline := do
  let o ← o.markKey here
  some { o.push t with key := none, outerKeys := o.key :: o.outerKeys, keyAllowed := true }

/-- Ends a list in brackets or a map in braces. -/
def closeFlow (t : Token) (o : Outline) : Option Outline := do
  match (← o.dropKey).outerKeys with
  | key :: outerKeys => some { o.push t with key, outerKeys, keyAllowed := false }
  | [] => none

/-- A comma within brackets or braces. -/
def addFlowEntry (o : Outline) : Option Outline := do
  some { (← o.dropKey).push .flowEntry with keyAllowed := true }

/-- A hyphen in front of an item. -/
def addBlockEntry (here : Glyph) (o : Outline) : Option Outline := do
  if !o.inFlow && !o.keyAllowed then none
  let o ← (o.openBlock .blockSequence o.tokens.size here.column).dropKey
  some { o.push .blockEntry with keyAllowed := true }

/-- A question mark in front of a key. -/
def addKey (here : Glyph) (o : Outline) : Option Outline := do
  if !o.inFlow && !o.keyAllowed then none
  let o ← (o.openBlock .blockMapping o.tokens.size here.column).dropKey
  some { o.push .key with keyAllowed := !o.inFlow }

/-- A colon: what began at the possible key is the key, or there is none. -/
def addValue (here : Glyph) (o : Outline) : Option Outline :=
  match o.key with
  | some k =>
    let o := { o with
      tokens := o.tokens.insertIdxIfInBounds k.position .key, key := none, keyAllowed := false }
    some ((o.openBlock .blockMapping k.position k.first.column).push .value)
  | none => do
    if !o.inFlow && !o.keyAllowed then none
    let o := o.openBlock .blockMapping o.tokens.size here.column
    some { o.push .value with keyAllowed := !o.inFlow }

/-- A document mark, which ends all blocks. -/
def addDocumentMark (here : Glyph) (o : Outline) : Option Outline := do
  let o ← (o.closeBlocks fun _ => false).dropKey
  let mark := if here.char = '-' then Token.documentStart else .documentEnd
  some { o.push mark with keyAllowed := false }

/-- A scalar without quotes. After the end of a line a key may follow. -/
def addPlain (here : Glyph) (rest : List Glyph) (o : Outline) :
    Option (Outline × List Glyph) := do
  let o ← o.markKey here
  let (text, broken, left) ← plainChars o.inFlow o.least .none (here :: rest)
  some ({ o.push (.scalar true (String.ofList text)) with keyAllowed := broken }, left)

/-- A scalar in quotes. -/
def addQuoted (here : Glyph) (rest : List Glyph) (o : Outline) :
    Option (Outline × List Glyph) := do
  let o ← o.markKey here
  let (text, left) ← quoted (here :: rest)
  some ({ o.push (.scalar false text) with keyAllowed := false }, left)

/-- The outline after the token that begins here, and the characters after it. -/
def addToken (here : Glyph) (rest : List Glyph) (o : Outline) :
    Option (Outline × List Glyph) :=
  let alone := atWordEnd rest
  if atDocumentMark (here :: rest) then (o.addDocumentMark here).map (·, rest.drop 2)
  else match here.char with
    | '[' => (o.openFlow .flowSequence here).map (·, rest)
    | ']' => (o.closeFlow .flowSequenceEnd).map (·, rest)
    | '\x7b' => (o.openFlow .flowMapping here).map (·, rest)
    | '\x7d' => (o.closeFlow .flowMappingEnd).map (·, rest)
    | ',' => o.addFlowEntry.map (·, rest)
    | '\'' => o.addQuoted here rest
    | '"' => o.addQuoted here rest
    | '-' => if alone then (o.addBlockEntry here).map (·, rest) else o.addPlain here rest
    | '?' => if o.inFlow || alone then (o.addKey here).map (·, rest) else o.addPlain here rest
    | ':' => if o.inFlow || alone then (o.addValue here).map (·, rest) else o.addPlain here rest
    | _ => if here.isBlank || atOneOf "#&*!|>%@\x60" [here] then none else o.addPlain here rest

/-- The characters from the next token on, and whether a key may begin there:
after a line break one may, except within brackets or braces. Where a key may
begin in a block, a tab may not stand in front of it. A byte order mark may
stand at the start of any line. -/
def skipToToken (inFlow : Bool) : Bool → Bool → List Glyph → Bool × List Glyph
  | keyAllowed, _, [] => (keyAllowed, [])
  | keyAllowed, inComment, g :: rest =>
    if g.isBreak then skipToToken inFlow (keyAllowed || !inFlow) false rest
    else if inComment || g.char = '#' then skipToToken inFlow keyAllowed true rest
    else if g.char = ' ' || (g.char = '\t' && (inFlow || !keyAllowed))
        || (g.char = '\uFEFF' && g.column = 0) then
      skipToToken inFlow keyAllowed false rest
    else (keyAllowed, g :: rest)

/-- Reads tokens to the end of the text, which ends all blocks. -/
def readTokens : Nat → List Glyph → Outline → Option Outline
  | 0, _, _ => none
  | fuel + 1, gs, o =>
    let (keyAllowed, gs) := skipToToken o.inFlow o.keyAllowed false gs
    let o := { o with keyAllowed }
    match gs with
    | [] => (o.closeBlocks fun _ => false).dropKey
    | here :: rest => do
      let o ← o.dropStaleKey here
      let (o, left) ← (o.closeBlocks (· ≤ here.column)).addToken here rest
      readTokens fuel left o

end Outline

/-- The tokens of a text. -/
def tokens (text : String) : Option (List Token) := do
  let gs ← glyphs text
  some (← Outline.readTokens (gs.length + 1) gs {}).tokens.toList

end RunReport.Yaml
