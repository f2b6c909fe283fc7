import RunReport.Text.Split

/-!
# Arguments

The words of a command line are options, values and operands. An option has a
name behind two dashes and may have a letter behind one. A value follows its
option, after an equals sign, as the next word or right after the letter; as a
word of its own it may not look like an option. Two dashes alone end the
options.
-/

namespace RunReport

/-- An option that a command takes. -/
structure OptionSpec where
  /-- Its name. -/
  name : String
  /-- Its letter. -/
  letter : Option Char := none
  /-- Whether a value belongs to it. -/
  takesValue : Bool := true
  deriving DecidableEq

/-- What a word of a command line is. -/
inductive ArgumentWord where
  /-- The end of all options. -/
  | endOfOptions
  /-- A word of its own. -/
  | operand (text : String)
  /-- An option that needs no further word. -/
  | complete (name value : String)
  /-- An option whose value is the next word. -/
  | awaiting (name : String)
  /-- Nothing that the command takes. -/
  | unknown
  deriving DecidableEq

namespace ArgumentWord

/-- An option with the value that is given within its word, if any. -/
def ofOption (spec : OptionSpec) : Option (List Char) → ArgumentWord
  | none => if spec.takesValue then awaiting spec.name else complete spec.name ""
  | some value => if spec.takesValue then complete spec.name (String.ofList value) else unknown

/-- The option of a name, its value perhaps after an equals sign. -/
def ofName (specs : List OptionSpec) (text : List Char) : ArgumentWord :=
  let (name, value) := match Split.atFirst '=' text with
    | some (name, value) => (name, some value)
    | none => (text, none)
  match specs.find? (·.name = String.ofList name) with
  | some spec => ofOption spec value
  | none => unknown

/-- The option of a letter, its value perhaps right after it. -/
def ofLetter (specs : List OptionSpec) (letter : Char) (text : List Char) : ArgumentWord :=
  match specs.find? (·.letter = some letter) with
  | some spec => ofOption spec (match text with
    | [] => none
    | '=' :: value => some value
    | value => some value)
  | none => unknown

/-- What a word is to a command that takes the given options. -/
def classify (specs : List OptionSpec) (word : String) : ArgumentWord :=
  match word.toList with
  | ['-', '-'] => endOfOptions
  | '-' :: '-' :: text => ofName specs text
  | '-' :: letter :: text => ofLetter specs letter text
  | _ => operand word

/-- Whether a word looks like an option. -/
def isDashed (word : String) : Bool :=
  match word.toList with
  | '-' :: _ :: _ => true
  | _ => false

end ArgumentWord

/-- A command line taken apart. -/
structure Arguments where
  /-- Names of the options given and their values, in order. -/
  options : List (String × String)
  /-- The other words, in order. -/
  operands : List String
  deriving DecidableEq

namespace Arguments

/-- The arguments with an option in front. -/
def withOption (name value : String) (a : Arguments) : Arguments :=
  { a with options := (name, value) :: a.options }

/-- The arguments with an operand in front. -/
def withOperand (text : String) (a : Arguments) : Arguments :=
  { a with operands := text :: a.operands }

/-- The words of a command line taken apart; nothing if one of them is unknown
or lacks its value. -/
def read (specs : List OptionSpec) : List String → Option Arguments
  | [] => some ⟨[], []⟩
  | word :: rest =>
    match ArgumentWord.classify specs word with
    | .endOfOptions => some ⟨[], rest⟩
    | .operand text => (read specs rest).map (withOperand text)
    | .complete name value => (read specs rest).map (withOption name value)
    | .awaiting name => match rest with
      | [] => none
      | value :: rest =>
        if ArgumentWord.isDashed value then none
        else (read specs rest).map (withOption name value)
    | .unknown => none

/-- Every value given for an option. -/
def values (a : Arguments) (name : String) : List String :=
  (a.options.filter (·.1 = name)).map (·.2)

/-- The value of an option that may be given once; nothing if it is repeated. -/
def atMostOne (a : Arguments) (name : String) : Option (Option String) :=
  match a.values name with
  | [] => some none
  | [value] => some (some value)
  | _ => none

end Arguments

end RunReport
