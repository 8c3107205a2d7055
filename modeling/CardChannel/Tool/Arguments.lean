/-! The grammar of command-line arguments.  An option takes one value, which stands in the next
argument or in the same one: `--name=value`, `-nvalue` or `-n=value`.  An argument that starts with
a dash is an option and never a value, except the dash alone; after a double dash all arguments are
words, where words and options may be mixed.  An option that is unknown, has no value or is given
twice makes the arguments invalid. -/

namespace CardChannel.Tool

structure Flag where
  long : List Char
  short : Option Char
deriving DecidableEq

def Flag.ofName (name : String) (short : Option Char) : Flag := ⟨name.toList, short⟩

/-- What an argument is, by its first characters. -/
inductive Item where
  | word
  | endOfOptions
  | option (flag : Flag) (attached : Option (List Char))
  | invalid
deriving DecidableEq

/-- The value after a short option in the same argument. -/
def attachedShort : List Char → Option (List Char)
  | [] => none
  | '=' :: value => some value
  | value => some value

/-- The value after a long option in the same argument, from the equals sign on. -/
def attachedLong : List Char → Option (List Char)
  | [] => none
  | _ :: value => some value

def Item.ofChars (known : List Flag) : List Char → Item
  | ['-', '-'] => .endOfOptions
  | '-' :: '-' :: rest =>
    match known.find? fun flag => flag.long = rest.takeWhile (· ≠ '=') with
    | some flag => .option flag (attachedLong (rest.dropWhile (· ≠ '=')))
    | none => .invalid
  | '-' :: letter :: rest =>
    match known.find? fun flag => flag.short = some letter with
    | some flag => .option flag (attachedShort rest)
    | none => .invalid
  | _ => .word

/-- The options and words among a list of arguments. -/
structure Arguments where
  options : List (Flag × String)
  words : List String

namespace Arguments

def value? (args : Arguments) (flag : Flag) : Option String :=
  (args.options.find? fun entry => entry.1 = flag).map Prod.snd

def addOption (flag : Flag) (value : String) (args : Arguments) : Option Arguments :=
  match args.value? flag with
  | some _ => none
  | none => some { args with options := (flag, value) :: args.options }

def addWord (word : String) (args : Arguments) : Arguments :=
  { args with words := word :: args.words }

/-- Where words may stand. -/
inductive WordOrder where
  /-- The first word ends the options, and it and all that follows are words. -/
  | last
  /-- Words and options may stand in any order. -/
  | any
deriving DecidableEq

def read (known : List Flag) (order : WordOrder) : List String → Option Arguments
  | [] => some ⟨[], []⟩
  | arg :: rest =>
    match Item.ofChars known arg.toList, order with
    | .word, .last => some ⟨[], arg :: rest⟩
    | .word, .any => (read known order rest).map (addWord arg)
    | .option flag (some value), _ =>
      (read known order rest).bind (addOption flag (String.ofList value))
    | .option flag none, _ =>
      match rest with
      | value :: rest =>
        if Item.ofChars [] value.toList = .word then
          (read known order rest).bind (addOption flag value)
        else none
      | [] => none
    | .endOfOptions, .any => some ⟨[], rest⟩
    | .endOfOptions, .last => none
    | .invalid, _ => none

end Arguments

end CardChannel.Tool
