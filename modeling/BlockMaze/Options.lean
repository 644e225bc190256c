import BlockMaze.Text.Numeral

/-! Command-line options. Long options may be shortened as long as one option alone begins that way,
and a value follows an option or is joined to it by an equals sign. Single letters may share one
dash. -/
namespace BlockMaze
open Text

/-- What an option that takes a number was set to. A value of two dashes is dropped, which leaves
the option set to nothing. -/
inductive Setting
  | unset
  | blank
  | number (value : Int)
  deriving DecidableEq

def Setting.number? : Setting → Option Int
  | number value => some value
  | _ => none

structure Options where
  seed : Setting := .unset
  admin : Bool := false
  speed : Setting := .unset
  verbose : Bool := false
  deriving DecidableEq

inductive Flag
  | help
  | seed
  | admin
  | speed
  | verbose
  deriving DecidableEq

/-- Why no options came out; asking for help is one of the ways. -/
inductive OptionsFault
  | help
  | ambiguous (word : String) (spellings : List String)
  | valueMissing (flag : Flag)
  | valueIgnored (flag : Flag) (value : String)
  | notNumeral (flag : Flag) (value : String)
  | unrecognized (words : List String)
  deriving DecidableEq

namespace Flag

def name : Flag → String
  | help => "-h/--help"
  | seed => "--seed"
  | admin => "--admin"
  | speed => "--speed"
  | verbose => "-v/--verbose"

def takesValue : Flag → Bool
  | seed | speed => true
  | _ => false

def spellings : List (String × Flag) :=
  [("-h", help), ("--help", help), ("--seed", seed), ("--admin", admin), ("--speed", speed),
    ("-v", verbose), ("--verbose", verbose)]

end Flag

namespace OptionsFault

def message : OptionsFault → String
  | help => ""
  | ambiguous word spellings =>
    "ambiguous option: " ++ word ++ " could match " ++ ", ".intercalate spellings
  | valueMissing flag => "argument " ++ flag.name ++ ": expected one argument"
  | valueIgnored flag value =>
    "argument " ++ flag.name ++ ": ignored explicit argument " ++ quoted value
  | notNumeral flag value => "argument " ++ flag.name ++ ": invalid int value: " ++ quoted value
  | unrecognized words => "unrecognized arguments: " ++ " ".intercalate words

def exitCode : OptionsFault → Nat
  | help => 0
  | _ => 2

end OptionsFault

/-- What a word is before its neighbours are looked at. A value is joined to an option after an
equals sign, or straight after a single letter. -/
inductive Word
  | plain (text : String)
  | option (flag : Flag) (short : Bool) (joined : Option String)
  | unknown (text : String)
  | divider
  deriving DecidableEq

namespace Word

def isNegativeNumeral (cs : List Char) : Bool :=
  match if cs.getLast? = some '\n' then cs.dropLast else cs with
  | '-' :: rest =>
    let isDigit (c : Char) : Bool := (digit? c).isSome
    match rest.dropWhile isDigit with
    | [] => !rest.isEmpty
    | '.' :: fraction => !fraction.isEmpty && fraction.all isDigit
    | _ => false
  | _ => false

def split (cs : List Char) : String × Option String :=
  match cs.dropWhile (· ≠ '=') with
  | [] => (String.ofList cs, none)
  | _ :: value => (String.ofList (cs.takeWhile (· ≠ '=')), some (String.ofList value))

def isShort (spelling : String) : Bool := (spelling.toList.drop 1).head? ≠ some '-'

def ofSpelling (spelling : String) (flag : Flag) (joined : Option String) : Word :=
  .option flag (isShort spelling) joined

/-- The spellings that a word shortens or extends, each with the word it would make. -/
def readings (cs : List Char) : List (String × Word) :=
  match cs with
  | '-' :: '-' :: _ =>
    let (start, value) := split cs
    Flag.spellings.filterMap fun (spelling, flag) =>
      if start.isPrefixOf spelling then
        some (spelling, ofSpelling spelling flag value)
      else none
  | _ =>
    Flag.spellings.filterMap fun (spelling, flag) =>
      if spelling = String.ofList (cs.take 2) then
        some (spelling, ofSpelling spelling flag (some (String.ofList (cs.drop 2))))
      else if (String.ofList cs).isPrefixOf spelling then
        some (spelling, ofSpelling spelling flag none)
      else none

def classify (text : String) : Except OptionsFault Word :=
  match text.toList with
  | '-' :: c :: rest =>
    let cs := '-' :: c :: rest
    match Flag.spellings.lookup text with
    | some flag => .ok (ofSpelling text flag none)
    | none =>
      let (start, value) := split cs
      match value, Flag.spellings.lookup start with
      | some value, some flag => .ok (ofSpelling start flag (some value))
      | _, _ =>
        match readings cs with
        | [(_, word)] => .ok word
        | [] => .ok (if isNegativeNumeral cs || cs.contains ' ' then plain text else unknown text)
        | several => .error (.ambiguous text (several.map (·.1)))
  | _ => .ok (plain text)

/-- All words; after a divider every word is plain. -/
def classifyAll : List String → Except OptionsFault (List Word)
  | [] => .ok []
  | "--" :: rest => .ok (divider :: rest.map plain)
  | text :: rest => do return (← classify text) :: (← classifyAll rest)

end Word

namespace Options

def raise (options : Options) : Flag → Except OptionsFault Options
  | .help => .error .help
  | .admin => .ok { options with admin := true }
  | .verbose => .ok { options with verbose := true }
  | .seed | .speed => .ok options

def put (options : Options) (setting : Setting) : Flag → Options
  | .seed => { options with seed := setting }
  | .speed => { options with speed := setting }
  | _ => options

def assign (options : Options) (flag : Flag) (value : String) : Except OptionsFault Options :=
  if value = "--" then .ok (options.put .blank flag)
  else match integer value with
    | .error _ => .error (.notNumeral flag value)
    | .ok n => .ok (options.put (.number n) flag)

/-- The options that single letters name after another one. The last option named refuses a rest
that begins with no option's letter. -/
def together (flag : Flag) : List Char → Except OptionsFault (List Flag)
  | [] => .ok [flag]
  | c :: rest =>
    match Flag.spellings.lookup (String.ofList ['-', c]) with
    | some next => do return flag :: (← together next rest)
    | none => .error (.valueIgnored flag (String.ofList (c :: rest)))

def read (options : Options) (extras : List String) :
    List Word → Except OptionsFault (Options × List String)
  | [] => .ok (options, extras)
  | .plain text :: rest => read options (extras ++ [text]) rest
  | .unknown text :: rest => read options (extras ++ [text]) rest
  | .divider :: rest => read options (extras ++ ["--"]) rest
  | .option flag short joined :: rest =>
    if flag.takesValue then
      match joined, rest with
      | some value, rest => do read (← options.assign flag value) extras rest
      | none, .plain value :: rest => do read (← options.assign flag value) extras rest
      | none, _ => .error (.valueMissing flag)
    else
      match joined with
      | none => do read (← options.raise flag) extras rest
      | some value =>
        if short ∧ value ≠ "" then do
          let flags ← together flag value.toList
          read (← flags.foldlM raise options) extras rest
        else .error (.valueIgnored flag value)

def ofWords (words : List String) : Except OptionsFault Options := do
  let (options, extras) ← read {} [] (← Word.classifyAll words)
  if extras.isEmpty then return options else .error (.unrecognized extras)

end Options

end BlockMaze
