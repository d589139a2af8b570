import CloudEvents.Text.Numeral

/-!
# The arguments of the benchmark

The benchmark has one option, `--num-events`, which takes an integer: the next argument, or what
follows an equals sign. The option may be cut short as long as it cannot be taken for `--help`, and
given several times, the last one counts.

Arguments are first sorted into tokens. A prefix that fits both options refuses the whole line at
once. Then the tokens are taken in turn, and the first help or the first value that cannot be read
ends the matter; arguments that belong to no option are refused only after all others were taken.

## Main definitions

* `Request` — what a command line asks for
* `Arguments.token?`, `Arguments.request` — the two stages
-/

namespace CloudEvents

/-- What a command line asks for. -/
inductive Request where
  | run (numEvents : Int)
  | help
  | refused
  deriving DecidableEq

namespace Arguments

/-! ### Tokens -/

/-- An argument on its own. -/
inductive Token where
  /-- The option, with its value if an equals sign gives it. -/
  | numEvents (value : Option String)
  /-- A call for help; whether it is in order. -/
  | help (proper : Bool)
  /-- Something that an option may take as its value. -/
  | plain (text : String)
  /-- Something that looks like an option, or the mark that ends the options. -/
  | stray
  deriving DecidableEq

/-- A minus sign and digits, possibly with a point before or between them, and possibly a line feed
at the end. -/
def isNegativeNumber (cs : List Char) : Bool :=
  let isDigit := fun c => (Text.digitValue? c).isSome
  let body := if cs.getLast? = some '\n' then cs.dropLast else cs
  match body with
  | '-' :: number =>
    match number.dropWhile isDigit with
    | [] => !number.isEmpty
    | '.' :: places => !places.isEmpty && places.all isDigit
    | _ => false
  | _ => false

/-- An argument that begins with two minus signs: the name of an option, cut short or not, and the
value after the first equals sign. No token if both options have names that begin so. -/
def longToken? (argument : String) : Option Token :=
  let cs := argument.toList
  let name := cs.takeWhile (· ≠ '=')
  let value := (cs.dropWhile (· ≠ '=')).tail?.map String.ofList
  let fits := fun option : String => name.isPrefixOf option.toList
  if fits "--num-events" then
    if fits "--help" then none else some (.numEvents value)
  else if fits "--help" then some (.help value.isNone)
  else if ' ' ∈ cs then some (.plain argument)
  else some .stray

/-- An argument on its own, unless it fits both options. The short form of help may be repeated, and
swallows what follows it, but for an equals sign or a further minus sign. -/
def token? (argument : String) : Option Token :=
  match argument.toList with
  | '-' :: '-' :: _ => longToken? argument
  | '-' :: 'h' :: rest =>
    let more := (rest.dropWhile (· = 'h')).head?
    some (.help (more ≠ some '=' ∧ more ≠ some '-'))
  | ['-'] => some (.plain argument)
  | '-' :: rest =>
    if isNegativeNumber ('-' :: rest) || ' ' ∈ rest then some (.plain argument) else some .stray
  | _ => some (.plain argument)

/-- The tokens of a command line. After a bare pair of minus signs there are no more options. -/
def tokens? : List String → Option (List Token)
  | [] => some []
  | argument :: rest =>
    if argument = "--" then some (.stray :: rest.map .plain)
    else do return (← token? argument) :: (← tokens? rest)

/-! ### Taking them in turn -/

/-- What the tokens ask for, given the number so far and whether something was left over. -/
def take (numEvents : Int) (leftOver : Bool) : List Token → Request
  | [] => if leftOver then .refused else .run numEvents
  | .numEvents (some text) :: rest | .numEvents none :: .plain text :: rest =>
    match Text.readInteger? text.toList with
    | some n => take n leftOver rest
    | none => .refused
  | .numEvents none :: _ => .refused
  | .help proper :: _ => if proper then .help else .refused
  | .plain _ :: rest | .stray :: rest => take numEvents true rest

/-- What a command line asks for. A thousand events unless it says otherwise. -/
def request (arguments : List String) : Request :=
  match tokens? arguments with
  | some tokens => take 1000 false tokens
  | none => .refused

end Arguments

end CloudEvents
