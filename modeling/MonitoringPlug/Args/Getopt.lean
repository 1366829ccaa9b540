import MonitoringPlug.Args.Eopt

/-! `mp_getopt` over the documented behaviour of `getopt_long` with its default
order: options are taken from the front, other words are moved behind them. Words
are their strings here. What an option does to `mp_verbose` and `mp_timeout` is
left out. -/
namespace MonitoringPlug.Args

open CText CLoop

/-- `no_argument`, `required_argument` and `optional_argument`. -/
inductive HasArg where
  | no
  | required
  | optional
deriving DecidableEq

/-- `struct option`. `flag` tells whether its pointer is set; then the option
returns 0. -/
structure LongOption where
  name : List Char
  hasArg : HasArg
  flag : Bool
  val : Int
deriving DecidableEq

/-- What is returned for a long option. -/
def LongOption.code (option : LongOption) : Int := if option.flag then 0 else option.val

/-- `MP_LONGOPT_EOPT`. -/
def longoptEopt : Int := 0x80

def charCode (c : Char) : Int := c.toNat

/-- The option tables of a plugin. The option string starts with a letter. Only
long options carry the number of `--eopt`, and these take an optional argument. -/
structure OptionTable where
  optstring : List Char
  longopts : List LongOption
  starts : optstring.head? ≠ some ':'
  eopt_optional : ∀ option ∈ longopts, option.code = longoptEopt → option.hasArg = .optional
  eopt_long : ∀ c ∈ optstring, charCode c ≠ longoptEopt

/-- `MP_OPTSTR_DEFAULT` and `MP_LONGOPTS_DEFAULT`. -/
def defaultTable : OptionTable where
  optstring := ['h', 'V', 'v', 't', ':']
  longopts :=
    [{ name := ['h', 'e', 'l', 'p'], hasArg := .no, flag := false, val := charCode 'h' },
      { name := ['v', 'e', 'r', 's', 'i', 'o', 'n'], hasArg := .no, flag := false,
        val := charCode 'V' },
      { name := ['v', 'e', 'r', 'b', 'o', 's', 'e'], hasArg := .no, flag := false,
        val := charCode 'v' },
      { name := ['e', 'o', 'p', 't'], hasArg := .optional, flag := false, val := longoptEopt },
      { name := ['p', 'e', 'r', 'f', 'd', 'a', 't', 'a'], hasArg := .no, flag := true, val := 1 },
      { name := ['t', 'i', 'm', 'e', 'o', 'u', 't'], hasArg := .required, flag := false,
        val := charCode 't' }]
  starts := by decide
  eopt_optional := by decide
  eopt_long := by simp [charCode, longoptEopt]

/-- The entry of a letter in the option string. -/
def shortOption (optstring : List Char) (c : Char) : Option HasArg :=
  if c = ':' ∨ c = ';' then none
  else
    match optstring.dropWhile (· != c) with
    | [] => none
    | _ :: ':' :: ':' :: _ => some .optional
    | _ :: ':' :: _ => some .required
    | _ => some .no

/-- The option with this name, or else the one it abbreviates. It abbreviates
several only if they do the same. -/
def longOption (longopts : List LongOption) (name : List Char) : Option LongOption :=
  match longopts.find? (·.name == name) with
  | some option => some option
  | none =>
      match longopts.filter fun option => name.isPrefixOf option.name with
      | [] => none
      | first :: rest =>
          if rest.all fun option => option.hasArg == first.hasArg && option.flag == first.flag &&
            option.val == first.val
          then some first
          else none

/-- An option that was read: what is returned for it, its argument, how many
words it ends, and the letters that are left of a group. -/
structure ReadOption where
  code : Int
  optarg : Option (List Char)
  words : Nat
  nextchar : List Char
deriving DecidableEq

def unknownOption (words : Nat) (nextchar : List Char) : ReadOption :=
  { code := charCode '?', optarg := none, words := words, nextchar := nextchar }

/-- The code for an argument that is missing. -/
def missingArgument (optstring : List Char) : Int :=
  if optstring.head? = some ':' then charCode ':' else charCode '?'

/-- A long option from the text behind its dashes; `rest` are the words behind it. -/
def readLong (table : OptionTable) (text : List Char) (rest : List (List Char)) : ReadOption :=
  let (name, inline) := strsep '=' text
  match longOption table.longopts name with
  | none => unknownOption 1 []
  | some option =>
      match inline, option.hasArg with
      | some _, .no => unknownOption 1 []
      | some arg, _ => { code := option.code, optarg := some arg, words := 1, nextchar := [] }
      | none, .required =>
          match rest with
          | [] => { code := missingArgument table.optstring, optarg := none, words := 1,
                    nextchar := [] }
          | arg :: _ => { code := option.code, optarg := some arg, words := 2, nextchar := [] }
      | none, _ => { code := option.code, optarg := none, words := 1, nextchar := [] }

/-- The next letter of a group. Its word ends with its last letter, or with an
argument that takes the others. -/
def readShort (table : OptionTable) (c : Char) (letters : List Char) (rest : List (List Char)) :
    ReadOption :=
  let ended := if letters = [] then 1 else 0
  match shortOption table.optstring c with
  | none => unknownOption ended letters
  | some .no => { code := charCode c, optarg := none, words := ended, nextchar := letters }
  | some .optional =>
      { code := charCode c, optarg := if letters = [] then none else some letters, words := 1,
        nextchar := [] }
  | some .required =>
      if letters ≠ [] then
        { code := charCode c, optarg := some letters, words := 1, nextchar := [] }
      else
        match rest with
        | [] => { code := missingArgument table.optstring, optarg := none, words := 1,
                  nextchar := [] }
        | arg :: _ => { code := charCode c, optarg := some arg, words := 2, nextchar := [] }

/-- The vector with the globals and static variables of `getopt_long`. -/
structure Scan where
  argv : List (List Char)
  optind : Nat
  firstNonopt : Nat
  lastNonopt : Nat
  nextchar : List Char

/-- `NONOPTION_P`: no dash, or a dash alone. -/
def isOperand (word : List Char) : Bool := word.head? != some '-' || word.tail.isEmpty

/-- Move the operands between `first_nonopt` and `last_nonopt` behind the options
up to `optind`. -/
def exchange (s : Scan) : Scan :=
  let options := (s.argv.take s.optind).drop s.lastNonopt
  let operands := (s.argv.take s.lastNonopt).drop s.firstNonopt
  { s with
    argv := s.argv.take s.firstNonopt ++ (options ++ operands) ++ s.argv.drop s.optind
    firstNonopt := s.firstNonopt + options.length
    lastNonopt := s.optind }

/-- Everything up to the next word that is an option. -/
def skipOperands (s : Scan) : Scan :=
  let s := { s with lastNonopt := min s.lastNonopt s.optind
                    firstNonopt := min s.firstNonopt s.optind }
  let s :=
    if s.firstNonopt ≠ s.lastNonopt ∧ s.lastNonopt ≠ s.optind then exchange s
    else if s.lastNonopt ≠ s.optind then { s with firstNonopt := s.optind }
    else s
  let skipped := ((s.argv.drop s.optind).takeWhile isOperand).length
  { s with optind := s.optind + skipped, lastNonopt := s.optind + skipped }

/-- The end of the scan: `optind` is set back to the first operand. -/
def endScan (s : Scan) : Scan :=
  if s.firstNonopt ≠ s.lastNonopt then { s with optind := s.firstNonopt } else s

/-- The word `--` is passed over like an option, and what is behind it are operands. -/
def endOptions (s : Scan) : Scan :=
  let s := { s with optind := s.optind + 1 }
  let s :=
    if s.firstNonopt ≠ s.lastNonopt ∧ s.lastNonopt ≠ s.optind then exchange s
    else if s.firstNonopt = s.lastNonopt then { s with firstNonopt := s.optind }
    else s
  endScan { s with lastNonopt := s.argv.length, optind := s.argv.length }

def finishOption (s : Scan) (read : ReadOption) : Int × Option (List Char) × Scan :=
  (read.code, read.optarg,
    { s with optind := s.optind + read.words, nextchar := read.nextchar })

/-- The returned code, `optarg` and the new state. -/
def getoptLong (table : OptionTable) (s : Scan) : Int × Option (List Char) × Scan :=
  match s.nextchar with
  | c :: letters =>
      finishOption s (readShort table c letters (s.argv.drop (s.optind + 1)))
  | [] =>
      let s := skipOperands s
      match s.argv.drop s.optind with
      | [] => (-1, none, endScan s)
      | word :: rest =>
          match word with
          | ['-', '-'] => (-1, none, endOptions s)
          | '-' :: '-' :: text => finishOption s (readLong table text rest)
          | _ :: c :: letters => finishOption s (readShort table c letters rest)
          | _ => (-1, none, endScan s)

/-- What a call of `mp_getopt` ends with: the caller gets a code, the program
exits, or a NULL pointer is dereferenced. -/
inductive GetoptEnd where
  | returned (code : Int) (optarg : Option (List Char)) (s : Scan)
  | exited
  | fault

/-- One pass of the loop in `mp_getopt`. -/
def mpGetoptPass (table : OptionTable) (env : EoptEnv (List Char)) (s : Scan) :
    Pass Scan GetoptEnd :=
  let (c, optarg, s) := getoptLong table s
  if c = -1 then .leave (.returned c optarg s)
  else if c = charCode '?' then .leave .exited
  else if c = charCode 'h' ∨ c = charCode 'V' then .leave .exited
  else if c = charCode 'v' then .again s
  else if c = longoptEopt then
    match mpEopt env s.argv s.optind optarg with
    | none => .leave .fault
    | some spliced => .again { s with argv := spliced.argv, optind := spliced.optind }
  else if c = charCode 't' then .again s
  else .leave (.returned c optarg s)

/-- How option processing as a whole ends. -/
inductive ProcessEnd where
  | eof
  | exited
  | fault

/-- One pass of the calls of `mp_getopt` one after the other, until one returns
EOF. -/
def processPass (table : OptionTable) (env : EoptEnv (List Char)) (s : Scan) :
    Pass Scan ProcessEnd :=
  match mpGetoptPass table env s with
  | .again s => .again s
  | .leave (.returned c _ s) => if c = -1 then .leave .eof else .again s
  | .leave .exited => .leave .exited
  | .leave .fault => .leave .fault

/-- The state of `getopt_long` before its first call. -/
def startScan (argv : List (List Char)) : Scan :=
  { argv := argv, optind := 1, firstNonopt := 1, lastNonopt := 1, nextchar := [] }

/-- The surroundings of a plugin whose words are strings, with finitely many files. -/
def fileEnv (progname : List Char) (files : List (List Char × List Char)) :
    EoptEnv (List Char) where
  progname := progname
  fopen name := (files.find? (·.1 == name)).map Prod.snd
  text := id
  word := id

end MonitoringPlug.Args
