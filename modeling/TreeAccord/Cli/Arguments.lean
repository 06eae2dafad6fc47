import TreeAccord.Config.Settings

/-!
# Arguments

The command line: a command, options in any order, and at most one further argument. An option is
written `--name value` or `--name=value`, a short one `-n value`, `-nvalue` or `-n=value`. Two
dashes end the options. A value of its own may not begin with a dash, and no option is given twice.
-/

namespace TreeAccord.Cli

inductive ColorMode where
  | auto
  | always
  | never
deriving DecidableEq, Repr

namespace ColorMode

instance : Inhabited ColorMode := ⟨auto⟩

def ofName? (name : String) : Option ColorMode :=
  if name = "auto" then some auto
  else if name = "always" then some always
  else if name = "never" then some never
  else none

/-- Whether output is colored; `auto` asks whether it goes to a terminal. -/
def shows (choice : ColorMode) (terminal : Bool) : Bool :=
  match choice with
  | auto => terminal
  | always => true
  | never => false

end ColorMode

/-- The greatest depth limit is one less: limits have 64 bits. -/
def depthBound : Nat := 0x10000000000000000

/-- A decimal number, which may have a plus sign in front. -/
def depthOfText? (text : String) : Option Nat :=
  let digits := match text.toList with
    | '+' :: rest => rest
    | cs => cs
  if digits.isEmpty || !digits.all Char.isDigit then none
  else
    let n := digits.foldl (fun n c => 10 * n + (c.toNat - '0'.toNat)) 0
    if n < depthBound then some n else none

inductive Opt where
  | config
  | nameCheck
  | candidateExt
  | depthLimit
  | color
  | candidateDump
  | reference
  | discover
  | policyDiff
  | candidate
deriving DecidableEq, Repr

namespace Opt

def long : Opt → String
  | config => "config"
  | nameCheck => "name-check"
  | candidateExt => "candidate-ext"
  | depthLimit => "depth-limit"
  | color => "color"
  | candidateDump => "candidate-dump"
  | reference => "reference"
  | discover => "discover"
  | policyDiff => "policy-diff"
  | candidate => "candidate"

def short? : Opt → Option Char
  | config => some 'c'
  | reference => some 'r'
  | _ => none

/-- Whether the option stands alone, without a value. -/
def isFlag : Opt → Bool
  | discover | policyDiff | candidate => true
  | _ => false

/-- Whether the option takes the value. -/
def admits (o : Opt) (value : String) : Bool :=
  match o with
  | config | candidateDump | reference => !value.isEmpty
  | nameCheck => (NamePolicy.ofName? value).isSome
  | color => (ColorMode.ofName? value).isSome
  | depthLimit => (depthOfText? value).isSome
  | candidateExt => true
  | discover | policyDiff | candidate => false

end Opt

/-! ## Reading words -/

/-- What the words of a command line have given so far. -/
structure Given where
  values : List (Opt × String) := []
  positional? : Option String := none
deriving DecidableEq, Repr

namespace Given

def has (g : Given) (o : Opt) : Bool := g.values.any fun entry => entry.1 == o

def value? (g : Given) (o : Opt) : Option String :=
  (g.values.find? fun entry => entry.1 == o).map Prod.snd

/-- Adds an option that is not given yet, with a value that it takes. -/
def addValue (g : Given) (o : Opt) (value : String) : Option Given :=
  if g.has o || !o.admits value then none else some { g with values := g.values ++ [(o, value)] }

def addFlag (g : Given) (o : Opt) : Option Given :=
  if g.has o then none else some { g with values := g.values ++ [(o, "")] }

/-- Adds the one argument that is no option. -/
def addPositional (g : Given) (word : String) : Option Given :=
  if g.positional?.isSome || word.isEmpty then none else some { g with positional? := some word }

end Given

/-- A word of the command line. -/
inductive Word where
  /-- Two dashes. -/
  | separator
  /-- An option by its long name, with what follows an equals sign. -/
  | long (name : List Char) (value? : Option (List Char))
  /-- An option by its letter, with what follows it. -/
  | short (letter : Char) (rest : List Char)
  | plain

/-- What stands before and after the first equals sign. -/
def cutEquals (cs : List Char) : List Char × Option (List Char) :=
  match cs.dropWhile (· ≠ '=') with
  | [] => (cs, none)
  | _ :: value => (cs.takeWhile (· ≠ '='), some value)

/-- A single dash is an ordinary word. -/
def Word.ofText (text : String) : Word :=
  match text.toList with
  | ['-', '-'] => .separator
  | '-' :: '-' :: rest => let (name, value?) := cutEquals rest; .long name value?
  | '-' :: letter :: rest => .short letter rest
  | _ => .plain

/-- The value that is attached to a letter. -/
def attached? (rest : List Char) : Option String :=
  match rest with
  | [] => none
  | '=' :: value => some (String.ofList value)
  | value => some (String.ofList value)

/-- The words behind two dashes. -/
def readRest (g : Given) (words : List String) : Option Given := words.foldlM Given.addPositional g

/-- Reads the words of a command that knows the options `known`. While an option waits for its
value, the next word has to be one. -/
def readWords (known : List Opt) : (waiting? : Option Opt) → Given → List String → Option Given
  | none, g, [] => some g
  | some _, _, [] => none
  | waiting?, g, text :: words =>
    match Word.ofText text, waiting? with
    | .plain, some o => do readWords known none (← g.addValue o text) words
    | .plain, none => do readWords known none (← g.addPositional text) words
    | _, some _ => none
    | .separator, none => readRest g words
    | .long name value?, none => do
      let o ← known.find? fun o => o.long.toList == name
      match value? with
      | some value =>
        if o.isFlag then none
        else readWords known none (← g.addValue o (String.ofList value)) words
      | none =>
        if o.isFlag then readWords known none (← g.addFlag o) words
        else readWords known (some o) g words
    | .short letter rest, none => do
      let o ← known.find? fun o => o.short? == some letter
      match attached? rest with
      | some value => readWords known none (← g.addValue o value) words
      | none => readWords known (some o) g words

/-! ## Commands -/

/-- The options of every command that compares trees. -/
structure Comparing where
  config? : Option String := none
  policy? : Option NamePolicy := none
  candidateExt : String := "kt"
  depthLimit? : Option Nat := none
  color : ColorMode := .auto
deriving DecidableEq, Repr

inductive Command where
  /-- Compare one candidate with its reference. -/
  | compare (name : String) (candidateDump? reference? : Option String) (options : Comparing)
  /-- Compare all fixtures of a directory. -/
  | batch (dir : String) (discover policyDiff : Bool) (options : Comparing)
  /-- Print a tree. -/
  | tree (file : String) (candidate : Bool) (color : ColorMode)
  /-- Print the settings. -/
  | config (config? : Option String) (policy? : Option NamePolicy)
deriving DecidableEq, Repr

namespace Given

def policy? (g : Given) : Option NamePolicy := (g.value? .nameCheck).bind NamePolicy.ofName?

def color (g : Given) : ColorMode := ((g.value? .color).bind ColorMode.ofName?).getD .auto

def comparing (g : Given) : Comparing where
  config? := g.value? .config
  policy? := g.policy?
  candidateExt := (g.value? .candidateExt).getD "kt"
  depthLimit? := (g.value? .depthLimit).bind depthOfText?
  color := g.color

end Given

def comparingOpts : List Opt := [.config, .nameCheck, .candidateExt, .depthLimit, .color]

namespace Command

/-- The command of a command line, or none if the line is not well-formed. -/
def ofArguments? : List String → Option Command
  | "compare" :: words => do
    let g ← readWords (.candidateDump :: .reference :: comparingOpts) none {} words
    return .compare (← g.positional?) (g.value? .candidateDump) (g.value? .reference) g.comparing
  | "batch" :: words => do
    let g ← readWords (.discover :: .policyDiff :: comparingOpts) none {} words
    return .batch (g.positional?.getD ".") (g.has .discover) (g.has .policyDiff) g.comparing
  | "tree" :: words => do
    let g ← readWords [.candidate, .color] none {} words
    return .tree (← g.positional?) (g.has .candidate) g.color
  | "config" :: words => do
    let g ← readWords [.config, .nameCheck] none {} words
    if g.positional?.isSome then none
    else return .config (g.value? .config) g.policy?
  | _ => none

end Command

end TreeAccord.Cli
