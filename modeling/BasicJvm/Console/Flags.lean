import BasicJvm.Text.Quoted

/-!
# Command line flags

A program declares its flags (`Flag`): names, a usage line and a default, whose kind says
whether the flag is a switch, takes a text or takes a number.  Reading the arguments
(`readFlags`) follows these rules.

* A flag is written `-name` or `--name`.  A flag with a value takes it after `=` in the same
  argument (`--seed=7`) or as the next argument (`--seed 7`, also `--seed -3`).  A switch is
  set by its name alone, or given a truth value after `=`: `1`, `t`, `T`, `TRUE`, `true`,
  `True` and their counterparts `0`, `f`, `F`, `FALSE`, `false`, `False`.
* Reading stops at the first argument that is not a flag (a lone `-` is not one) and after
  `--`; what is left are the positional arguments.
* A number is a 64-bit integer with an optional sign, in decimal or after a base prefix
  (`0x`, `0o`, `0b`, or a leading `0` for octal), with `_` allowed between digits and after
  a prefix.

The first problem ends the reading; its message names the flag with one dash, as in
`flag provided but not defined: -x` or `invalid value "q" for flag -seed: parse error`.  A
flag with two names may be given under one of them only (`twoForms`).
-/

-- Powers use the core `NatPow` instance also where an algebra library is loaded, so that
-- the definitions below elaborate to the same terms in every build.
attribute [local instance (high)] instPowNat

namespace BasicJvm.Console

/-! ## Numbers and truth values -/

/-- Why a number did not read. -/
inductive NumberProblem where
  | malformed
  | outOfRange
  deriving DecidableEq, Repr

/-- The text of a number problem. -/
def NumberProblem.text : NumberProblem → String
  | .malformed => "parse error"
  | .outOfRange => "value out of range"

/-- The largest number of 64 bits. -/
def wordMax : Nat := 2 ^ (64 : Nat) - 1

/-- The value of a digit or letter as a digit (letters from ten up, either case), or 99 for
any other character. -/
def digitValue (c : Char) : Nat :=
  if '0' ≤ c && c ≤ '9' then c.toNat - 48
  else if 'a' ≤ c && c ≤ 'z' then c.toNat - 87
  else if 'A' ≤ c && c ≤ 'Z' then c.toNat - 55
  else 99

/-- Read digits in a base, skipping `_`, into a number of 64 bits: the number and whether a
`_` was seen.  The first digit outside the base, or the first digit that makes the number
too large, ends the reading. -/
def readDigits (base : Nat) : List Char → Nat → Bool → Except NumberProblem (Nat × Bool)
  | [], n, sawUnderscore => .ok (n, sawUnderscore)
  | c :: rest, n, sawUnderscore =>
    if c == '_' then readDigits base rest n true
    else
      let d := digitValue c
      if base ≤ d then .error .malformed
      else if wordMax / base + 1 ≤ n then .error .outOfRange
      else if wordMax < n * base + d then .error .outOfRange
      else readDigits base rest (n * base + d) sawUnderscore

/-- Whether a character is a hexadecimal letter. -/
def isHexLetter (c : Char) : Bool := ('a' ≤ c && c ≤ 'f') || ('A' ≤ c && c ≤ 'F')

/-- Whether every `_` of a number's digits stands between two digits, or between a base
prefix and a digit.  `previous` is `'^'` at the start, `'0'` after a digit or prefix, `'_'`
after an underscore and `'!'` after anything else. -/
def underscoresBetween (hex : Bool) : List Char → Char → Bool
  | [], previous => previous != '_'
  | c :: rest, previous =>
    if c.isDigit || (hex && isHexLetter c) then underscoresBetween hex rest '0'
    else if c == '_' then previous == '0' && underscoresBetween hex rest '_'
    else previous != '_' && underscoresBetween hex rest '!'

/-- Whether the underscores of a number (after its sign) are well placed. -/
def underscoresFit (s : List Char) : Bool :=
  match s with
  | '0' :: p :: rest =>
    if p.toLower == 'b' || p.toLower == 'o' || p.toLower == 'x' then
      underscoresBetween (p.toLower == 'x') rest '0'
    else underscoresBetween false s '^'
  | _ => underscoresBetween false s '^'

/-- Read a number without sign, choosing the base from its prefix. -/
def readUnsigned (s : List Char) : Except NumberProblem Nat := do
  let (base, digits) := match s with
    | '0' :: p :: d :: rest =>
      if p.toLower == 'b' then (2, d :: rest)
      else if p.toLower == 'o' then (8, d :: rest)
      else if p.toLower == 'x' then (16, d :: rest)
      else (8, p :: d :: rest)
    | '0' :: rest => (8, rest)
    | _ => (10, s)
  if s.isEmpty then throw .malformed
  let (n, sawUnderscore) ← readDigits base digits 0 false
  if sawUnderscore && !underscoresFit s then throw .malformed
  pure n

/-- Read a 64-bit number with an optional sign. -/
def readInteger (s : String) : Except NumberProblem Int := do
  let (negative, digits) := match s.toList with
    | '-' :: rest => (true, rest)
    | '+' :: rest => (false, rest)
    | cs => (false, cs)
  let n ← readUnsigned digits
  if negative then
    if 2 ^ (63 : Nat) < n then throw .outOfRange else pure (-(n : Int))
  else if 2 ^ (63 : Nat) ≤ n then throw .outOfRange else pure n

/-- Read a truth value. -/
def readTruth (s : String) : Option Bool :=
  if ["1", "t", "T", "TRUE", "true", "True"].contains s then some true
  else if ["0", "f", "F", "FALSE", "false", "False"].contains s then some false
  else none

/-! ## Flags -/

/-- The value of a flag. -/
inductive FlagValue where
  | switch (on : Bool)
  | text (s : String)
  | number (n : Int)
  deriving DecidableEq, Repr, Inhabited

/-- A flag a program declares: its names (the first is its main name), its usage line, and
its value when it is not given, whose kind is the flag's kind. -/
structure Flag where
  names : List String
  usage : String
  default : FlagValue
  deriving Repr, Inhabited

/-- Whether a flag is a switch. -/
def Flag.isSwitch (f : Flag) : Bool :=
  match f.default with
  | .switch _ => true
  | _ => false

/-- The flag of a name among declared flags. -/
def findFlag (flags : List Flag) (name : String) : Option Flag :=
  flags.find? (·.names.contains name)

/-- The result of reading flags: the flags given, newest first, under the names they were
given; the arguments left; and the problem that stopped the reading, if any. -/
structure FlagReading where
  given : List (String × FlagValue)
  rest : List String
  problem : Option String

/-- The value of a flag from its text, or the message of the problem. -/
def valueOf (f : Flag) (name text : String) : Except String FlagValue :=
  match f.default with
  | .switch _ =>
    match readTruth text with
    | some b => .ok (.switch b)
    | none => .error ("invalid boolean value " ++ Text.quote text ++ " for -" ++ name ++ ": parse error")
  | .text _ => .ok (.text text)
  | .number _ =>
    match readInteger text with
    | .ok n => .ok (.number n)
    | .error p =>
      .error ("invalid value " ++ Text.quote text ++ " for flag -" ++ name ++ ": " ++ p.text)

/-- The text of a flag's value: the one after `=`, `true` for a switch without one, or else
the next argument; and the arguments after it. -/
def takeValue (isSwitch : Bool) (inline : Option String) (more : List String) :
    Option String × { l : List String // l.length ≤ more.length } :=
  match inline with
  | some t => (some t, ⟨more, Nat.le_refl _⟩)
  | none =>
    if isSwitch then (some "true", ⟨more, Nat.le_refl _⟩)
    else match more with
      | t :: more' => (some t, ⟨more', by simp⟩)
      | [] => (none, ⟨[], Nat.le_refl _⟩)

/-- Read the flags at the front of the arguments. -/
def readFlags (flags : List Flag) (args : List String) (given : List (String × FlagValue)) :
    FlagReading :=
  match args with
  | [] => ⟨given, [], none⟩
  | arg :: more =>
    match arg.toList with
    | '-' :: c1 :: after =>
      if c1 == '-' && after.isEmpty then ⟨given, more, none⟩
      else
        let body := if c1 == '-' then after else c1 :: after
        match body with
        | [] => ⟨given, args, some ("bad flag syntax: " ++ arg)⟩
        | c :: _ =>
          if c == '-' || c == '=' then ⟨given, args, some ("bad flag syntax: " ++ arg)⟩
          else
            let nameChars := body.takeWhile (· != '=')
            let name := String.ofList nameChars
            let inline : Option String :=
              if nameChars.length < body.length then some (String.ofList (body.drop (nameChars.length + 1)))
              else none
            match findFlag flags name with
            | none => ⟨given, more, some ("flag provided but not defined: -" ++ name)⟩
            | some f =>
              let (text, after) := takeValue f.isSwitch inline more
              match text with
              | none => ⟨given, after.val, some ("flag needs an argument: -" ++ name)⟩
              | some t =>
                match valueOf f name t with
                | .error m => ⟨given, after.val, some m⟩
                | .ok v =>
                  have := after.property
                  readFlags flags after.val ((name, v) :: given)
    | _ => ⟨given, args, none⟩
termination_by args.length
decreasing_by simp only [List.length_cons]; omega

/-- The problem of a flag given under two of its names: `Cannot use two forms of the same
flag: h help`, the later name of the declaration first. -/
def twoForms (flags : List Flag) (given : List (String × FlagValue)) : Option String :=
  flags.findSome? fun f =>
    match f.names.filter fun n => given.any (·.1 == n) with
    | first :: second :: _ => some ("Cannot use two forms of the same flag: " ++ second ++ " " ++ first)
    | _ => none

/-! ## Reading the flags given -/

/-- The flags a program declares, the ones given and the positional arguments. -/
structure FlagSet where
  flags : List Flag
  given : List (String × FlagValue)
  args : List String

/-- Whether a flag was given, under any of its names. -/
def FlagSet.isSet (s : FlagSet) (name : String) : Bool :=
  match findFlag s.flags name with
  | some f => s.given.any fun (n, _) => f.names.contains n
  | none => false

/-- The value of a flag: the last one given, or its default; nothing for a flag the program
does not declare. -/
def FlagSet.value (s : FlagSet) (name : String) : Option FlagValue :=
  (findFlag s.flags name).map fun f =>
    match s.given.find? fun (n, _) => f.names.contains n with
    | some (_, v) => v
    | none => f.default

/-- The text of a flag, or the empty text. -/
def FlagSet.text (s : FlagSet) (name : String) : String :=
  match s.value name with
  | some (.text t) => t
  | _ => ""

/-- The number of a flag, or zero. -/
def FlagSet.number (s : FlagSet) (name : String) : Int :=
  match s.value name with
  | some (.number n) => n
  | _ => 0

/-- Whether a switch is on. -/
def FlagSet.switch (s : FlagSet) (name : String) : Bool :=
  match s.value name with
  | some (.switch b) => b
  | _ => false

end BasicJvm.Console
