/-
# Reading the command line

The arguments are taken one after the other. A word that leads further is
followed; everything else is an option or a value. A value that stands by
itself, in a place or after an option, is looked at only when the next one
comes, or an option, or the end: so help that is asked for after further words
is given in spite of a bad value in front of them. After two hyphens there are
only values.

Key definitions: `Cli.Interruption`, `Cli.Level`, `Cli.parseLevels`.
-/
import EfsControl.Cli.Grammar
import EfsControl.Text.Decimal

namespace EfsControl
namespace Cli

/-- Why no command is carried out. -/
inductive Interruption
  /-- The arguments make no sense. -/
  | usage
  /-- Help about some words is asked for. -/
  | help (words : List String)
  | version
  deriving DecidableEq

/-- What comes of arguments. -/
abbrev Parse := Except Interruption

/-- What has come but is not looked at yet. -/
inductive Pending
  | nothing
  /-- An option, and its value once that has come. -/
  | option (o : OptionSpec) (value : Option String)
  | place (kind : ValueKind) (value : String)
  deriving DecidableEq

/-- What has been given at some words. -/
structure Level where
  words : List String
  spec : CommandSpec
  /-- The options, each with its value or an empty text. -/
  options : List (String × String) := []
  values : List String := []
  pending : Pending := .nothing
  deriving DecidableEq

/-- The number of a user. -/
def readUserId? (s : String) : Option UInt32 :=
  (Text.readInt? 0 (UInt32.size - 1) s.toList).map fun n => UInt32.ofNat n.toNat

/-- Whether a value can be in a place. -/
def ValueKind.accepts : ValueKind → String → Bool
  | .text, _ => true
  | .userId, s => (readUserId? s).isSome

namespace Level

/-- Whether an option has been given. -/
def has (l : Level) (o : OptionSpec) : Bool := l.options.any (·.1 == o.long)

/-- An option has been given with a value. Only counted ones are given twice. -/
def put (l : Level) (o : OptionSpec) (value : String) : Parse Level :=
  if o.effect != .counter && l.has o then .error .usage
  else .ok { l with options := l.options ++ [(o.long, value)] }

/-- An option has been given with a value of its own. -/
def putValue (l : Level) (o : OptionSpec) (value : String) : Parse Level :=
  if value = "" then .error .usage else l.put o value

/-- What has come is looked at. -/
def resolve (l : Level) : Parse Level :=
  let rest := { l with pending := .nothing }
  match l.pending with
  | .nothing => .ok l
  | .option _ none => .error .usage
  | .option o (some value) => rest.putValue o value
  | .place kind value =>
    if kind.accepts value then .ok { rest with values := l.values ++ [value] } else .error .usage

/-- An option comes, with a value if one is attached to it. -/
def takeOption (l : Level) (o : OptionSpec) (attached : Option String) : Parse Level := do
  let l ← l.resolve
  match o.effect, attached with
  | .value, some value => l.putValue o value
  | .value, none => return { l with pending := .option o none }
  | _, some _ => .error .usage
  | .help, none => .error (.help l.words)
  | .version, none => .error .version
  | .flag, none | .counter, none => l.put o ""

/-- What comes after two hyphens: the name of an option, and after an equals sign its value. -/
def takeLong (l : Level) (cs : List Char) : Parse Level :=
  let name := String.ofList (cs.takeWhile (· != '='))
  let attached := match cs.dropWhile (· != '=') with
    | [] => none
    | _ :: value => some (String.ofList value)
  match l.spec.options.find? (·.long == name) with
  | some o => l.takeOption o attached
  | none => .error .usage

/-- The value that is attached to a short option. -/
def attachedTo : List Char → Option String
  | [] => none
  | '=' :: value => some (String.ofList value)
  | value => some (String.ofList value)

/-- What comes after a single hyphen: short options, the last of them perhaps with its value. -/
def takeShort (l : Level) : List Char → Parse Level
  | [] => .ok l
  | c :: cs =>
    match l.spec.options.find? (·.short == some c) with
    | none => .error .usage
    | some o =>
      if o.effect = .value then l.takeOption o (attachedTo cs)
      else
        match l.takeOption o none with
        | .ok l => l.takeShort cs
        | .error e => .error e

/-- How many places are taken. -/
def placesTaken (l : Level) : Nat :=
  match l.pending with
  | .place .. => l.values.length + 1
  | _ => l.values.length

/-- A value comes into the next place. -/
def takePlace (l : Level) (value : String) : Parse Level :=
  match l.spec.places[l.placesTaken]? with
  | some place => do return { (← l.resolve) with pending := .place place.kind value }
  | none => .error .usage

/-- Whether an option still lacks its value. -/
def awaitsValue (l : Level) : Bool :=
  match l.pending with
  | .option _ none => true
  | _ => false

/-- A value comes: for the option that lacks one, or into the next place. -/
def takeValue (l : Level) (value : String) : Parse Level :=
  match l.pending with
  | .option o none => .ok { l with pending := .option o (some value) }
  | _ => l.takePlace value

/-- Nothing more comes: all places have to be taken, and no further word may be missing. -/
def close (l : Level) : Parse Level := do
  let l ← l.resolve
  if l.values.length = l.spec.places.length && l.spec.subcommands.isEmpty then return l
  else .error .usage

end Level

/-- What asking for help about some words comes to. -/
def helpAbout (words : List String) : List String → Interruption
  | [] => .help words
  | a :: as =>
    if ((specAt? words).map (·.subcommands)).getD [] |>.contains a then helpAbout (words ++ [a]) as
    else .usage

/-- The levels that arguments make, the innermost first. Those `above` are looked at again at the
end. -/
def parseLevels (above : List Level) : (isTrailing : Bool) → Level → List String → Parse (List Level)
  | _, l, [] => do
    let l ← l.close
    return l :: (← above.mapM Level.resolve)
  | true, l, a :: as => do parseLevels above true (← l.takePlace a) as
  | false, l, a :: as =>
    if !l.awaitsValue && l.spec.subcommands.contains a then
      match if a = helpWord then none else specAt? (l.words ++ [a]) with
      | some spec => parseLevels (l :: above) false { words := l.words ++ [a], spec } as
      | none => .error (helpAbout l.words (if a = helpWord then as else [a]))
    else
      match a.toList with
      | ['-', '-'] => parseLevels above true l as
      | '-' :: '-' :: cs => do parseLevels above false (← l.takeLong cs) as
      | '-' :: c :: cs => do parseLevels above false (← l.takeShort (c :: cs)) as
      | _ => do parseLevels above false (← l.takeValue a) as

end Cli
end EfsControl
