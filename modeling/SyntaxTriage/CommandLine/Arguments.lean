import SyntaxTriage.Text.Quoted
import SyntaxTriage.Text.Word

/-!
Arguments sorted into options and what stands between them. A double-dash option may be shortened
as long as it stays unambiguous, and its value may follow an equals sign. Single-dash options that
take no value may be written together, with or without an equals sign behind the first. Behind a
bare double dash there are no options.
-/

namespace SyntaxTriage.CommandLine

structure Flag where
  names : List String
  takesValue : Bool
  deriving DecidableEq

namespace Flag

def label (f : Flag) : String := "/".intercalate f.names

end Flag

structure OptionUse where
  /-- The option; there is none of that name if this is missing. -/
  flag : Option Flag
  /-- The argument as it was given. -/
  argument : String
  /-- The name that the option was recognised by. -/
  name : String
  /-- What follows the name in the same argument, without an equals sign that ends the name. -/
  attached : Option String

inductive Word where
  | option (use : OptionUse)
  | argument (text : String)
  /-- The bare double dash. -/
  | separator

namespace Word

def text : Word → String
  | option use => use.argument
  | argument text => text
  | separator => "--"

def isOption : Word → Bool
  | option _ => true
  | _ => false

end Word

inductive ArgumentError where
  | ambiguous (argument : String) (names : List String)
  | unused (flag : Flag) (value : String)
  | noValue (flag : Flag)

def ArgumentError.message : ArgumentError → String
  | ambiguous argument names =>
    "ambiguous option: " ++ argument ++ " could match " ++ ", ".intercalate names
  | unused flag value =>
    "argument " ++ flag.label ++ ": ignored explicit argument " ++ Text.quoted value
  | noValue flag => "argument " ++ flag.label ++ ": expected one argument"

def flagNames (flags : List Flag) : List (String × Flag) :=
  flags.flatMap fun f => f.names.map (·, f)

/-- The text before and behind the first equals sign, if there is one. -/
def splitEquals (argument : List Char) : List Char × Option (List Char) :=
  (argument.takeWhile (· ≠ '='),
    match argument.dropWhile (· ≠ '=') with
    | _ :: rest => some rest
    | [] => none)

/-- Whether an argument reads as a negative number; one line break may follow it. -/
def isNegativeNumber : List Char → Bool
  | '-' :: rest =>
    let rest := if rest.getLast? = some '\n' then rest.dropLast else rest
    match rest.dropWhile Text.isDecimal with
    | [] => !rest.isEmpty
    | '.' :: digits => !digits.isEmpty && digits.all Text.isDecimal
    | _ => false
  | _ => false

def matchingOptions (flags : List Flag) (argument : String) : List OptionUse :=
  let cs := argument.toList
  (flagNames flags).filterMap fun (name, flag) =>
    if cs.take 2 = ['-', '-'] then
      let (start, attached) := splitEquals cs
      if start.isPrefixOf name.toList then
        some ⟨some flag, argument, name, attached.map String.ofList⟩
      else none
    else if name.toList = cs.take 2 then
      some ⟨some flag, argument, name, some (String.ofList (cs.drop 2))⟩
    else if cs.isPrefixOf name.toList then some ⟨some flag, argument, name, none⟩
    else none

/-- What an argument in front of any bare double dash is. -/
def wordOf (flags : List Flag) (argument : String) : Except ArgumentError Word :=
  let cs := argument.toList
  if cs.head? ≠ some '-' then .ok (.argument argument)
  else match (flagNames flags).lookup argument with
    | some flag => .ok (.option ⟨some flag, argument, argument, none⟩)
    | none =>
      if cs.length = 1 then .ok (.argument argument)
      else
        let (start, attached) := splitEquals cs
        match attached, (flagNames flags).lookup (String.ofList start) with
        | some value, some flag =>
          .ok (.option ⟨some flag, argument, String.ofList start, some (String.ofList value)⟩)
        | _, _ =>
          match matchingOptions flags argument with
          | [use] => .ok (.option use)
          | [] =>
            if isNegativeNumber cs ∨ ' ' ∈ cs then .ok (.argument argument)
            else .ok (.option ⟨none, argument, argument, none⟩)
          | uses => .error (.ambiguous argument (uses.map OptionUse.name))

def words (flags : List Flag) : List String → Except ArgumentError (List Word)
  | [] => .ok []
  | argument :: rest =>
    if argument = "--" then .ok (.separator :: rest.map .argument)
    else do
      let word ← wordOf flags argument
      return word :: (← words flags rest)

structure OptionStep where
  /-- The options in the order given, each with its value. -/
  given : List (Flag × Option String)
  /-- What no option explains. -/
  unknown : List String
  /-- The words behind. -/
  rest : List Word

def readBare (flag : Flag) (given : List (Flag × Option String)) (rest : List Word) :
    Except ArgumentError OptionStep :=
  if flag.takesValue then
    match rest with
    | .argument value :: rest => .ok ⟨given ++ [(flag, some value)], [], rest⟩
    | _ => .error (.noValue flag)
  else .ok ⟨given ++ [(flag, none)], [], rest⟩

/-- The value that a text attached to an option gives. The bare double dash gives none. -/
def attachedValue (attached : String) : Option String :=
  if attached = "--" then none else some attached

/-- An option with a text attached to it: its value, or behind a single dash the letters of further
options. A letter that is no option leaves the text unused. -/
def readAttached (flags : List Flag) (flag : Flag) (singleDash : Bool)
    (given : List (Flag × Option String)) (rest : List Word) :
    (attached : List Char) → Except ArgumentError OptionStep
  | [] => if flag.takesValue then .ok ⟨given ++ [(flag, some "")], [], rest⟩
    else .error (.unused flag "")
  | c :: tail =>
    let attached := String.ofList (c :: tail)
    if flag.takesValue then .ok ⟨given ++ [(flag, attachedValue attached)], [], rest⟩
    else
      let next := if singleDash then (flagNames flags).lookup (String.ofList ['-', c]) else none
      match next with
      | none => .error (.unused flag attached)
      | some next =>
        let given := given ++ [(flag, none)]
        if tail.isEmpty then readBare next given rest
        else readAttached flags next true given rest tail

def readOption (flags : List Flag) (use : OptionUse) (rest : List Word) :
    Except ArgumentError OptionStep :=
  match use.flag, use.attached with
  | none, _ => .ok ⟨[], [use.argument], rest⟩
  | some flag, none => readBare flag [] rest
  | some flag, some attached =>
    readAttached flags flag (use.name.toList.take 2 ≠ ['-', '-']) [] rest attached.toList

inductive Positional where
  /-- One argument. -/
  | single
  /-- One argument and all words behind it. -/
  | remainder

/-- The words that the positional argument takes, and the words behind them. A bare double dash
before it, or behind a single one, is taken along. -/
def Positional.take? : Positional → List Word → Option (List Word × List Word)
  | single, .separator :: .argument text :: rest => some ([.separator, .argument text], rest)
  | single, .argument text :: .separator :: rest => some ([.argument text, .separator], rest)
  | single, .argument text :: rest => some ([.argument text], rest)
  | remainder, .separator :: .argument text :: rest => some (.separator :: .argument text :: rest, [])
  | remainder, .argument text :: rest => some (.argument text :: rest, [])
  | _, _ => none

inductive Found where
  | option (flag : Flag) (value : Option String)
  | positional (arguments : List String)

structure Reading where
  found : List Found
  unknown : List String
  error : Option ArgumentError

def Reading.before (found : List Found) (unknown : List String) (r : Reading) : Reading :=
  { r with found := found ++ r.found, unknown := unknown ++ r.unknown }

/-- Reads the words; `positional` is the argument still to be found, and `fuel` bounds the steps. -/
def readWords (flags : List Flag) : (fuel : Nat) → (positional : Option Positional) →
    List Word → Reading
  | 0, _, _ => ⟨[], [], none⟩
  | _, _, [] => ⟨[], [], none⟩
  | fuel + 1, positional, .option use :: rest =>
    match readOption flags use rest with
    | .error e => ⟨[], [], some e⟩
    | .ok step =>
      (readWords flags fuel positional step.rest).before
        (step.given.map fun (flag, value) => .option flag value) step.unknown
  | fuel + 1, positional, words =>
    match positional.bind (·.take? words) with
    | some (taken, rest) =>
      (readWords flags fuel none rest).before [.positional (taken.map Word.text)] []
    | none =>
      let skipped := words.takeWhile (!·.isOption)
      (readWords flags fuel positional (words.drop skipped.length)).before []
        (skipped.map Word.text)

def readArguments (flags : List Flag) (positional : Positional) (arguments : List String) :
    Reading :=
  match words flags arguments with
  | .error e => ⟨[], [], some e⟩
  | .ok words => readWords flags (words.length + 1) (some positional) words

end SyntaxTriage.CommandLine
