import Reckoner.Text.Whole

/-!
Command lines: the commands of the calculator with their options and arguments.
-/

namespace Reckoner.Terminal
open Text

inductive Command where
  | version
  | help
  | evaluate (expression : String) (withTree : Bool)
  | tokens (expression : String)
  | tree (expression : String) (asJson : Bool)
  | serve (host : Option String) (port : Option Int) (reload : Bool)
deriving DecidableEq

structure Spec where
  name : String
  takesValue : Bool
deriving DecidableEq

/-- The options of a command: the words that stand for them, and for each its long name. -/
abbrev Grammar := List (String × Spec)

structure Arguments where
  options : List (String × String)
  operands : List String
deriving DecidableEq

namespace Arguments

def isOption (arg : String) : Bool :=
  match arg.toList with
  | '-' :: _ :: _ => true
  | _ => false

def isLong (arg : String) : Bool :=
  match arg.toList with
  | '-' :: '-' :: _ => true
  | _ => false

def addOption (name value : String) (a : Arguments) : Arguments :=
  { a with options := (name, value) :: a.options }

def addOperand (s : String) (a : Arguments) : Arguments :=
  { a with operands := s :: a.operands }

/-- A long option with what follows an equals sign in it. -/
def splitValue (arg : String) : String × Option String :=
  let cs := arg.toList
  (String.ofList (cs.takeWhile (· != '=')),
    if cs.contains '=' then some (String.ofList ((cs.dropWhile (· != '=')).drop 1)) else none)

/-- Short options in one word: switches, and perhaps at last an option whose value is the rest of
the word, or the next argument if the word ends with it. -/
def ofShort (g : Grammar) : List Char → Option (List (String × String) × Option String)
  | [] => some ([], none)
  | c :: cs =>
    match g.lookup ("-" ++ c.toString) with
    | none => none
    | some spec =>
      if spec.takesValue then
        if cs.isEmpty then some ([], some spec.name)
        else some ([(spec.name, String.ofList cs)], none)
      else (ofShort g cs).map fun (os, open?) => ((spec.name, "") :: os, open?)

/-- The options in one argument, and the option that waits for the next argument as its value. -/
def ofWord (g : Grammar) (arg : String) : Option (List (String × String) × Option String) :=
  let (name, value) := splitValue arg
  if isLong arg then
    match g.lookup name, value with
    | some spec, some v => if spec.takesValue then some ([(spec.name, v)], none) else none
    | some spec, none =>
      if spec.takesValue then some ([], some spec.name) else some ([(spec.name, "")], none)
    | none, _ => none
  else ofShort g (arg.toList.drop 1)

def addOptions (os : List (String × String)) (a : Arguments) : Arguments :=
  { a with options := os ++ a.options }

/-- Reads arguments; behind `--` nothing is an option. With `leading`, options end at the first
operand. `open?` names an option that takes the next argument. -/
def read (g : Grammar) (leading : Bool) : Option String → List String → Option Arguments
  | some _, [] => none
  | none, [] => some ⟨[], []⟩
  | some name, arg :: args => (read g leading none args).map (·.addOption name arg)
  | none, arg :: args =>
    if arg = "--" then some ⟨[], args⟩
    else if isOption arg then
      match ofWord g arg with
      | none => none
      | some (os, open?) => (read g leading open? args).map (·.addOptions os)
    else if leading then some ⟨[], arg :: args⟩
    else (read g leading none args).map (·.addOperand arg)

def has (name : String) (a : Arguments) : Bool :=
  a.options.any (·.1 == name)

def value? (name : String) (a : Arguments) : Option String :=
  a.options.reverse.lookup name

end Arguments

namespace Command

def switch (name : String) : String × Spec :=
  ("--" ++ name, ⟨name, false⟩)

def mainGrammar : Grammar :=
  [switch "version", ("-v", ⟨"version", false⟩), switch "help"]

def evaluateGrammar : Grammar :=
  [switch "ast", switch "help"]

def tokensGrammar : Grammar :=
  [switch "help"]

def treeGrammar : Grammar :=
  [switch "json", switch "help"]

def serveGrammar : Grammar :=
  [("--host", ⟨"host", true⟩), ("--port", ⟨"port", true⟩), ("-p", ⟨"port", true⟩),
    switch "reload", switch "help"]

def withOperand (g : Grammar) (make : String → Arguments → Command) (args : List String) :
    Option Command :=
  (Arguments.read g false none args).bind fun a =>
    if a.has "help" then some .help
    else
      match a.operands with
      | [expression] => some (make expression a)
      | _ => none

def ofServe (args : List String) : Option Command :=
  (Arguments.read serveGrammar false none args).bind fun a =>
    if a.has "help" then some .help
    else if a.operands ≠ [] then none
    else
      match a.value? "port" with
      | none => some (.serve (a.value? "host") none (a.has "reload"))
      | some s =>
        (Whole.ofText s).toOption.map fun port =>
          .serve (a.value? "host") port (a.has "reload")

def ofNamed (name : String) (args : List String) : Option Command :=
  if name = "eval" then withOperand evaluateGrammar (fun e a => .evaluate e (a.has "ast")) args
  else if name = "tokens" then withOperand tokensGrammar (fun e _ => .tokens e) args
  else if name = "ast" then withOperand treeGrammar (fun e a => .tree e (a.has "json")) args
  else if name = "serve" then ofServe args
  else none

def ofArgs (args : List String) : Option Command :=
  (Arguments.read mainGrammar true none args).bind fun a =>
    match a.options with
    | (name, _) :: _ => some (if name = "version" then .version else .help)
    | [] =>
      match a.operands with
      | name :: rest => ofNamed name rest
      | [] => none

end Command
end Reckoner.Terminal
