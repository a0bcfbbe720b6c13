import NameDirectory.SocketAddress

/-!
# Command lines

A program's options are named by two dashes, and take their value behind an equals
sign or from the next argument.  An argument is judged when the next one comes, so an
unknown option hides an earlier one's bad value.  After two dashes alone no argument
is an option.
-/

namespace NameDirectory.Arguments

inductive Refusal where
  | help
  | version
  | unknownArgument
  | noValue
  | badValue
  | surplusValue
  | repeated
  | missing
  deriving DecidableEq, Repr

inductive Use where
  | flag
  /-- With one value, at most once. -/
  | once
  /-- With one value each time. -/
  | often
  | help
  | version
  deriving DecidableEq, Repr

structure Parameter where
  name : String
  use : Use
  check : String → Option Refusal := fun _ => none

structure Grammar where
  options : List Parameter
  positional : Option Parameter := none

def common : List (Char × Parameter) :=
  [('h', ⟨"help", .help, fun _ => none⟩), ('V', ⟨"version", .version, fun _ => none⟩)]

def Grammar.find? (g : Grammar) (name : String) : Option Parameter :=
  (g.options ++ common.map (·.2)).find? (·.name = name)

/-! ## Single arguments -/

inductive Token where
  | escape
  | long (name : String) (value : Option String)
  | short (letters : List Char)
  | plain (text : String)
  deriving DecidableEq, Repr

def Token.of (s : String) : Token :=
  match s.toList with
  | ['-', '-'] => .escape
  | '-' :: '-' :: rest =>
    match Text.splitFirst "=" (String.ofList rest) with
    | some (name, value) => .long name (some value)
    | none => .long (String.ofList rest) none
  | '-' :: letter :: letters => .short (letter :: letters)
  | _ => .plain s

/-! ## Reading from left to right -/

/-- A parameter that is not judged yet. -/
structure Pending where
  parameter : Parameter
  value : Option String

structure Reading where
  /-- Values by parameter name, in order. -/
  given : List (String × String) := []
  pending : Option Pending := none

namespace Reading

def has (r : Reading) (name : String) : Bool := r.given.any (·.1 = name)

def take (r : Reading) (p : Parameter) (value : Option String) : Except Refusal Reading :=
  match p.use, value with
  | .help, _ => .error .help
  | .version, _ => .error .version
  | .flag, _ =>
    if r.has p.name then .error .repeated else .ok { r with given := r.given ++ [(p.name, "")] }
  | _, none => .error .noValue
  | use, some v =>
    if use = .once && r.has p.name then .error .repeated
    else match p.check v with
      | some refusal => .error refusal
      | none => .ok { r with given := r.given ++ [(p.name, v)] }

/-- Judge what is pending. -/
def settle (r : Reading) : Except Refusal Reading :=
  match r.pending with
  | none => .ok r
  | some p => { r with pending := none }.take p.parameter p.value

def long (g : Grammar) (name : String) (value : Option String) (r : Reading) :
    Except Refusal Reading :=
  match g.find? name with
  | none => .error .unknownArgument
  | some p =>
    let takesValue := p.use = .once || p.use = .often
    if takesValue then do
      let r ← r.settle
      match value with
      | some _ => r.take p value
      | none => return { r with pending := some ⟨p, none⟩ }
    else if value.isSome then .error .surplusValue
    else r.settle.bind (·.take p none)

def short (letters : List Char) (r : Reading) : Except Refusal Reading :=
  letters.foldlM (fun r letter =>
    match common.find? (·.1 = letter) with
    | none => .error .unknownArgument
    | some (_, p) => r.settle.bind (·.take p none)) r

def positional (g : Grammar) (text : String) (r : Reading) : Except Refusal Reading :=
  match g.positional with
  | none => .error .unknownArgument
  | some p =>
    if r.has p.name || r.pending.any (·.parameter.name = p.name) then .error .unknownArgument
    else do
      let r ← r.settle
      return { r with pending := some ⟨p, some text⟩ }

/-- An argument that is no option: the value that is waited for, if one is. -/
def plain (g : Grammar) (text : String) (r : Reading) : Except Refusal Reading :=
  match r.pending with
  | some ⟨p, none⟩ => .ok { r with pending := some ⟨p, some text⟩ }
  | _ => r.positional g text

/-- All arguments; after an escape none is an option. -/
def all (g : Grammar) : Bool → List String → Reading → Except Refusal Reading
  | _, [], r => r.settle
  | true, text :: rest, r => do all g true rest (← r.positional g text)
  | false, text :: rest, r =>
    match Token.of text with
    | .escape => all g true rest r
    | .long name value => do all g false rest (← r.long g name value)
    | .short letters => do all g false rest (← r.short letters)
    | .plain text => do all g false rest (← r.plain g text)

def values (r : Reading) (name : String) : List String :=
  (r.given.filter (·.1 = name)).map (·.2)

def value? (r : Reading) (name : String) : Option String := (r.values name).head?

end Reading

def Grammar.read (g : Grammar) (args : List String) : Except Refusal Reading :=
  Reading.all g false args {}

/-- Refuse values of which `read` makes nothing. -/
def reads {α : Type} (read : String → Option α) (v : String) : Option Refusal :=
  if (read v).isNone then some .badValue else none

/-! ## The shell's command line -/

structure Shell where
  /-- The servers, before those of the properties. -/
  url : Option String
  /-- The path of a properties file; there is one if there is no url. -/
  properties : Option String
  user : Option (String × String)
  /-- How long a request may take, in milliseconds. -/
  timeout : Option Nat
  random : Bool
  deriving DecidableEq, Repr

def shellGrammar : Grammar where
  options := [
    { name := "url", use := .once },
    { name := "properties", use := .once,
      check := fun v => if v.isEmpty then some .noValue else none },
    { name := "user", use := .once },
    { name := "password", use := .once },
    { name := "timeout", use := .once, check := reads Text.word64? },
    { name := "random", use := .flag }]

def Shell.parse (args : List String) : Except Refusal Shell := do
  let r ← shellGrammar.read args
  let user := r.value? "user"
  let password := r.value? "password"
  if r.has "url" || r.has "properties" then pure () else throw .missing
  if password.isSome && user.isNone then throw .missing
  return { url := r.value? "url"
           properties := r.value? "properties"
           user := user.map fun u => (u, password.getD "")
           timeout := (r.value? "timeout").bind Text.word64?
           random := r.has "random" }

/-! ## The server's command line -/

structure Server where
  address : SocketAddress
  bindings : List String
  users : List String
  workers : Nat
  deriving DecidableEq, Repr

def serverGrammar : Grammar where
  options := [
    { name := "bind", use := .often },
    { name := "user", use := .often },
    { name := "workers", use := .once, check := reads Text.word64? }]
  positional := some
    { name := "address", use := .once, check := reads SocketAddress.parse? }

def Server.parse (args : List String) : Except Refusal Server := do
  let r ← serverGrammar.read args
  match (r.value? "address").bind SocketAddress.parse? with
  | none => throw .missing
  | some address =>
    return { address, bindings := r.values "bind", users := r.values "user",
             workers := ((r.value? "workers").bind Text.word64?).getD 8 }

end NameDirectory.Arguments
