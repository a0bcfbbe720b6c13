import NameDirectory.Context
import NameDirectory.Text.Numeral

/-!
# The shell

A line is a command word and its arguments between blanks; the value of a binding
is the rest of the line.  A script is read line by line after a prompt, until it
ends, the exit command comes, or the reading fails.
-/

namespace NameDirectory.Shell

/-- The object that a typed value stands for. -/
def parseObject (s : String) : Object :=
  if s = "true" then .bool true
  else if s = "false" then .bool false
  else if s = "null" then .null
  else match Text.integer? s, (Text.dropStart "@" s).filter (!·.isEmpty) with
    | some i, _ => .integer i
    | none, some target => .link (Name.parse target)
    | none, none => .text s

inductive Command where
  | exit
  | lookup (n : Name)
  | link (n : Name)
  | bind (n : Name) (o : Object)
  | rebind (n : Name) (o : Object)
  | unbind (n : Name)
  | rename (n m : Name)
  | list (n : Name)
  | bindings (n : Name)
  | makeContext (n : Name)
  | removeContext (n : Name)
  deriving DecidableEq, Repr

namespace Command

def word : Command → String
  | exit => "exit"
  | lookup _ => "lookup"
  | link _ => "link"
  | bind .. => "bind"
  | rebind .. => "rebind"
  | unbind _ => "unbind"
  | rename .. => "rename"
  | list _ => "list"
  | bindings _ => "bindings"
  | makeContext _ => "mkctx"
  | removeContext _ => "rmctx"

def names : Command → List Name
  | exit => []
  | lookup n | link n | bind n _ | rebind n _ | unbind n | list n | bindings n | makeContext n
  | removeContext n => [n]
  | rename n m => [n, m]

def object? : Command → Option Object
  | bind _ o | rebind _ o => some o
  | _ => none

end Command

inductive Fault where
  | unrecognized (word : String)
  | badArguments (word usage : String)
  | stream (fault : StreamFault)
  | empty
  deriving DecidableEq, Repr

def Fault.message : Fault → String
  | unrecognized word => "unrecognized command '" ++ word ++ "'"
  | badArguments word usage => "invalid '" ++ word ++ "' command, usage: " ++ usage
  | stream fault => "failed to read command: " ++ fault.message
  | empty => "no command provided"

/-! ## Lines -/

def cutBlank (s : String) : Option (String × String) :=
  let (before, after) := s.toList.span (!Text.isBlank ·)
  match after with
  | [] => none
  | _ :: after => some (String.ofList before, String.ofList after)

def oneName : List String → Option Name
  | [n] => some (Name.parse n)
  | _ => none

/-- At most one argument, as a name; the root if there is none. -/
def optionalName : List String → Option Name
  | [] => some Name.root
  | args => oneName args

def twoNames : List String → Option (Name × Name)
  | [n, m] => some (Name.parse n, Name.parse m)
  | _ => none

/-- A name and the value that is the rest of the text. -/
def binding (rest : String) : Option (Name × Object) := do
  let (n, value) ← cutBlank rest
  let value := Text.trim value
  if value.isEmpty then none else some (Name.parse n, parseObject value)

/-- How a command is used, and the command that the rest of the line makes of it, if any. -/
def understand (word rest : String) : Option (String × Option Command) :=
  let args := Text.words rest
  match word with
  | "lookup" => some ("lookup <name>", (oneName args).map .lookup)
  | "link" => some ("link <name>", (oneName args).map .link)
  | "bind" => some ("bind <name> <value>", (binding rest).map fun (n, o) => .bind n o)
  | "rebind" => some ("rebind <name> <value>", (binding rest).map fun (n, o) => .rebind n o)
  | "unbind" => some ("unbind <name>", (oneName args).map .unbind)
  | "rename" => some ("rename <name> <new name>", (twoNames args).map fun (n, m) => .rename n m)
  | "list" => some ("list [name]", (optionalName args).map .list)
  | "bindings" => some ("bindings [name]", (optionalName args).map .bindings)
  | "mkctx" => some ("mkctx <name>", (oneName args).map .makeContext)
  | "rmctx" => some ("rmctx <name>", (oneName args).map .removeContext)
  | _ => none

def parse (line : String) : Except Fault Command :=
  let line := Text.trim line
  let (word, rest) := match cutBlank line with
    | some (word, rest) => (word, Text.trim rest)
    | none => (line, "")
  if word.isEmpty then .error .empty
  else if word = ".exit" then .ok .exit
  else match understand word rest with
    | none => .error (.unrecognized word)
    | some (_, some c) => .ok c
    | some (usage, none) => .error (.badArguments word usage)

/-! ## Prompting -/

/-- A line of bytes with its line feed, and what follows; none at the end. -/
def nextLine (input : Bytes) : Option (Bytes × Bytes) :=
  match input.span (· ≠ 10) with
  | ([], []) => none
  | (line, []) => some (line, [])
  | (line, feed :: rest) => some (line ++ [feed], rest)

/-- Read one command; the end of the input stands for the exit command. -/
def readCommand (input : Bytes) : Except Fault Command × Bytes :=
  match nextLine input with
  | none => (.ok .exit, [])
  | some (line, rest) =>
    match Text.ofUtf8 line with
    | .ok line => (parse line, rest)
    | .error _ => (.error (.stream .notText), rest)

def promptText : String := "> "

def isLast : Except Fault Command → Bool
  | .ok .exit => true
  | .error (.stream _) => true
  | _ => false

/-- How showing the prompt may fail. -/
inductive Screen where
  | working
  | writeFails (fault : StreamFault)
  | flushFails (fault : StreamFault)
  deriving DecidableEq, Repr

structure Prompting where
  commands : List (Except Fault Command)
  shown : String
  rest : Bytes

/-- Prompt and read until the last command. -/
def prompts (screen : Screen) (input : Bytes) : Prompting :=
  match screen with
  | .writeFails fault => ⟨[.error (.stream fault)], "", input⟩
  | .flushFails fault => ⟨[.error (.stream fault)], promptText, input⟩
  | .working => go (input.length + 1) [] "" input
where
  go : Nat → List (Except Fault Command) → String → Bytes → Prompting
    | 0, done, shown, input => ⟨done.reverse, shown, input⟩
    | fuel + 1, done, shown, input =>
      let (c, rest) := readCommand input
      let shown := shown ++ promptText
      if isLast c then ⟨(c :: done).reverse, shown, rest⟩ else go fuel (c :: done) shown rest

/-! ## Running commands -/

def Command.request? : Command → Option Request
  | exit => none
  | lookup n => some (.lookup n)
  | link n => some (.lookupLink n)
  | bind n o => some (.bind n o)
  | rebind n o => some (.rebind n o)
  | unbind n => some (.unbind n)
  | rename n m => some (.rename n m)
  | list n => some (.list n)
  | bindings n => some (.listBindings n)
  | makeContext n => some (.createSubcontext n)
  | removeContext n => some (.destroySubcontext n)

def showEntry : Entry → String
  | .object o => o.print
  | .context n => "context '" ++ n.text ++ "'"

def show? : Command → Reply → Option String
  | .lookup _, .entry e | .link _, .entry e => some (showEntry e)
  | .list _, .pairs items =>
    some ("\n".intercalate (items.map fun p => p.name ++ ": " ++ p.className))
  | .bindings _, .bindings items =>
    some ("\n".intercalate (items.map fun b =>
      b.name ++ ": " ++ b.className ++ " = " ++ showEntry b.value))
  | _, _ => none

/-- What is printed for a command's reply; nothing if that would be empty. -/
def output? (c : Command) (reply : Reply) : Option String := (show? c reply).filter (!·.isEmpty)

def Command.run {σ : Type} (serve : Request → σ → Except ClientFault Reply × σ) (c : Command)
    (w : σ) : Except ClientFault (Option String) × σ :=
  match c.request? with
  | none => (.ok none, w)
  | some r =>
    let (reply, w) := serve r w
    (reply.map (output? c), w)

end NameDirectory.Shell
